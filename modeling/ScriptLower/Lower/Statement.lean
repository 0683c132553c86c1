import ScriptLower.Lower.Expression
import ScriptLower.Lower.Module

/-!
# Statements

A statement becomes one statement, several or none. Declarations of types become none; an
enumeration becomes two. A statement whose test was named as a condition to strip becomes its
second branch.
-/

namespace ScriptLower.Lower

open ScriptLower

/-- A declaration of variables. -/
def lowerVariables (g : Rules) (n : Node) : LowerM Node := do
  let decls ← n.kids.mapM fun d => do
    let binding ← g.pattern false (d.kid 0)
    let init ← lowerOptional g (d.kid 1)
    return like d [binding, init]
  return like n decls

/-- A statement where exactly one is expected. -/
def lowerSingle (g : Rules) (n : Node) : LowerM Node := do
  if n.isAbsent then return .absent
  match ← g.stmt n with
  | [] => return .new .empty n.span []
  | [s] => return s
  | ss => return .new .block n.span ss

/-- A block. -/
def lowerBlock (g : Rules) (n : Node) : LowerM Node := return like n (← lowerList g n.kids)

/-- A loop head that declares variables, or something else. -/
def lowerLoopHead (g : Rules) (n : Node) (other : LowerM Node) : LowerM Node :=
  if n.kind == .varDecl then lowerVariables g n else other

/-- A branch of a selection by value. -/
def lowerCase (g : Rules) (n : Node) : LowerM Node := do
  let test ← lowerOptional g (n.kid 0)
  let stmts ← lowerList g (n.kids.drop 1)
  return like n (test :: stmts)

mutual

/-- A statement that becomes exactly one. -/
def lowerSimple (g : Rules) : Node → LowerM Node
  | .absent => return .absent
  | .mk h ks ds t a x => do
    let n := Node.mk h ks ds t a x
    match h.kind with
    | .exprStmt => return like n [← g.expr (n.kid 0)]
    | .block => lowerBlock g n
    | .empty | .debugger => return leaf n
    | .forStmt =>
      let init ← lowerLoopHead g (n.kid 0) (lowerOptional g (n.kid 0))
      let test ← lowerOptional g (n.kid 1)
      let update ← lowerOptional g (n.kid 2)
      return like n [init, test, update, ← lowerSingle g (n.kid 3)]
    | .forIn | .forOf =>
      let left ← lowerLoopHead g (n.kid 0) (g.pattern true (n.kid 0))
      let right ← g.expr (n.kid 1)
      return like n [left, right, ← lowerSingle g (n.kid 2)]
    | .whileStmt | .withStmt =>
      let test ← g.expr (n.kid 0)
      return like n [test, ← lowerSingle g (n.kid 1)]
    | .doWhile =>
      let body ← lowerSingle g (n.kid 0)
      return like n [body, ← g.expr (n.kid 1)]
    | .returnStmt | .throwStmt => return like n [← lowerOptional g (n.kid 0)]
    | .breakStmt | .continueStmt => return like n [leaf? (n.kid 0)]
    | .tryStmt =>
      let body ← lowerSimpleAt g 0 ks
      let handler ← lowerHandlerAt g 1 ks
      return like n [body, handler, ← lowerSimpleAt g 2 ks]
    | .switchStmt =>
      let value ← g.expr (n.kid 0)
      let cases ← (n.kids.drop 1).mapM (lowerCase g)
      return like n (value :: cases)
    | .labeled => return like n [leaf (n.kid 0), ← lowerSingle g (n.kid 1)]
    | k =>
      errorAt h.span .unknownNode ("unexpected " ++ k.name ++ " in statement position")
      return .new .empty h.span []

/-- The statement at a place. -/
def lowerSimpleAt (g : Rules) : Nat → List Node → LowerM Node
  | _, [] => return .absent
  | 0, n :: _ => lowerSimple g n
  | i + 1, _ :: r => lowerSimpleAt g i r

/-- The handler at a place. Where the target needs a binding, one is made up. -/
def lowerHandlerAt (g : Rules) : Nat → List Node → LowerM Node
  | _, [] => return .absent
  | i + 1, _ :: r => lowerHandlerAt g i r
  | 0, .absent :: _ => return .absent
  | 0, .mk h ks ds t a x :: _ => do
    let n := Node.mk h ks ds t a x
    let param ←
      if (n.kid 0).isPresent then g.pattern false (n.kid 0)
      else if ← targetBefore .es2019 then ref (← fresh "_unused")
      else pure .absent
    return like n [param, ← lowerSimpleAt g 1 ks]

end

/-- Whether a test is one whose statement is dropped. -/
def isStripped (test : Node) : LowerM Bool :=
  return (← read).conditionals.any fun c => test.same c.test

/-- A conditional statement. -/
def lowerIf (g : Rules) (n : Node) : LowerM (List Node) := do
  if ← isStripped (n.kid 0) then
    if (n.kid 2).isAbsent then return [] else g.stmt (n.kid 2)
  else
    let test ← g.expr (n.kid 0)
    let yes ← lowerSingle g (n.kid 1)
    return [like n [test, yes, ← lowerSingle g (n.kid 2)]]

/-- A statement. -/
def lowerStmt (g : Rules) (n : Node) : LowerM (List Node) := do
  match n.kind with
  | .interfaceDecl | .typeAlias | .overload | .exportAsNamespace => return []
  | .varDecl => if n.flags.declared then return [] else return [← lowerVariables g n]
  | .funcDecl => if n.flags.declared then return [] else return [← lowerFunction g n]
  | .classDecl => if n.flags.declared then return [] else return [← lowerClass g n]
  | .enumDecl => lowerEnum g n false
  | .namespaceDecl => lowerNamespace g n false
  | .importDecl => return one (← lowerImport g n)
  | .importEquals => return one (← lowerAlias g n false)
  | .exportNamed => return one (← lowerExportNamed g n)
  | .exportAll => return one (← lowerExportAll g n)
  | .exportDecl => lowerExportDecl g n
  | .exportDefault => return one (← lowerExportDefault g n)
  | .exportAssign =>
    errorAt n.span .unsupported
      "'export =' cannot be expressed in an ES module; use 'export default'"
    return []
  | .ifStmt => lowerIf g n
  | _ => return one (← lowerSimple g n)

end ScriptLower.Lower
