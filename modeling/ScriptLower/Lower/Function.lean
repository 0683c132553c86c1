import ScriptLower.Lower.Capture
import ScriptLower.Lower.StatementList

/-!
# Functions and classes

Types, overloads and members that exist only for the type checker disappear. A parameter property
becomes an assignment at the head of the constructor, behind the call of the parent's constructor
if there is one.
-/

namespace ScriptLower.Lower

open ScriptLower

/-! ## Names inside namespaces -/

/-- The names a statement declares: those that stand for themselves, and the exported variables of
a namespace. -/
def localNames (inNamespace : Bool) (n : Node) : List Bytes × List Bytes :=
  let isExport := n.kind == .exportDecl
  let n := if isExport then n.kid 0 else n
  match n.kind with
  | .varDecl =>
    if n.flags.declared then ([], [])
    else if isExport && inNamespace then ([], declaratorNames n)
    else (declaratorNames n, [])
  | .funcDecl | .classDecl | .enumDecl | .namespaceDecl | .importEquals =>
    if (n.kid 0).kind == .ident then ([(n.kid 0).text], []) else ([], [])
  | _ => ([], [])

/-- The scope of a function: its parameters and what its body declares. -/
def functionScope (params body : Node) : Scope :=
  let ofParams := params.kids.flatMap fun p => bindingNames (p.kid 0)
  let ofBody :=
    if body.kind == .block then body.kids.flatMap fun s => (localNames false s).1 else []
  { kind := .function, locals := ofParams ++ ofBody }

/-- Runs a step inside a function. Only inside namespaces and enumerations do names matter. -/
def inFunction {α : Type} (params body : Node) (m : LowerM α) : LowerM α := do
  if (← read).scopes.isEmpty then m else inScope (functionScope params body) m

/-- Says for a step whether it is in the constructor of a derived class. -/
def inConstructor {α : Type} (derived : Bool) (m : LowerM α) : LowerM α :=
  withReader (fun c => { c with inDerivedConstructor := derived }) m

/-! ## Functions -/

/-- An expression that may be absent. -/
def lowerOptional (g : Rules) (n : Node) : LowerM Node :=
  if n.isAbsent then return .absent else g.expr n

/-- Takes the question mark off a name. -/
def dropOptional (n : Node) : Node := n.mapFlags fun f => { f with optional := false }

/-- One parameter. -/
def lowerParam (g : Rules) (p : Node) : LowerM Node := do
  match p.decos with
  | [] => pure ()
  | d :: _ =>
    warnAt d.span .unsupported "parameter decorators are not supported and were removed"
  let binding ← g.pattern false (p.kid 0)
  let init ← lowerOptional g (p.kid 1)
  return dropOptional (like p [binding, init])

/-- A parameter list; the parameter that types the receiver vanishes. -/
def lowerParams (g : Rules) (n : Node) : LowerM Node := do
  if n.isAbsent then return .absent
  let kids ← (n.kids.filter fun p => !p.flags.thisParam).mapM (lowerParam g)
  return like n kids

/-- The body of a function. The prologue places further statements. -/
def lowerBody (g : Rules) (params body : Node) (prologue : List Node → List Node) :
    LowerM Node := do
  if body.isAbsent then return .absent
  inFunction params body do
    let (stmts, temps) ← collectTemps do
      let stmts ← lowerList g body.kids
      return prologue stmts
    return like body (← withTemps stmts temps)

/-- A function declaration or expression. The defaults of parameters belong to the function
outside. -/
def lowerFunction (g : Rules) (n : Node) : LowerM Node :=
  inConstructor false do
    let params ← lowerParams g (n.kid 1)
    let body ← lowerBody g (n.kid 1) (n.kid 2) id
    noteUnlowered n
    return like n [leaf? (n.kid 0), params, body]

/-- An arrow function. An expression that needs temporaries becomes a block. -/
def lowerArrow (g : Rules) (n : Node) : LowerM Node := do
  let params ← lowerParams g (n.kid 0)
  noteUnlowered n
  if !n.flags.exprBody then
    return like n [params, ← lowerBody g (n.kid 0) (n.kid 1) id]
  let (value, temps) ← inFunction (n.kid 0) .absent (collectTemps (g.expr (n.kid 1)))
  if temps.isEmpty then return like n [params, value]
  let span := (n.kid 1).span
  let stmts ← withTemps [.new .returnStmt span [value]] temps
  return (like n [params, .new .block span stmts]).mapFlags fun f => { f with exprBody := false }

/-! ## Classes -/

/-- The key of a member. -/
def lowerKey (g : Rules) (n : Node) : LowerM Node :=
  if n.flags.computed then g.expr (n.kid 0) else return leaf (n.kid 0)

/-- Decorators. -/
def lowerDecorators (g : Rules) (ds : List Node) : LowerM (List Node) :=
  ds.mapM fun d => return like d [← g.expr (d.kid 0)]

/-- The assignment that a parameter property stands for. -/
def propertyOfParam (p : Node) : LowerM (List Node) := do
  let name := if (p.kid 0).kind == .assignPattern then (p.kid 0).kid 0 else p.kid 0
  if name.kind != .ident then
    errorAt p.span .unsupported "a parameter property cannot be a binding pattern"
    return []
  let target := Node.member (.new .thisExpr p.span []) name.text p.span
  return [.new .exprStmt p.span [assign p.span target (.ident name.text p.span)]]

/-- The assignments of the parameter properties of a constructor, in order. -/
def propertiesOfParams (params : Node) : LowerM (List Node) := do
  let sets ← (params.kids.filter (·.flags.hasAccess)).mapM propertyOfParam
  return sets.flatten

/-- Whether a statement calls the constructor of the parent. -/
def isSuperCall (n : Node) : Bool :=
  n.kind == .exprStmt && (n.kid 0).kind == .call && ((n.kid 0).kid 0).kind == .superExpr

/-- Puts statements behind the first call of the parent's constructor in a derived class, and
otherwise behind the directives. -/
def afterSuper (derived : Bool) (add body : List Node) : List Node :=
  match derived, body.dropWhile fun n => !isSuperCall n with
  | true, call :: rest => body.takeWhile (fun n => !isSuperCall n) ++ [call] ++ add ++ rest
  | _, _ => insertAfterDirectives body add

/-- A method of a class or an object. -/
def lowerMethod (g : Rules) (derived : Bool) (n : Node) : LowerM Node := do
  let isConstructor := n.text == Bytes.ofString "constructor"
  inConstructor (isConstructor && derived) do
    let key ← lowerKey g n
    let params ← lowerParams g (n.kid 1)
    let props ← if isConstructor then propertiesOfParams (n.kid 1) else pure []
    let prologue := if props.isEmpty then id else afterSuper derived props
    let body ← lowerBody g (n.kid 1) (n.kid 2) prologue
    noteUnlowered n
    let decos ← lowerDecorators g n.decos
    return (dropOptional (like n [key, params, body])).withDecos decos

/-- A field. -/
def lowerField (g : Rules) (n : Node) : LowerM Node := do
  let decos ← lowerDecorators g n.decos
  let key ← lowerKey g n
  let init ← lowerOptional g (n.kid 1)
  noteUnlowered n
  return (dropOptional (like n [key, init])).withDecos decos

/-- A static block, which has temporaries of its own. -/
def lowerStaticBlock (g : Rules) (n : Node) : LowerM Node := do
  noteUnlowered n
  let block := n.kid 0
  let (stmts, temps) ← collectTemps (lowerList g block.kids)
  return like n [like block (← withTemps stmts temps)]

/-- A member of a class; what exists only for the type checker vanishes. -/
def lowerMember (g : Rules) (derived : Bool) (n : Node) : LowerM (List Node) := do
  match n.kind with
  | .method => return [← lowerMethod g derived n]
  | .property =>
    if n.flags.declared || n.flags.isAbstract then
      onComments (·.drop n.span.start)
      return []
    else return [← lowerField g n]
  | .staticBlock => return [← lowerStaticBlock g n]
  | k =>
    if !k.isType then
      errorAt n.span .unknownNode ("unexpected " ++ k.name ++ " in class body")
    onComments (·.drop n.span.start)
    return []

/-- A class declaration or expression. -/
def lowerClass (g : Rules) (n : Node) : LowerM Node := do
  let parent ← lowerOptional g (n.kid 1)
  let derived := (n.kid 1).isPresent
  inConstructor false do
    let members ← ((n.kid 2).kids).mapM (lowerMember g derived)
    let decos ← lowerDecorators g n.decos
    return (like n [leaf? (n.kid 0), parent, like (n.kid 2) members.flatten]).withDecos decos

end ScriptLower.Lower
