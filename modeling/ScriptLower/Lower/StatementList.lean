import ScriptLower.Lower.State

/-!
# Lists of statements

A statement that is erased takes its comments with it, except those that must survive: they move to
the next statement that stays. A list also knows which functions and classes it declares, since an
enumeration or namespace of the same name then shares their binding.
-/

namespace ScriptLower.Lower

open ScriptLower

/-- The declaration that an export holds, or the statement itself. -/
def exportedDeclaration (n : Node) : Node :=
  if n.kind == .exportDecl || n.kind == .exportDefault then n.kid 0 else n

/-- The name of the function or class that a statement declares. -/
def functionName? (n : Node) : Option Bytes :=
  let d := exportedDeclaration n
  if (d.kind == .funcDecl || d.kind == .classDecl) && !d.flags.declared && (d.kid 0).isPresent then
    some (d.kid 0).text
  else none

/-- Whether a name still needs a declaration in the innermost list; from then on it has one. -/
def declareOnce (name : Bytes) : LowerM Bool := do
  if (← get).declared.contains name then return false
  modify fun s => { s with declared := name :: s.declared }
  return true

/-- Lowers statements one after the other. The positions of erased statements whose comments are
still to be moved stand latest first. -/
def lowerEach (g : Rules) : List Node → List Nat → LowerM (List Node)
  | [], _ => return []
  | n :: rest, orphans => do
    let start := n.span.start
    match ← g.stmt n with
    | [] =>
      onComments (·.drop start)
      let kept := ((← get).comments.leading.at? start).isSome
      lowerEach g rest (if kept then start :: orphans else orphans)
    | first :: more =>
      let pos := first.span.start
      if pos = 0 then return (first :: more) ++ (← lowerEach g rest orphans)
      else
        onComments fun t => orphans.foldl (fun t p => t.move p pos) t
        return (first :: more) ++ (← lowerEach g rest [])

/-- Lowers a list of statements. -/
def lowerList (g : Rules) (stmts : List Node) : LowerM (List Node) := do
  let outer := (← get).declared
  modify fun s => { s with declared := stmts.filterMap functionName? }
  let out ← withReader (fun c => { c with listDepth := c.listDepth + 1 }) (lowerEach g stmts [])
  modify fun s => { s with declared := outer }
  return out

end ScriptLower.Lower

/-!
## Objects filled by a function

Enumerations and namespaces become an object and a function that fills it. The function is called
with the object that is already there or a new one, so that several declarations of one name fill
the same object.
-/

namespace ScriptLower.Lower

open ScriptLower

/-- A statement list of one node or none. -/
def one (n : Node) : List Node := if n.isAbsent then [] else [n]

/-- An exported declaration. -/
def exportWrap (span : Span) (n : Node) : Node :=
  if n.isAbsent then .absent else .new .exportDecl span [n]

/-- The object that the function gets: the one under the name, or a new one that is stored there.
Inside a namespace an exported name is also a property of the namespace. -/
def objectArgument (span : Span) (name : Bytes) (exportedFrom : Option Scope) : Node :=
  let create (target : Node) : Node := paren (assign span target (.new .object span []))
  let id := Node.ident name span
  match exportedFrom with
  | some parent =>
    let slot := Node.member (.ident parent.name span) name span
    assign span id (bin span .orOr slot (create slot))
  | none => bin span .orOr id (create id)

/-- The declaration and the call that fill the object `name`. -/
def fillObject (span : Span) (name : Node) (body : List Node) (exported : Bool)
    (parent : Option Scope) : LowerM (List Node) := do
  let decl ←
    if ← declareOnce name.text then do
      let keyword := if (← read).listDepth = 1 then "var" else "let"
      let decl := varDecl keyword span [declarator name.span (.ident name.text name.span)]
      pure [if exported && parent.isNone then exportWrap span decl else decl]
    else pure []
  let arg := objectArgument span name.text (if exported then parent else none)
  let param := Node.new .param name.span [.ident name.text name.span, .absent]
  let fn := Node.new .funcExpr span
    [.absent, .new .params span [param], .new .block span body]
  return decl ++ [.new .exprStmt span [.call span (paren fn) [arg]]]

end ScriptLower.Lower
