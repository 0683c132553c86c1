import ScriptLower.Lower.Define
import ScriptLower.Lower.Reference
import ScriptLower.Name.Supply
import ScriptLower.Source.File

/-!
# Lowering

Lowering turns a tree of the typed language into a tree of the plain language. It reads what is
fixed for the place it stands at (the target, the scopes around it) and changes what is shared by
the whole file (the marks issued, the comments, the diagnostics).

An expression that has to be evaluated once and used twice is stored in a temporary. Temporaries
belong to the innermost function, which declares them at its head.
-/

namespace ScriptLower.Lower

open ScriptLower

/-! ## Context and state -/

/-- What a scope of names belongs to. -/
inductive ScopeKind
  /-- A function inside a namespace. -/
  | function
  /-- A namespace. -/
  | namespaceBody
  /-- An enumeration. -/
  | enumBody
  deriving DecidableEq, Repr, Inhabited

/-- The names of a namespace, an enumeration or a function inside one. -/
structure Scope where
  /-- What the scope belongs to. -/
  kind : ScopeKind
  /-- The name of the object that holds the exported names. -/
  name : Bytes := []
  /-- The names that are read from the object. -/
  exports : List Bytes := []
  /-- The names that stand for themselves. -/
  locals : List Bytes := []
  deriving Inhabited

/-- What is fixed for a place. -/
structure Context where
  /-- The file. -/
  file : SourceFile := {}
  /-- The version the output must run on. -/
  target : Target := .default
  /-- How elements are lowered. -/
  elements : ElementOptions := {}
  /-- The tests whose statements are dropped. -/
  conditionals : List Conditional := []
  /-- The names that are replaced. -/
  defines : List Define := []
  /-- Whether unused imports stay. -/
  preserveImports : Bool := false
  /-- The names used as values. -/
  used : List Bytes := []
  /-- The names that exist only at the type level. -/
  typeLevel : List Bytes := []
  /-- The scopes around this place, innermost first. -/
  scopes : List Scope := []
  /-- How many statement lists are around this place. -/
  listDepth : Nat := 0
  /-- Whether this place is in the constructor of a derived class, where the receiver may not be
  there yet. -/
  inDerivedConstructor : Bool := false
  deriving Inhabited

/-- What the automatic runtime offers. -/
inductive Helper
  /-- An element with at most one child. -/
  | jsx
  /-- An element with several children. -/
  | jsxs
  /-- What stands for a fragment. -/
  | fragment
  /-- An element that tells where it stands. -/
  | jsxDev
  /-- An element whose key stands behind a spread. -/
  | createElement
  deriving DecidableEq, Repr, Inhabited

/-- The exported name of a helper. -/
def Helper.name : Helper → Bytes
  | jsx => "jsx"
  | jsxs => "jsxs"
  | fragment => "Fragment"
  | jsxDev => "jsxDEV"
  | createElement => "createElement"

/-- What is shared by the whole file. -/
structure State where
  /-- The marks issued. -/
  supply : NameSupply := {}
  /-- The comments. -/
  comments : CommentTable := {}
  /-- The diagnostics, in order. -/
  reports : List Diagnostic := []
  /-- The temporaries of the innermost function so far. -/
  temps : List Nat := []
  /-- How many temporaries there are in all. -/
  tempCount : Nat := 0
  /-- The names the innermost statement list declares. -/
  declared : List Bytes := []
  /-- The marks of the helpers in use. -/
  helpers : List (Helper × Nat) := []
  /-- The features that were warned about. -/
  warned : List String := []
  deriving Inhabited

/-- The number of errors. -/
def State.errors (s : State) : Nat := s.reports.countP Diagnostic.isError

/-- A step of lowering. -/
abbrev LowerM := ReaderT Context (StateM State)

/-- How the kinds of trees that contain each other are lowered. -/
structure Rules where
  /-- An expression. -/
  expr : Node → LowerM Node
  /-- A pattern that binds names, or, when the mark is set, one that assigns. -/
  pattern : Bool → Node → LowerM Node
  /-- A statement, which may become several or none. -/
  stmt : Node → LowerM (List Node)
  /-- A namespace; the mark says whether it is exported. -/
  namespaceDecl : Node → Bool → LowerM (List Node)

/-! ## Diagnostics and comments -/

/-- Reports a diagnostic. -/
def report (d : Diagnostic) : LowerM Unit := modify fun s => { s with reports := s.reports ++ [d] }

/-- Reports an error. -/
def errorAt (span : Span) (code : Code) (message : Bytes) : LowerM Unit :=
  report (.error code span message)

/-- Reports a warning. -/
def warnAt (span : Span) (code : Code) (message : Bytes) : LowerM Unit :=
  report (.warning code span message)

/-- Changes the comments. -/
def onComments (f : CommentTable → CommentTable) : LowerM Unit :=
  modify fun s => { s with comments := f s.comments }

/-- Whether the target comes before a version. -/
def targetBefore (t : Target) : LowerM Bool := return (← read).target.before t

/-! ## Temporaries -/

/-- The name the `i`-th temporary wishes for: a letter, and behind the last letter a number too. -/
def tempName (i : Nat) : Bytes :=
  let base : Bytes := [ascii '_', (97 + i % 26).toUInt8]
  if i < 26 then base else base ++ Bytes.ofNat (i / 26)

/-- Issues a mark. -/
def fresh (wish : Bytes) : LowerM Nat := do
  let s ← get
  let (m, supply) := s.supply.fresh wish
  set { s with supply := supply }
  return m

/-- A use of a generated name. -/
def ref (m : Nat) : LowerM Node := return Node.marked ((← get).supply.wish m) m

/-- A new temporary of the innermost function. -/
def temp : LowerM Nat := do
  let m ← fresh (tempName (← get).tempCount)
  modify fun s => { s with tempCount := s.tempCount + 1, temps := s.temps ++ [m] }
  return m

/-- Runs a step as the body of a function; also gives the temporaries it needs. -/
def collectTemps {α : Type} (m : LowerM α) : LowerM (α × List Nat) := do
  let outer := (← get).temps
  modify fun s => { s with temps := [] }
  let a ← m
  let temps := (← get).temps
  modify fun s => { s with temps := outer }
  return (a, temps)

/-! ## Copies -/

/-- A copy of a node with other children: what it is and where it stands, without its types. -/
def like (n : Node) (kids : List Node) : Node :=
  .ofHead { n.head with flags := n.flags.runtime, mark := 0 } kids

/-- A copy of a node without children. -/
def leaf (n : Node) : Node := .ofHead { n.head with flags := n.flags.runtime } []

/-- A copy of a node without children, if there is a node. -/
def leaf? (n : Node) : Node := if n.isAbsent then .absent else leaf n

/-! ## New code -/

/-- A number literal. -/
def number (raw : Bytes) (span : Span) : Node := .literal .numberLit raw span

/-- A string literal of a value. -/
def string (value : Bytes) (span : Span) : Node :=
  .literal .stringLit (StringLiteral.quote value (ascii '"')) span

/-- The undefined value. -/
def void0 (span : Span) : Node := .newOp .unary .kwVoid span [number "0" span]

/-- An assignment. -/
def assign (span : Span) (target value : Node) : Node :=
  .newOp .assign .assign span [target, value]

/-- A binary operation. -/
def bin (span : Span) (op : TokenKind) (left right : Node) : Node :=
  .newOp .binary op span [left, right]

/-- An expression in parentheses. -/
def paren (n : Node) : Node := .new .paren n.span [n]

/-- A chain of property reads from a dotted name. -/
def dotted (name : Bytes) (span : Span) : Node :=
  match Bytes.splitOn (ascii '.') name with
  | [] => .ident name span
  | root :: rest =>
    let base :=
      if root == Bytes.ofString "this" then Node.new .thisExpr span [] else .ident root span
    rest.foldl (fun obj p => .member obj p span) base

/-- A declaration of variables. -/
def varDecl (keyword : String) (span : Span) (decls : List Node) : Node :=
  (Node.new .varDecl span decls).withText (Bytes.ofString keyword)

/-- A variable without a value. -/
def declarator (span : Span) (name : Node) : Node := .new .declarator span [name, .absent]

/-- Whether a statement is a directive. -/
def isDirective (n : Node) : Bool :=
  let lit := n.kid 0
  n.kind == .exprStmt && lit.kind == .literal && lit.op == .stringLit && !lit.flags.synth

/-- Puts statements behind the directives. -/
def insertAfterDirectives (stmts add : List Node) : List Node :=
  stmts.takeWhile isDirective ++ add ++ stmts.dropWhile isDirective

/-- Declares temporaries behind the directives. -/
def withTemps (stmts : List Node) (temps : List Nat) : LowerM (List Node) := do
  if temps.isEmpty then return stmts
  let decls ← temps.mapM fun m => return declarator {} (← ref m)
  return insertAfterDirectives stmts [varDecl "var" {} decls]

/-! ## Names -/

/-- The scope among some whose object a name is read from. -/
def exporterAmong (name : Bytes) : List Scope → Option Scope
  | [] => none
  | s :: r =>
    if s.exports.contains name then some s
    else if s.locals.contains name then none
    else exporterAmong name r

/-- The scope whose object a name is read from; none for a plain name. -/
def exporter? (name : Bytes) : LowerM (Option Scope) :=
  return exporterAmong name (← read).scopes

/-- A name read from the object of a scope. -/
def qualified (s : Scope) (name : Bytes) (span : Span) : Node :=
  .new .member span [.ident s.name span, .ident name span]

/-- The innermost scope, if it is a namespace. -/
def namespaceScope? : LowerM (Option Scope) := do
  match (← read).scopes with
  | [] => return none
  | s :: _ => return if s.kind == .namespaceBody then some s else none

/-- Runs a step inside one more scope. -/
def inScope {α : Type} (s : Scope) (m : LowerM α) : LowerM α :=
  withReader (fun c => { c with scopes := s :: c.scopes }) m

/-- The definition of a name; of two, the later counts. -/
def define? (name : Bytes) : LowerM (Option Define) :=
  return (← read).defines.reverse.find? (·.name == name)

/-- The expression that replaces the use of a name at a place. -/
def Define.replacement (d : Define) (span : Span) : Node :=
  let raw := Node.newText .raw span d.value
  if d.bare then raw else .new .paren span [raw]

/-- A name that is read. -/
def nameRef (n : Node) : LowerM Node := do
  match ← exporter? n.text with
  | some s => return qualified s n.text n.span
  | none =>
    match ← define? n.text with
    | some d => return if n.mark = 0 then Define.replacement d n.span else leaf n
    | none => return leaf n

end ScriptLower.Lower
