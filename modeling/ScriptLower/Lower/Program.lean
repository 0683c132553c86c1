import ScriptLower.Lower.Statement
import ScriptLower.Lower.State

/-!
# Programs

The rules of lowering are tied together here. The knot is tied to a depth: lowering a part of a
tree goes one deeper, and no node is looked at by more than a few rules before its parts are, so a
depth of some multiple of the size of the tree is never reached.

At the end every generated name gets its final spelling, and a last look makes sure that nothing of
the type level and no element is left.
-/

/-!
## Pragmas

A comment of the file may choose how its elements are lowered. A choice that the runtime has no use
for is reported and ignored.
-/

namespace ScriptLower.Lower

open ScriptLower

/-- A value and the place of the comment that gave it. -/
structure Pragma where
  /-- The value. -/
  value : Bytes
  /-- The place of the comment. -/
  span : Span
  deriving Inhabited

/-- The latest pragma of each kind, the runtime excepted, which takes effect at once. -/
structure Pragmas where
  /-- How elements become calls. -/
  runtime : Runtime
  /-- The function that is called. -/
  factory : Option Pragma := none
  /-- What stands for a fragment. -/
  fragment : Option Pragma := none
  /-- The package to import from. -/
  importSource : Option Pragma := none
  /-- The warnings, in order. -/
  warnings : List Diagnostic := []
  deriving Inhabited

/-- A warning about a pragma. -/
def Pragmas.warn (p : Pragmas) (span : Span) (message : Bytes) : Pragmas :=
  { p with warnings := p.warnings ++ [.warning .pragmaIgnored span message] }

/-- Takes a word of a comment and the word behind it. -/
def Pragmas.word (p : Pragmas) (span : Span) (word next : Bytes) : Pragmas :=
  let value := Bytes.trimSuffix "*/" next
  let found : Option Pragma := some { value := value, span := span }
  if value.isEmpty then p
  else if word == Bytes.ofString "@jsx" then { p with factory := found }
  else if word == Bytes.ofString "@jsxFrag" then { p with fragment := found }
  else if word == Bytes.ofString "@jsxImportSource" then { p with importSource := found }
  else if word == Bytes.ofString "@jsxRuntime" then
    match Runtime.parse value with
    | .ok r => { p with runtime := r }
    | .error message => p.warn span message
  else p

/-- Takes the words of a comment. -/
def Pragmas.comment (p : Pragmas) (c : Comment) : Pragmas :=
  let words := Words.split c.text
  (words.zip (words.drop 1)).foldl (fun p (w, next) => p.word c.span w next) p

/-- Whether a text is names with dots between them. -/
def isDottedName (s : Bytes) : Bool :=
  (Bytes.splitOn (ascii '.') s).all fun part => isPlainName part || part == Bytes.ofString "this"

/-- The value of a pragma that only the classic runtime knows, and the warnings so far. -/
def Pragmas.classicOnly (p : Pragmas) (name : String) (pragma : Option Pragma) (old : Bytes) :
    Bytes × Pragmas :=
  match pragma with
  | none => (old, p)
  | some q =>
    if p.runtime != .classic then
      (old, p.warn q.span (Bytes.ofString name ++ " has no effect with the automatic JSX runtime"))
    else if !isDottedName q.value then
      (old, p.warn q.span (Bytes.ofString name ++ " expects a dotted name, got " ++ q.value))
    else (q.value, p)

/-- The value of the pragma that only the automatic runtime knows, and the warnings so far. -/
def Pragmas.automaticOnly (p : Pragmas) (old : Bytes) : Bytes × Pragmas :=
  match p.importSource with
  | none => (old, p)
  | some q =>
    if p.runtime == .classic then
      (old, p.warn q.span "@jsxImportSource has no effect with the classic JSX runtime")
    else (q.value, p)

/-- The options under the pragmas of some comments, and the warnings. -/
def applyPragmas (o : ElementOptions) (comments : List Comment) :
    ElementOptions × List Diagnostic :=
  let p := comments.foldl Pragmas.comment { runtime := o.runtime }
  let (factory, p) := p.classicOnly "@jsx" p.factory o.factory
  let (fragment, p) := p.classicOnly "@jsxFrag" p.fragment o.fragment
  let (importSource, p) := p.automaticOnly o.importSource
  ({ o with runtime := p.runtime, factory := factory, fragment := fragment,
            importSource := importSource }, p.warnings)

end ScriptLower.Lower

/-! ## Rules and programs -/

namespace ScriptLower.Lower

open ScriptLower

/-- The bound on the depth is reached. -/
def exhausted (n : Node) : LowerM Unit :=
  errorAt n.span .loweringFailure "internal transform failure: nesting too deep"

/-- The rules that give up. -/
def noRules : Rules where
  expr n := do
    exhausted n
    return .absent
  pattern _ n := do
    exhausted n
    return .absent
  stmt n := do
    exhausted n
    return []
  namespaceDecl n _ := do
    exhausted n
    return []

/-- The rules tied together to a depth. -/
def rules : Nat → Rules
  | 0 => noRules
  | d + 1 =>
    { expr := fun n c s => lowerExpr (rules d) n c s
      pattern := fun b n c s => lowerPattern (rules d) b n c s
      stmt := fun n c s => lowerStmt (rules d) n c s
      namespaceDecl := fun n e c s => lowerNamespace (rules d) n e c s }

/-- How many rules look at a node at most before its parts are looked at. -/
def rulesPerNode : Nat := 4

/-- A depth that is never reached in a tree. -/
def depthFor (root : Node) : Nat := rulesPerNode * (root.count + 2)

/-! ## The end -/

/-- The names that the source uses. -/
def takenNames (root : Node) : List Bytes :=
  (root.walk.filter fun n => n.kind == .ident && n.mark = 0).map (·.text)

/-- The final name of a mark. -/
def finalName? (names : List Bytes) (mark : Nat) : Option Bytes :=
  if mark = 0 then none else names[mark - 1]?

/-- Gives the generated names their final spelling. A mark that was never issued has none. -/
def renameMarked (supply : NameSupply) (root : Node) : Node × List Diagnostic :=
  let taken := takenNames root
  let names := supply.resolve taken
  let isMarked (h : Head) : Bool := h.kind == .ident && h.mark != 0
  let nameless := root.walk.filter fun n => isMarked n.head && (finalName? names n.mark).isNone
  let renamed := root.mapHeads fun h =>
    if isMarked h then { h with text := (finalName? names h.mark).getD h.text } else h
  (renamed, nameless.map fun n =>
    .error .noFreeName n.span ("no free name for generated binding " ++ n.text))

/-- What is wrong with a node that should not be left. -/
def leak? (h : Head) (hasTypes : Bool) : Option Diagnostic :=
  if h.kind.isType || h.kind.isTypeWrapper || hasTypes then
    some (.error .typeLeaked h.span ("type syntax survived erasure: " ++ h.kind.name))
  else if h.kind.isElementPart then
    some (.error .typeLeaked h.span ("JSX survived lowering: " ++ h.kind.name))
  else none

mutual

/-- The outermost nodes of a tree that should not be left. -/
def leaks : Node → List Diagnostic
  | .absent => []
  | .mk h ks ds t a x =>
    match leak? h (t.isPresent || a.isPresent || x.isPresent) with
    | some d => [d]
    | none => leaksAll ks ++ leaksAll ds

/-- The outermost nodes of several trees that should not be left. -/
def leaksAll : List Node → List Diagnostic
  | [] => []
  | n :: r => leaks n ++ leaksAll r

end

/-!
## Missing parts

Lowering looks into many parts of a node without asking whether they are there, and cuts some lists
behind their first members. Whether it comes to that may hang on the settings and on what is around.
Here it is looked up ahead, and a tree that lacks such a part anywhere is not lowered.
-/

/-- The key of a member, if it is a name. -/
def keyPart (n : Node) : List Node := if n.flags.computed then [] else [n.kid 0]

/-- The parts of a member of an object that are looked into: a key that is a name, and the value
that a name alone stands for. -/
def memberParts (n : Node) : List Node :=
  keyPart n ++ if n.flags.shorthand then [n.kid 1] else []

/-- The parts of a node that are looked into, whether they are there or not. -/
def looksInto (n : Node) : List Node :=
  match n.kind with
  | .program | .block | .varDecl | .params | .classBody | .object | .jsxAttrs | .jsxChildren =>
    n.kids
  | .declarator | .forIn | .forOf | .tryStmt | .labeled | .exportDefault | .exportAll | .enumMember
  | .staticBlock | .assignPattern | .paren | .call | .optChain | .binary | .assign | .asExpr
  | .satisfies | .typeAssert | .nonNull | .instantiation | .jsxElement | .jsxAttr => [n.kid 0]
  | .member | .index | .importEquals | .exportSpec | .typeQualified | .jsxMemberName =>
    [n.kid 0, n.kid 1]
  | .catchClause => [n.kid 1]
  | .switchStmt => n.kids.drop 1
  | .exportNamed => n.kids.drop 2
  | .importDecl => n.kid 0 :: n.kids.drop 2
  | .importDefault | .importNamespace | .importSpec => n.kids.getLastD .absent :: n.kids
  | .exportDecl =>
    -- inside a namespace functions and classes are exported under their names
    let decl := n.kid 0
    if decl.kind == .funcDecl || decl.kind == .classDecl then [decl, decl.kid 0] else [decl]
  | .enumDecl => n.kid 0 :: n.kids.drop 1
  | .namespaceDecl => [n.kid 0]
  | .classDecl | .classExpr => n.kid 2 :: n.decos
  | .method => n.kid 1 :: (keyPart n ++ n.decos)
  | .property => keyPart n ++ n.decos
  | .param => if n.flags.hasAccess then [n.kid 0] else []
  | .objProp => memberParts n
  | .objectPattern => n.kids ++ (n.kids.filter fun k => k.kind != .restElement).flatMap memberParts
  | .template => if n.kids.length = 1 then n.kids else []
  | _ => []

/-- How many of its first children the list of a node's children is cut behind. -/
def cut : NodeKind → Nat
  | .switchStmt | .caseClause | .enumDecl | .enumMember | .method | .property |
      .objProp | .call => 1
  | .importDecl | .exportNamed => 2
  | _ => 0

/-- What a node lacks, if anything. -/
def lack? (n : Node) : Option Bytes :=
  if n.kids.length < cut n.kind then some (Failure.cutBeyond (cut n.kind) n.kids.length)
  else if (looksInto n).any Node.isAbsent then some Failure.missingNode
  else none

/-- Whether nodes of a kind are dropped with all that is in them. Of the names of types, only
aliases hold some outside of types. -/
def isPassedOver (k : NodeKind) : Bool := k.isType && k != .typeQualified || k == .externalRef

mutual

/-- What a tree lacks first, if anything. -/
def flaw? : Node → Option Bytes
  | .absent => none
  | .mk h ks ds t a x =>
    if isPassedOver h.kind then none
    else
      match lack? (.mk h ks ds t a x) with
      | some what => some what
      | none => (flawIn? ds).or (flawIn? ks)

/-- What some trees lack first, if anything. -/
def flawIn? : List Node → Option Bytes
  | [] => none
  | n :: r => (flaw? n).or (flawIn? r)

end

/-! ## Lowering a tree -/

/-- How a tree is lowered. -/
structure Settings where
  /-- How elements are lowered. -/
  elements : ElementOptions := {}
  /-- The version the output must run on. -/
  target : Target := .unset
  /-- The tests whose statements are dropped. -/
  conditionals : List Conditional := []
  /-- The names that are replaced. -/
  defines : List Define := []
  /-- Whether unused imports stay. -/
  preserveImports : Bool := false
  deriving Inhabited

/-- What lowering comes to. There is a tree exactly when there is no error. -/
structure Result where
  /-- The tree. -/
  tree : Option Node
  /-- The number of errors. -/
  errors : Nat
  /-- All diagnostics, in the order found. -/
  reports : List Diagnostic
  /-- The comments that survive. -/
  comments : CommentTable
  /-- The marks issued. -/
  supply : NameSupply
  deriving Inhabited

/-- A program, before the generated names get their spelling. -/
def lowerProgram (g : Rules) (root : Node) : LowerM Node := do
  let (stmts, temps) ← collectTemps (lowerList g root.kids)
  let stmts ← withTemps stmts temps
  let stmts ← withHelperImports stmts
  return (Node.new .program root.span stmts).addFlags { strict := root.flags.strict }

/-- Lowers the tree of a program that lacks nothing. -/
def lowerWhole (file : SourceFile) (root : Node) (comments : CommentTable) (supply : NameSupply)
    (o : Settings) : Result :=
  let (elements, warnings) := applyPragmas o.elements.resolved comments.all
  let context : Context :=
    { file := file, target := o.target.resolved, elements := elements
      conditionals := o.conditionals, defines := o.defines
      preserveImports := o.preserveImports
      used := usedNames elements root, typeLevel := typeLevelNames root }
  let (tree, s) := (lowerProgram (rules (depthFor root)) root).run context |>.run
    { supply := supply, comments := comments, reports := warnings }
  let result (tree : Node) (reports : List Diagnostic) : Result :=
    let errors := reports.countP Diagnostic.isError
    { tree := if errors = 0 then some tree else none
      errors := errors, reports := reports, comments := s.comments, supply := s.supply }
  if s.errors = 0 then
    let (renamed, nameless) := renameMarked s.supply tree
    result renamed (s.reports ++ nameless ++ leaks renamed)
  else result tree s.reports

/-- What comes of a file that lowering fails for: the pragmas are read before. -/
def failed (comments : CommentTable) (supply : NameSupply) (o : Settings) (what : Bytes) : Result :=
  { tree := none, errors := 1, comments := comments, supply := supply
    reports := (applyPragmas o.elements.resolved comments.all).2
      ++ [.error .loweringFailure {} ("internal transform failure: " ++ what)] }

/-- Lowers the tree of a file. -/
def lowerTree (file : SourceFile) (root : Node) (comments : CommentTable) (supply : NameSupply)
    (o : Settings) : Result :=
  if root.kind != .program then
    { tree := none, errors := 1, comments := comments, supply := supply
      reports := [.error .unknownNode {} "fold expects a program root"] }
  else
    match flaw? root with
    | some what => failed comments supply o what
    | none => lowerWhole file root comments supply o

end ScriptLower.Lower
