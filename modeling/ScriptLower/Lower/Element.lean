import ScriptLower.Lower.Capture
import ScriptLower.Text.Bytes
import ScriptLower.Text.Entity

/-!
# Elements

An element becomes a call. The automatic runtime passes the children with the other properties and
imports the functions it calls; the classic runtime passes them as arguments to a function that the
file has in scope.
-/

/-!
## Text between elements

The text between two tags is laid out for the reader of the source. What counts of it is its lines,
without the blanks at their inner edges; empty lines do not count, and the others are joined by
single blanks.
-/

namespace ScriptLower.Lower.ElementText

open ScriptLower

/-- The lines of a text, whatever ends them. -/
def lines (s : Bytes) : List Bytes :=
  let lf : UInt8 := 10
  let unix := Bytes.replace [13, 10] [lf] s
  Bytes.splitOn lf (unix.map fun b => if b == 13 then lf else b)

/-- Whether a line holds nothing but blanks and tabs. -/
def isBlank (line : Bytes) : Bool := line.all fun b => b == 32 || b == 9

/-- The index of the last line that is not blank, or zero. -/
def lastInked (ls : List Bytes) : Nat :=
  ls.zipIdx.foldl (fun last (line, i) => if isBlank line then last else i) 0

/-- A line with its tabs as blanks, without the blanks at the edges where another line adjoins. -/
def trimmed (count i : Nat) (line : Bytes) : Bytes :=
  let line := line.map fun b => if b == 9 then 32 else b
  let line := if 0 < i then Bytes.trimLeft (· == 32) line else line
  if i + 1 < count then Bytes.trimRight (· == 32) line else line

/-- The text that counts: each line with something in it, and a blank behind each but the last. -/
def clean (s : Bytes) : Bytes :=
  let ls := lines s
  let last := lastInked ls
  (ls.zipIdx.map fun (line, i) =>
    let line := trimmed ls.length i line
    if line.isEmpty then [] else if i = last then line else line ++ [32]).flatten

end ScriptLower.Lower.ElementText

namespace ScriptLower.Lower

open ScriptLower

/-- A use of a helper, which is imported from then on. -/
def useHelper (h : Helper) : LowerM Node := do
  match (← get).helpers.find? (·.1 == h) with
  | some (_, m) => ref m
  | none =>
    let m ← fresh ("_" ++ h.name)
    modify fun s => { s with helpers := s.helpers ++ [(h, m)] }
    ref m

/-! ## Tags -/

/-- The name at the root of a tag, which never stands for an element of the page. -/
def lowerTagName (n : Node) : LowerM Node :=
  if n.text == Bytes.ofString "this" then return .new .thisExpr n.span []
  else nameRef (.ident n.text n.span)

mutual

/-- A tag that names a component: a name, or a property of one. -/
def lowerComponent (g : Rules) : Node → LowerM Node
  | .absent => return .absent
  | .mk h ks ds t a x => do
    let n := Node.mk h ks ds t a x
    if h.kind == .jsxMemberName then
      let obj ← lowerComponentFirst g ks
      return .new .member h.span [obj, .ident (n.kid 1).text (n.kid 1).span]
    else lowerTagName n

/-- The first of some component names. -/
def lowerComponentFirst (g : Rules) : List Node → LowerM Node
  | [] => return .absent
  | n :: _ => lowerComponent g n

end

/-- The tag of an element. -/
def lowerTag (g : Rules) (n : Node) : LowerM Node :=
  match n.kind with
  | .jsxMemberName => lowerComponent g n
  | .jsxName => if isIntrinsicTag n.text then return string n.text n.span else lowerComponent g n
  | _ => g.expr n

/-! ## Children -/

/-- A child of an element. -/
structure Child where
  /-- Its value. -/
  value : Node
  /-- Whether it is a list whose members are the children. -/
  spread : Bool := false
  deriving Inhabited

/-- A child; blank text and empty braces are none. -/
def lowerChild (g : Rules) (n : Node) : LowerM (List Child) := do
  match n.kind with
  | .jsxText =>
    let text := ElementText.clean n.text
    return if text.isEmpty then [] else [{ value := string (Entity.decode text) n.span }]
  | .jsxExprContainer =>
    if (n.kid 0).isAbsent then return [] else return [{ value := ← g.expr (n.kid 0) }]
  | .jsxSpreadChild => return [{ value := ← g.expr (n.kid 0), spread := true }]
  | _ => return [{ value := ← g.expr n }]

/-- A child as an argument. -/
def Child.argument (c : Child) : Node :=
  if c.spread then .new .spread c.value.span [c.value] else c.value

/-! ## Properties -/

/-- The value of an attribute; one without a value is true. -/
def lowerAttrValue (g : Rules) (n : Node) (span : Span) : LowerM Node :=
  if n.isAbsent then return .keyword .kwTrue span
  else if n.kind == .literal && n.op == .stringLit then
    let raw := if 2 ≤ n.text.length then (n.text.drop 1).dropLast else n.text
    return string (Entity.decode raw) n.span
  else if n.kind == .jsxExprContainer then g.expr (n.kid 0)
  else g.expr n

/-- The properties of an element in the making. -/
structure Props where
  /-- The members of the object, in order. -/
  members : List Node := []
  /-- The key, if it is passed on its own. -/
  key : Node := .absent
  /-- Whether a spread came. -/
  afterSpread : Bool := false
  /-- Whether a key came behind a spread, so that it has to stay among the properties. -/
  keyBehindSpread : Bool := false
  deriving Inhabited

/-- Adds an attribute. A key in front of all spreads can be passed on its own. -/
def Props.add (g : Rules) (splitKey : Bool) (p : Props) (n : Node) : LowerM Props := do
  if n.kind == .jsxSpreadAttr then
    let value ← g.expr (n.kid 0)
    return { p with members := p.members ++ [.new .spread n.span [value]], afterSpread := true }
  let name := n.kid 0
  let value ← lowerAttrValue g (n.kid 1) n.span
  let isKey := splitKey && name.text == Bytes.ofString "key"
  if isKey && !p.afterSpread then return { p with key := value }
  let key := if isPlainName name.text then Node.ident name.text name.span
    else string name.text name.span
  return { p with
    members := p.members ++ [.new .objProp n.span [key, value]]
    keyBehindSpread := p.keyBehindSpread || isKey }

/-- The properties of the attributes. -/
def lowerProps (g : Rules) (attrs : List Node) (splitKey : Bool) : LowerM Props :=
  attrs.foldlM (Props.add g splitKey) {}

/-- The object of some properties; spreads are lowered where the target lacks them. -/
def propsObject (span : Span) (members : List Node) : LowerM Node := do
  if (← targetBefore .es2018) && members.any (·.kind == .spread) then
    return lowerObjectSpread span members
  else return .new .object span members

/-! ## Calls -/

/-- A property that generated code writes. -/
def generatedProp (span : Span) (name : String) (value : Node) : Node :=
  .new .objProp span [.ident (Bytes.ofString name) span, value]

/-- Where an element stands, as an object. -/
def sourceObject (span : Span) : LowerM Node := do
  let file := (← read).file
  let (line, col) := file.lineCol16 span.start
  return .new .object span [
    generatedProp span "fileName" (string file.path span),
    generatedProp span "lineNumber" (number (Bytes.ofNat (line + 1)) span),
    generatedProp span "columnNumber" (number (Bytes.ofNat (col + 1)) span)]

/-- The property that holds the children. -/
def childrenProp (span : Span) (several : Bool) (kids : List Child) : List Node :=
  if several then
    [generatedProp span "children" (.new .array span (kids.map Child.argument))]
  else match kids with
    | [] => []
    | k :: _ => [generatedProp span "children" k.value]

/-- The call of the automatic runtime. -/
def automaticCall (g : Rules) (span : Span) (tag : Node) (attrs : List Node) (kids : List Child) :
    LowerM Node := do
  let props ← lowerProps g attrs true
  let tag ← if tag.isAbsent then useHelper .fragment else pure tag
  if props.keyBehindSpread then
    let obj ← propsObject span props.members
    return .call span (← useHelper .createElement) (tag :: obj :: kids.map Child.argument)
  let several := 1 < kids.length || kids.any (·.spread)
  let obj ← propsObject span (props.members ++ childrenProp span several kids)
  let context ← read
  if context.elements.development then
    let key := if props.key.isAbsent then void0 span else props.key
    let isStatic := Node.keyword (if several then .kwTrue else .kwFalse) span
    let source ← sourceObject span
    let self := if context.inDerivedConstructor then void0 span else .new .thisExpr span []
    return .call span (← useHelper .jsxDev) [tag, obj, key, isStatic, source, self]
  let key := if props.key.isAbsent then [] else [props.key]
  return .call span (← useHelper (if several then .jsxs else .jsx)) ([tag, obj] ++ key)

/-- The call of the classic runtime. -/
def classicCall (g : Rules) (span : Span) (tag : Node) (attrs : List Node) (kids : List Child) :
    LowerM Node := do
  let o := (← read).elements
  let tag := if tag.isAbsent then dotted o.fragment span else tag
  let props ←
    if attrs.isEmpty then pure (Node.keyword .kwNull span)
    else do propsObject span (← lowerProps g attrs false).members
  return .call span (dotted o.factory span) (tag :: props :: kids.map Child.argument)

/-- An element or a fragment. -/
def lowerElement (g : Rules) (n : Node) : LowerM Node := do
  let isFragment := n.kind == .jsxFragment
  let tag ← if isFragment then pure .absent else lowerTag g (n.kid 0)
  let attrs := if isFragment then [] else (n.kid 1).kids
  let children := if isFragment then n.kid 0 else n.kid 2
  let kids ← children.kids.mapM (lowerChild g)
  if (← read).elements.runtime == .classic then classicCall g n.span tag attrs kids.flatten
  else automaticCall g n.span tag attrs kids.flatten

/-! ## Imports -/

/-- An import of names from a module. -/
def importFrom (source : Bytes) (specs : List Node) : Node :=
  let from_ : Node := .ofHead
    { kind := .literal, op := .stringLit, text := StringLiteral.quote source (ascii '"'),
      flags := { synth := true } } []
  .new .importDecl {} (from_ :: .absent :: specs)

/-- The import of a helper under its mark. -/
def importSpecs (hs : List Helper) : LowerM (List Node) := do
  let used := (← get).helpers
  let found := hs.filterMap fun h => used.find? (·.1 == h)
  found.mapM fun (h, m) => return .new .importSpec {} [.ident h.name {}, ← ref m]

/-- Imports the helpers that the file uses, behind the directives. -/
def withHelperImports (stmts : List Node) : LowerM (List Node) := do
  let o := (← read).elements
  let path : Bytes := if o.development then "/jsx-dev-runtime" else "/jsx-runtime"
  let specs ← importSpecs [.jsx, .jsxs, .fragment, .jsxDev]
  let creators ← importSpecs [.createElement]
  let imports := (if specs.isEmpty then [] else [importFrom (o.importSource ++ path) specs])
    ++ (if creators.isEmpty then [] else [importFrom o.importSource creators])
  return if imports.isEmpty then stmts else insertAfterDirectives stmts imports

end ScriptLower.Lower
