import ScriptLower.Lower.Function
import ScriptLower.Lower.Enum

/-!
# Imports, exports and namespaces

Imports and exports of types vanish, and so do imported names that are never used as values. Inside
a namespace an export becomes a property of the namespace's object.
-/

namespace ScriptLower.Lower

open ScriptLower

/-! ## Imports -/

/-- Whether an imported name stays. -/
def keepsImport (name : Bytes) : LowerM Bool := do
  let c ← read
  return c.preserveImports || c.used.contains name

/-- An imported name, unless it is a type or never used as a value. -/
def lowerImportSpec (spec : Node) : LowerM (List Node) := do
  if spec.flags.typeOnly then return []
  if ← keepsImport (spec.kids.getLastD .absent).text then return [like spec (spec.kids.map leaf)]
  else return []

/-- An import. One without names stays for its effects; one that loses all its names goes. -/
def lowerImport (g : Rules) (n : Node) : LowerM Node := do
  if n.flags.typeOnly then return .absent
  let source := leaf (n.kid 0)
  let attrs ← lowerOptional g (n.kid 1)
  let specs ← (n.kids.drop 2).mapM lowerImportSpec
  let kept := specs.flatten
  if kept.isEmpty && 2 < n.kids.length then return .absent
  return like n (source :: attrs :: kept)

mutual

/-- A dotted name as an expression. -/
def lowerEntity (g : Rules) : Node → LowerM Node
  | .absent => return .absent
  | .mk h ks ds t a x => do
    let n := Node.mk h ks ds t a x
    match h.kind with
    | .typeQualified =>
      let obj ← lowerEntityFirst g ks
      return .new .member h.span [obj, .ident (n.kid 1).text (n.kid 1).span]
    | .ident => nameRef n
    | _ => g.expr n

/-- The first of some dotted names. -/
def lowerEntityFirst (g : Rules) : List Node → LowerM Node
  | [] => return .absent
  | n :: _ => lowerEntity g n

end

/-- An alias becomes a variable. The form that requires a module has no counterpart. -/
def lowerAlias (g : Rules) (n : Node) (exported : Bool) : LowerM Node := do
  if n.flags.typeOnly then return .absent
  if (n.kid 1).kind == .externalRef then
    errorAt n.span .unsupported
      "'import = require()' cannot be expressed in an ES module; use 'import ... from'"
    return .absent
  if exported || (← keepsImport (n.kid 0).text) then
    let value ← lowerEntity g (n.kid 1)
    return varDecl "var" n.span [.new .declarator n.span [leaf (n.kid 0), value]]
  else return .absent

/-! ## Exports -/

/-- An exported name, unless it is a type. -/
def lowerExportSpec (reexport : Bool) (spec : Node) : LowerM (List Node) := do
  let typeLevel := (← read).typeLevel
  if spec.flags.typeOnly || (!reexport && typeLevel.contains (spec.kid 0).text) then return []
  else return [like spec [leaf (spec.kid 0), leaf (spec.kid 1)]]

/-- An export of names. One that loses all its names goes. -/
def lowerExportNamed (g : Rules) (n : Node) : LowerM Node := do
  if n.flags.typeOnly then return .absent
  let attrs ← lowerOptional g (n.kid 1)
  let specs ← (n.kids.drop 2).mapM (lowerExportSpec (n.kid 0).isPresent)
  let kept := specs.flatten
  if kept.isEmpty && 2 < n.kids.length then return .absent
  return like n (leaf? (n.kid 0) :: attrs :: kept)

/-- An export of all names of a module. -/
def lowerExportAll (g : Rules) (n : Node) : LowerM Node := do
  if n.flags.typeOnly then return .absent
  let attrs ← lowerOptional g (n.kid 1)
  return like n [leaf (n.kid 0), attrs, leaf? (n.kid 2)]

/-- A default export. One of a type goes. -/
def lowerExportDefault (g : Rules) (n : Node) : LowerM Node := do
  let inner := n.kid 0
  if inner.kind.isType then return .absent
  match inner.kind with
  | .funcDecl => return like n [← lowerFunction g inner]
  | .classDecl => return like n [← lowerClass g inner]
  | _ =>
    if inner.kind == .ident && (← read).typeLevel.contains inner.text then return .absent
    else return like n [← g.expr inner]

/-! ## Namespaces -/

/-- The scope of the body of a namespace. -/
def namespaceBodyScope (name : Bytes) (body : Node) : Scope :=
  if body.kind == .namespaceDecl then { kind := .namespaceBody, name := name }
  else
    let names := body.kids.map (localNames true)
    { kind := .namespaceBody, name := name
      exports := names.flatMap (·.2), locals := names.flatMap (·.1) }

/-- A namespace. One with a dotted name is a namespace that exports another, and one that holds
nothing but types vanishes. -/
def lowerNamespace (g : Rules) (n : Node) (exported : Bool) : LowerM (List Node) := do
  if n.flags.declared || n.flags.isGlobal || (n.kid 1).isAbsent then return []
  let name := n.kid 0
  if name.kind != .ident then
    errorAt name.span .unsupported "a namespace name must be an identifier"
    return []
  let parent ← namespaceScope?
  let body := n.kid 1
  let (stmts, temps) ← inScope (namespaceBodyScope name.text body) (collectTemps
    (if body.kind == .namespaceDecl then g.namespaceDecl body true else lowerList g body.kids))
  if stmts.isEmpty then return []
  fillObject n.span name (← withTemps stmts temps) exported parent

/-- Sets a property of the object of a namespace. -/
def setExport (ns : Scope) (span : Span) (name : Bytes) (nameSpan : Span) (value : Node) : Node :=
  .new .exprStmt span [assign span (.member (.ident ns.name nameSpan) name nameSpan) value]

/-- An exported variable of a namespace becomes a property; without a value there is nothing to
set. -/
def lowerExportedVariable (g : Rules) (ns : Scope) (d : Node) : LowerM (List Node) := do
  let binding := d.kid 0
  if binding.kind != .ident then
    errorAt binding.span .unsupported
      "destructuring exports inside a namespace are not supported"
    return []
  if (d.kid 1).isAbsent then return []
  let value ← g.expr (d.kid 1)
  return [setExport ns d.span binding.text binding.span value]

/-- An export inside a namespace. Functions and classes keep their binding and are copied. -/
def lowerNamespaceExport (g : Rules) (ns : Scope) (n : Node) : LowerM (List Node) := do
  let decl := n.kid 0
  onComments (·.move n.span.start decl.span.start)
  match decl.kind with
  | .varDecl =>
    if decl.flags.declared then return []
    let sets ← decl.kids.mapM (lowerExportedVariable g ns)
    return sets.flatten
  | .funcDecl | .classDecl =>
    let out ← g.stmt decl
    if out.isEmpty then return []
    let name := decl.kid 0
    return out ++ [setExport ns name.span name.text name.span (.ident name.text name.span)]
  | .enumDecl => lowerEnum g decl true
  | .namespaceDecl => lowerNamespace g decl true
  | .importEquals =>
    if (decl.kid 1).kind == .externalRef then
      errorAt decl.span .unsupported "'import = require()' cannot be expressed in an ES module"
      return []
    let name := decl.kid 0
    let value ← lowerEntity g (decl.kid 1)
    return [setExport ns decl.span name.text name.span value]
  | k =>
    if !k.isType then
      errorAt decl.span .unknownNode ("unexpected " ++ k.name ++ " exported from a namespace")
    return []

/-- An exported declaration. -/
def lowerExportDecl (g : Rules) (n : Node) : LowerM (List Node) := do
  match ← namespaceScope? with
  | some ns => lowerNamespaceExport g ns n
  | none =>
    let decl := n.kid 0
    match decl.kind with
    | .enumDecl =>
      onComments (·.move n.span.start decl.span.start)
      lowerEnum g decl true
    | .namespaceDecl =>
      onComments (·.move n.span.start decl.span.start)
      lowerNamespace g decl true
    | .importEquals => return one (exportWrap n.span (← lowerAlias g decl true))
    | _ =>
      match ← g.stmt decl with
      | [] => return []
      | first :: _ => return [exportWrap n.span first]

end ScriptLower.Lower
