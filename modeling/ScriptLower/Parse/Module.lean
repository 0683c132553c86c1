import ScriptLower.Parse.Declaration

/-!
# Imports and exports
-/

namespace ScriptLower.Parse

open ScriptLower

/-- A name or a string that a module exports. -/
def parseExportName : Parser Node := do
  let t ← peek
  if t.kind == .stringLit then
    let _ ← advance
    return stringOf t
  else if t.kind.isPropertyName then
    let _ ← advance
    return identOf t
  else unexpected "import or export name"

/-- The specifier of a module. -/
def parseModuleSpecifier : Parser Node := do
  let t ← peek
  if t.kind == .stringLit then
    let _ ← advance
    return stringOf t
  else unexpected "module specifier string"

/-- The attributes of an import, if there are any. -/
def parseImportAttributes (g : Rules) : Parser Node := do
  let t ← peek
  if t.kind != .kwWith && !(t.is "assert" && !t.newline) then return .absent
  let _ ← advance
  if ← at_ .lBrace then parseObjectLiteral g
  else unexpected ("'\x7b' after '" ++ t.text ++ "'")

/-- A name that an import binds. -/
def parseImportLocal : Parser Node := do
  let n ← parseBindingIdent
  declare true n
  return n

/-- Whether the word `type` in front of `as` is a modifier: a comma, a brace or another `as`
follows. -/
def typeModifiesAs : Parser Bool := lookahead do
  let _ ← advance
  let _ ← advance
  let t ← peek
  return t.kind == .comma || t.kind == .rBrace || t.is "as"

/-- Takes the word `type` in front of a name in a list of imports or exports, unless it is the name
itself. -/
def eatTypeModifier : Parser Bool := do
  let t ← peek
  if !t.is "type" then return false
  let next ← peek2
  let modifies ← do
    if next.kind == .comma || next.kind == .rBrace then pure false
    else if next.is "as" then typeModifiesAs
    else pure (next.kind.isPropertyName || next.kind == .stringLit)
  if !modifies then return false
  let _ ← advance
  requireTypes t
  return true

/-! ## Imports -/

/-- The name that an imported name is bound to when none is given. -/
def checkImportedName (n : Node) : Parser Node := do
  if n.kind != .ident then
    errorAt n.span .expectedIdentifier "a string import name must be renamed with 'as'"
    fail .reported
  if (TokenKind.keyword? n.text).isSome then
    errorAt n.span .expectedIdentifier
      ("'" ++ n.text ++ "' is a reserved word and cannot be imported without 'as'")
    fail .reported
  declare true n
  return Node.ident n.text n.span

/-- One imported name. -/
def parseImportSpecifier : Parser Node := do
  let start ← peek
  let typeOnly ← eatTypeModifier
  let imported ← parseExportName
  let bound ← if ← eatWord "as" then parseImportLocal else checkImportedName imported
  return (← node .importSpec start.span [imported, bound]).addFlags { typeOnly := typeOnly }

/-- Imported names in braces. -/
def parseImportSpecifiers : Parser (List Node) := do
  let _ ← advance
  let specs ← commaList .rBrace "expected ',' or '\x7d'" parseImportSpecifier
  let _ ← expectRBrace
  return specs

/-- The module, its attributes and the end of an import. -/
def parseImportRest (g : Rules) (start : Token) (flags : Flags) (specs : List Node)
    (clause : Bool) : Parser Node := do
  if clause || flags.typeOnly then
    let _ ← expectWord "from"
  let src ← parseModuleSpecifier
  let attrs ← parseImportAttributes g
  semicolon
  return (← node .importDecl start.span (src :: attrs :: specs)).addFlags flags

/-- A name for a module or for a part of a namespace, from its equals sign on. -/
def parseImportEquals (start : Token) (name : Node) (flags : Flags) : Parser Node := do
  requireTypes (← advance)
  let t ← peek
  let next ← peek2
  let ref ← do
    if t.is "require" && next.kind == .lParen then
      let _ ← advance
      let _ ← advance
      let src ← parseModuleSpecifier
      let _ ← expectRParen
      node .externalRef t.span [src]
    else inType parseEntityName
  semicolon
  return (← node .importEquals start.span [name, ref]).addFlags flags

/-- Whether the word `type` behind `import` is a modifier. In front of `from` it is one only when
another `from` follows. -/
def isTypeOnlyImport (next : Token) : Parser Bool := do
  if next.is "from" then
    lookahead do
      let _ ← advance
      let _ ← advance
      atWord "from"
  else return next.kind == .lBrace || next.kind == .star || next.kind == .ident

/-- The names of an import that are not its default. -/
def parseImportClause : Parser (List Node) := do
  match (← peek).kind with
  | .star =>
    let star ← advance
    let _ ← expectWord "as"
    let name ← parseImportLocal
    return [← node .importNamespace star.span [name]]
  | .lBrace => parseImportSpecifiers
  | _ => unexpected "import clause"

/-- An import. -/
def parseImport (g : Rules) : Parser Node := do
  let start ← advance
  let t ← peek
  let next ← peek2
  if t.kind == .stringLit then parseImportRest g start {} [] false
  else
    let typeOnly ← if t.is "type" then isTypeOnlyImport next else pure false
    if typeOnly then
      let _ ← advance
      requireTypes t
    let flags : Flags := { typeOnly := typeOnly }
    if ← at_ .ident then
      let name ← parseImportLocal
      if ← at_ .assign then parseImportEquals start name flags
      else
        let first := Node.new .importDefault name.span [name]
        if ← eat .comma then
          let specs ← parseImportClause
          parseImportRest g start flags (first :: specs) true
        else parseImportRest g start flags [first] true
    else
      let specs ← parseImportClause
      parseImportRest g start flags specs true

/-! ## Exports -/

/-- All names of a module, from the star on. -/
def parseExportAll (g : Rules) (start : Token) (flags : Flags) : Parser Node := do
  let _ ← advance
  let exported ← if ← eatWord "as" then parseExportName else pure .absent
  let _ ← expectWord "from"
  let src ← parseModuleSpecifier
  let attrs ← parseImportAttributes g
  semicolon
  return (← node .exportAll start.span [src, attrs, exported]).addFlags flags

/-- One exported name. -/
def parseExportSpecifier : Parser Node := do
  let start ← peek
  let typeOnly ← eatTypeModifier
  let name ← parseExportName
  let exported ← if ← eatWord "as" then parseExportName else pure name
  return (← node .exportSpec start.span [name, exported]).addFlags { typeOnly := typeOnly }

/-- Fails at the first exported name that is a string, since only a module can export one. -/
def checkExportedNames : List Node → Parser Unit
  | [] => pure ()
  | spec :: r => do
    let name := spec.kid 0
    if name.kind != .ident then
      errorAt name.span .expectedIdentifier "a string export name requires a 'from' clause"
      fail .reported
    checkExportedNames r

/-- Exported names, from the brace on. -/
def parseExportNamed (g : Rules) (start : Token) (flags : Flags) : Parser Node := do
  let _ ← advance
  let specs ← commaList .rBrace "expected ',' or '\x7d'" parseExportSpecifier
  let _ ← expectRBrace
  let (src, attrs) ← do
    if ← eatWord "from" then
      let src ← parseModuleSpecifier
      let attrs ← parseImportAttributes g
      pure (src, attrs)
    else
      checkExportedNames specs
      pure (Node.absent, Node.absent)
  semicolon
  return (← node .exportNamed start.span (src :: attrs :: specs)).addFlags flags

/-- The default export, from the word `default` on. -/
def parseExportDefault (g : Rules) (start : Token) (decos : List Node) : Parser Node := do
  let _ ← advance
  let t ← peek
  let next ← peek2
  let flags : Flags := { isDefault := true }
  let decl ← do
    if t.kind == .kwFunction || (t.is "async" && next.kind == .kwFunction && !next.newline) then
      parseFunctionDecl g t flags
    else if t.kind == .kwClass then parseClassDecl g t decos flags
    else if t.kind == .atSign then
      let more ← parseDecorators g
      let c ← peek
      if c.kind != .kwClass then unexpected "class after decorators"
      else parseClassDecl g c (decos ++ more) flags
    else if t.is "abstract" && next.kind == .kwClass then
      let _ ← advance
      parseClassDecl g t decos { flags with isAbstract := true }
    else if t.is "interface" && next.kind == .ident && !next.newline then parseInterface g t {}
    else if !decos.isEmpty then unexpected "class after decorators"
    else
      let e ← withIn (g .assign)
      semicolon
      pure e
  node .exportDefault start.span [decl]

/-- A class behind its decorators. -/
def parseDecoratedClass (g : Rules) (decos : List Node) (start : Option Token) : Parser Node := do
  let isAbstract ← eatWord "abstract"
  let c ← peek
  if c.kind != .kwClass then unexpected "class after decorators"
  else parseClassDecl g (start.getD c) decos { isAbstract := isAbstract }

/-- The declaration behind the word `export`. -/
def parseExportedDeclaration (g : Rules) (t : Token) (decos : List Node) : Parser Node := do
  let more ← if t.kind == .atSign then parseDecorators g else pure []
  let decos := decos ++ more
  if !decos.isEmpty then parseDecoratedClass g decos none
  else match t.kind with
  | .kwVar =>
    let _ ← advance
    parseVarStatement g t "var" {}
  | .kwConst =>
    let next ← peek2
    let _ ← advance
    if next.kind == .kwEnum then parseEnum g t { isConst := true }
    else parseVarStatement g t "const" {}
  | .kwFunction => parseFunctionDecl g t {}
  | .kwClass => parseClassDecl g t [] {}
  | .kwEnum => parseEnum g t {}
  | .ident =>
    match ← tryContextualStatement g t with
    | some n =>
      if n.kind == .labeled then
        errorAt t.span .unexpectedToken "unexpected label after 'export'"
        fail .reported
      else return n
    | none => unexpected "declaration after 'export'"
  | _ => unexpected "declaration after 'export'"

/-- An export; `decos` are decorators in front of it. -/
def parseExport (g : Rules) (decos : List Node) : Parser Node := do
  let start ← advance
  let t ← peek
  let next ← peek2
  if t.kind == .kwDefault then parseExportDefault g start decos
  else if t.kind == .assign then
    let _ ← advance
    requireTypes t
    let e ← withIn (g .assign)
    semicolon
    node .exportAssign start.span [e]
  else if t.is "as" then
    let _ ← advance
    requireTypes t
    let _ ← expectWord "namespace"
    let name ← parseBindingIdent
    semicolon
    node .exportAsNamespace start.span [name]
  else if t.kind == .star then parseExportAll g start {}
  else if t.kind == .lBrace then parseExportNamed g start {}
  else if t.is "type" && (next.kind == .lBrace || next.kind == .star) then
    let _ ← advance
    requireTypes t
    if ← at_ .star then parseExportAll g start { typeOnly := true }
    else parseExportNamed g start { typeOnly := true }
  else if t.kind == .kwImport then
    let imp ← parseImport g
    if imp.kind != .importEquals then
      errorAt imp.span .unexpectedToken "only 'import x = ...' can be exported"
      fail .reported
    node .exportDecl start.span [imp]
  else
    let decl ← parseExportedDeclaration g t decos
    node .exportDecl start.span [decl]

end ScriptLower.Parse
