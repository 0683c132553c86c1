import ScriptLower.Parse.Expression

/-!
# Declarations
-/

namespace ScriptLower.Parse

open ScriptLower

/-! ## Variables -/

/-- One variable or pattern of a declaration. In the head of a loop, in an ambient context and in
front of a type-level declaration the value may be missing. -/
def parseDeclarator (g : Rules) (keyword : Bytes) (flags : Flags) (inFor : Bool) : Parser Node := do
  let target ← g .binding
  let t ← peek
  let definite := t.kind == .bang && !t.newline
  if definite then
    let _ ← advance
    requireTypes t
  let type ← parseAnnotationOpt g
  let value ← do
    if ← eat .assign then g .assign
    else
      let isPattern := target.kind == .arrayPattern || target.kind == .objectPattern
      if !inFor && (← view).ambient == 0 && !flags.declared
          && (keyword == Bytes.ofString "const" || isPattern) then
        errorAt target.span .missingInitializer
          ("missing initializer in " ++ keyword ++ " declaration")
      pure .absent
  declareAll (keyword != Bytes.ofString "var") (boundNames target)
  let n ← node .declarator target.span [target, value]
  return (n.addFlags { definite := definite }).withType type

/-- The variables of a declaration behind its keyword. -/
def parseVarDeclList (g : Rules) (start : Token) (keyword : Bytes) (flags : Flags) (inFor : Bool) :
    Parser Node := do
  let kids ← loop (fun kids => do
    let d ← parseDeclarator g keyword flags inFor
    let kids := kids ++ [d]
    if ← eat .comma then return .inl kids else return .inr kids) []
  return ((← node .varDecl start.span kids).withText keyword).addFlags flags

/-- A declaration of variables behind its keyword, with the end of the statement. -/
def parseVarStatement (g : Rules) (start : Token) (keyword : Bytes) (flags : Flags) :
    Parser Node := do
  let n ← parseVarDeclList g start keyword flags false
  semicolon
  return n.withSpan (← spanTo start.span)

/-! ## Enumerations -/

/-- A member of an enumeration. -/
def parseEnumMember (g : Rules) : Parser Node := do
  let t ← peek
  addLeading t
  if !t.kind.isPropertyName && t.kind != .stringLit then
    error .expectedIdentifier "enum member name must be an identifier or a string"
    fail .reported
  let key := if t.kind == .stringLit then stringOf t else identOf t
  let _ ← advance
  let value ← if ← eat .assign then withIn (g .assign) else pure .absent
  node .enumMember t.span [key, value]

/-- An enumeration from its keyword on. -/
def parseEnum (g : Rules) (start : Token) (flags : Flags) : Parser Node := do
  requireTypes (← expect .kwEnum .unexpectedToken "expected 'enum'")
  let name ← parseBindingIdent
  let _ ← expect .lBrace .unexpectedToken "expected '\x7b' after enum name"
  let members ← commaList .rBrace "expected ',' or '\x7d'" (parseEnumMember g)
  addDangling
  let _ ← expect .rBrace .unclosedBrace "expected '\x7d' to close enum"
  return (← node .enumDecl start.span (name :: members)).addFlags flags

/-! ## Types with a name -/

/-- An interface from its keyword on. -/
def parseInterface (g : Rules) (start : Token) (flags : Flags) : Parser Node := do
  requireTypes (← advance)
  inType do
    let name ← parseBindingIdent
    let tparams ← parseTypeParamsOpt g
    let bases ← if ← eat .kwExtends then parseHeritageList g else pure .absent
    let body ← parseTypeLiteral g
    let n ← node .interfaceDecl start.span [name, bases, body]
    return (n.withTargs tparams).addFlags flags

/-- A name for a type, from its keyword on. -/
def parseTypeAlias (g : Rules) (start : Token) (flags : Flags) : Parser Node := do
  requireTypes (← advance)
  inType do
    let name ← parseBindingIdent
    let tparams ← parseTypeParamsOpt g
    let _ ← expect .assign .unexpectedToken "expected '=' in type alias"
    let type ← parseType g
    semicolon
    let n ← node .typeAlias start.span [name, type]
    return (n.withTargs tparams).addFlags flags

/-! ## Namespaces -/

/-- The statements of a namespace, in braces. -/
def parseNamespaceBlock (g : Rules) (start : Token) (name : Node) (flags : Flags) :
    Parser Node := do
  let open_ ← expect .lBrace .unexpectedToken "expected '\x7b'"
  let stmts ← inScope (parseStatementList g .rBrace true)
  addDangling
  let _ ← expect .rBrace .unclosedBrace "expected '\x7d' to close namespace"
  let body ← node .block open_.span stmts
  return (← node .namespaceDecl start.span [name, body]).addFlags flags

/-- The body of a namespace; a declared one is ambient. -/
def parseNamespaceBody (g : Rules) (start : Token) (name : Node) (flags : Flags) : Parser Node :=
  if flags.declared then inAmbient (parseNamespaceBlock g start name flags)
  else parseNamespaceBlock g start name flags

/-- A namespace from its keyword on. A dotted name nests one namespace in another, and the dot
stands for the keyword of the inner one. -/
def parseNamespace (g : Rules) (start : Token) (flags : Flags) : Parser Node := do
  let word ← advance
  requireTypes word
  let t ← peek
  if flags.isGlobal then
    parseNamespaceBody g start (Node.ident "global" word.span) (flags.or { declared := true })
  else if t.kind == .stringLit then
    let _ ← advance
    let flags := flags.or { declared := true }
    if ← at_ .lBrace then parseNamespaceBody g start (stringOf t) flags
    else
      semicolon
      return (← node .namespaceDecl start.span [stringOf t, .absent]).addFlags flags
  else
    let name ← parseBindingIdent
    let dot ← peek
    if dot.kind == .dot then
      let inner ← g (.namespaceFrom dot flags)
      return (← node .namespaceDecl start.span [name, inner]).addFlags flags
    else parseNamespaceBody g start name flags

/-! ## Ambient declarations -/

/-- The declaration behind the word `declare`. -/
def parseDeclared (g : Rules) (start : Token) : Parser Node := do
  let t ← peek
  let next ← peek2
  let flags : Flags := { declared := true }
  if t.kind == .kwVar || (t.kind == .kwConst && next.kind != .kwEnum) || t.is "let" then
    let _ ← advance
    parseVarStatement g start t.text flags
  else if t.kind == .kwConst then
    let _ ← advance
    parseEnum g start { flags with isConst := true }
  else if t.kind == .kwFunction || t.is "async" then parseFunctionDecl g start flags
  else if t.kind == .kwClass then parseClassDecl g start [] flags
  else if t.is "abstract" then
    let _ ← advance
    parseClassDecl g start [] { flags with isAbstract := true }
  else if t.kind == .kwEnum then parseEnum g start flags
  else if t.is "namespace" || t.is "module" then g (.namespaceFrom start flags)
  else if t.is "global" then g (.namespaceFrom start { flags with isGlobal := true })
  else if t.is "interface" then parseInterface g start flags
  else if t.is "type" then parseTypeAlias g start flags
  else unexpected "declaration after 'declare'"

/-- A declaration with the word `declare` in front. Everything inside is ambient. -/
def parseDeclare (g : Rules) (start : Token) : Parser Node := do
  requireTypes (← advance)
  let n ← inAmbient (parseDeclared g start)
  return (n.addFlags { declared := true }).withSpan (← spanTo start.span)

/-- The contextual keywords that can follow the word `declare`. -/
def declarationWords : List String :=
  ["let", "async", "interface", "type", "namespace", "module", "global", "abstract"]

/-- Whether a token can follow the word `declare`. -/
def startsDeclaration (t : Token) : Bool :=
  match t.kind with
  | .kwVar | .kwConst | .kwFunction | .kwClass | .kwEnum => true
  | .ident => declarationWords.any fun w => Bytes.ofString w == t.text
  | _ => false

/-- A statement with a label. -/
def parseLabeled (g : Rules) : Parser Node := do
  let t ← advance
  let _ ← advance
  let isLoop ← atAny [.kwFor, .kwWhile, .kwDo]
  let body ← inLabel { name := t.text, isLoop := isLoop } (g (.statement false))
  node .labeled t.span [identOf t, body]

/-- A statement that begins with the contextual keyword `t`, or with a label; nothing when it is
an expression. -/
def tryContextualStatement (g : Rules) (t : Token) : Parser (Option Node) := do
  if t.escaped then return none
  let next ← peek2
  let sameLine := !next.newline
  let named := next.kind == .ident && sameLine
  if t.is "let" && startsPattern next then
    let _ ← advance
    return some (← parseVarStatement g t "let" {})
  else if t.is "async" && next.kind == .kwFunction && sameLine then
    return some (← parseFunctionDecl g t {})
  else if t.is "interface" && named then return some (← parseInterface g t {})
  else if t.is "type" && named then return some (← parseTypeAlias g t {})
  else if t.is "namespace" && named then return some (← g (.namespaceFrom t {}))
  else if t.is "module" && (named || (next.kind == .stringLit && sameLine)) then
    return some (← g (.namespaceFrom t {}))
  else if t.is "global" && next.kind == .lBrace && sameLine && 0 < (← view).ambient then
    return some (← g (.namespaceFrom t { isGlobal := true }))
  else if t.is "declare" && sameLine && startsDeclaration next then
    return some (← parseDeclare g t)
  else if t.is "abstract" && next.kind == .kwClass && sameLine then
    let _ ← advance
    return some (← parseClassDecl g t [] { isAbstract := true })
  else if next.kind == .colon then
    checkRuntime t
    return some (← parseLabeled g)
  else return none

end ScriptLower.Parse
