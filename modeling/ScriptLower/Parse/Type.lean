import ScriptLower.Parse.Parameter

/-!
# Types

Types are read in full, though only to be erased: a type must be known to its end before what
follows it can be read.
-/

namespace ScriptLower.Parse

open ScriptLower

/-- The names of the types that are built in. -/
def typeKeywords : List String :=
  ["any", "unknown", "number", "bigint", "boolean", "string", "symbol", "object", "never",
    "undefined", "intrinsic"]

/-- What a predicate is about: a parameter or the receiver. -/
def parsePredicateSubject : Parser Node := do
  let t ← advance
  if t.kind == .kwThis then return Node.new .thisExpr t.span [] else return identOf t

/-- A type, or a predicate about a parameter or the receiver. -/
def parseTypeOrPredicate (g : Rules) : Parser Node := do
  let t ← peek
  let next ← peek2
  if t.is "asserts" && !next.newline && (next.kind == .ident || next.kind == .kwThis) then
    let _ ← advance
    let subject ← parsePredicateSubject
    let is_ ← peek
    let type ← do
      if is_.is "is" && !is_.newline then
        let _ ← advance
        parseType g
      else pure .absent
    return (← node .typePredicate t.span [subject, type]).addFlags { asserts := true }
  else if (t.kind == .ident || t.kind == .kwThis) && next.is "is" && !next.newline then
    let subject ← parsePredicateSubject
    let _ ← advance
    let type ← parseType g
    node .typePredicate t.span [subject, type]
  else parseType g

/-- The type a function returns, if it is given. -/
def parseReturnTypeOpt (g : Rules) : Parser Node := do
  if !(← at_ .colon) then return .absent
  requireTypes (← advance)
  inType (parseTypeOrPredicate g)

/-- Whether the tokens behind a parenthesis show that it opens parameters and not a type. -/
def opensParameters (g : Rules) : Parser Bool := lookahead do
  let _ ← advance
  let behind : Parser Bool := do
    match (← peek).kind with
    | .colon | .comma | .question | .assign => return true
    | .rParen =>
      let _ ← advance
      at_ .arrow
    | _ => return false
  match (← peek).kind with
  | .rParen | .dotDotDot => return true
  | .lBracket | .lBrace =>
    let _ ← g .binding
    behind
  | .ident | .kwThis =>
    let _ ← advance
    behind
  | _ => return false

/-- Whether a function type begins here. -/
def startsFunctionType (g : Rules) : Parser Bool := do
  let t ← peek
  if t.kind == .lt || t.kind == .kwNew then return true
  else if t.is "abstract" then return (← peek2).kind == .kwNew
  else if t.kind != .lParen then return false
  else opensParameters g

/-- The type of a function or a constructor. -/
def parseFunctionType (g : Rules) : Parser Node := do
  let start ← peek
  let isAbstract ← eatWord "abstract"
  let kind ← do
    if ← eat .kwNew then pure NodeKind.typeConstructor else pure NodeKind.typeFunction
  let tparams ← parseTypeParamsOpt g
  let params ← keepingFunction id (parseParams g false)
  let _ ← expect .arrow .expectedType "expected '=>' in function type"
  let result ← parseTypeOrPredicate g
  let n ← node kind start.span [params]
  return ((n.withType result).withTargs tparams).addFlags { isAbstract := isAbstract }

/-- Types with a sign between them and perhaps one in front. A single type stands for itself. -/
def parseTypeList (g : Rules) (sep : TokenKind) (kind : NodeKind) (item : Parser Node) :
    Parser Node := do
  let start ← peek
  let leading ← eat sep
  let first ← item
  if !leading && !(← at_ sep) then return first
  let kids ← loop (fun kids => do
    if ← eat sep then
      let n ← if ← startsFunctionType g then parseFunctionType g else item
      return .inl (kids ++ [n])
    else return .inr kids) [first]
  match kids with
  | [n] => return n
  | _ => node kind start.span kids

/-- A union of intersections. -/
def parseUnionType (g : Rules) (noCond : Bool) : Parser Node :=
  parseTypeList g .pipe .typeUnion
    (parseTypeList g .amp .typeIntersection (g (.typeOperator noCond)))

/-- A type, conditions included. -/
def parseTypeInner (g : Rules) (noCond : Bool) : Parser Node := do
  if ← startsFunctionType g then parseFunctionType g
  else
    let start ← peek
    let check ← parseUnionType g noCond
    if noCond || !(← at_ .kwExtends) || (← peek).newline then return check
    let _ ← advance
    let bound ← g (.type true)
    let _ ← expect .question .expectedType "expected '?' in conditional type"
    let yes ← g (.type false)
    let _ ← expect .colon .expectedType "expected ':' in conditional type"
    let no ← g (.type false)
    node .typeConditional start.span [check, bound, yes, no]

/-- Whether a token can begin a type, so that the word in front of it is an operator. -/
def startsOperandType (t : Token) : Bool :=
  match t.kind with
  | .ident | .lParen | .lBracket | .lBrace | .kwTypeof | .kwVoid | .kwNull | .kwThis | .stringLit
  | .numberLit | .bigIntLit | .kwTrue | .kwFalse | .minus | .kwImport | .noSubstTemplate
  | .templateHead => true
  | _ => false

/-- A type that is inferred, behind its keyword. A constraint in front of a condition's question
mark belongs to the outer type. -/
def parseInfer (g : Rules) (start : Token) (noCond : Bool) : Parser Node := do
  let name ← advance
  let constraint ← do
    if ← at_ .kwExtends then
      let tried ← speculate do
        let _ ← advance
        let c ← g (.type true)
        if noCond && (← at_ .question) then fail .otherReading else return c
      pure (tried.getD .absent)
    else pure .absent
  let param ← node .typeParam name.span [identOf name, constraint, .absent]
  node .typeInfer start.span [param]

/-- A dotted name. -/
def parseEntityName : Parser Node := do
  let t ← peek
  let path (first : Node) : Parser Node :=
    loop (fun name => do
      if ← eat .dot then
        let right ← parseMemberName
        return .inl (← node .typeQualified name.span [name, right])
      else return .inr name) first
  match t.kind with
  | .ident =>
    let _ ← advance
    path (identOf t)
  | .kwThis =>
    let _ ← advance
    path (Node.new .thisExpr t.span [])
  | k =>
    if k.isKeyword then
      error .expectedIdentifier
        ("'" ++ t.text ++ "' is a reserved word and cannot be used as a type name")
      fail .reported
    else unexpected "type name"

/-- Type arguments on the same line, if there are any. -/
def parseTypeArgsOpt (g : Rules) (split : Bool) : Parser Node := do
  let t ← peek
  if (t.kind == .lt || (split && t.kind == .shl)) && !t.newline then parseTypeArgs g
  else return .absent

/-- A named type with its arguments. -/
def parseTypeReference (g : Rules) : Parser Node := inType do
  let start ← peek
  let name ← parseEntityName
  let targs ← parseTypeArgsOpt g true
  return (← node .typeRef start.span [name]).withTargs targs

/-- The names behind the dots of an imported type. -/
def parseQualifier : Parser Node :=
  loop (fun qual => do
    if ← eat .dot then
      let right ← parseMemberName
      if qual.isPresent then return .inl (← node .typeQualified qual.span [qual, right])
      else return .inl right
    else return .inr qual) .absent

/-- A type of another module. -/
def parseImportType (g : Rules) : Parser Node := do
  let start ← advance
  let _ ← expect .lParen .unexpectedToken "expected '(' after import"
  let src ← peek
  if src.kind != .stringLit then unexpected "module specifier"
  else
    let _ ← advance
    if (← eat .comma) && !(← at_ .rParen) then
      let _ ← withIn (g .assign)
      let _ ← eat .comma
    let _ ← expectRParen
    let qual ← parseQualifier
    let targs ← parseTypeArgsOpt g false
    return (← node .typeImport start.span [stringOf src, qual]).withTargs targs

/-- The type of a value. -/
def parseTypeQuery (g : Rules) : Parser Node := do
  let start ← advance
  let name ← if ← at_ .kwImport then parseImportType g else parseEntityName
  let targs ← parseTypeArgsOpt g false
  return (← node .typeQuery start.span [name]).withTargs targs

/-- The text of a piece of a template, without its delimiters. -/
def templateText (t : Token) : Bytes :=
  match t.kind with
  | .noSubstTemplate | .templateTail => (t.text.drop 1).dropLast
  | .templateHead | .templateMiddle => (t.text.drop 1).dropLast.dropLast
  | _ => t.text

/-- A piece of a template. -/
def templatePiece (t : Token) : Node := Node.newText .templateElem t.span (templateText t)

/-- The pieces of a template behind its head, with a substitution in front of each. -/
def parseTemplateTail (item : Parser Node) (message : String) (head : Token) : Parser (List Node) :=
  loop (fun kids => do
    let e ← item
    let t ← peek
    if t.kind != .rBrace then
      error .unexpectedToken message
      fail .reported
    let cont ← readTemplate t
    let kids := kids ++ [e, templatePiece cont]
    match cont.kind with
    | .templateMiddle => return .inl kids
    | .templateTail => return .inr kids
    -- the lexer has reported the missing end
    | _ => fail .reported) [templatePiece head]

/-- A template of types. -/
def parseTemplateType (g : Rules) : Parser Node := do
  let head ← advance
  if head.kind == .noSubstTemplate then
    return Node.new .typeTemplate head.span [templatePiece head]
  let kids ← parseTemplateTail (g (.type false))
    "expected '\x7d' to close template type substitution" head
  node .typeTemplate head.span kids

/-- Whether a named element of a tuple begins here. -/
def startsNamedElement : Parser Bool := lookahead do
  let _ ← advance
  let _ ← eat .question
  at_ .colon

/-- An element of a tuple. -/
def parseTupleElement (g : Rules) : Parser Node := do
  let start ← peek
  let rest ← eat .dotDotDot
  let t ← peek
  let next ← peek2
  if t.kind.isPropertyName && (next.kind == .colon || next.kind == .question)
      && (← startsNamedElement) then
    let _ ← advance
    let optional ← eat .question
    let _ ← advance
    let type ← g (.type false)
    let n ← node .typeNamedMember start.span [identOf t, type]
    return n.addFlags { rest := rest, optional := optional }
  else
    let type ← g (.type false)
    if rest then node .typeRest start.span [type]
    else if ← eat .question then node .typeOptional start.span [type]
    else return type

/-- A tuple. -/
def parseTupleType (g : Rules) : Parser Node := do
  let open_ ← advance
  let kids ← commaList .rBracket "expected ',' or ']'" (parseTupleElement g)
  let _ ← expect .rBracket .unclosedBracket "expected ']' to close tuple type"
  node .typeTuple open_.span kids

/-- Whether a brace opens a mapped type. -/
def isMappedType : Parser Bool := lookahead do
  let _ ← advance
  let signed ← atAny [.plus, .minus]
  if signed then
    let _ ← advance
    if !(← atWord "readonly") then return false
  let _ ← eatWord "readonly"
  if !(← eat .lBracket) then return false
  if !(← at_ .ident) then return false
  let _ ← advance
  at_ .kwIn

/-- The question mark behind the key of a mapped type, with its sign. -/
def parseMappedOptional : Parser Bytes := do
  let t ← peek
  if t.kind == .plus || t.kind == .minus then
    let _ ← advance
    if !(← at_ .question) then
      let got ← peek
      errorAt (← errorSpan) (if got.kind == .eof then .unexpectedEnd else .expectedType)
        ("expected '?' after '" ++ t.text ++ "', got " ++ describe got)
      fail .reported
    let _ ← advance
    return t.text ++ "?"
  else if ← eat .question then return "?"
  else return []

/-- A mapped type. Its modifiers are kept as written. -/
def parseMappedType (g : Rules) : Parser Node := do
  let open_ ← advance
  let sign ← peek
  let signed := sign.kind == .plus || sign.kind == .minus
  if signed then
    let _ ← advance
  let isReadonly ← eatWord "readonly"
  let _ ← advance
  let name ← advance
  let _ ← advance
  let constraint ← g (.type false)
  let param ← node .typeParam name.span [identOf name, constraint, .absent]
  let nameType ← if ← eatWord "as" then g (.type false) else pure .absent
  let _ ← expect .rBracket .unclosedBracket "expected ']' in mapped type"
  let optional ← parseMappedOptional
  let value ← if ← eat .colon then g (.type false) else pure .absent
  let _ ← eat .semicolon
  let _ ← eat .comma
  let _ ← expect .rBrace .unclosedBrace "expected '\x7d' to close mapped type"
  let n ← node .typeMapped open_.span [param, nameType, value]
  let mods :=
    (if signed then sign.text else []) ++ (if isReadonly then Bytes.ofString "readonly" else [])
  let gap : Bytes := if optional.isEmpty || mods.isEmpty then [] else [32]
  return n.withText (mods ++ gap ++ optional)

/-- Whether a bracket opens an index signature. -/
def isIndexSignature : Parser Bool := lookahead do
  let _ ← advance
  if !(← at_ .ident) then return false
  let _ ← advance
  at_ .colon

/-- An index signature of a class or a type. -/
def parseIndexSignature (g : Rules) (start : Token) (kind : NodeKind) (flags : Flags) :
    Parser Node := do
  let _ ← advance
  inType do
    let name ← advance
    let keyType ← parseTypeAnnotation g
    let _ ← expectRBracket
    let param ← node .param name.span [identOf name, .absent]
    let type ← parseAnnotationOpt g
    let n ← node kind start.span [param.withType keyType]
    return (n.withType type).addFlags flags

/-- The parameters and the result of a signature; `key` is what stands in front of the
parameters. -/
def parseSignature (g : Rules) (start : Token) (kind : NodeKind) (key : List Node) :
    Parser Node := do
  let tparams ← parseTypeParamsOpt g
  let params ← keepingFunction id (parseParams g false)
  let result ← if ← eat .colon then parseTypeOrPredicate g else pure .absent
  let n ← node kind start.span (key ++ [params])
  return (n.withType result).withTargs tparams

/-- The word in front of an accessor's key, if this is an accessor. -/
def parseAccessorWord (starOk : Bool) : Parser (Option Bytes) := do
  let t ← peek
  if t.is "get" || t.is "set" then
    let next ← peek2
    if !next.newline && startsPropertyKey next && (starOk || next.kind != .star) then
      let _ ← advance
      return some t.text
    else return none
  else return none

/-- A member of an interface or a type literal that has a key. -/
def parseKeyedTypeMember (g : Rules) (start : Token) : Parser Node := do
  let isReadonly ← do
    if start.is "readonly" && startsPropertyKey (← peek2) then
      let _ ← advance
      pure true
    else pure false
  let flags : Flags := { isReadonly := isReadonly }
  if (← at_ .lBracket) && (← isIndexSignature) then parseIndexSignature g start .typeIndexSig flags
  else
    let word ← parseAccessorWord true
    let (key, keyFlags) ← parsePropertyKey g
    let optional ← eat .question
    let flags := (flags.or keyFlags).or { optional := optional }
    if word.isSome || (← atAny [.lParen, .lt]) then
      let n ← parseSignature g start .typeMethod [key]
      return (n.addFlags flags).withText (word.getD [])
    else
      let type ← if ← eat .colon then g (.type false) else pure .absent
      return ((← node .typeProperty start.span [key]).withType type).addFlags flags

/-- A member of an interface or a type literal. -/
def parseTypeMember (g : Rules) : Parser Node := do
  let start ← peek
  let next ← peek2
  if start.kind == .lParen || start.kind == .lt then parseSignature g start .typeCallSig []
  else if start.kind == .kwNew && (next.kind == .lParen || next.kind == .lt) then
    let _ ← advance
    parseSignature g start .typeConstructSig []
  else parseKeyedTypeMember g start

/-- The members of an interface or a type literal, in braces. -/
def parseTypeLiteral (g : Rules) : Parser Node := do
  let open_ ← expect .lBrace .unexpectedToken "expected '\x7b'"
  inType do
    let members ← listUntil .rBrace fun members => do
      let m ← parseTypeMember g
      if !(← eat .semicolon) then
        if !(← eat .comma) then
          let t ← peek
          if t.kind != .rBrace && !t.newline then
            error .expectedSemicolon
              ("expected ';' or newline between type members, got " ++ describe t)
            fail .reported
      return members ++ [m]
    let _ ← expect .rBrace .unclosedBrace "expected '\x7d' to close type literal"
    node .typeLiteral open_.span members

/-- A type without operators around it. -/
def parsePrimaryType (g : Rules) : Parser Node := do
  let t ← peek
  match t.kind with
  | .ident =>
    if (typeKeywords.any fun w => t.is w) && (← peek2).kind != .dot then
      let _ ← advance
      return Node.newText .typeKeyword t.span t.text
    else parseTypeReference g
  | .kwVoid | .kwNull | .kwThis =>
    let _ ← advance
    return Node.newText .typeKeyword t.span t.text
  | .kwTrue | .kwFalse =>
    let _ ← advance
    return Node.new .typeLit t.span [Node.keyword t.kind t.span]
  | .stringLit | .numberLit | .bigIntLit =>
    let _ ← advance
    return Node.new .typeLit t.span [literalOf t]
  | .minus =>
    let _ ← advance
    let num ← peek
    if num.kind != .numberLit && num.kind != .bigIntLit then unexpected "numeric literal type"
    else
      let _ ← advance
      let span ← spanTo t.span
      return Node.new .typeLit span [Node.newOp .unary .minus span [literalOf num]]
  | .noSubstTemplate | .templateHead => parseTemplateType g
  | .kwTypeof => parseTypeQuery g
  | .kwImport => parseImportType g
  | .lBrace => if ← isMappedType then parseMappedType g else parseTypeLiteral g
  | .lBracket => parseTupleType g
  | .lParen =>
    let _ ← advance
    let inner ← g (.type false)
    let _ ← expectRParen
    node .typeParen t.span [inner]
  | .eof =>
    error .unterminatedType "unexpected end of input in type"
    fail .reported
  | _ =>
    error .expectedType ("expected a type, got " ++ describe t)
    fail .reported

/-- A type with the brackets behind it. -/
def parsePostfixType (g : Rules) : Parser Node := do
  let first ← parsePrimaryType g
  loop (fun type => do
    let t ← peek
    if t.kind != .lBracket || t.newline then return .inr type
    let _ ← advance
    if ← eat .rBracket then return .inl (← node .typeArray type.span [type])
    let index ← g (.type false)
    let _ ← expectRBracket
    return .inl (← node .typeIndexed type.span [type, index])) first

/-- A type with its prefix operators. -/
def parseTypeOperator (g : Rules) (noCond : Bool) : Parser Node := do
  let t ← peek
  if (t.is "keyof" || t.is "unique" || t.is "readonly") && startsOperandType (← peek2) then
    let _ ← advance
    let arg ← g (.typeOperator noCond)
    return (← node .typeOperator t.span [arg]).withText t.text
  else if t.is "infer" && (← peek2).kind == .ident then
    let _ ← advance
    parseInfer g t noCond
  else parsePostfixType g

end ScriptLower.Parse
