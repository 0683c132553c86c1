import ScriptLower.Parse.Class
import ScriptLower.Parse.Element
import ScriptLower.Token.Kind

/-!
# Expressions
-/

namespace ScriptLower.Parse

open ScriptLower

/-- Whether the next token can begin an expression. -/
def startsExpression : Parser Bool := do
  let k := (← peek).kind
  match k with
  | .rParen | .rBracket | .rBrace | .semicolon | .comma | .colon | .eof | .question | .arrow | .gt
  | .kwIn | .kwInstanceof => return false
  | .plus | .minus | .lt | .slash | .slashAssign => return true
  | _ => return !k.isAssign && k.precedence == 0

/-! ## Operands -/

/-- A template. -/
def parseTemplate (g : Rules) : Parser Node := do
  let head ← advance
  if head.kind == .noSubstTemplate then
    return Node.new .template head.span [templatePiece head]
  let kids ← parseTemplateTail (withIn (parseExpression g))
    "expected '\x7d' to close template substitution" head
  node .template head.span kids

/-- The elements of an array. -/
def parseArrayLiteral (g : Rules) : Parser Node := do
  let open_ ← advance
  withIn do
    let kids ← listUntil .rBracket fun kids => do
      let t ← peek
      if t.kind == .comma then
        let _ ← advance
        return kids ++ [Node.new .hole t.span []]
      else
        let e ← parseSpreadable g
        separator .rBracket "expected ',' or ']'"
        return kids ++ [e]
    let _ ← expectRBracket
    node .array open_.span kids

/-- A member written as a name alone. With a default it is only right in a pattern. -/
def parseShorthand (g : Rules) (start : Token) (key : Node) : Parser Node := do
  let name := Node.ident key.text key.span
  let value ← do
    if ← eat .assign then
      let default_ ← g .assign
      pure (Node.newOp .assign .assign (← spanFrom name) [name, default_])
    else pure name
  return (← node .objProp start.span [key, value]).addFlags { shorthand := true }

/-- The word in front of a method's key, if it is a modifier here. -/
def parseMethodWord (start : Token) : Parser (Option Bytes) := do
  if start.is "async" || start.is "get" || start.is "set" then
    let next ← peek2
    if !next.newline && startsPropertyKey next then
      let _ ← advance
      return some start.text
    else return none
  else return none

/-- A member of an object. -/
def parseObjectMember (g : Rules) : Parser Node := do
  let start ← peek
  if start.kind == .dotDotDot then parseSpreadable g
  else
    let word ← parseMethodWord start
    let async := word == some (Bytes.ofString "async")
    let role : Bytes := if async then "method" else word.getD "method"
    let generator ← eat .star
    let (key, keyFlags) ← parsePropertyKey g
    if word.isSome || generator || (← atAny [.lParen, .lt]) then
      let flags : Flags := { async := async, generator := generator }
      parseMethod g start key role (flags.or keyFlags) .object
    else if ← eat .colon then
      let value ← g .assign
      return (← node .objProp start.span [key, value]).addFlags keyFlags
    else if key.kind != .ident || keyFlags.computed || start.kind != .ident then unexpected "':'"
    else parseShorthand g start key

/-- An object. -/
def parseObjectLiteral (g : Rules) : Parser Node := do
  let open_ ← advance
  withIn do
    let kids ← commaList .rBrace "expected ',' or '\x7d'" (parseObjectMember g)
    let _ ← expectRBrace
    node .object open_.span kids

/-- A module loaded by an expression, or what a module knows about itself. -/
def parseImportExpr (g : Rules) : Parser Node := do
  let start ← advance
  if ← eat .dot then
    if !(← atWord "meta") then unexpected "'meta'"
    else
      let _ ← advance
      return Node.newText .metaProp (← spanTo start.span) "import.meta"
  else
    let args ← parseArguments g
    if args.isEmpty || 2 < args.length then
      errorAt (← spanTo start.span) .unexpectedToken
        "import() takes a specifier and optional options"
      fail .reported
    node .importCall start.span args

/-- A regular expression, which begins like a division. -/
def parseRegExp (t : Token) : Parser Node := do
  let re ← readRegExp t
  -- the lexer has reported what is no regular expression
  if re.kind == .regExpLit then return literalOf re else fail .reported

/-- An operand. -/
def parsePrimary (g : Rules) : Parser Node := do
  let t ← peek
  match t.kind with
  | .ident =>
    let next ← peek2
    if t.is "async" && next.kind == .kwFunction && !next.newline then parseFunctionExpr g
    else
      let _ ← advance
      return identOf t
  | .kwThis =>
    let _ ← advance
    return Node.new .thisExpr t.span []
  | .kwSuper =>
    let _ ← advance
    if !(← atAny [.lParen, .dot, .lBracket]) then
      error .unexpectedToken "'super' must be followed by an argument list or member access"
      fail .reported
    return Node.new .superExpr t.span []
  | .numberLit | .bigIntLit | .stringLit =>
    let _ ← advance
    return literalOf t
  | .kwTrue | .kwFalse | .kwNull =>
    let _ ← advance
    return Node.keyword t.kind t.span
  | .slash | .slashAssign => parseRegExp t
  | .noSubstTemplate | .templateHead => parseTemplate g
  | .lParen => parseParen g
  | .lBracket => parseArrayLiteral g
  | .lBrace => parseObjectLiteral g
  | .kwFunction => parseFunctionExpr g
  | .kwClass => parseClassExpr g t []
  | .atSign =>
    let decos ← parseDecorators g
    if !(← at_ .kwClass) then unexpected "class expression after decorators"
    else parseClassExpr g t decos
  | .kwImport => parseImportExpr g
  | .privateName =>
    let _ ← advance
    if !(← at_ .kwIn) then
      errorAt t.span .unexpectedToken "private name is only allowed before 'in'"
      fail .reported
    return Node.newText .privateName t.span t.text
  | .lt =>
    let next ← peek2
    if (← view).grammar.elements then parseElement g
    else if next.kind == .ident || next.kind == .gt then
      error .elementsDisabled "JSX syntax requires the jsx or tsx dialect"
      fail .reported
    else unexpected "expression"
  | .invalid =>
    -- the lexer has reported it
    let _ ← advance
    fail .reported
  | _ => unexpected "expression"

/-! ## What follows an operand -/

/-- An index in brackets. -/
def parseIndex (g : Rules) (base : Node) : Parser Node := do
  let _ ← advance
  let index ← withIn (parseExpression g)
  let _ ← expectRBracket
  node .index base.span [base, index]

/-- A template with a tag in front. -/
def parseTagged (g : Rules) (tag targs : Node) : Parser Node := do
  let template ← parseTemplate g
  return (← node .taggedTemplate tag.span [tag, template]).withTargs targs

/-- Type arguments behind an expression and what follows them: a call, a template, or nothing that
could continue a comparison. -/
def parseTypeArgsInExpr (g : Rules) (base : Node) (allowCall : Bool) : Parser Node := do
  let targs ← parseTypeArgs g
  let next ← peek
  let alone : Parser Node := do return (← node .instantiation base.span [base]).withTargs targs
  match next.kind with
  | .lParen => if allowCall then parseCall g base targs else alone
  | .noSubstTemplate | .templateHead => parseTagged g base targs
  | _ => if next.newline || !(← startsExpression) then alone else fail .otherReading

/-- What follows the sign of an optional link. -/
def parseOptionalLink (g : Rules) (base : Node) : Parser Node := do
  let link ← do
    match (← peek).kind with
    | .lParen => parseCall g base .absent
    | .lBracket => parseIndex g base
    | .lt | .shl =>
      let targs ← parseTypeArgs g
      parseCall g base targs
    | _ =>
      let name ← parseMemberName
      node .member base.span [base, name]
  return link.addFlags { optional := true }

/-- Reads one link behind an operand: the longer operand, or nothing when none follows. -/
def parseLink (g : Rules) (allowCall optional : Bool) (base : Node) :
    Parser (Option (Node × Bool)) := do
  let t ← peek
  match t.kind with
  | .dot =>
    let _ ← advance
    let name ← parseMemberName
    return some (← node .member base.span [base, name], optional)
  | .questionDot =>
    if !allowCall then
      error .unexpectedToken "optional chain is not allowed in a new expression"
      fail .reported
    let _ ← advance
    return some (← parseOptionalLink g base, true)
  | .lBracket => return some (← parseIndex g base, optional)
  | .lParen => if allowCall then return some (← parseCall g base .absent, optional) else return none
  | .noSubstTemplate | .templateHead =>
    if optional then
      error .unexpectedToken "tagged template cannot be used in an optional chain"
      fail .reported
    return some (← parseTagged g base .absent, optional)
  | .bang =>
    if t.newline || !(← view).grammar.types then return none
    let _ ← advance
    return some (← node .nonNull base.span [base], optional)
  | .lt | .shl =>
    if !(← view).grammar.types then return none
    match ← speculate (parseTypeArgsInExpr g base allowCall) with
    | some n => return some (n, optional)
    | none => return none
  | _ => return none

/-- An operand with its links. A chain with an optional link is wrapped once as a whole. -/
def parseCallTail (g : Rules) (allowCall : Bool) (base : Node) : Parser Node := do
  let (n, optional) ← loop (fun (n, optional) => do
    match ← parseLink g allowCall optional n with
    | some next => return .inl next
    | none => return .inr (n, optional)) (base, false)
  return if optional then Node.new .optChain n.span [n] else n

/-- A construction, or the target of one. -/
def parseNew (g : Rules) : Parser Node := do
  let start ← advance
  if ← eat .dot then
    if !(← atWord "target") then unexpected "'target'"
    else
      let _ ← advance
      return Node.newText .metaProp (← spanTo start.span) "new.target"
  else
    let operand ← if ← at_ .kwNew then g .construct else parsePrimary g
    let callee ← parseCallTail g false operand
    let (callee, targs) :=
      if callee.kind == .instantiation then (callee.kid 0, callee.targs) else (callee, .absent)
    if ← at_ .lParen then
      let args ← parseArguments g
      let n ← node .newExpr start.span (callee :: args)
      return (n.withTargs targs).addFlags { hasArgs := true }
    else return (← node .newExpr start.span [callee]).withTargs targs

/-- An operand with what follows it. -/
def parseLhs (g : Rules) : Parser Node := do
  let base ← if ← at_ .kwNew then g .construct else parsePrimary g
  parseCallTail g true base

/-! ## Operators -/

/-- An operand with an update operator behind it. -/
def parsePostfix (g : Rules) : Parser Node := do
  let e ← g .lhs
  let t ← peek
  if (t.kind == .plusPlus || t.kind == .minusMinus) && !t.newline then
    checkSimpleTarget e
    let _ ← advance
    return Node.newOp .update t.kind (← spanFrom e) [e]
  else return e

/-- A type in front of the expression it is asserted of. -/
def parseTypeAssertion (g : Rules) : Parser Node := do
  let lt ← advance
  let type ← parseType g
  let _ ← expectGreater
  let arg ← g .unary
  return (← node .typeAssert lt.span [arg]).withType type

/-- An operand with its prefix operators. -/
def parseUnary (g : Rules) : Parser Node := do
  let t ← peek
  let v ← view
  match t.kind with
  | .bang | .tilde | .plus | .minus | .kwTypeof | .kwVoid | .kwDelete =>
    let _ ← advance
    let arg ← g .unary
    if t.kind == .kwDelete && v.grammar.strictEarlyErrors && arg.unparen.kind == .ident then
      errorAt arg.span .strictDelete "deleting an identifier is not allowed in strict mode"
    return Node.newOp .unary t.kind (← spanTo t.span) [arg]
  | .plusPlus | .minusMinus =>
    let _ ← advance
    let arg ← g .unary
    checkSimpleTarget arg
    return (Node.newOp .update t.kind (← spanTo t.span) [arg]).addFlags { prefixed := true }
  | .lt =>
    if v.grammar.types && !v.grammar.elements then parseTypeAssertion g else parsePostfix g
  | .ident =>
    if t.is "await" && (v.fn.async || !v.fn.inFunction) && v.typeDepth == 0 then
      let _ ← advance
      let arg ← g .unary
      node .await t.span [arg]
    else parsePostfix g
  | _ => parsePostfix g

/-- The next token; a lone greater-than sign is put together with what follows it. -/
def peekOperator : Parser Token := do
  let t ← peek
  if t.kind != .gt then return t else joinGreater t

/-- A type that an expression is asserted to have, behind the word `as` or `satisfies`. -/
def parseAssertion (g : Rules) (word : Token) (left : Node) : Parser Node := do
  let _ ← advance
  requireTypes word
  let isAs := word.text == Bytes.ofString "as"
  let type ← do
    if isAs && (← at_ .kwConst) then
      let c ← advance
      pure (Node.newText .typeKeyword c.span "const")
    else parseType g
  return (← node (if isAs then .asExpr else .satisfies) left.span [left]).withType type

/-- The operators behind a left operand that bind more tightly than `above`. -/
def parseBinaryRest (g : Rules) (above : Nat) (left : Node) : Parser Node :=
  loop (fun left => do
    let t ← peekOperator
    if (t.is "as" || t.is "satisfies") && !t.newline && above < TokenKind.relational then
      return .inl (← parseAssertion g t left)
    let prec := if t.kind == .kwIn && (← view).noIn then 0 else t.kind.precedence
    if prec ≤ above then return .inr left
    let _ ← advance
    if t.kind == .starStar && (left.kind == .unary || left.kind == .await) then
      errorAt t.span .unexpectedToken "unary operand of '**' must be parenthesized"
    let right ← g (.binary (if t.kind == .starStar then prec - 1 else prec))
    return .inl (Node.newOp .binary t.kind (← spanFrom left) [left, right])) left

/-- Operators that bind more tightly than `above`, with their operands. -/
def parseBinary (g : Rules) (above : Nat) : Parser Node := do parseBinaryRest g above (← g .unary)

/-- A choice between two expressions, or an expression of operators alone. -/
def parseConditional (g : Rules) : Parser Node := do
  let test ← g (.binary 0)
  if !(← eat .question) then return test
  let yes ← withIn (g .assign)
  let _ ← expect .colon .unexpectedToken "expected ':' in conditional expression"
  let no ← g .assign
  node .conditional test.span [test, yes, no]

/-- The value a generator yields. -/
def parseYield (g : Rules) : Parser Node := do
  let start ← advance
  if ← eat .star then
    let arg ← g .assign
    return (← node .yield start.span [arg]).addFlags { delegate := true }
  else
    let arg ← do
      if !(← peek).newline && (← startsExpression) then g .assign else pure .absent
    node .yield start.span [arg]

/-- An expression without commas. -/
def parseAssign (g : Rules) : Parser Node := do
  if (← peek).is "yield" && (← view).fn.generator then parseYield g
  else match ← tryArrow g with
  | some n => return n
  | none =>
    let left ← parseConditional g
    let op ← peek
    if !op.kind.isAssign then return left
    let target ← do
      if op.kind == .assign then toTarget false left
      else
        checkSimpleTarget left
        pure left
    let _ ← advance
    let right ← g .assign
    return Node.newOp .assign op.kind (← spanFrom target) [target, right]

end ScriptLower.Parse
