import ScriptLower.Parse.Type

/-!
# Blocks and functions

A block goes on behind a statement that does not parse, so one fault does not hide the next. A
function without a body is a signature; it is kept in the tree and means nothing when the program
runs.
-/

namespace ScriptLower.Parse

open ScriptLower

/-! ## Blocks -/

/-- Goes on behind a statement that did not parse: at the next likely beginning, or at least one
token further than `before`. -/
def recover (ends : Token → Bool) (before : Nat) : Parser Unit := do
  resync
  let t ← peek
  if t.span.start == before && !ends t && t.kind != .eof then
    let _ ← advance

/-- Statements up to a closing token. -/
def parseStatementList (g : Rules) (close : TokenKind) (top : Bool) : Parser (List Node) :=
  listUntil close fun stmts => do
    let before := (← peek).span.start
    match ← attempt (g (.statement top)) with
    | some n => return if n.isPresent then stmts ++ [n] else stmts
    | none =>
      recover (·.kind == close) before
      return stmts

/-- Statements in braces. -/
def parseBlockBody (g : Rules) : Parser (Span × List Node) := do
  let open_ ← expect .lBrace .unexpectedToken "expected '\x7b'"
  let stmts ← parseStatementList g .rBrace false
  addDangling
  let _ ← expect .rBrace .unclosedBrace "expected '\x7d' to close block"
  return (← spanTo open_.span, stmts)

/-- A block that shares the scope it stands in. -/
def parseOpenBlock (g : Rules) : Parser Node := do
  let (span, stmts) ← parseBlockBody g
  return Node.new .block span stmts

/-- A block with a scope of its own. -/
def parseBlock (g : Rules) : Parser Node := inScope (parseOpenBlock g)

/-- Whether some statements open with the directive that makes code strict: only strings as
statements may stand in front of it. -/
def hasStrictDirective : List Node → Bool
  | [] => false
  | n :: r =>
    let lit := n.kid 0
    if n.kind != .exprStmt || lit.kind != .literal || lit.op != .stringLit then false
    else lit.text == Bytes.ofString "\"use strict\"" || lit.text == Bytes.ofString "'use strict'"
      || hasStrictDirective r

/-! ## Functions -/

/-- The body of a function, inside the context of the function. -/
def parseFunctionBody (g : Rules) : Parser Node := do
  if 0 < (← view).ambient then
    errorAt (← peek).span .ambientBody
      "an implementation cannot be declared in an ambient context"
  let body ← outsideAmbient (parseOpenBlock g)
  return body.addFlags { strict := hasStrictDirective body.kids }

/-- Parameters, result and body of a function behind its name. -/
def parseFunctionRest (g : Rules) (kind : NodeKind) (start : Token) (name : Node) (flags : Flags)
    (bodyOptional : Bool) : Parser Node := do
  let tparams ← parseTypeParamsOpt g
  inFunction flags do
    let params ← parseParams g false
    let result ← parseReturnTypeOpt g
    let finish (n : Node) : Node := ((n.addFlags flags).withType result).withTargs tparams
    if ← at_ .lBrace then
      let body ← parseFunctionBody g
      return finish (← node kind start.span [name, params, body])
    else if !bodyOptional then unexpected "'\x7b'"
    else
      if (← view).ambient == 0 then requireTypes (← peek)
      semicolon
      return finish (← node .overload start.span [name, params])

/-- A function declaration from its first keyword on. -/
def parseFunctionDecl (g : Rules) (start : Token) (flags : Flags) : Parser Node := do
  let async ← eatWord "async"
  let _ ← expect .kwFunction .unexpectedToken "expected 'function'"
  let generator ← eat .star
  let flags := flags.or { async := async, generator := generator }
  if (← at_ .ident) || !flags.isDefault then
    let name ← parseBindingIdent
    declare false name
    parseFunctionRest g .funcDecl start name flags true
  else parseFunctionRest g .funcDecl start .absent flags true

/-- A function as an expression. -/
def parseFunctionExpr (g : Rules) : Parser Node := do
  let start ← peek
  let async ← eatWord "async"
  let _ ← advance
  let generator ← eat .star
  let name ← if ← at_ .ident then (do return identOf (← advance)) else pure .absent
  parseFunctionRest g .funcExpr start name { async := async, generator := generator } false

/-- What a method is a member of. -/
inductive MethodOwner
  /-- An object literal; the method has a body. -/
  | object
  /-- A class; a method without a body is a signature. -/
  | class_
  /-- A class that is only declared, or an abstract method; there is no body. -/
  | ambient
  deriving DecidableEq, Repr, Inhabited

/-- A method behind its key. `role` says what it is: a method, an accessor or the constructor. -/
def parseMethod (g : Rules) (start : Token) (key : Node) (role : Bytes) (flags : Flags)
    (owner : MethodOwner) : Parser Node := do
  let question ← peek
  let optional := question.kind == .question
  if optional then
    let _ ← advance
    requireTypes question
  let flags := flags.or { optional := optional }
  let tparams ← parseTypeParamsOpt g
  inFunction flags do
    let params ← parseParams g (role == Bytes.ofString "constructor")
    let result ← parseReturnTypeOpt g
    let finish (n : Node) : Node :=
      (((n.withText role).addFlags flags).withType result).withTargs tparams
    let braced ← at_ .lBrace
    if braced && !flags.isAbstract && owner != .ambient then
      let body ← parseFunctionBody g
      return finish (← node .method start.span [key, params, body])
    else if owner == .object then unexpected "'\x7b'"
    else if braced then
      error .ambientBody "an abstract or ambient method cannot have an implementation"
      fail .reported
    else
      if owner != .ambient then requireTypes (← peek)
      semicolon
      return finish (← node .overload start.span [key, params, .absent])

/-! ## Arrow functions -/

/-- The arrow and the body of an arrow function. -/
def parseArrowRest (g : Rules) (start : Span) (params tparams result : Node) (flags : Flags) :
    Parser Node := do
  let _ ← expect .arrow .unexpectedToken "expected '=>'"
  let noIn := (← view).noIn
  let (body, isExpr) ← inFunction flags do
    if ← at_ .lBrace then return (← parseFunctionBody g, false)
    else return (← withNoIn noIn (g .assign), true)
  let n ← node .arrow start [params, body]
  return ((n.addFlags (flags.or { exprBody := isExpr })).withType result).withTargs tparams

/-- An arrow function whose only parameter is a name. -/
def parseNameArrow (g : Rules) (start : Span) (name : Token) (flags : Flags) : Parser Node :=
  let param := Node.new .param name.span [identOf name, .absent]
  parseArrowRest g start (Node.new .params name.span [param]) .absent .absent flags

/-- The parameters and the result of an arrow function, if an arrow follows. -/
def parseArrowHead (g : Rules) (flags : Flags) : Parser (Node × Node × Node) := do
  if flags.async then
    let _ ← advance
  let tparams ← parseTypeParamsOpt g
  let params ← keepingFunction (fun fn => { fn with async := flags.async }) (parseParams g false)
  let result ← do
    if ← at_ .colon then
      if !(← view).grammar.types then fail .otherReading else parseReturnTypeOpt g
    else pure .absent
  let t ← peek
  if t.kind == .arrow && !t.newline then return (params, tparams, result)
  else fail .otherReading

/-- An arrow function with parameters in parentheses, if there is one here. -/
def tryArrowHead (g : Rules) (start : Span) (flags : Flags) : Parser (Option Node) := do
  match ← speculate (parseArrowHead g flags) with
  | none => return none
  | some (params, tparams, result) =>
    return some (← parseArrowRest g start params tparams result flags)

/-- Whether an arrow on the same line follows two names. -/
def isAsyncNameArrow : Parser Bool := lookahead do
  let _ ← advance
  let _ ← advance
  let t ← peek
  return t.kind == .arrow && !t.newline

/-- Whether the sign opens type parameters and not an element: a comma or a bound follows the
first name. -/
def looksLikeTypeParams : Parser Bool := lookahead do
  let _ ← advance
  if (← peek).kind != .ident then return false
  let _ ← advance
  let t ← peek
  return t.kind == .comma || t.is "extends"

/-- An arrow function, if there is one here. -/
def tryArrow (g : Rules) : Parser (Option Node) := do
  let t ← peek
  match t.kind with
  | .ident =>
    let next ← peek2
    if next.kind == .arrow && !next.newline then
      let _ ← advance
      return some (← parseNameArrow g t.span t {})
    else if !t.is "async" || next.newline then return none
    else match next.kind with
    | .ident =>
      if ← isAsyncNameArrow then
        let _ ← advance
        let name ← advance
        return some (← parseNameArrow g t.span name { async := true })
      else return none
    | .lParen | .lt => tryArrowHead g t.span { async := true }
    | _ => return none
  | .lParen => tryArrowHead g t.span {}
  | .lt =>
    let grammar := (← view).grammar
    if !grammar.types then return none
    if grammar.elements && !(← looksLikeTypeParams) then return none
    tryArrowHead g t.span {}
  | _ => return none

end ScriptLower.Parse
