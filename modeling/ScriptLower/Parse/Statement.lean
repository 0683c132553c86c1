import ScriptLower.Parse.Module

/-!
# Statements
-/

namespace ScriptLower.Parse

open ScriptLower

/-- An expression in parentheses, as in the head of a statement. -/
def parseParenExpr (g : Rules) : Parser Node := do
  let _ ← expect .lParen .unexpectedToken "expected '('"
  let e ← parseExpression g
  let _ ← expectRParen
  return e

/-- The statement that another one governs; a declaration in it has a scope of its own. -/
def parseSubStatement (g : Rules) : Parser Node := inScope (g (.statement false))

/-- The body of a loop. -/
def parseLoopBody (g : Rules) : Parser Node := inLabel { isLoop := true } (parseSubStatement g)

/-- A choice between statements. -/
def parseIf (g : Rules) : Parser Node := do
  let start ← advance
  let test ← parseParenExpr g
  let yes ← parseSubStatement g
  let no ← if ← eat .kwElse then parseSubStatement g else pure .absent
  node .ifStmt start.span [test, yes, no]

/-- A loop with its test in front. -/
def parseWhile (g : Rules) : Parser Node := do
  let start ← advance
  let test ← parseParenExpr g
  let body ← parseLoopBody g
  node .whileStmt start.span [test, body]

/-- A loop with its test behind; the semicolon may always be left out. -/
def parseDoWhile (g : Rules) : Parser Node := do
  let start ← advance
  let body ← parseLoopBody g
  let _ ← expect .kwWhile .unexpectedToken "expected 'while'"
  let test ← parseParenExpr g
  let _ ← eat .semicolon
  node .doWhile start.span [body, test]

/-- The keyword of the declaration in the head of a loop. -/
def parseForKeyword : Parser (Option Bytes) := do
  let t ← peek
  let next ← peek2
  if t.kind == .kwVar then return some "var"
  else if t.kind == .kwConst then return some "const"
  else if t.is "let" && startsPattern next then return some "let"
  else return none

/-- What a loop starts with, and whether it is a declaration. -/
def parseForInit (g : Rules) : Parser (Node × Bool) := do
  if ← at_ .semicolon then return (.absent, false)
  let t ← peek
  match ← parseForKeyword with
  | some keyword =>
    withoutIn do
      let _ ← advance
      return (← parseVarDeclList g t keyword {} true, true)
  | none => withoutIn do return (← parseExpression g, false)

/-- A loop over the keys or values of something, behind its first part. -/
def parseForEach (g : Rules) (start : Token) (awaits : Bool) (init : Node) (isDecl : Bool) :
    Parser Node := do
  let isOf ← atWord "of"
  let target ← do
    if !isDecl then toTarget false init
    else
      if init.kids.length != 1 then
        errorAt init.span .unexpectedToken
          "only a single declaration is allowed in a for-in/of head"
      pure init
  let _ ← advance
  let right ← if isOf then g .assign else parseExpression g
  let _ ← expectRParen
  let body ← parseLoopBody g
  let n ← node (if isOf then .forOf else .forIn) start.span [target, right, body]
  return n.addFlags { awaits := awaits }

/-- A counting loop behind its first part. -/
def parseForRest (g : Rules) (start : Token) (init : Node) : Parser Node := do
  let _ ← expect .semicolon .expectedSemicolon "expected ';' in for statement"
  let test ← if ← at_ .semicolon then pure .absent else parseExpression g
  let _ ← expect .semicolon .expectedSemicolon "expected ';' in for statement"
  let update ← if ← at_ .rParen then pure .absent else parseExpression g
  let _ ← expectRParen
  let body ← parseLoopBody g
  node .forStmt start.span [init, test, update, body]

/-- A loop with a head in parentheses. -/
def parseFor (g : Rules) : Parser Node := do
  let start ← advance
  let awaits ← eatWord "await"
  let _ ← expect .lParen .unexpectedToken "expected '(' after 'for'"
  inScope do
    let (init, isDecl) ← parseForInit g
    let t ← peek
    if t.is "of" || t.kind == .kwIn then parseForEach g start awaits init isDecl
    else if awaits then
      error .unexpectedToken "'for await' requires an 'of' loop"
      fail .reported
    else parseForRest g start init

/-- The end of a function. -/
def parseReturn (g : Rules) : Parser Node := do
  let start ← advance
  if !(← view).fn.inFunction then
    errorAt start.span .unexpectedToken "'return' outside of a function"
  let arg ← if ← canEndStatement then pure .absent else parseExpression g
  semicolon
  node .returnStmt start.span [arg]

/-- The label a jump names. -/
def parseJumpLabel (isContinue : Bool) : Parser Node := do
  let t ← peek
  if t.kind != .ident || t.newline then return .absent
  let _ ← advance
  match (← view).labels.find? (·.name == t.text) with
  | none => errorAt t.span .undefinedLabel ("undefined label '" ++ t.text ++ "'")
  | some l =>
    if isContinue && !l.isLoop then
      errorAt t.span .undefinedLabel ("label '" ++ t.text ++ "' does not denote a loop")
  return identOf t

/-- A jump out of a statement or to the next round of a loop. -/
def parseJump : Parser Node := do
  let start ← advance
  let isContinue := start.kind == .kwContinue
  let label ← parseJumpLabel isContinue
  semicolon
  node (if isContinue then .continueStmt else .breakStmt) start.span [label]

/-- A thrown value, which stands on the same line. -/
def parseThrow (g : Rules) : Parser Node := do
  let start ← advance
  if (← peek).newline then
    error .expectedExpression "line break is not allowed after 'throw'"
    fail .reported
  let arg ← parseExpression g
  semicolon
  node .throwStmt start.span [arg]

/-- What is bound by a handler, with its type. -/
def parseCatchParam (g : Rules) : Parser (Node × Node) := do
  if !(← eat .lParen) then return (.absent, .absent)
  let param ← g .binding
  declareAll true (boundNames param)
  let type ← parseAnnotationOpt g
  let _ ← expectRParen
  return (param, type)

/-- A handler. -/
def parseCatch (g : Rules) : Parser Node := do
  let start ← advance
  let (param, type, body) ← inScope do
    let (param, type) ← parseCatchParam g
    let body ← parseOpenBlock g
    return (param, type, body)
  return (← node .catchClause start.span [param, body]).withType type

/-- A block with a handler or a final block. -/
def parseTry (g : Rules) : Parser Node := do
  let start ← advance
  let block ← parseBlock g
  let handler ← if ← at_ .kwCatch then parseCatch g else pure .absent
  let final ← if ← eat .kwFinally then parseBlock g else pure .absent
  if handler.isAbsent && final.isAbsent then
    error .unexpectedToken "expected 'catch' or 'finally'"
    fail .reported
  node .tryStmt start.span [block, handler, final]

/-- The statements of a case. -/
def parseCaseBody (g : Rules) : Parser (List Node) :=
  loop (fun stmts => do
    let t ← peek
    match t.kind with
    | .kwCase | .kwDefault | .rBrace | .eof => return .inr stmts
    | _ =>
      match ← attempt (g (.statement false)) with
      | some n => return .inl (stmts ++ [n])
      | none =>
        recover (fun _ => false) t.span.start
        return .inl stmts) []

/-- A case of a switch from its first token on; `seen` says whether there was a default before. -/
def parseCaseFrom (g : Rules) (seen : Bool) (start : Token) : Parser (Node × Bool) := do
  let (test, isDefault) ← do
    if ← eat .kwCase then pure (← parseExpression g, false)
    else if ← eat .kwDefault then
      if seen then
        errorAt start.span .unexpectedToken "more than one default clause in switch"
      pure (Node.absent, true)
    else unexpected "'case' or 'default'"
  let _ ← expect .colon .unexpectedToken "expected ':'"
  let body ← parseCaseBody g
  return (← node .caseClause start.span (test :: body), seen || isDefault)

/-- A case of a switch; `seen` says whether there was a default before. -/
def parseCase (g : Rules) (seen : Bool) : Parser (Node × Bool) := do
  let start ← peek
  addLeading start
  parseCaseFrom g seen start

/-- A choice by value. -/
def parseSwitch (g : Rules) : Parser Node := do
  let start ← advance
  let value ← parseParenExpr g
  let _ ← expect .lBrace .unexpectedToken "expected '\x7b' after switch"
  inScope <| inLabel {} do
    let (cases, _) ← loop (fun (cases, seen) => do
      if (← at_ .rBrace) || (← at_ .eof) then return .inr (cases, seen)
      let (c, seen) ← parseCase g seen
      return .inl (cases ++ [c], seen)) (([] : List Node), false)
    addDangling
    let _ ← expect .rBrace .unclosedBrace "expected '\x7d' to close switch"
    node .switchStmt start.span (value :: cases)

/-- A statement whose names are looked up in an object first. -/
def parseWith (g : Rules) : Parser Node := do
  let start ← advance
  if (← view).grammar.strictEarlyErrors then
    errorAt start.span .strictWith "'with' statements are not allowed in strict mode"
  let obj ← parseParenExpr g
  let body ← parseSubStatement g
  node .withStmt start.span [obj, body]

/-- A statement that is an expression. -/
def parseExpressionStatement (g : Rules) : Parser Node := do
  let start ← peek
  let e ← parseExpression g
  semicolon
  node .exprStmt start.span [e]

/-- A statement that is an expression, where statements may stand. -/
def parsePlainStatement (g : Rules) (t : Token) : Parser Node := do
  checkRuntime t
  parseExpressionStatement g

/-- A statement that begins with a keyword of its own. -/
def parseControl (g : Rules) (t : Token) : Parser Node := do
  checkRuntime t
  match t.kind with
  | .kwIf => parseIf g
  | .kwFor => parseFor g
  | .kwWhile => parseWhile g
  | .kwDo => parseDoWhile g
  | .kwReturn => parseReturn g
  | .kwBreak | .kwContinue => parseJump
  | .kwThrow => parseThrow g
  | .kwTry => parseTry g
  | .kwSwitch => parseSwitch g
  | .kwWith => parseWith g
  | _ =>
    let _ ← advance
    semicolon
    return Node.new .debugger t.span []

/-- A decorated class or a decorated export. -/
def parseDecorated (g : Rules) (t : Token) : Parser Node := do
  let decos ← parseDecorators g
  if ← at_ .kwExport then parseExport g decos else parseDecoratedClass g decos (some t)

/-- A statement from its first token on; `top` says whether module items may stand here. -/
def parseStatementFrom (g : Rules) (top : Bool) (t : Token) : Parser Node := do
  match t.kind with
  | .lBrace =>
    checkRuntime t
    parseBlock g
  | .semicolon =>
    let _ ← advance
    return Node.new .empty t.span []
  | .kwVar =>
    let _ ← advance
    parseVarStatement g t "var" {}
  | .kwConst =>
    let next ← peek2
    let _ ← advance
    if next.kind == .kwEnum then parseEnum g t { isConst := true }
    else parseVarStatement g t "const" {}
  | .kwFunction => parseFunctionDecl g t {}
  | .kwClass => parseClassDecl g t [] {}
  | .atSign => parseDecorated g t
  | .kwEnum => parseEnum g t {}
  | .kwImport =>
    let next ← peek2
    if next.kind == .lParen || next.kind == .dot then parsePlainStatement g t
    else
      if !top then
        error .nestedModuleItem "import declarations may only appear at top level"
      parseImport g
  | .kwExport =>
    if !top then
      error .nestedModuleItem "export declarations may only appear at top level"
    parseExport g []
  | .kwIf | .kwFor | .kwWhile | .kwDo | .kwReturn | .kwBreak | .kwContinue | .kwThrow | .kwTry
  | .kwSwitch | .kwWith | .kwDebugger => parseControl g t
  | .ident =>
    match ← tryContextualStatement g t with
    | some n => return n
    | none => parsePlainStatement g t
  | _ => parsePlainStatement g t

/-- A statement; `top` says whether module items may stand here. -/
def parseStatement (g : Rules) (top : Bool) : Parser Node := do
  let t ← peek
  addLeading t
  parseStatementFrom g top t

end ScriptLower.Parse
