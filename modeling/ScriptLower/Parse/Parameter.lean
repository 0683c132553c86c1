import ScriptLower.Parse.Pattern

/-!
# Arguments, decorators and parameters
-/

/-! ## Arguments and decorators -/

namespace ScriptLower.Parse

open ScriptLower

/-- An expression, or dots and an expression that is spread. -/
def parseSpreadable (g : Rules) : Parser Node := do
  let t ← peek
  if t.kind == .dotDotDot then
    let _ ← advance
    let e ← g .assign
    node .spread t.span [e]
  else g .assign

/-- Arguments in parentheses. -/
def parseArguments (g : Rules) : Parser (List Node) := do
  let _ ← expect .lParen .unexpectedToken "expected '('"
  withIn do
    let args ← commaList .rParen "expected ',' or ')'" (parseSpreadable g)
    let _ ← expectRParen
    return args

/-- A call of something already read. -/
def parseCall (g : Rules) (callee targs : Node) : Parser Node := do
  let args ← parseArguments g
  return (Node.call (← spanFrom callee) callee args).withTargs targs

/-- An expression in parentheses. -/
def parseParen (g : Rules) : Parser Node := do
  let open_ ← advance
  let e ← withIn (parseExpression g)
  let _ ← expectRParen
  node .paren open_.span [e]

/-- The names behind the dots of a decorator. -/
def parseDecoratorPath (first : Node) : Parser Node :=
  loop (fun e => do
    if ← eat .dot then
      let name ← parseMemberName
      return .inl (← node .member e.span [e, name])
    else return .inr e) first

/-- The expression of a decorator: one in parentheses, or a path that may be called. -/
def parseDecoratorExpr (g : Rules) : Parser Node := do
  if ← at_ .lParen then parseParen g
  else
    let t ← peek
    if t.kind != .ident then unexpected "decorator name"
    else
      let _ ← advance
      let e ← parseDecoratorPath (identOf t)
      let targs ←
        if (← at_ .lt) && (← view).grammar.types then parseTypeArgs g else pure .absent
      if ← at_ .lParen then parseCall g e targs else return e

/-- The decorators in front of a class or a member. -/
def parseDecorators (g : Rules) : Parser (List Node) :=
  loop (fun ds => do
    if ← at_ .atSign then
      let t ← advance
      if !(← view).grammar.decorators then
        errorAt t.span .decoratorsDisabled "decorators are not enabled"
      let e ← parseDecoratorExpr g
      return .inl (ds ++ [← node .decorator t.span [e]])
    else return .inr ds) []

end ScriptLower.Parse

/-! ## Parameters -/

namespace ScriptLower.Parse

open ScriptLower

/-- The modifier of a parameter that is also a property. -/
def parameterModifier? (t : Token) : Option Flags :=
  if t.is "public" then some { isPublic := true }
  else if t.is "private" then some { isPrivate := true }
  else if t.is "protected" then some { isProtected := true }
  else if t.is "readonly" then some { isReadonly := true }
  else if t.is "override" then some { isOverride := true }
  else none

/-- Whether a token can begin a pattern. -/
def startsPattern (t : Token) : Bool :=
  t.kind == .ident || t.kind == .lBracket || t.kind == .lBrace

/-- The modifiers in front of a parameter. -/
def parseParameterModifiers (ctor : Bool) : Parser Flags :=
  loop (fun (flags : Flags) => do
    let t ← peek
    match parameterModifier? t with
    | none => return .inr flags
    | some f =>
      let next ← peek2
      if next.newline || !startsPattern next then return .inr flags
      let _ ← advance
      requireTypes t
      if !ctor then
        errorAt t.span .modifierNotAllowed "parameter properties are only allowed in a constructor"
      return .inl (flags.or f)) {}

/-- The parameter that types the receiver. -/
def parseReceiver (g : Rules) (start : Token) : Parser Node := do
  let t ← advance
  requireTypes t
  let type ← parseAnnotationOpt g
  let n ← node .param start.span [Node.new .thisExpr t.span [], .absent]
  return (n.addFlags { thisParam := true }).withType type

/-- A parameter; `first` says that it is the first of its list. -/
def parseParameter (g : Rules) (ctor first : Bool) : Parser Node := do
  let start ← peek
  let decos ← if start.kind == .atSign then parseDecorators g else pure []
  let flags ← parseParameterModifiers ctor
  if first && (← at_ .kwThis) then parseReceiver g start
  else
    let rest ← eat .dotDotDot
    let binding ← g .binding
    declareAll false (boundNames binding)
    let question ← peek
    let optional ← do
      if question.kind == .question then
        let _ ← advance
        requireTypes question
        pure true
      else pure false
    let type ← parseAnnotationOpt g
    let value ← if ← eat .assign then g .assign else pure .absent
    let n ← node .param start.span [binding, value]
    return ((n.addFlags (flags.or { rest := rest, optional := optional })).withType type).withDecos
      decos

/-- Parameters in parentheses. -/
def parseParams (g : Rules) (ctor : Bool) : Parser Node := do
  let open_ ← expect .lParen .unexpectedToken "expected '('"
  let kids ← listUntil .rParen fun kids => do
    let p ← parseParameter g ctor kids.isEmpty
    if p.flags.rest && !(← at_ .rParen) then
      error .restNotLast "rest parameter must be last"
      fail .reported
    separator .rParen "expected ',' or ')'"
    return kids ++ [p]
  let _ ← expectRParen
  node .params open_.span kids

end ScriptLower.Parse
