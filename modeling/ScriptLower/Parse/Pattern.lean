import ScriptLower.Parse.State

/-!
# Names and patterns

What may stand in a binding position.
-/

/-!
## Names, keys and annotations

The small parts that patterns, expressions, classes and types share: a name in a binding position,
a name behind a dot, a property key, and the lists of type parameters and type arguments.
-/

namespace ScriptLower.Parse

open ScriptLower

/-- A name that is bound here. -/
def parseBindingIdent : Parser Node := do
  let t ← peek
  if t.kind == .ident then
    let _ ← advance
    return identOf t
  else if t.kind.isKeyword then
    error .expectedIdentifier
      ("'" ++ t.text ++ "' is a reserved word and cannot be used as a binding name")
    fail .reported
  else unexpected "identifier"

/-- The name behind a dot. -/
def parseMemberName : Parser Node := do
  let t ← peek
  if t.kind == .privateName then
    let _ ← advance
    return Node.newText .privateName t.span t.text
  else if t.kind.isPropertyName then
    let _ ← advance
    return identOf t
  else unexpected "property name"

/-- Whether a token can begin a property key or the star in front of one. -/
def startsPropertyKey (t : Token) : Bool :=
  match t.kind with
  | .stringLit | .numberLit | .bigIntLit | .lBracket | .privateName | .star => true
  | k => k.isPropertyName

/-- The key of a property or member, and whether it stands in brackets. -/
def parsePropertyKey (g : Rules) : Parser (Node × Flags) := do
  let t ← peek
  match t.kind with
  | .stringLit | .numberLit | .bigIntLit =>
    let _ ← advance
    return (literalOf t, {})
  | .privateName =>
    let _ ← advance
    return (Node.newText .privateName t.span t.text, {})
  | .lBracket =>
    let _ ← advance
    let key ← withIn (g .assign)
    let _ ← expectRBracket
    return (key, { computed := true })
  | k =>
    if k.isPropertyName then
      let _ ← advance
      return (identOf t, {})
    else unexpected "property name"

/-! ## Types in the places where expressions meet them -/

/-- A colon and a type. -/
def parseTypeAnnotation (g : Rules) : Parser Node := do
  requireTypes (← expect .colon .unexpectedToken "expected ':'")
  parseType g

/-- A type behind a colon, if there is one. -/
def parseAnnotationOpt (g : Rules) : Parser Node := do
  if ← at_ .colon then parseTypeAnnotation g else return .absent

/-- The modifiers of a type parameter, each of which stands in front of a name. -/
def parseTypeParamModifiers : Parser (List Bytes) :=
  loop (fun mods => do
    let t ← peek
    if !t.is "out" && t.kind != .kwIn && t.kind != .kwConst then return .inr mods
    if (← peek2).kind != .ident then return .inr mods
    let _ ← advance
    return .inl (mods ++ [t.text])) []

/-- A type parameter with its constraint and its default. -/
def parseTypeParam (g : Rules) : Parser Node := do
  let start ← peek
  let mods ← parseTypeParamModifiers
  let name ← parseBindingIdent
  let constraint ← if ← eat .kwExtends then g (.type false) else pure .absent
  let default_ ← if ← eat .assign then g (.type false) else pure .absent
  let param ← node .typeParam start.span [name, constraint, default_]
  return param.withText (Bytes.join [32] mods)

/-- A list of type parameters, if there is one. -/
def parseTypeParamsOpt (g : Rules) : Parser Node := do
  if !(← at_ .lt) then return .absent
  let lt ← advance
  requireTypes lt
  inType do
    let kids ← commaList .gt "expected ',' or '>'" (parseTypeParam g)
    if kids.isEmpty then
      error .expectedIdentifier "type parameter list cannot be empty"
      fail .reported
    let _ ← expectGreater
    node .typeParams lt.span kids

/-- A list of type arguments. An operator that begins with the opening sign is split first. -/
def parseTypeArgs (g : Rules) : Parser Node := do
  let t ← peek
  if t.kind == .shl || t.kind == .ltEq then
    splitLess t
  let lt ← expect .lt .unexpectedToken "expected '<'"
  requireTypes lt
  inType do
    let kids ← commaList .gt "expected ',' or '>'" (g (.type false))
    if kids.isEmpty then
      error .expectedType "type argument list cannot be empty"
      fail .reported
    let _ ← expectGreater
    node .typeArgs lt.span kids

end ScriptLower.Parse

/-!
## Patterns

A pattern stands on the left of an assignment or in a declaration. In a declaration it is read as
a pattern from the start. In an assignment it is first read as an expression, and turned into a
pattern when the assignment sign shows what it was.
-/

namespace ScriptLower.Parse

open ScriptLower

/-! ## Expressions as targets -/

/-- Whether something can be assigned to as a whole. -/
inductive TargetFault
  /-- It can. -/
  | none
  /-- It cannot: a literal in parentheses, which is refused without a report of its own. -/
  | wrapped
  /-- It cannot, for the part at a place. -/
  | invalid (span : Span)
  deriving DecidableEq, Repr, Inhabited

mutual

/-- What stands against assigning to an expression as a whole. -/
def targetFault : Node → TargetFault
  | .absent => .invalid {}
  | .mk h ks _ _ _ _ =>
    match h.kind with
    | .ident => .none
    | .member | .index => if h.flags.optional then .invalid h.span else .none
    | .paren | .asExpr | .satisfies | .nonNull | .typeAssert => targetFaultFirst ks
    | _ => .invalid h.span

/-- What stands against assigning to the first of some expressions. -/
def targetFaultFirst : List Node → TargetFault
  | [] => .invalid {}
  | n :: _ => if n.kind == .array || n.kind == .object then .wrapped else targetFault n

end

/-- Fails unless an expression can be assigned to as a whole. -/
def checkSimpleTarget (n : Node) : Parser Unit :=
  match targetFault n with
  | .none => pure ()
  | .wrapped => fail .wrappedTarget
  | .invalid span => do
    errorAt span .badAssignTarget "invalid assignment target"
    fail .reported

/-- Fails because something stands behind a rest element. -/
def restNotLast {α : Type} (span : Span) : Parser α := do
  errorAt span .restNotLast "rest element must be last in a destructuring pattern"
  fail .reported

mutual

/-- An expression as a pattern. Inside a pattern an assignment gives a default. -/
def toTarget (inside : Bool) : Node → Parser Node
  | .absent => do
    checkSimpleTarget .absent
    return .absent
  | .mk h ks ds t a x =>
    if inside && h.kind == .assign && h.op == .assign then do
      return .mk { h with kind := .assignPattern, op := .invalid } (← toFirst ks) ds t a x
    else if inside && h.kind == .assignPattern then return .mk h ks ds t a x
    else match h.kind with
    | .array => do return .mk { h with kind := .arrayPattern } (← toElements ks) ds t a x
    | .object => do return .mk { h with kind := .objectPattern } (← toMembers ks) ds t a x
    | .arrayPattern | .objectPattern => return .mk h ks ds t a x
    | _ => do
      checkSimpleTarget (.mk h ks ds t a x)
      return .mk h ks ds t a x

/-- The first of some expressions as a pattern. -/
def toFirst : List Node → Parser (List Node)
  | [] => return []
  | n :: r => do return (← toTarget false n) :: r

/-- The second of some expressions as a pattern with a default. -/
def toSecond : List Node → Parser (List Node)
  | [] => return []
  | [k] => return [k]
  | k :: n :: r => do return k :: (← toTarget true n) :: r

/-- The elements of an array as those of a pattern. -/
def toElements : List Node → Parser (List Node)
  | [] => return []
  | .absent :: r => do return .absent :: (← toElements r)
  | .mk h ks ds t a x :: r => do
    if h.kind == .hole then return .mk h ks ds t a x :: (← toElements r)
    else if h.kind == .spread then
      if !r.isEmpty then restNotLast h.span
      return .mk { h with kind := .restElement } (← toFirst ks) ds t a x :: (← toElements r)
    else
      let e ← toTarget true (.mk h ks ds t a x)
      return e :: (← toElements r)

/-- The members of an object as those of a pattern. -/
def toMembers : List Node → Parser (List Node)
  | [] => return []
  | .absent :: r => do return .absent :: (← toMembers r)
  | .mk h ks ds t a x :: r => do
    if h.kind == .objProp then
      let m := Node.mk h (← toSecond ks) ds t a x
      return m :: (← toMembers r)
    else if h.kind == .spread then
      if !r.isEmpty then restNotLast h.span
      return .mk { h with kind := .restElement } (← toFirst ks) ds t a x :: (← toMembers r)
    else
      errorAt h.span .badAssignTarget "invalid destructuring target"
      fail .reported

end

mutual

/-- The names a pattern binds. -/
def boundNames : Node → List Node
  | .absent => []
  | .mk h ks ds t a x =>
    match h.kind with
    | .ident => [.mk h ks ds t a x]
    | .arrayPattern | .objectPattern => allBoundNames ks
    | .objProp => secondBoundNames ks
    | .assignPattern | .restElement => firstBoundNames ks
    | _ => []

/-- The names several patterns bind. -/
def allBoundNames : List Node → List Node
  | [] => []
  | n :: r => boundNames n ++ allBoundNames r

/-- The names the first of some patterns binds. -/
def firstBoundNames : List Node → List Node
  | [] => []
  | n :: _ => boundNames n

/-- The names the second of some patterns binds. -/
def secondBoundNames : List Node → List Node
  | [] => []
  | [_] => []
  | _ :: n :: _ => boundNames n

end

/-! ## Patterns in declarations -/

/-- A pattern with an optional default. -/
def parseBindingElement (g : Rules) : Parser Node := do
  let target ← g .binding
  if !(← eat .assign) then return target
  let value ← withIn (g .assign)
  node .assignPattern target.span [target, value]

/-- A rest element behind its dots, which must be the last in front of `close`. -/
def parseRestElement (dots : Token) (close : TokenKind) (target : Parser Node) : Parser Node := do
  let n ← node .restElement dots.span [← target]
  if !(← at_ close) then
    error .restNotLast "rest element must be last in a destructuring pattern"
    fail .reported
  return n

/-- A pattern in brackets. -/
def parseArrayBinding (g : Rules) : Parser Node := do
  let open_ ← advance
  let kids ← listUntil .rBracket fun kids => do
    let t ← peek
    match t.kind with
    | .comma =>
      let _ ← advance
      return kids ++ [Node.new .hole t.span []]
    | .dotDotDot =>
      let _ ← advance
      return kids ++ [← parseRestElement t .rBracket (g .binding)]
    | _ =>
      let e ← parseBindingElement g
      separator .rBracket "expected ',' or ']'"
      return kids ++ [e]
  let _ ← expectRBracket
  node .arrayPattern open_.span kids

/-- A property of a pattern in braces. -/
def parseBindingProperty (g : Rules) : Parser Node := do
  let start ← peek
  let (key, flags) ← parsePropertyKey g
  if ← eat .colon then
    let value ← parseBindingElement g
    let prop ← node .objProp start.span [key, value]
    return prop.addFlags flags
  else if key.kind != .ident || flags.computed then unexpected "':'"
  else
    let name := Node.ident key.text key.span
    let value ← do
      if ← eat .assign then
        let value ← withIn (g .assign)
        node .assignPattern name.span [name, value]
      else pure name
    let prop ← node .objProp start.span [key, value]
    return prop.addFlags (flags.or { shorthand := true })

/-- A pattern in braces. -/
def parseObjectBinding (g : Rules) : Parser Node := do
  let open_ ← advance
  let kids ← listUntil .rBrace fun kids => do
    let t ← peek
    if t.kind == .dotDotDot then
      let _ ← advance
      return kids ++ [← parseRestElement t .rBrace parseBindingIdent]
    else
      let p ← parseBindingProperty g
      separator .rBrace "expected ',' or '\x7d'"
      return kids ++ [p]
  let _ ← expectRBrace
  node .objectPattern open_.span kids

/-- A name or a destructuring pattern. -/
def parseBindingTarget (g : Rules) : Parser Node := do
  match (← peek).kind with
  | .lBracket => parseArrayBinding g
  | .lBrace => parseObjectBinding g
  | _ => parseBindingIdent

end ScriptLower.Parse
