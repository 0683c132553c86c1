import ScriptLower.Lower.State

/-!
# Evaluating once

Older versions of the language lack some operators, which are spelled out with more basic ones. An
operand that the longer form uses more than once is captured: its first use stores the value, and
later uses read it back. A plain name needs no storing.
-/

namespace ScriptLower.Lower

open ScriptLower

/-- An expression that is evaluated once. -/
structure Captured where
  /-- The first use, which evaluates and stores. -/
  first : Node
  /-- A later use. -/
  again : Node
  deriving Inhabited

/-- Whether reading an expression twice is the same as reading it once. -/
def isRepeatable (n : Node) : Bool := (n.kind == .ident && n.mark = 0) || n.kind == .thisExpr

/-- Captures a lowered expression. -/
def capture (n : Node) : LowerM Captured := do
  if isRepeatable n then
    return { first := n, again := .ofHead { kind := n.kind, text := n.text, span := n.span } [] }
  else
    let m ← temp
    let stored ← ref m
    return { first := paren (assign n.span stored n), again := stored }

/-- A power as a call. -/
def mathPow (span : Span) (base exp : Node) : Node :=
  .call span (dotted "Math.pow" span) [base, exp]

/-- Whether a captured value is null or undefined, or with the other operators that it is not. -/
def nullTest (span : Span) (join compare : TokenKind) (c : Captured) : Node :=
  bin span join (bin span compare c.first (.keyword .kwNull span))
    (bin span compare c.again (void0 span))

/-- A fallback for null and undefined: the test keeps the value, and otherwise the right side is
evaluated. -/
def lowerNullish (span : Span) (left : Node) (right : LowerM Node) : LowerM Node := do
  let c ← capture left
  let r ← right
  return .new .conditional span [nullTest span .andAnd .bangEqEq c, c.again, r]

/-! ## Assignment targets -/

/-- A property of a captured object. -/
def memberAccess (span : Span) (obj : Captured) (prop : Bytes) : Captured :=
  { first := .member obj.first prop span, again := .member obj.again prop span }

/-- An entry of a captured object under a captured key. -/
def indexAccess (span : Span) (obj key : Captured) : Captured :=
  { first := .new .index span [obj.first, key.first]
    again := .new .index span [obj.again, key.again] }

mutual

/-- Splits an assignment target so that it can be read and written without evaluating its object or
key twice; none for a target that cannot be split. -/
def access? (g : Rules) : Node → LowerM (Option Captured)
  | .absent => return none
  | .mk h ks ds t a x => do
    let n := Node.mk h ks ds t a x
    match h.kind with
    | .paren | .asExpr | .satisfies | .typeAssert | .nonNull => accessFirst? g ks
    | .ident =>
      match ← exporter? h.text with
      | some s => return some (memberAccess h.span (← capture (.ident s.name h.span)) h.text)
      | none => return some { first := leaf n, again := leaf n }
    | .member =>
      let prop := n.kid 1
      if prop.kind != .ident then return none
      return some (memberAccess h.span (← capture (← g.expr (n.kid 0))) prop.text)
    | .index =>
      let obj ← capture (← g.expr (n.kid 0))
      let key ← capture (← g.expr (n.kid 1))
      return some (indexAccess h.span obj key)
    | _ => return none

/-- Splits the first of some assignment targets. -/
def accessFirst? (g : Rules) : List Node → LowerM (Option Captured)
  | [] => return none
  | n :: _ => access? g n

end

/-- An assignment whose target cannot be split stays as it is. -/
def keepAssignment (g : Rules) (n : Node) : LowerM Node := do
  errorAt n.span .unsupported ("cannot lower '" ++ n.op.name ++ "' on this target")
  let target ← g.pattern true (n.kid 0)
  let value ← g.expr (n.kid 1)
  return like n [target, value]

/-- A power assignment becomes an assignment of a power. -/
def lowerPowerAssign (g : Rules) (n : Node) : LowerM Node := do
  match ← access? g (n.kid 0) with
  | none => keepAssignment g n
  | some acc =>
    let value ← g.expr (n.kid 1)
    return assign n.span acc.first (mathPow n.span acc.again value)

/-- A logical assignment becomes a logical operation whose right side assigns. -/
def lowerLogicalAssign (g : Rules) (n : Node) : LowerM Node := do
  match ← access? g (n.kid 0) with
  | none => keepAssignment g n
  | some acc =>
    let set : LowerM Node := return paren (assign n.span acc.again (← g.expr (n.kid 1)))
    match n.op with
    | .andAndAssign => return bin n.span .andAnd acc.first (← set)
    | .orOrAssign => return bin n.span .orOr acc.first (← set)
    | _ =>
      if ← targetBefore .es2020 then lowerNullish n.span acc.first set
      else return bin n.span .questionQuestion acc.first (← set)

/-! ## Optional chains -/

mutual

/-- The expression that a chain begins with, and the links behind it in order. -/
def chainOf : Node → Node × List Node
  | .absent => (.absent, [])
  | .mk h ks ds t a x =>
    match h.kind with
    | .member | .index | .call =>
      let (base, links) := chainOfFirst ks
      (base, links ++ [.mk h ks ds t a x])
    | .nonNull => chainOfFirst ks
    | _ => (.mk h ks ds t a x, [])

/-- The chain of the first of some expressions. -/
def chainOfFirst : List Node → Node × List Node
  | [] => (.absent, [])
  | n :: _ => chainOf n

end

/-- A chain in the making. -/
structure Chain where
  /-- The value so far. -/
  value : Node
  /-- The tests that cut the chain short, in order. -/
  tests : List Node := []
  /-- The receiver of the call that comes next, if it has to be passed along. -/
  receiver : Option Node := none
  deriving Inhabited

/-- An optional link tests the value so far. -/
def Chain.guard (c : Chain) (span : Span) : LowerM Chain := do
  let v ← capture c.value
  return { c with value := v.again, tests := c.tests ++ [nullTest span .orOr .eqEqEq v] }

/-- A link that reads a property. When an optional call follows, the object is kept as its
receiver. -/
def Chain.read (c : Chain) (g : Rules) (link : Node) (callFollows : Bool) : LowerM Chain := do
  let obj ← if callFollows then some <$> capture c.value else pure none
  let prop ← if link.kind == .member then pure (leaf (link.kid 1)) else g.expr (link.kid 1)
  match obj with
  | some o =>
    return { c with value := .new link.kind link.span [o.first, prop], receiver := some o.again }
  | none => return { c with value := .new link.kind link.span [c.value, prop] }

/-- A link that calls; an optional call passes the receiver along. -/
def Chain.call (c : Chain) (g : Rules) (link : Node) : LowerM Chain := do
  let args ← (link.kids.drop 1).mapM g.expr
  match link.flags.optional, c.receiver with
  | true, some this =>
    let callee := Node.member c.value "call" link.span
    return { c with value := .call link.span callee (this :: args), receiver := none }
  | _, _ => return { c with value := .call link.span c.value args }

/-- Whether the first of some links is an optional call. -/
def startsWithOptionalCall : List Node → Bool
  | [] => false
  | l :: _ => l.kind == .call && l.flags.optional

/-- Adds links to a chain. -/
def Chain.follow (g : Rules) (span : Span) : Chain → List Node → LowerM Chain
  | c, [] => return c
  | c, link :: rest => do
    let c ← if link.flags.optional then c.guard span else pure c
    let c ← if link.kind == .call then c.call g link
      else c.read g link (startsWithOptionalCall rest)
    Chain.follow g span c rest

/-- A chain with explicit tests. A chain cut short is undefined, or true when it was to be
deleted. -/
def lowerChain (g : Rules) (n : Node) (deletes : Bool) : LowerM Node := do
  let (base, links) := chainOf (n.kid 0)
  let c ← Chain.follow g n.span { value := ← g.expr base } links
  let value := if deletes then .newOp .unary .kwDelete n.span [c.value] else c.value
  let short := if deletes then .keyword .kwTrue n.span else void0 n.span
  return c.tests.foldr (fun test rest => .new .conditional n.span [test, short, rest]) value

/-! ## Spreads in objects -/

/-- The members between spreads become objects of their own; the last group comes first. -/
def spreadGroups (span : Span) : List Node → List Node × List Node
  | [] => ([], [])
  | p :: r =>
    let (group, args) := spreadGroups span r
    if p.kind == .spread then
      let args := if group.isEmpty then args else .new .object span group :: args
      ([], p.kid 0 :: args)
    else (p :: group, args)

/-- An object with spreads becomes a call that copies into its first argument, which is always a
new object. -/
def lowerObjectSpread (span : Span) (props : List Node) : Node :=
  let (group, args) := spreadGroups span props
  let args :=
    if group.isEmpty then .new .object span [] :: args else .new .object span group :: args
  .call span (dotted "Object.assign" span) args

/-! ## What is left as it is -/

/-- A feature that is not lowered, and the version that brought it. -/
def newerFeature? (n : Node) : Option (String × Target) :=
  if n.kind.isFunction && n.flags.async then
    if n.flags.generator then some ("async generators", .es2018)
    else some ("async functions", .es2017)
  else if n.kind == .property then some ("class fields", .es2022)
  else if n.kind == .staticBlock then some ("class static blocks", .es2022)
  else none

/-- Warns, once for each feature, about what the target lacks and lowering leaves. -/
def noteUnlowered (n : Node) : LowerM Unit := do
  match newerFeature? n with
  | none => return
  | some (feature, since) =>
    let target := (← read).target
    if target.before since && !(← get).warned.contains feature then
      modify fun s => { s with warned := feature :: s.warned }
      warnAt n.span .unsupported (Bytes.ofString feature ++ " are not lowered for " ++ target.name
        ++ " and are emitted as written")

end ScriptLower.Lower
