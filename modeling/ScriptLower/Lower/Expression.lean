import ScriptLower.Lower.Element
import ScriptLower.Number.Literal
import ScriptLower.Lower.Function

/-!
# Expressions

Types around an expression vanish, and operators that the target lacks are spelled out.
-/

namespace ScriptLower.Lower

open ScriptLower

/-- A literal. Separators in numbers go where the target lacks them. -/
def lowerLiteral (n : Node) : LowerM Node := do
  let old ← targetBefore .es2021
  if old && n.op == .numberLit && n.text.contains (ascii '_') then
    let (x, ok) := Number.value n.text
    return if ok then (leaf n).withText (Number.format x) else leaf n
  else return leaf n

/-- Whether a member written as its name alone still says the same: its value is that name, perhaps
with a default. -/
def staysShorthand (key value : Node) : Bool :=
  let v := if value.kind == .assignPattern then value.kid 0 else value
  v.kind == .ident && v.text == key.text

/-- A member of an object or of an object pattern. -/
def lowerProp (g : Rules) (value : Node → LowerM Node) (n : Node) : LowerM Node := do
  let key ← lowerKey g n
  let v ← value (n.kid 1)
  let out := like n [key, v]
  if n.flags.shorthand && !staysShorthand key v then
    return out.mapFlags fun f => { f with shorthand := false }
  else return out

/-- A member of an object. -/
def lowerObjectMember (g : Rules) (n : Node) : LowerM Node :=
  match n.kind with
  | .objProp => lowerProp g g.expr n
  | .method => lowerMethod g false n
  | .spread => return like n [← g.expr (n.kid 0)]
  | _ => g.expr n

/-- An object. -/
def lowerObject (g : Rules) (n : Node) : LowerM Node := do
  let kids ← n.kids.mapM (lowerObjectMember g)
  if (← targetBefore .es2018) && n.kids.any (·.kind == .spread) then
    return lowerObjectSpread n.span kids
  else return like n kids

/-- A binary operation. -/
def lowerBinary (g : Rules) (n : Node) : LowerM Node := do
  let left ← g.expr (n.kid 0)
  if n.op == .questionQuestion && (← targetBefore .es2020) then
    lowerNullish n.span left (g.expr (n.kid 1))
  else
    let right ← g.expr (n.kid 1)
    if n.op == .starStar && (← targetBefore .es2016) then return mathPow n.span left right
    else return like n [left, right]

/-- Whether an operator assigns depending on the old value. -/
def isLogicalAssign : TokenKind → Bool
  | .andAndAssign | .orOrAssign | .questionQuestionAssign => true
  | _ => false

/-- An assignment. -/
def lowerAssignment (g : Rules) (n : Node) : LowerM Node := do
  if n.op == .starStarAssign && (← targetBefore .es2016) then lowerPowerAssign g n
  else if isLogicalAssign n.op && (← targetBefore .es2021) then lowerLogicalAssign g n
  else
    let target ← g.pattern true (n.kid 0)
    let value ← g.expr (n.kid 1)
    return like n [target, value]

/-- A prefix operation. Deleting an optional chain deletes at its end. -/
def lowerUnary (g : Rules) (n : Node) : LowerM Node := do
  let operand := (n.kid 0).unparen
  if n.op == .kwDelete && operand.kind == .optChain && (← targetBefore .es2020) then
    lowerChain g operand true
  else return like n [← g.expr (n.kid 0)]

/-- An expression. -/
def lowerExpr (g : Rules) (n : Node) : LowerM Node := do
  if n.isAbsent then return .absent
  match n.kind with
  | .ident => nameRef n
  | .literal => lowerLiteral n
  | .privateName | .templateElem | .thisExpr | .superExpr | .metaProp | .hole | .raw =>
    return leaf n
  | .asExpr | .satisfies | .typeAssert | .nonNull | .instantiation => g.expr (n.kid 0)
  | .template | .taggedTemplate | .array | .spread | .conditional | .seq | .paren | .await | .yield
  | .newExpr | .importCall | .index | .call => return like n (← n.kids.mapM g.expr)
  | .member => return like n [← g.expr (n.kid 0), leaf (n.kid 1)]
  | .object => lowerObject g n
  | .funcExpr => lowerFunction g n
  | .arrow => lowerArrow g n
  | .classExpr => lowerClass g n
  | .unary => lowerUnary g n
  | .update => return like n [← g.pattern true (n.kid 0)]
  | .binary => lowerBinary g n
  | .assign => lowerAssignment g n
  | .optChain =>
    if ← targetBefore .es2020 then lowerChain g n false else return like n [← g.expr (n.kid 0)]
  | .jsxElement | .jsxFragment => lowerElement g n
  | .arrayPattern | .objectPattern | .assignPattern | .restElement => g.pattern true n
  | k =>
    errorAt n.span .unknownNode ("unexpected " ++ k.name ++ " in expression position")
    return .newText .raw n.span "void 0"

/-! ## Patterns -/

/-- A member of an object pattern. -/
def lowerPatternMember (g : Rules) (assigns : Bool) (n : Node) : LowerM Node := do
  if n.kind == .restElement then
    if ← targetBefore .es2018 then
      errorAt n.span .unsupported "object rest patterns need target es2018 or later"
    return like n [← g.pattern assigns (n.kid 0)]
  else lowerProp g (g.pattern assigns) n

/-- A pattern that binds names or, when the mark is set, assigns to targets. -/
def lowerPattern (g : Rules) (assigns : Bool) (n : Node) : LowerM Node := do
  if n.isAbsent then return .absent
  match n.kind with
  | .ident =>
    match ← exporter? n.text with
    | some s => return if assigns then qualified s n.text n.span else leaf n
    | none => return leaf n
  | .hole => return leaf n
  | .arrayPattern => return like n (← n.kids.mapM (g.pattern assigns))
  | .objectPattern => return like n (← n.kids.mapM (lowerPatternMember g assigns))
  | .assignPattern =>
    let target ← g.pattern assigns (n.kid 0)
    let init ← g.expr (n.kid 1)
    return like n [target, init]
  | .restElement | .paren => return like n [← g.pattern assigns (n.kid 0)]
  | .asExpr | .satisfies | .typeAssert | .nonNull => g.pattern assigns (n.kid 0)
  | _ => g.expr n

end ScriptLower.Lower
