import ScriptLower.Number.Literal
import ScriptLower.Text.StringLiteral
import ScriptLower.Tree.Node
import ScriptLower.Lower.StatementList

/-!
# Enumerations

An enumeration becomes an object with an entry for each member. A member that is a number also gets
an entry from its value back to its name. Members without an initializer count on from the one
before.
-/

/-!
## Constants of enumerations

The value of a member is computed where it is constant: from literals, from operators, and from
members before it.
-/

namespace ScriptLower.Lower

open ScriptLower

/-- The value of a constant member. -/
inductive EnumValue where
  /-- A number. -/
  | num (x : Float)
  /-- A string. -/
  | str (s : Bytes)
  deriving Inhabited

namespace EnumValue

/-- The value as text. -/
def text : EnumValue → Bytes
  | num x => Number.format x
  | str s => s

/-- Whether the value is a string. -/
def isString : EnumValue → Bool
  | num _ => false
  | str _ => true

/-- The result of an operator on two numbers. -/
def binary? (op : TokenKind) (a b : Float) : Option Float :=
  let shift : UInt32 := Number.toWord b &&& 31
  match op with
  | .plus => some (a + b)
  | .minus => some (a - b)
  | .star => some (a * b)
  | .slash => some (a / b)
  | .percent => some (Number.remainder a b)
  | .starStar => some (Number.power a b)
  | .shl => some (Number.ofSignedWord (Number.toWord a <<< shift))
  | .shr => some (Number.ofSignedWord (((Number.toWord a).toInt32 >>> shift.toInt32).toUInt32))
  | .uShr => some (Number.ofWord (Number.toWord a >>> shift))
  | .amp => some (Number.ofSignedWord (Number.toWord a &&& Number.toWord b))
  | .pipe => some (Number.ofSignedWord (Number.toWord a ||| Number.toWord b))
  | .caret => some (Number.ofSignedWord (Number.toWord a ^^^ Number.toWord b))
  | _ => none

/-- The result of a prefix operator on a number. -/
def unary? (op : TokenKind) (x : Float) : Option Float :=
  match op with
  | .plus => some x
  | .minus => some (Number.negate x)
  | .tilde => some (Number.ofSignedWord (~~~ Number.toWord x))
  | _ => none

/-- The result of an operator on two constants; strings can only be joined. -/
def combine? (op : TokenKind) (a b : EnumValue) : Option EnumValue :=
  match a, b with
  | num x, num y => (binary? op x y).map num
  | _, _ => if op == .plus then some (str (a.text ++ b.text)) else none

end EnumValue

/-- The constant members so far, the latest first. -/
abbrev KnownMembers := List (Bytes × EnumValue)

/-- The value of a member. -/
def KnownMembers.find (known : KnownMembers) (name : Bytes) : Option EnumValue :=
  (known.find? (·.1 == name)).map (·.2)

/-- The member that an index names. -/
def indexedMember? (known : KnownMembers) (key : Node) : Option EnumValue :=
  if key.kind == .literal && key.op == .stringLit
    then do known.find (← StringLiteral.unquote key.text)
  else none

mutual

/-- The value of an initializer in the enumeration `name`, if it is constant. -/
def evalEnum (name : Bytes) (known : KnownMembers) : Node → Option EnumValue
  | .absent => none
  | .mk h ks _ _ _ _ =>
    let object := ks.getD 0 .absent
    let ofEnum := object.kind == .ident && object.text == name
    match h.kind with
    | .paren => evalEnumAt name known 0 ks
    | .literal =>
      match h.op with
      | .numberLit =>
        let (x, ok) := Number.value h.text
        if ok then some (.num x) else none
      | .stringLit => (StringLiteral.unquote h.text).map .str
      | _ => none
    | .template =>
      if ks.length == 1 then (StringLiteral.cook object.text).map .str else none
    | .ident =>
      if h.text == Bytes.ofString "Infinity" then some (.num (Number.infinity false))
      else if h.text == Bytes.ofString "NaN" then some (.num Number.nan)
      else known.find h.text
    | .member => if ofEnum then known.find (ks.getD 1 .absent).text else none
    | .index => if ofEnum then indexedMember? known (ks.getD 1 .absent) else none
    | .unary =>
      match evalEnumAt name known 0 ks with
      | some (.num x) => (EnumValue.unary? h.op x).map .num
      | _ => none
    | .binary => do
      let a ← evalEnumAt name known 0 ks
      let b ← evalEnumAt name known 1 ks
      EnumValue.combine? h.op a b
    | _ => none

/-- The value of the initializer at a place. -/
def evalEnumAt (name : Bytes) (known : KnownMembers) : Nat → List Node → Option EnumValue
  | _, [] => none
  | 0, n :: _ => evalEnum name known n
  | i + 1, _ :: r => evalEnumAt name known i r

end

end ScriptLower.Lower

/-! ## Members -/

namespace ScriptLower.Lower

open ScriptLower

/-- The members of an enumeration so far. -/
structure EnumState where
  /-- The constant members, the latest first. -/
  known : KnownMembers := []
  /-- The names of all members. -/
  names : List Bytes := []
  /-- The value of the next member, if it can be counted. -/
  next : Option Float := some (Binary64.ofNat 0)
  /-- The statements that fill the object, in order. -/
  body : List Node := []
  deriving Inhabited

/-- The name of a member. -/
def memberName? (n : Node) : Option Bytes :=
  if n.kind == .ident then some n.text
  else if n.kind == .literal && n.op == .stringLit then StringLiteral.unquote n.text
  else none

/-- A constant as an expression. -/
def EnumValue.literal (span : Span) : EnumValue → Node
  | str s => string s span
  | num x =>
    if x < Binary64.ofNat 0 || (x == Binary64.ofNat 0 && Binary64.signBit x) then
      .newOp .unary .minus span [number (Number.format (Number.negate x)) span]
    else number (Number.format x) span

/-- The statement that sets a member, and for a member that is no string the entry back from its
value. -/
def setMember (span : Span) (enum key : Bytes) (value : Node) (isString : Bool) : Node :=
  let object := Node.ident enum span
  let set := assign span (.new .index span [object, string key span]) value
  let set := if isString then set
    else assign span (.new .index span [object, set]) (string key span)
  .new .exprStmt span [set]

/-- The state behind a member of a value; the value of the next one is counted from a number. -/
def EnumState.push (s : EnumState) (enum key : Bytes) (span : Span) (constant : Option EnumValue)
    (value : Node) : EnumState :=
  { known := match constant with
      | some v => (key, v) :: s.known
      | none => s.known
    names := s.names ++ [key]
    next := match constant with
      | some (.num x) => some (x + Binary64.ofNat 1)
      | _ => none
    body := s.body ++ [setMember span enum key value
      (match constant with
        | some v => v.isString
        | none => false)] }

/-- One member. Its initializer reads earlier members from the object. -/
def lowerEnumMember (g : Rules) (enum : Bytes) (s : EnumState) (m : Node) : LowerM EnumState := do
  match memberName? (m.kid 0) with
  | none =>
    errorAt m.span .unsupported "enum member names must be identifiers or strings"
    return s
  | some key =>
    let init := m.kid 1
    if init.isPresent then
      match evalEnum enum s.known init with
      | some v => return s.push enum key m.span (some v) (v.literal m.span)
      | none =>
        let value ← inScope { kind := .enumBody, name := enum, exports := s.names } (g.expr init)
        return s.push enum key m.span none value
    else match s.next with
      | some x => return s.push enum key m.span (some (.num x)) ((EnumValue.num x).literal m.span)
      | none =>
        errorAt m.span .unsupported ("enum member '" ++ key ++ "' must have an initializer")
        return s

/-- An enumeration. Constant ones are kept as objects too, since other files may use them. -/
def lowerEnum (g : Rules) (n : Node) (exported : Bool) : LowerM (List Node) := do
  if n.flags.declared then return []
  let parent ← namespaceScope?
  let name := n.kid 0
  let s ← (n.kids.drop 1).foldlM (lowerEnumMember g name.text) {}
  fillObject n.span name s.body exported parent

end ScriptLower.Lower
