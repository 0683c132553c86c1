import ScriptLower.Text.Utf8

/-!
# JSON texts

A value and two ways to write it: on one line, or with each member on a line of its own, indented
by two blanks a level. Inside strings the characters that could end a script element or a line
are written as escapes, so a text may stand in a page as it is; a byte that is not UTF-8 is
written as the replacement character.
-/

namespace ScriptLower

/-- A JSON value; the members of an object keep their order. -/
inductive JsonValue where
  /-- The null value. -/
  | null
  /-- A truth value. -/
  | bool (b : Bool)
  /-- A number, as it is written. -/
  | num (digits : Bytes)
  /-- A string. -/
  | str (s : Bytes)
  /-- A list. -/
  | arr (items : List JsonValue)
  /-- An object. -/
  | obj (members : List (Bytes × JsonValue))
  deriving Inhabited

namespace JsonValue

/-- A natural number. -/
def nat (n : Nat) : JsonValue := num (Bytes.ofNat n)

/-- One character of a string. -/
def escape (c size : Nat) : Bytes :=
  match c with
  | 34 => "\\\""
  | 92 => "\\\\"
  | 8 => "\\b"
  | 12 => "\\f"
  | 10 => "\\n"
  | 13 => "\\r"
  | 9 => "\\t"
  | _ =>
    if c == Utf8.replacement && size == 1 then "\\ufffd"
    else if c < 0x20 || c == 60 || c == 62 || c == 38 || c == 0x2028 || c == 0x2029 then
      "\\u" ++ Bytes.padLeft 4 (ascii '0') (Bytes.ofNatHex c)
    else Utf8.encode c

/-- A string in quotes. -/
def quote (s : Bytes) : Bytes :=
  ascii '"' :: (Utf8.chars s).flatMap (fun c => escape c.1 c.2) ++ [ascii '"']

mutual

/-- The value on one line. -/
def compact : JsonValue → Bytes
  | null => "null"
  | bool b => if b then "true" else "false"
  | num d => d
  | str s => quote s
  | arr items => ascii '[' :: compactItems items ++ [ascii ']']
  | obj members => 0x7B :: compactMembers members ++ [0x7D]

/-- The items of a list on one line. -/
def compactItems : List JsonValue → Bytes
  | [] => []
  | [v] => compact v
  | v :: r => compact v ++ ascii ',' :: compactItems r

/-- The members of an object on one line. -/
def compactMembers : List (Bytes × JsonValue) → Bytes
  | [] => []
  | [(k, v)] => quote k ++ ascii ':' :: compact v
  | (k, v) :: r => quote k ++ ascii ':' :: compact v ++ ascii ',' :: compactMembers r

end

/-- A line end and the indentation of a level. -/
def newline (level : Nat) : Bytes := 10 :: List.replicate (2 * level) 32

mutual

/-- The value over several lines, at a level of indentation. -/
def pretty (level : Nat) : JsonValue → Bytes
  | null => "null"
  | bool b => if b then "true" else "false"
  | num d => d
  | str s => quote s
  | arr [] => "[]"
  | arr (v :: r) =>
    ascii '[' :: newline (level + 1) ++ prettyItems (level + 1) (v :: r) ++ newline level
      ++ [ascii ']']
  | obj [] => [0x7B, 0x7D]
  | obj (m :: r) =>
    0x7B :: newline (level + 1) ++ prettyMembers (level + 1) (m :: r) ++ newline level ++ [0x7D]

/-- The items of a list, each on its own line. -/
def prettyItems (level : Nat) : List JsonValue → Bytes
  | [] => []
  | [v] => pretty level v
  | v :: r => pretty level v ++ ascii ',' :: newline level ++ prettyItems level r

/-- The members of an object, each on its own line. -/
def prettyMembers (level : Nat) : List (Bytes × JsonValue) → Bytes
  | [] => []
  | [(k, v)] => quote k ++ Bytes.ofString ": " ++ pretty level v
  | (k, v) :: r =>
    quote k ++ Bytes.ofString ": " ++ pretty level v ++ ascii ',' :: newline level
      ++ prettyMembers level r

end

/-- A text with a line end behind it. -/
def document (v : JsonValue) : Bytes := pretty 0 v ++ [10]

/-- The members whose value is there: a list of optional members. -/
def members (ms : List (String × Option JsonValue)) : JsonValue :=
  obj (ms.filterMap fun (k, v) => v.map (Bytes.ofString k, ·))

/-- Texts by name, in the order of the names. -/
def sorted (entries : List (Bytes × Bytes)) : JsonValue :=
  obj ((entries.mergeSort fun a b => Bytes.le a.1 b.1).map fun (k, v) => (k, str v))

/-- A string that is left out when empty. -/
def nonempty (s : Bytes) : Option JsonValue := if s.isEmpty then none else some (str s)

/-- A number that is left out when zero. -/
def nonzero (n : Nat) : Option JsonValue := if n = 0 then none else some (nat n)

/-- A truth value that is left out when false. -/
def whenTrue (b : Bool) : Option JsonValue := if b then some (bool true) else none

/-- A list that is left out when empty. -/
def nonemptyList (l : List JsonValue) : Option JsonValue := if l.isEmpty then none else some (arr l)

end JsonValue

end ScriptLower
