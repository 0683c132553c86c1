import ScriptLower.Text.Utf8
import ScriptLower.Text.CharClass

/-!
# String literals

The spelling of a string value as a JavaScript literal, and the value of a literal's spelling.
The value is read as UTF-16 units, since escapes may write the halves of one character apart;
adjacent halves are joined at the end and a half left alone becomes the replacement character.
-/

namespace ScriptLower.StringLiteral

open ScriptLower

/-! ## Writing -/

/-- One character inside a literal: the quote, the backslash, control characters and the two
Unicode line terminators are escaped, all else is written as it is. -/
def escape (quote : UInt8) (c : Nat) : Bytes :=
  if c == quote.toNat || c == 92 then ascii '\\' :: Utf8.encode c
  else match c with
    | 10 => "\\n"
    | 13 => "\\r"
    | 9 => "\\t"
    | 8 => "\\b"
    | 12 => "\\f"
    | 11 => "\\v"
    | 0x2028 => "\\u2028"
    | 0x2029 => "\\u2029"
    | _ =>
      if c < 0x20 || c == 0x7F then
        ascii '\\' :: ascii 'x' :: (if c < 0x10 then [ascii '0'] else [])
          ++ (Nat.toDigits 16 c).map fun d => ascii d.toUpper
      else Utf8.encode c

/-- A string value as a literal between two quotes. -/
def quote (s : Bytes) (q : UInt8) : Bytes :=
  q :: (Utf8.codePoints s).flatMap (escape q) ++ [q]

/-! ## Reading -/

/-- What one escape means: a UTF-16 unit or a character, or nothing for a line continuation. -/
structure Escape where
  /-- The unit, none for a continuation. -/
  unit : Option Nat
  /-- The bytes behind the backslash that belong to it. -/
  size : Nat

/-- The octal digits at the head of a text, at most `limit` of them. -/
def octalRun (limit : Nat) (s : Bytes) : Bytes :=
  (s.take limit).takeWhile fun b => 48 ≤ b && b ≤ 55

/-- An octal escape: up to three digits with a value below 256. -/
def octalEscape (d : UInt8) (r : Bytes) : Escape :=
  let more := octalRun 2 r
  let v := (Bytes.toNatBase? 8 (d :: more)).getD 0
  if 0xFF < v then ⟨some (v / 8), more.length⟩ else ⟨some v, 1 + more.length⟩

/-- A hexadecimal number of at most 32 bits. -/
def hex32? (s : Bytes) : Option Nat := do
  let v ← Bytes.toNatBase? 16 s
  if v < 0x100000000 then some v else none

/-- The escape behind a backslash; none when it is malformed. -/
def escape? : Bytes → Option Escape
  | [] => none
  | c :: r =>
    match Char.ofNat c.toNat with
    | 'n' => some ⟨some 10, 1⟩
    | 't' => some ⟨some 9, 1⟩
    | 'r' => some ⟨some 13, 1⟩
    | 'b' => some ⟨some 8, 1⟩
    | 'f' => some ⟨some 12, 1⟩
    | 'v' => some ⟨some 11, 1⟩
    | 'x' =>
      if r.length < 2 then none
      else (hex32? (r.take 2)).map fun v => ⟨some v, 3⟩
    | 'u' =>
      match r with
      | b :: r' =>
        if b == 0x7B then do
          let i ← r'.findIdx? (· == 0x7D)
          let v ← hex32? (r'.take i)
          if v ≤ 0x10FFFF then some ⟨some v, i + 3⟩ else none
        else if r.length < 4 then none
        else (hex32? (r.take 4)).map fun v => ⟨some v, 5⟩
      | [] => none
    | '\r' => some ⟨none, if r.head? == some 10 then 2 else 1⟩
    | '\n' => some ⟨none, 1⟩
    | _ =>
      if 48 ≤ c && c ≤ 55 then some (octalEscape c r)
      else
        let (u, size) := Utf8.decode (c :: r)
        some ⟨if u == 0x2028 || u == 0x2029 then none else some u, size⟩

/-- The units of a literal's body; `skip` bytes belong to the unit before. -/
def unitsFrom : Nat → Bytes → Option (List Nat)
  | _, [] => some []
  | skip + 1, _ :: r => unitsFrom skip r
  | 0, b :: r =>
    if b == ascii '\\' then
      match escape? r with
      | none => none
      | some e => (unitsFrom e.size r).map (e.unit.toList ++ ·)
    else
      let (c, size) := Utf8.decode (b :: r)
      (unitsFrom (size - 1) r).map (c :: ·)

/-- The value of the body of a string or a template; none when an escape is malformed. A body
without a backslash is its own value, byte for byte. -/
def cook (body : Bytes) : Option Bytes :=
  if body.contains (ascii '\\') then
    (unitsFrom 0 body).map fun us => Utf8.ofCodePoints (Utf8.joinUnits us)
  else some body

/-- The value of a string literal, quotes included. -/
def unquote (raw : Bytes) : Option Bytes :=
  match raw with
  | q :: r =>
    if !r.isEmpty && r.getLast? == some q && (q == 34 || q == 39) then cook r.dropLast else none
  | [] => none

/-- Whether a text is a name: a name start and name parts behind it. -/
def isName (s : Bytes) : Bool :=
  match Utf8.codePoints s with
  | [] => false
  | c :: r => CharClass.isNameStart c && r.all CharClass.isNamePart

end ScriptLower.StringLiteral
