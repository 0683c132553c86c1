import ScriptLower.Text.Bytes

/-!
# UTF-8 and UTF-16

Reading a character never fails: a byte that starts no valid sequence is read alone, as the
replacement character, and the reader goes on behind it. So a text always splits into
characters, and a valid text splits into its own.

The walkers below recurse on the bytes and carry a counter of bytes that belong to a character
already read; that keeps the recursion structural.
-/

namespace ScriptLower.Utf8

open ScriptLower

/-- The character that stands for unreadable bytes. -/
def replacement : Nat := 0xFFFD

/-- A continuation byte. -/
def isTail (b : UInt8) : Bool := 0x80 ≤ b && b ≤ 0xBF

/-- The character at the head of a text and the number of bytes it takes. A byte that starts no
valid sequence is the replacement character and takes one; the empty text takes none. -/
def decode : Bytes → Nat × Nat
  | [] => (replacement, 0)
  | a :: r =>
    if a < 0x80 then (a.toNat, 1)
    else if 0xC2 ≤ a && a ≤ 0xDF then
      match r with
      | b :: _ =>
        if isTail b then ((a.toNat - 0xC0) * 64 + (b.toNat - 0x80), 2) else (replacement, 1)
      | [] => (replacement, 1)
    else if 0xE0 ≤ a && a ≤ 0xEF then
      match r with
      | b :: c :: _ =>
        let lo : UInt8 := if a == 0xE0 then 0xA0 else 0x80
        let hi : UInt8 := if a == 0xED then 0x9F else 0xBF
        if lo ≤ b && b ≤ hi && isTail c then
          ((a.toNat - 0xE0) * 4096 + (b.toNat - 0x80) * 64 + (c.toNat - 0x80), 3)
        else (replacement, 1)
      | _ => (replacement, 1)
    else if 0xF0 ≤ a && a ≤ 0xF4 then
      match r with
      | b :: c :: d :: _ =>
        let lo : UInt8 := if a == 0xF0 then 0x90 else 0x80
        let hi : UInt8 := if a == 0xF4 then 0x8F else 0xBF
        if lo ≤ b && b ≤ hi && isTail c && isTail d then
          ((a.toNat - 0xF0) * 262144 + (b.toNat - 0x80) * 4096 + (c.toNat - 0x80) * 64
            + (d.toNat - 0x80), 4)
        else (replacement, 1)
      | _ => (replacement, 1)
    else (replacement, 1)

/-- A surrogate half. -/
def isSurrogate (c : Nat) : Bool := 0xD800 ≤ c && c ≤ 0xDFFF

/-- The bytes of a character; what is no character is written as the replacement character. -/
def encode (c : Nat) : Bytes :=
  if c < 0x80 then [c.toUInt8]
  else if c < 0x800 then [(0xC0 + c / 64).toUInt8, (0x80 + c % 64).toUInt8]
  else if isSurrogate c || 0x10FFFF < c then [0xEF, 0xBF, 0xBD]
  else if c < 0x10000 then
    [(0xE0 + c / 4096).toUInt8, (0x80 + c / 64 % 64).toUInt8, (0x80 + c % 64).toUInt8]
  else
    [(0xF0 + c / 262144).toUInt8, (0x80 + c / 4096 % 64).toUInt8, (0x80 + c / 64 % 64).toUInt8,
      (0x80 + c % 64).toUInt8]

/-- The characters of a text with the bytes each takes; `skip` bytes belong to the one before. -/
def charsFrom : Nat → Bytes → List (Nat × Nat)
  | _, [] => []
  | skip + 1, _ :: r => charsFrom skip r
  | 0, b :: r =>
    let c := decode (b :: r)
    c :: charsFrom (c.2 - 1) r

/-- The characters of a text, each with the number of bytes it takes. -/
def chars (s : Bytes) : List (Nat × Nat) := charsFrom 0 s

/-- The code points of a text. -/
def codePoints (s : Bytes) : List Nat := (chars s).map (·.1)

/-- The text of a list of code points. -/
def ofCodePoints (cs : List Nat) : Bytes := cs.flatMap encode

/-- Whether a text is well-formed: reading gives the replacement character only where it stands. -/
def isValid (s : Bytes) : Bool := (chars s).all fun (c, n) => !(c == replacement && n == 1)

/-- The number of UTF-16 units of a character. -/
def units (c : Nat) : Nat := if 0x10000 ≤ c then 2 else 1

/-- The number of UTF-16 units of a text. -/
def length16 (s : Bytes) : Nat := ((chars s).map fun c => units c.1).foldr (· + ·) 0

/-- The character of a high and a low surrogate half. -/
def joinSurrogates (hi lo : Nat) : Nat := 0x10000 + (hi - 0xD800) * 1024 + (lo - 0xDC00)

/-- The two surrogate halves of a character above U+FFFF. -/
def splitSurrogates (c : Nat) : Nat × Nat :=
  (0xD800 + (c - 0x10000) / 1024, 0xDC00 + (c - 0x10000) % 1024)

/-- Joins adjacent surrogate halves; a half alone becomes the replacement character. -/
def joinUnits : List Nat → List Nat
  | [] => []
  | [u] => [if isSurrogate u then replacement else u]
  | u :: v :: r =>
    if isSurrogate u && u < 0xDC00 && isSurrogate v && 0xDC00 ≤ v then
      joinSurrogates u v :: joinUnits r
    else (if isSurrogate u then replacement else u) :: joinUnits (v :: r)

/-- A text with each unreadable byte replaced by the replacement character. -/
def sanitize (s : Bytes) : Bytes := ofCodePoints (codePoints s)

end ScriptLower.Utf8
