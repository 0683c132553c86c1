/-!
# Texts as byte lists

A source file is whatever bytes the caller hands over: most are UTF-8, some are not, and a
position is always a byte offset. So every text of this library is a list of bytes, and a
program text that happens to be malformed needs no case of its own. String literals in the
library are read as their UTF-8 bytes.

A list makes each scanner a recursion on the rest of the input, which is what ends it.
-/

/-! ## Texts -/

namespace ScriptLower

/-- A text: its bytes in order, UTF-8 in the ordinary case. -/
abbrev Bytes := List UInt8

/-- The UTF-8 bytes of a string. -/
@[coe] def Bytes.ofString (s : String) : Bytes := s.toUTF8.data.toList

instance : Coe String Bytes := ⟨Bytes.ofString⟩

/-- The byte of an ASCII character. -/
@[inline] def ascii (c : Char) : UInt8 := c.toNat.toUInt8

namespace Bytes

/-- What holds of all bytes of a text is decided along the text, not along all the bytes there
are. -/
instance decidableForallMem (s : Bytes) (p : UInt8 → Prop) [DecidablePred p] :
    Decidable (∀ b ∈ s, p b) :=
  List.decidableBAll p s

/-! ## Byte classes -/

/-- A decimal digit. -/
def isDigit (b : UInt8) : Bool := 48 ≤ b && b ≤ 57

/-- An ASCII letter. -/
def isAlpha (b : UInt8) : Bool := (97 ≤ b && b ≤ 122) || (65 ≤ b && b ≤ 90)

/-- A hexadecimal digit, either case. -/
def isHexDigit (b : UInt8) : Bool :=
  isDigit b || (97 ≤ b && b ≤ 102) || (65 ≤ b && b ≤ 70)

/-- The value of a digit in a radix up to 36; other bytes have none. -/
def digitVal (b : UInt8) : Option Nat :=
  if isDigit b then some (b.toNat - 48)
  else if 97 ≤ b && b ≤ 122 then some (b.toNat - 87)
  else if 65 ≤ b && b ≤ 90 then some (b.toNat - 55)
  else none

/-- Lower case of an ASCII letter; other bytes stay. -/
def lowerByte (b : UInt8) : UInt8 := if 65 ≤ b && b ≤ 90 then b + 32 else b

/-- Lower case of the ASCII letters of a text. -/
def lower (s : Bytes) : Bytes := s.map lowerByte

/-! ## Numbers as text -/

/-- The digit of a value below 16, lower case. -/
def hexDigit (n : Nat) : UInt8 := if n < 10 then (48 + n).toUInt8 else (87 + n).toUInt8

/-- Decimal digits. -/
def ofNat (n : Nat) : Bytes := (Nat.toDigits 10 n).map ascii

/-- Decimal digits with a sign in front of a negative number. -/
def ofInt : Int → Bytes
  | .ofNat n => ofNat n
  | .negSucc n => ascii '-' :: ofNat (n + 1)

/-- Hexadecimal digits, lower case. -/
def ofNatHex (n : Nat) : Bytes := (Nat.toDigits 16 n).map ascii

/-- Fills up on the left to at least `width` bytes. -/
def padLeft (width : Nat) (fill : UInt8) (s : Bytes) : Bytes :=
  List.replicate (width - s.length) fill ++ s

/-- Fills up on the right to at least `width` bytes. -/
def padRight (width : Nat) (fill : UInt8) (s : Bytes) : Bytes :=
  s ++ List.replicate (width - s.length) fill

/-- The number a digit string denotes in `base`; none for the empty text or a foreign digit. -/
def toNatBase? (base : Nat) (s : Bytes) : Option Nat :=
  if s.isEmpty then none
  else s.foldl (fun acc b => do
    let n ← acc
    let d ← digitVal b
    if d < base then some (n * base + d) else none) (some 0)

/-! ## Searching and cutting -/

/-- The rest after a leading `pre`. -/
def dropPrefix? (pre s : Bytes) : Option Bytes :=
  if pre.isPrefixOf s then some (s.drop pre.length) else none

/-- The text without a leading `pre`, if it has one. -/
def trimPrefix (pre s : Bytes) : Bytes := (dropPrefix? pre s).getD s

/-- The text without a trailing `post`, if it has one. -/
def trimSuffix (post s : Bytes) : Bytes :=
  if post.isSuffixOf s then s.take (s.length - post.length) else s

/-- Where `sub` first stands in a text. -/
def indexOf? (sub : Bytes) : Bytes → Option Nat
  | [] => if sub.isEmpty then some 0 else none
  | b :: r => if sub.isPrefixOf (b :: r) then some 0 else (indexOf? sub r).map (· + 1)

/-- Whether `sub` stands somewhere in a text. -/
def includes (sub s : Bytes) : Bool := (indexOf? sub s).isSome

/-- The texts before and after the first `sub`. -/
def cut? (sub s : Bytes) : Option (Bytes × Bytes) :=
  (indexOf? sub s).map fun i => (s.take i, s.drop (i + sub.length))

/-- Where a byte last stands in a text. -/
def lastIndexOf? (b : UInt8) (s : Bytes) : Option Nat :=
  (s.reverse.findIdx? (· == b)).map fun i => s.length - 1 - i

/-- The pieces of a text between the occurrences of one byte; never empty. -/
def splitOn (sep : UInt8) : Bytes → List Bytes
  | [] => [[]]
  | b :: r =>
    if b == sep then [] :: splitOn sep r
    else match splitOn sep r with
      | [] => [[b]]
      | p :: ps => (b :: p) :: ps

/-- Puts `sep` between the pieces. -/
def join (sep : Bytes) : List Bytes → Bytes
  | [] => []
  | [p] => p
  | p :: ps => p ++ sep ++ join sep ps

/-- Drops the leading bytes that satisfy `p`. -/
def trimLeft (p : UInt8 → Bool) (s : Bytes) : Bytes := s.dropWhile p

/-- Drops the trailing bytes that satisfy `p`. -/
def trimRight (p : UInt8 → Bool) (s : Bytes) : Bytes := (s.reverse.dropWhile p).reverse

/-- Replaces each occurrence of `sub`, left to right and without overlap. The counter skips the
bytes of an occurrence already replaced; an empty `sub` replaces nothing. -/
def replaceFrom (sub by_ : Bytes) : Nat → Bytes → Bytes
  | _, [] => []
  | skip + 1, _ :: r => replaceFrom sub by_ skip r
  | 0, b :: r =>
    if !sub.isEmpty && sub.isPrefixOf (b :: r) then by_ ++ replaceFrom sub by_ (sub.length - 1) r
    else b :: replaceFrom sub by_ 0 r

/-- Replaces each occurrence of `sub`. -/
def replace (sub by_ s : Bytes) : Bytes := replaceFrom sub by_ 0 s

/-- `n` copies of a text. -/
def repeated (n : Nat) (s : Bytes) : Bytes := (List.replicate n s).flatten

/-- The order of texts byte by byte; a proper prefix comes first. -/
def lt : Bytes → Bytes → Bool
  | [], [] => false
  | [], _ :: _ => true
  | _ :: _, [] => false
  | a :: s, b :: t => if a < b then true else if b < a then false else lt s t

/-- `a` does not come after `b`. -/
def le (a b : Bytes) : Bool := !lt b a

/-- The comparison of two texts byte by byte. -/
def compare (a b : Bytes) : Ordering :=
  if lt a b then .lt else if lt b a then .gt else .eq

end Bytes

end ScriptLower
