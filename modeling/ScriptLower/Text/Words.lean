import ScriptLower.Text.Utf8
import ScriptLower.Text.CharClass

/-!
# Words and blanks

Trimming and splitting at white space, and the lower case of option names.
-/

namespace ScriptLower.Words

open ScriptLower

/-- A text without the white space at its ends. -/
def trim (s : Bytes) : Bytes :=
  let cs := (Utf8.chars s)
  let front := (cs.takeWhile fun c => CharClass.isWhitespace c.1).map (·.2)
  let back := (cs.reverse.takeWhile fun c => CharClass.isWhitespace c.1).map (·.2)
  (s.take (s.length - back.foldr (· + ·) 0)).drop (front.foldr (· + ·) 0)

/-- The words of a text from `word`, which stands in reverse, on; `skip` bytes belong to the
character before. -/
def splitFrom : Nat → Bytes → Bytes → List Bytes
  | _, word, [] => if word.isEmpty then [] else [word.reverse]
  | skip + 1, word, b :: r => splitFrom skip (b :: word) r
  | 0, word, b :: r =>
    let (c, size) := Utf8.decode (b :: r)
    if CharClass.isWhitespace c then
      if word.isEmpty then splitBlank (size - 1) r else word.reverse :: splitBlank (size - 1) r
    else splitFrom (size - 1) (b :: word) r
where
  /-- The words behind a blank of which `skip` bytes are left. -/
  splitBlank : Nat → Bytes → List Bytes
  | _, [] => []
  | skip + 1, _ :: r => splitBlank skip r
  | 0, b :: r =>
    let (c, size) := Utf8.decode (b :: r)
    if CharClass.isWhitespace c then splitBlank (size - 1) r
    else splitFrom (size - 1) [b] r

/-- The words of a text between white space. -/
def split (s : Bytes) : List Bytes := splitFrom 0 [] s

/-- The lower case of a character, as far as it decides whether a name is an ASCII word: besides
the ASCII letters, the dotted capital I and the Kelvin sign have ASCII lower cases. -/
def lowerChar (c : Nat) : Nat :=
  if 65 ≤ c && c ≤ 90 then c + 32
  else if c == 0x130 then 105
  else if c == 0x212A then 107
  else c

/-- The lower case of a name, for comparing with ASCII words. -/
def lowerName (s : Bytes) : Bytes := (Utf8.codePoints s).flatMap fun c => Utf8.encode (lowerChar c)

/-- A character with its case taken away, as far as it decides whether a name is an ASCII word:
besides the ASCII letters, the Kelvin sign and the long s are cases of ASCII letters. -/
def foldChar (c : Nat) : Nat :=
  if 65 ≤ c && c ≤ 90 then c + 32
  else if c == 0x212A then 107
  else if c == 0x17F then 115
  else c

/-- Whether a name is an ASCII word in lower case, but for the case of its letters. -/
def isWord (word s : Bytes) : Bool :=
  (Utf8.codePoints s).map foldChar == word.map (·.toNat)

end ScriptLower.Words
