import ScriptLower.Text.Utf8

/-!
# File name patterns

A pattern is a list of pieces: a star stands for any run without a slash, a question mark for one
character that is no slash, a set in brackets for one character of it, and everything else for
itself. A pattern that is not well formed matches nothing.
-/

namespace ScriptLower.Glob

open ScriptLower

/-- A piece of a pattern. -/
inductive Piece
  /-- Any run without a slash. -/
  | star
  /-- One character that is no slash. -/
  | any
  /-- One byte. -/
  | byte (b : UInt8)
  /-- One character in one of the ranges, or in none of them. -/
  | set (negated : Bool) (ranges : List (Nat × Nat))
  deriving DecidableEq, Repr, Inhabited

/-- One end of a range, and what stands behind it; something must. -/
def readEnd (s : Bytes) : Option (Nat × Bytes) :=
  let plain (s : Bytes) : Option (Nat × Bytes) :=
    match s with
    | [] => none
    | _ :: _ =>
      let (c, size) := Utf8.decode s
      let rest := s.drop size
      if (c == Utf8.replacement && size == 1) || rest.isEmpty then none else some (c, rest)
  match s with
  | [] => none
  | 45 :: _ => none
  | 93 :: _ => none
  | 92 :: r => plain r
  | _ => plain s

/-- The ranges of a set up to its bracket, in at most `fuel` of them; there is at least one. -/
def readRanges : Nat → Bool → Bytes → Option (List (Nat × Nat) × Bytes)
  | 0, _, _ => none
  | fuel + 1, first, s =>
    match s, first with
    | 93 :: r, false => some ([], r)
    | _, _ => do
      let (lo, r) ← readEnd s
      let (hi, r) ← match r with
        | 45 :: r => readEnd r
        | _ => some (lo, r)
      let (more, r) ← readRanges fuel false r
      pure ((lo, hi) :: more, r)

/-- Reads a pattern of at most `fuel` pieces; none when it is not well formed. -/
def readPieces : Nat → Bytes → Option (List Piece)
  | _, [] => some []
  | 0, _ :: _ => none
  | fuel + 1, b :: r =>
    match b with
    | 42 => (readPieces fuel r).map (.star :: ·)
    | 63 => (readPieces fuel r).map (.any :: ·)
    | 92 =>
      match r with
      | [] => none
      | c :: r => (readPieces fuel r).map (.byte c :: ·)
    | 91 => do
      let (negated, r) := match r with
        | 94 :: r => (true, r)
        | _ => (false, r)
      let (ranges, r) ← readRanges (r.length + 1) true r
      let more ← readPieces fuel r
      pure (.set negated ranges :: more)
    | _ => (readPieces fuel r).map (.byte b :: ·)

/-- Reads a pattern; none when it is not well formed. -/
def read (pattern : Bytes) : Option (List Piece) := readPieces pattern.length pattern

/-- Whether a whole text is what the pieces stand for. -/
def matchesPieces : List Piece → Bytes → Bool
  | [], s => s.isEmpty
  | .star :: ps, s =>
    matchesPieces ps s || (match s with
      | [] => false
      | b :: r => b != 47 && matchesPieces (.star :: ps) r)
  | .any :: ps, s =>
    match s with
    | [] => false
    | b :: _ => b != 47 && matchesPieces ps (s.drop (Utf8.decode s).2)
  | .byte c :: ps, s =>
    match s with
    | [] => false
    | b :: r => b == c && matchesPieces ps r
  | .set negated ranges :: ps, s =>
    match s with
    | [] => false
    | _ :: _ =>
      let (c, size) := Utf8.decode s
      (ranges.any fun (lo, hi) => lo ≤ c && c ≤ hi) != negated && matchesPieces ps (s.drop size)
  termination_by ps s => (ps.length, s.length)

/-- Whether a text matches a pattern. -/
def isMatch (pattern s : Bytes) : Bool :=
  match read pattern with
  | some ps => matchesPieces ps s
  | none => false

end ScriptLower.Glob
