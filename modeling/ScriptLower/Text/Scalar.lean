import ScriptLower.Text.Quoted

/-!
# Truth values, whole numbers and durations as texts

Readers for the values that people write on a command line or in a query. Each says in its error
what it could not read.
-/

namespace ScriptLower.Scalar

open ScriptLower

/-- The words for true. -/
def trueWords : List Bytes := ["1", "t", "T", "TRUE", "true", "True"].map Bytes.ofString

/-- The words for false. -/
def falseWords : List Bytes := ["0", "f", "F", "FALSE", "false", "False"].map Bytes.ofString

/-- Reads a truth value. -/
def readTruth (s : Bytes) : Except Bytes Bool :=
  if trueWords.contains s then .ok true
  else if falseWords.contains s then .ok false
  else .error ("strconv.ParseBool: parsing " ++ Quoted.quote s ++ ": invalid syntax")

/-! ## Whole numbers -/

/-- Why a number was not read. -/
inductive NumberFault
  /-- It is none. -/
  | malformed
  /-- It does not fit. -/
  | tooLarge
  deriving DecidableEq, Repr, Inhabited

/-- The base of a number by its prefix, and the digits. -/
def splitBase (s : Bytes) : Nat × Bytes :=
  match s with
  | 48 :: b :: c :: r =>
    match Bytes.lowerByte b with
    | 98 => (2, c :: r)
    | 111 => (8, c :: r)
    | 120 => (16, c :: r)
    | _ => (8, b :: c :: r)
  | 48 :: r => (8, r)
  | _ => (10, s)

/-- Reads digits of a base from a value on; a value of `limit` or more does not fit. Underscores
stand between digits. -/
def readDigits (base limit : Nat) : Nat → Bytes → Except NumberFault Nat
  | n, [] => .ok n
  | n, b :: r =>
    if b == ascii '_' then readDigits base limit n r
    else match Bytes.digitVal b with
      | none => .error .malformed
      | some d =>
        if base ≤ d then .error .malformed
        else if limit ≤ n * base + d then .error .tooLarge
        else readDigits base limit (n * base + d) r

/-- Whether each underscore stands behind a digit, or the prefix of the base, and in front of one;
`digit` says that a digit stood before. -/
def underscoresFit (isDigit : UInt8 → Bool) : Bool → Bytes → Bool
  | _, [] => true
  | digit, b :: r =>
    if b == ascii '_' then
      digit && (match r with
        | c :: _ => isDigit c
        | [] => false) && underscoresFit isDigit false r
    else underscoresFit isDigit (isDigit b) r

/-- Whether the underscores of a number without its sign stand where they may. -/
def underscoresOk (s : Bytes) : Bool :=
  match s with
  | 48 :: b :: r =>
    match Bytes.lowerByte b with
    | 98 => underscoresFit Bytes.isDigit true r
    | 111 => underscoresFit Bytes.isDigit true r
    | 120 => underscoresFit Bytes.isHexDigit true r
    | _ => underscoresFit Bytes.isDigit false s
  | _ => underscoresFit Bytes.isDigit false s

/-- Reads a number without a sign that fits into some bits. -/
def readUnsigned (bits : Nat) (s : Bytes) : Except NumberFault Nat :=
  if s.isEmpty then .error .malformed
  else
    let (base, digits) := splitBase s
    match readDigits base (Nat.pow 2 bits) 0 digits with
    | .error f => .error f
    | .ok n =>
      if digits.contains (ascii '_') && !underscoresOk s then .error .malformed else .ok n

/-- Reads a number with or without a sign that fits into some bits. -/
def readSigned (bits : Nat) (s : Bytes) : Except NumberFault Int :=
  let (negative, body) : Bool × Bytes := match s with
    | 43 :: r => (false, r)
    | 45 :: r => (true, r)
    | _ => (false, s)
  match readUnsigned bits body with
  | .error f => .error f
  | .ok n =>
    let half := Nat.pow 2 (bits - 1)
    if negative then if half < n then .error .tooLarge else .ok (-(n : Int))
    else if half ≤ n then .error .tooLarge else .ok n

/-- Reads a whole number that fits into some bits. -/
def readInt (bits : Nat) (s : Bytes) : Except Bytes Int :=
  match readSigned bits s with
  | .ok n => .ok n
  | .error .malformed =>
    .error ("strconv.ParseInt: parsing " ++ Quoted.quote s ++ ": invalid syntax")
  | .error .tooLarge =>
    .error ("strconv.ParseInt: parsing " ++ Quoted.quote s ++ ": value out of range")

/-! ## Durations -/

/-- A text in quotes, with all but printable ASCII as bytes. -/
def quoteAscii (s : Bytes) : Bytes :=
  let one (b : UInt8) : Bytes :=
    if b < 32 || 128 ≤ b then
      [ascii '\\', ascii 'x', Bytes.hexDigit (b.toNat / 16), Bytes.hexDigit (b.toNat % 16)]
    else if b == ascii '"' || b == ascii '\\' then [ascii '\\', b]
    else [b]
  ascii '"' :: s.flatMap one ++ [ascii '"']

/-- The units of time and their nanoseconds. -/
def units : List (Bytes × Nat) := [
  ("ns", 1), ("us", 1000), ("µs", 1000), ("μs", 1000), ("ms", 1000000),
  ("s", 1000000000), ("m", 60000000000), ("h", 3600000000000)]

/-- Whether a byte belongs to a number. -/
def isNumberByte (b : UInt8) : Bool := b == ascii '.' || Bytes.isDigit b

/-- One number with its unit, in nanoseconds, and what stands behind; the error is the message for
the whole text. -/
def readSpan (whole s : Bytes) : Except Bytes (Nat × Bytes) :=
  let invalid : Except Bytes (Nat × Bytes) := .error ("time: invalid duration " ++ quoteAscii whole)
  let before := s.takeWhile Bytes.isDigit
  let r := s.drop before.length
  let (after, r) : Bytes × Bytes := match r with
    | 46 :: r =>
      let digits := r.takeWhile Bytes.isDigit
      (digits, r.drop digits.length)
    | _ => ([], r)
  if before.isEmpty && after.isEmpty then invalid
  else
    let unit := r.takeWhile fun b => !isNumberByte b
    if unit.isEmpty then .error ("time: missing unit in duration " ++ quoteAscii whole)
    else match units.lookup unit with
      | none =>
        .error ("time: unknown unit " ++ quoteAscii unit ++ " in duration " ++ quoteAscii whole)
      | some nanos =>
        let number (digits : Bytes) : Nat := (Bytes.toNatBase? 10 digits).getD 0
        let total := number before * nanos + number after * nanos / Nat.pow 10 after.length
        if Nat.pow 2 63 < total then invalid else .ok (total, r.drop unit.length)

/-- Numbers with units one behind the other, at most `fuel` of them. -/
def readSpans (whole : Bytes) : Nat → Nat → Bytes → Except Bytes Nat
  | _, total, [] => .ok total
  | 0, total, _ :: _ => .ok total
  | fuel + 1, total, s =>
    match readSpan whole s with
    | .error e => .error e
    | .ok (n, r) =>
      if Nat.pow 2 63 < total + n then .error ("time: invalid duration " ++ quoteAscii whole)
      else readSpans whole fuel (total + n) r

/-- Reads a duration in nanoseconds. -/
def readDuration (s : Bytes) : Except Bytes Int :=
  let (negative, body) : Bool × Bytes := match s with
    | 43 :: r => (false, r)
    | 45 :: r => (true, r)
    | _ => (false, s)
  if body == [48] then .ok 0
  else if body.isEmpty then .error ("time: invalid duration " ++ quoteAscii s)
  else match readSpans s body.length 0 body with
    | .error e => .error e
    | .ok n =>
      if negative then .ok (-(n : Int))
      else if n = Nat.pow 2 63 then .error ("time: invalid duration " ++ quoteAscii s)
      else .ok n

/-- A fraction of a unit without zeros at its end. -/
def fraction (n scale : Nat) : Bytes :=
  let digits := Bytes.padLeft scale (ascii '0') (Bytes.ofNat (n % Nat.pow 10 scale))
  let digits := Bytes.trimRight (· == ascii '0') digits
  Bytes.ofNat (n / Nat.pow 10 scale) ++ if digits.isEmpty then [] else ascii '.' :: digits

/-- A duration of nanoseconds, as people write it. -/
def duration (nanos : Nat) : Bytes :=
  if nanos = 0 then "0s"
  else if nanos < 1000 then Bytes.ofNat nanos ++ "ns"
  else if nanos < 1000000 then fraction nanos 3 ++ "µs"
  else if nanos < 1000000000 then fraction nanos 6 ++ "ms"
  else
    let seconds := nanos / 1000000000
    let minutes := seconds / 60
    let hours := minutes / 60
    let rest := fraction (nanos % 60000000000) 9 ++ Bytes.ofString "s"
    if minutes = 0 then rest
    else if hours = 0 then Bytes.ofNat minutes ++ "m" ++ rest
    else Bytes.ofNat hours ++ "h" ++ Bytes.ofNat (minutes % 60) ++ "m" ++ rest

end ScriptLower.Scalar
