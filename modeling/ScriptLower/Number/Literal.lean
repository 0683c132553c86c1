import ScriptLower.Number.Binary64

/-!
# Number literals

The value of a numeric literal as it is written, and the spelling a JavaScript engine gives a
number value. Separators carry no value. A literal with a radix mark is an integer of any size,
one with a leading zero and only octal digits is the older octal form, and everything else is
read as a decimal.
-/

namespace ScriptLower.Number

open ScriptLower

/-- Positive infinity, or its negative. -/
def infinity (negative : Bool) : Float :=
  Float.ofBits (if negative then 0xFFF0000000000000 else 0x7FF0000000000000)

/-- Not a number. -/
def nan : Float := Float.ofBits 0x7FF8000000000001

/-- An optional sign and the rest. -/
def signed (s : Bytes) : Bool × Bytes :=
  match s with
  | b :: r =>
    if b == ascii '-' then (true, r) else if b == ascii '+' then (false, r) else (false, s)
  | [] => (false, s)

/-- An exponent: an optional sign and at least one digit, and nothing behind it. -/
def exponent? (s : Bytes) : Option Int :=
  let (neg, ds) := signed s
  if ds.isEmpty || !ds.all Bytes.isDigit then none
  else
    -- a longer exponent is out of range whatever its digits are
    let ds := ds.dropWhile (· == ascii '0')
    let n : Nat := if 6 < ds.length then 1000000 else (Bytes.toNatBase? 10 ds).getD 0
    some (if neg then -(n : Int) else n)

/-- Digits with at most one point among them: the digits as an integer, how many stand behind the
point, and the rest. At least one digit is needed. -/
def mantissa? (base : Nat) (s : Bytes) : Option (Nat × Nat × Bytes) :=
  let isDig (b : UInt8) : Bool := match Bytes.digitVal b with
    | some d => d < base
    | none => false
  let whole := s.takeWhile isDig
  let rest := s.dropWhile isDig
  let (frac, rest) := match rest with
    | b :: r => if b == ascii '.' then (r.takeWhile isDig, r.dropWhile isDig) else ([], rest)
    | [] => ([], rest)
  if whole.isEmpty && frac.isEmpty then none
  else some ((Bytes.toNatBase? base (whole ++ frac)).getD 0, frac.length, rest)

/-- Reads a decimal, a hexadecimal with a binary exponent, or a named value, with a sign. -/
def ofDecimalText? (s : Bytes) : Option Float :=
  let (neg, body) := signed s
  let word := Bytes.lower body
  if word == Bytes.ofString "inf" || word == Bytes.ofString "infinity" then some (infinity neg)
  else if Bytes.lower s == Bytes.ofString "nan" then some nan
  else if (Bytes.ofString "0x").isPrefixOf word then do
    let (m, places, rest) ← mantissa? 16 (body.drop 2)
    match rest with
    | b :: r =>
      if Bytes.lowerByte b == ascii 'p' then
        let e ← exponent? r
        let e := e - 4 * (places : Int)
        some (if m = 0 || e < -100000 then Binary64.ofRatio neg 0 1
          else if 100000 < e then infinity neg
          else if 0 ≤ e then Binary64.ofRatio neg (m * Nat.pow 2 e.toNat) 1
          else Binary64.ofRatio neg m (Nat.pow 2 (-e).toNat))
      else none
    | [] => none
  else do
    let (m, places, rest) ← mantissa? 10 body
    match rest with
    | [] => some (Binary64.ofDecimal neg m (-(places : Int)))
    | b :: r =>
      if Bytes.lowerByte b == ascii 'e' then
        let e ← exponent? r
        some (Binary64.ofDecimal neg m (e - places))
      else none

/-- The value of a numeric literal and whether it is one. What is no literal has the value zero,
except that an older octal literal of more than 64 bits has the largest 64-bit value. -/
def value (raw : Bytes) : Float × Bool :=
  let s := raw.filter (· != ascii '_')
  let decimal : Float × Bool := match ofDecimalText? s with
    | some x => (x, true)
    | none => (0, false)
  match s with
  | z :: mark :: rest =>
    if z == ascii '0' then
      let base := match Char.ofNat (Bytes.lowerByte mark).toNat with
        | 'x' => 16
        | 'o' => 8
        | 'b' => 2
        | _ => 0
      if base ≠ 0 then
        let (neg, ds) := signed rest
        match Bytes.toNatBase? base ds with
        | some n => (if n = 0 then 0 else Binary64.ofRatio neg n 1, true)
        | none => (0, false)
      else match Bytes.toNatBase? 8 (mark :: rest) with
        | some n =>
          if n < Nat.pow 2 64 then (Binary64.ofNat n, true)
            else (Binary64.ofNat (Nat.pow 2 64 - 1), false)
        | none => decimal
    else decimal
  | _ => decimal

/-- A number value as a JavaScript engine prints it: positional from a millionth up to 10^21, and
otherwise with an exponent that has a sign and no leading zeros. -/
def format (x : Float) : Bytes :=
  match Binary64.parts? x with
  | none => if x.isNaN then "NaN" else if Binary64.signBit x then "-Infinity" else "Infinity"
  | some (negative, m, q) =>
    if m = 0 then "0"
    else
      let d := Shortest.decimal m q
      let e := d.leading
      let body : Bytes :=
        if -7 < e && e < 21 then d.positional
        else if 0 ≤ e then d.significand ++ "e+" ++ Bytes.ofNat e.toNat
        else d.significand ++ "e-" ++ Bytes.ofNat (-e).toNat
      if negative then ascii '-' :: body else body

end ScriptLower.Number

/-!
## Arithmetic on number values

The operators that have no counterpart among the operations on doubles: the remainder, the power,
and the operators on 32-bit words. Remainder and words are computed exactly on naturals.
-/

namespace ScriptLower.Number

open ScriptLower

/-- The integer part of a finite number, toward zero; zero for the others. -/
def truncated (x : Float) : Int :=
  match Binary64.parts? x with
  | none => 0
  | some (negative, m, q) =>
    let n : Nat := if 0 ≤ q then m <<< q.toNat else m >>> (-q).toNat
    if negative then -(n : Int) else n

/-- The 32-bit word of a number: its integer part modulo 2 to the power of 32. -/
def toWord (x : Float) : UInt32 := UInt32.ofNat ((truncated x) % 4294967296).toNat

/-- The number of a word read with a sign. -/
def ofSignedWord (w : UInt32) : Float :=
  if w.toNat < Nat.pow 2 31 then Binary64.ofNat w.toNat
  else Binary64.ofRatio true (Nat.pow 2 32 - w.toNat) 1

/-- The number of a word read without a sign. -/
def ofWord (w : UInt32) : Float := Binary64.ofNat w.toNat

/-- The number with the sign bit changed. -/
def negate (x : Float) : Float :=
  let bits := x.toBits.toNat
  Float.ofBits (if Nat.pow 2 63 ≤ bits then bits - Nat.pow 2 63 else bits + Nat.pow 2 63).toUInt64

/-- The remainder of a division toward zero; it has the sign of the dividend. -/
def remainder (x y : Float) : Float :=
  match Binary64.parts? x, Binary64.parts? y with
  | none, _ => nan
  | some _, none => if y.isNaN then nan else x
  | some (negative, m, q), some (_, n, p) =>
    if n = 0 then nan
    else
      let low := min q p
      let a := m <<< (q - low).toNat
      let b := n <<< (p - low).toNat
      let r := a % b
      if r = 0 then Binary64.ofRatio negative 0 1
      else if 0 ≤ low then Binary64.ofRatio negative (r <<< low.toNat) 1
      else Binary64.ofRatio negative r (1 <<< (-low).toNat)

/-- Whether a finite number is an odd integer. -/
def isOddInteger (x : Float) : Bool :=
  match Binary64.parts? x with
  | none => false
  | some (_, m, q) =>
    if 0 ≤ q then q == 0 && m % 2 == 1
    else
      let k := (-q).toNat
      (m >>> k) <<< k == m && (m >>> k) % 2 == 1

/-- Multiplies by an integral power, one binary digit of the exponent at a time, least first. The
base is `x * 2 ^ xe` with `x` between a half and one, and so is the result. -/
def powerDigits : Nat → Nat → Float → Int → Float → Int → Float × Int
  | 0, _, _, _, a, ae => (a, ae)
  | fuel + 1, n, x, xe, a, ae =>
    if n = 0 then (a, ae)
    else if xe < -4096 || 4096 < xe then (a, ae + xe)
    else
      let (a, ae) := if n % 2 == 1 then (a * x, ae + xe) else (a, ae)
      let x := x * x
      let xe := 2 * xe
      let (x, xe) := if x < 0.5 then (x + x, xe - 1) else (x, xe)
      powerDigits fuel (n / 2) x xe a ae

/-- A power whose exponent is neither special nor so large that only the size of the base
matters. -/
def powerFinite (x y : Float) : Float :=
  let ay := y.abs
  let yi := ay.floor
  let yf := ay - yi
  if yf != 0 && x < 0 then nan
  else if 9223372036854775808.0 ≤ yi then
    if x == -1 then 1 else if (x.abs < 1) == (0 < y) then 0 else infinity false
  else
    let (yi, yf) := if 0.5 < yf then (yi + 1, yf - 1) else (yi, yf)
    let a : Float := if yf != 0 then (yf * x.log).exp else 1
    let (x1, xe) := x.frExp
    let (a, ae) := powerDigits 64 (truncated yi).toNat x1 xe a 0
    let (a, ae) := if y < 0 then (1 / a, -ae) else (a, ae)
    a.scaleB ae

/-- The power of two numbers. -/
def power (x y : Float) : Float :=
  if y == 0 || x == 1 then 1
  else if y == 1 then x
  else if x.isNaN || y.isNaN then nan
  else if x == 0 then
    let odd := Binary64.signBit x && isOddInteger y
    if y < 0 then infinity odd else if odd then x else 0
  else if y.isInf then
    if x == -1 then 1 else if (x.abs < 1) == (0 < y) then 0 else infinity false
  else if x.isInf then
    if x < 0 then
      -- the power of a negative zero with the exponent turned around
      let odd := isOddInteger y
      if 0 < y then infinity odd else if odd then negate 0 else 0
    else if y < 0 then 0 else infinity false
  else if y == 0.5 then x.sqrt
  else if y == -0.5 then 1 / x.sqrt
  else powerFinite x y

end ScriptLower.Number
