import ScriptLower.Text.Bytes

/-!
# Double precision numbers, exactly

A number value is a `Float`; reading and printing it is exact arithmetic on naturals, through
the bits of the value. `ofRatio` rounds a quotient to the nearest double, a half to the even
neighbour, which is what reading a decimal or a hexadecimal literal amounts to.
-/

namespace ScriptLower.Binary64

/-- The bits of the double nearest to `num / den`, a half going to the even neighbour; too large
a quotient is infinity. -/
def bitsOfRatio (num den : Nat) : Nat :=
  if num = 0 then 0
  else
    -- the quotient lies in [2^(e-1), 2^(e+1))
    let e : Int := (Nat.log2 num : Int) - (Nat.log2 den : Int)
    let atLeast (k : Int) : Bool :=
      if 0 ≤ k then den <<< k.toNat ≤ num else den ≤ num <<< (-k).toNat
    let e := if atLeast e then e else e - 1
    let q : Int := max (e - 52) (-1074)
    let n := if 0 ≤ q then num else num <<< (-q).toNat
    let d := if 0 ≤ q then den <<< q.toNat else den
    let m := n / d
    let r := n % d
    let m := if d < 2 * r || (2 * r == d && m % 2 == 1) then m + 1 else m
    let carry := decide (Nat.pow 2 53 ≤ m)
    let m := if carry then m / 2 else m
    let q := if carry then q + 1 else q
    if 971 < q then 0x7FF0000000000000
    else if m < Nat.pow 2 52 then m
    else (q + 1075).toNat * Nat.pow 2 52 + (m - Nat.pow 2 52)

/-- The double nearest to `num / den`, with a sign. -/
def ofRatio (negative : Bool) (num den : Nat) : Float :=
  let bits := bitsOfRatio num den
  Float.ofBits (if negative then bits + Nat.pow 2 63 else bits).toUInt64

/-- The double nearest to `m * 10 ^ e`. An exponent far outside the range of doubles is decided
by its size, before any power is formed. -/
def ofDecimal (negative : Bool) (m : Nat) (e : Int) : Float :=
  if m = 0 then ofRatio negative 0 1
  else
    let size : Int := (Nat.log2 m : Int) * 3 / 10 + e
    if 400 < size then Float.ofBits (if negative then 0xFFF0000000000000 else 0x7FF0000000000000)
    else if size < -400 then ofRatio negative 0 1
    else if 0 ≤ e then ofRatio negative (m * Nat.pow 10 e.toNat) 1
    else ofRatio negative m (Nat.pow 10 (-e).toNat)

/-- The double nearest to a natural number. -/
def ofNat (n : Nat) : Float := ofRatio false n 1

/-- A finite double as `m * 2 ^ q` with its sign; none for infinities and NaN. -/
def parts? (x : Float) : Option (Bool × Nat × Int) :=
  let bits : Nat := x.toBits.toNat
  let negative := decide (Nat.pow 2 63 ≤ bits)
  let field : Nat := bits / Nat.pow 2 52 % 2048
  let frac : Nat := bits % Nat.pow 2 52
  if field = 2047 then none
  else if field = 0 then some (negative, frac, -1074)
  else some (negative, frac + Nat.pow 2 52, (field : Int) - 1075)

/-- Whether the sign bit is set. -/
def signBit (x : Float) : Bool := decide (Nat.pow 2 63 ≤ x.toBits.toNat)

end ScriptLower.Binary64

/-!
## Numbers with a fixed number of decimals

A double written with so many digits behind the point, rounded from its exact value; a half goes to
the even neighbour.
-/

namespace ScriptLower.Fixed

open ScriptLower

/-- The quotient `num / den` to the nearest natural number, a half going to the even one. -/
def roundDiv (num den : Nat) : Nat :=
  let q := num / den
  let r := num % den
  if den < 2 * r || (2 * r == den && q % 2 == 1) then q + 1 else q

/-- The digits of `n / 10 ^ places`. -/
def digits (places n : Nat) : Bytes :=
  if places = 0 then Bytes.ofNat n
  else
    Bytes.ofNat (n / Nat.pow 10 places) ++ ascii '.'
      :: Bytes.padLeft places (ascii '0') (Bytes.ofNat (n % Nat.pow 10 places))

/-- A number with `places` digits behind the point. -/
def text (places : Nat) (x : Float) : Bytes :=
  match Binary64.parts? x with
  | none =>
    if x.isNaN then "NaN" else if Binary64.signBit x then "-Inf" else "+Inf"
  | some (negative, m, q) =>
    let scaled := m * Nat.pow 10 places
    let n := if 0 ≤ q then scaled * Nat.pow 2 q.toNat else roundDiv scaled (Nat.pow 2 (-q).toNat)
    let sign : Bytes := if negative then "-" else []
    sign ++ digits places n

end ScriptLower.Fixed

/-!
## The shortest decimal of a double

The decimal with the fewest digits that reads back as the same double; of two with that many
digits the nearer one, and of two equally near ones the one with the even last digit.

A positive double `m * 2 ^ q` is read back from every real of an interval around it, whose ends
belong to it exactly when `m` is even. For one digit, two digits and so on, the two neighbours
of the value on the grid of that many digits are tested in exact arithmetic; if any point of a
grid lies in the interval then one of these two does, and at seventeen digits one always does.
-/

namespace ScriptLower.Shortest

open ScriptLower

/-- A decimal: an integer significand and the power of ten it is scaled by. -/
structure Decimal where
  /-- The digits as an integer. -/
  digits : Nat
  /-- The power of ten. -/
  exponent : Int
  deriving Repr, DecidableEq

/-- The exact value of a positive double and the interval that reads back as it, each as a
numerator over one common denominator. -/
structure Window where
  /-- The common denominator. -/
  den : Nat
  /-- The value. -/
  mid : Nat
  /-- The lower end. -/
  lo : Nat
  /-- The upper end. -/
  hi : Nat
  /-- Whether the ends belong to the interval. -/
  closed : Bool

/-- The interval of `m * 2 ^ q`: half a unit up, and half a unit down, which is a quarter at a
power of two above the least exponent. -/
def window (m : Nat) (q : Int) : Window :=
  let narrow := m == Nat.pow 2 52 && decide (-1074 < q)
  let scale : Nat := if 0 ≤ q then Nat.pow 2 q.toNat else 1
  { den := if 0 ≤ q then 4 else 4 * Nat.pow 2 (-q).toNat
    mid := 4 * m * scale
    lo := (4 * m - if narrow then 1 else 2) * scale
    hi := (4 * m + 2) * scale
    closed := m % 2 == 0 }

/-- Whether `num / den` lies in the interval, for a denominator of its own. -/
def Window.holds (w : Window) (num den : Nat) : Bool :=
  let x := num * w.den
  if w.closed then w.lo * den ≤ x && x ≤ w.hi * den else w.lo * den < x && x < w.hi * den

/-- The best decimal on the grid of multiples of `10 ^ k`, if one reads back. -/
def onGrid (w : Window) (k : Int) : Option Decimal :=
  let up : Nat := if 0 ≤ k then Nat.pow 10 k.toNat else 1
  let down : Nat := if 0 ≤ k then 1 else Nat.pow 10 (-k).toNat
  -- the value in units of the grid is (mid * down) / (den * up)
  let n := w.mid * down
  let d := w.den * up
  let below := n / d
  let r := n % d
  let above := if r = 0 then below else below + 1
  let okBelow := 0 < below && w.holds (below * up) down
  let okAbove := w.holds (above * up) down
  let pickAbove := d < 2 * r || (2 * r == d && below % 2 == 1)
  match okBelow, okAbove with
  | true, true => some ⟨if pickAbove then above else below, k⟩
  | true, false => some ⟨below, k⟩
  | false, true => some ⟨above, k⟩
  | false, false => none

/-- Tries coarser grids first: `fuel` grids from `10 ^ k` down. -/
def search (w : Window) : Nat → Int → Option Decimal
  | 0, _ => none
  | fuel + 1, k =>
    match onGrid w k with
    | some d => some d
    | none => search w fuel (k - 1)

/-- Drops the zeros at the end of the significand. -/
def strip : Nat → Decimal → Decimal
  | 0, d => d
  | fuel + 1, d =>
    if d.digits ≠ 0 ∧ d.digits % 10 = 0 then strip fuel ⟨d.digits / 10, d.exponent + 1⟩ else d

/-- The shortest decimal of `m * 2 ^ q` for `0 < m`. The search starts on a grid coarser than the
value and needs at most seventeen digits more. -/
def decimal (m : Nat) (q : Int) : Decimal :=
  let w := window m q
  let start : Int := ((Nat.log2 m : Int) + q) * 30103 / 100000 + 2
  strip 20 ((search w 40 start).getD ⟨m, 0⟩)

/-- The digits of the significand as text. -/
def Decimal.text (d : Decimal) : Bytes := Bytes.ofNat d.digits

/-- The exponent of the leading digit: the value is `x.yyy * 10 ^ e`. -/
def Decimal.leading (d : Decimal) : Int := d.exponent + (d.text.length : Int) - 1

/-- Positional notation: no exponent, and no point after a whole number. -/
def Decimal.positional (d : Decimal) : Bytes :=
  let s := d.text
  if 0 ≤ d.exponent then s ++ List.replicate d.exponent.toNat (ascii '0')
  else
    let places := (-d.exponent).toNat
    if places < s.length then
      s.take (s.length - places) ++ ascii '.' :: s.drop (s.length - places)
    else ascii '0' :: ascii '.' :: List.replicate (places - s.length) (ascii '0') ++ s

/-- The significand of scientific notation: one digit before the point. -/
def Decimal.significand (d : Decimal) : Bytes :=
  match d.text with
  | [] => []
  | [a] => [a]
  | a :: r => a :: ascii '.' :: r

end ScriptLower.Shortest
