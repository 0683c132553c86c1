import ScriptLower.Number.Binary64
import ScriptLower.Text.Bytes
import ScriptLower.Text.Utf8

/-!
# Values of a configuration text

Tables and lists of values, and the values that stand for themselves.
-/

/-!
## Configuration values

The values of a configuration text and the tables that hold them. A table that was only named on the
way to another may still be opened by name, once; a list of tables is continued by its last element.
-/

namespace ScriptLower.Toml

open ScriptLower

/-- A value. -/
inductive Value where
  /-- A string. -/
  | text (s : Bytes)
  /-- A truth value. -/
  | truth (b : Bool)
  /-- A number, a date or a time. -/
  | other
  /-- A list. -/
  | list (items : List Value)
  /-- A table; `pending` says that it was only named on the way to another. -/
  | table (pending : Bool) (entries : List (Bytes × Value))
  /-- A list of tables, each opened by name. -/
  | tables (items : List Value)
  deriving Inhabited

/-- The entries of a table, in order. -/
abbrev Entries := List (Bytes × Value)

namespace Entries

/-- Puts a value under a name, in the place of the one there was. -/
def put (t : Entries) (k : Bytes) (v : Value) : Entries :=
  if t.any (·.1 == k) then t.map fun e => if e.1 == k then (k, v) else e else t ++ [(k, v)]

/-- Changes the table at a path; a list of tables stands for its last. None when a name on the path
is no table. -/
def within : List Bytes → (Entries → Option Entries) → Entries → Option Entries
  | [], f, t => f t
  | k :: r, f, t =>
    match t.lookup k with
    | some (.table p es) => (within r f es).map fun es => put t k (.table p es)
    | some (.tables items) =>
      match items.getLast? with
      | some (.table p es) =>
        (within r f es).map fun es => put t k (.tables (items.dropLast ++ [.table p es]))
      | _ => none
    | _ => none

/-- Sets a name in a table. A name that is taken may be set again only if it holds a list, which is
replaced, or a table that waits to be opened, which stays as it is. -/
def set (k : Bytes) (v : Value) (t : Entries) : Option Entries :=
  match t.lookup k with
  | none => some (put t k v)
  | some (.list _) => some (put t k v)
  | some (.table true es) => some (put t k (.table false es))
  | some _ => none

/-- Opens a table by name. -/
def openTable (k : Bytes) (t : Entries) : Option Entries := set k (.table false []) t

/-- Adds a table to the list of tables of a name. -/
def addTable (k : Bytes) (t : Entries) : Option Entries :=
  match t.lookup k with
  | none => some (put t k (.tables [.table false []]))
  | some (.tables items) => some (put t k (.tables (items ++ [.table false []])))
  | some _ => none

/-- Makes sure that a name on the way to another is a table. -/
def pass (k : Bytes) (t : Entries) : Option Entries :=
  match t.lookup k with
  | none => some (put t k (.table true []))
  | some (.table _ es) => some (put t k (.table false es))
  | some (.list _) => some (put t k (.table false []))
  | some _ => some t

/-- Makes tables of all names on the way, starting at a path. -/
def passAll (path : List Bytes) : List Bytes → Entries → Option Entries
  | [], t => some t
  | k :: r, t => (within path (pass k) t).bind (passAll (path ++ [k]) r)

/-- Makes tables of the names in front of the name of a table. -/
def parents (path : List Bytes) : List Bytes → Entries → Option Entries
  | [], t => some t
  | k :: r, t =>
    (within path (fun es => match es.lookup k with
      | none => some (put es k (.table true []))
      | some _ => some es) t).bind (parents (path ++ [k]) r)

end Entries

/-- Whether a byte may stand in a name without quotes. -/
def isBare (b : UInt8) : Bool := Bytes.isAlpha b || Bytes.isDigit b || b == 95 || b == 45

/-- A byte of a name in quotes. -/
def escapeByte (b : UInt8) : Bytes :=
  match b with
  | 34 => "\\\""
  | 92 => "\\\\"
  | 8 => "\\b"
  | 9 => "\\t"
  | 10 => "\\n"
  | 12 => "\\f"
  | 13 => "\\r"
  | _ =>
    if b < 32 || b == 127 then
      Bytes.ofString "\\u" ++ Bytes.padLeft 4 (ascii '0') (Bytes.ofNatHex b.toNat)
    else [b]

/-- A name as it is shown: in quotes unless it is bare. -/
def showName (k : Bytes) : Bytes :=
  if k.isEmpty || !k.all isBare then ascii '"' :: k.flatMap escapeByte ++ [ascii '"'] else k

/-- A path of names as it is shown. -/
def showPath (path : List Bytes) : Bytes := Bytes.join "." (path.map showName)

/-- A document: its tables, and the paths of its names in the order they stand. -/
structure Document where
  /-- The entries of the top. -/
  entries : Entries := []
  /-- The names, as paths. -/
  names : List (List Bytes) := []
  deriving Inhabited

end ScriptLower.Toml

/-!
## Single values of a configuration text

Strings in their four forms, and the shapes of numbers, dates and times. Of a number only its shape
and range count here, since no setting takes one.
-/

namespace ScriptLower.Toml

open ScriptLower

/-- The text without blanks in front. -/
def skipBlanks (s : Bytes) : Bytes := s.dropWhile fun b => b == 32 || b == 9

/-- The character of an escape, and the rest. -/
def readEscape : Bytes → Option (Bytes × Bytes)
  | 98 :: r => some ([8], r)
  | 116 :: r => some ([9], r)
  | 110 :: r => some ([10], r)
  | 102 :: r => some ([12], r)
  | 114 :: r => some ([13], r)
  | 34 :: r => some ([34], r)
  | 92 :: r => some ([92], r)
  | 117 :: r => code 4 r
  | 85 :: r => code 8 r
  | _ => none
where
  /-- The character of so many hexadecimal digits. -/
  code (n : Nat) (r : Bytes) : Option (Bytes × Bytes) :=
    let digits := r.take n
    if digits.length == n && digits.all Bytes.isHexDigit then
      match Bytes.toNatBase? 16 digits with
      | some c =>
        if c ≤ 0x10FFFF && !Utf8.isSurrogate c then some (Utf8.encode c, r.drop n) else none
      | none => none
    else none

/-- A string up to its quote, with escapes, in at most `fuel` steps. -/
def readBasic : Nat → Bytes → Option (Bytes × Bytes)
  | 0, _ => none
  | fuel + 1, s =>
    match s with
    | [] => none
    | 34 :: r => some ([], r)
    | 10 :: _ => none
    | 13 :: _ => none
    | 92 :: r => do
      let (c, r) ← readEscape r
      let (text, r) ← readBasic fuel r
      pure (c ++ text, r)
    | b :: r => do
      let (text, r) ← readBasic fuel r
      pure (b :: text, r)

/-- A string up to its quote, as it stands. -/
def readLiteral : Bytes → Option (Bytes × Bytes)
  | [] => none
  | 39 :: r => some ([], r)
  | 10 :: _ => none
  | 13 :: _ => none
  | b :: r => (readLiteral r).map fun (text, r) => (b :: text, r)

/-- What follows a backslash at the end of a line: the first thing that is no blank. None when the
backslash does not end its line. -/
def continued? (s : Bytes) : Option Bytes :=
  match skipBlanks s with
  | 10 :: r => some (skipAll r)
  | 13 :: 10 :: r => some (skipAll r)
  | _ => none
where
  /-- The text without blanks and line ends in front. -/
  skipAll (r : Bytes) : Bytes := r.dropWhile fun b => b == 32 || b == 9 || b == 10 || b == 13

/-- The quotes at the head of a text that belong to a string, when three more end it: at most
two. -/
def quotesBefore (quote : UInt8) (s : Bytes) : Option (Bytes × Bytes) :=
  let run := s.takeWhile (· == quote)
  if run.length < 3 then none
  else if 5 < run.length then some (List.replicate 2 quote, s.drop 5)
  else some (run.drop 3, s.drop run.length)

/-- A string over several lines, with or without escapes, in at most `fuel` steps. -/
def readLong (quote : UInt8) (escapes : Bool) : Nat → Bytes → Option (Bytes × Bytes)
  | 0, _ => none
  | fuel + 1, s =>
    match quotesBefore quote s with
    | some (text, r) => some (text, r)
    | none =>
      match s with
      | [] => none
      | b :: r =>
        if escapes && b == 92 then
          match continued? r with
          | some r => readLong quote escapes fuel r
          | none => do
            let (c, r) ← readEscape r
            let (text, r) ← readLong quote escapes fuel r
            pure (c ++ text, r)
        else do
          let (text, r) ← readLong quote escapes fuel r
          pure (b :: text, r)

/-- The text behind the opening quotes of a long string: a line end right there does not count. -/
def firstLine : Bytes → Bytes
  | 10 :: r => r
  | 13 :: 10 :: r => r
  | s => s

/-- A string of any form. -/
def readString (s : Bytes) : Option (Bytes × Bytes) :=
  match s with
  | 34 :: 34 :: 34 :: r => readLong 34 true (s.length + 1) (firstLine r)
  | 34 :: r => readBasic (s.length + 1) r
  | 39 :: 39 :: 39 :: r => readLong 39 false (s.length + 1) (firstLine r)
  | 39 :: r => readLiteral r
  | _ => none

/-! ## Numbers and times -/

/-- Digits in which single underscores may stand between two; the digits without them. -/
def grouped? (isDigit : UInt8 → Bool) : Bytes → Option Bytes
  | [] => none
  | [b] => if isDigit b then some [b] else none
  | b :: 95 :: r => if isDigit b then (grouped? isDigit r).map (b :: ·) else none
  | b :: r => if isDigit b then (grouped? isDigit r).map (b :: ·) else none

/-- Whether a whole number is in the range of 64 bits. -/
def inRange (negative : Bool) (n : Nat) : Bool :=
    if negative then n ≤ Nat.pow 2 63 else n < Nat.pow 2 63

/-- The sign of a number and the rest. -/
def signOf : Bytes → Bool × Bytes
  | 45 :: r => (true, r)
  | 43 :: r => (false, r)
  | s => (false, s)

/-- Decimal digits without leading zeros. -/
def plain? (s : Bytes) : Option Bytes :=
  match grouped? Bytes.isDigit s with
  | some (48 :: _ :: _) => none
  | d => d

/-- Whether a text is a whole number. -/
def isInteger (s : Bytes) : Bool :=
  let inBase (base : Nat) (isDigit : UInt8 → Bool) (r : Bytes) : Bool :=
    match (grouped? isDigit r).bind (Bytes.toNatBase? base) with
    | some n => inRange false n
    | none => false
  match s with
  | 48 :: 120 :: r => inBase 16 Bytes.isHexDigit r
  | 48 :: 111 :: r => inBase 8 (fun b => 48 ≤ b && b ≤ 55) r
  | 48 :: 98 :: r => inBase 2 (fun b => b == 48 || b == 49) r
  | _ =>
    let (negative, r) := signOf s
    match (plain? r).bind (Bytes.toNatBase? 10) with
    | some n => inRange negative n
    | none => false

/-- The whole number of an exponent, far values cut off. -/
def exponentOf (s : Bytes) : Option Int :=
  let (negative, r) := signOf s
  (grouped? Bytes.isDigit r).map fun d =>
    let n := min ((Bytes.toNatBase? 10 d).getD 0) 100000
    if negative then -(n : Int) else n

/-- Whether a text is a number with a fraction or an exponent. -/
def isFraction (s : Bytes) : Bool :=
  let (_, r) := signOf s
  if r == Bytes.ofString "inf" || r == Bytes.ofString "nan" then true
  else
    let mantissa := r.takeWhile fun b => b != 101 && b != 69
    let exponent := match r.drop mantissa.length with
      | [] => some 0
      | _ :: e => exponentOf e
    let whole := mantissa.takeWhile (· != 46)
    let fraction := match mantissa.drop whole.length with
      | [] => some []
      | _ :: f => grouped? Bytes.isDigit f
    match plain? whole, fraction, exponent with
    | some w, some f, some e =>
      let x := Binary64.ofDecimal false ((Bytes.toNatBase? 10 (w ++ f)).getD 0) (e - f.length)
      whole.length < r.length && (Binary64.parts? x).isSome
    | _, _, _ => false

/-- Two digits as a number. -/
def two? (s : Bytes) : Option (Nat × Bytes) :=
  match s with
  | a :: b :: r =>
    if Bytes.isDigit a && Bytes.isDigit b then some ((a.toNat - 48) * 10 + (b.toNat - 48), r)
    else none
  | _ => none

/-- The days of a month. -/
def daysIn (year month : Nat) : Nat :=
  if month == 2 then
    if year % 4 == 0 && (year % 100 != 0 || year % 400 == 0) then 29 else 28
  else if month == 4 || month == 6 || month == 9 || month == 11 then 30
  else 31

/-- What follows a date. -/
def dateRest? (s : Bytes) : Option Bytes := do
  let (century, r) ← two? s
  let (year, r) ← two? r
  let r ← Bytes.dropPrefix? "-" r
  let (month, r) ← two? r
  let r ← Bytes.dropPrefix? "-" r
  let (day, r) ← two? r
  if 1 ≤ month && month ≤ 12 && 1 ≤ day && day ≤ daysIn (century * 100 + year) month then some r
  else none

/-- What follows a time of day. -/
def timeRest? (s : Bytes) : Option Bytes := do
  let (hour, r) ← two? s
  let r ← Bytes.dropPrefix? ":" r
  let (minute, r) ← two? r
  let r ← Bytes.dropPrefix? ":" r
  let (second, r) ← two? r
  let r := match r with
    | 46 :: f => if (f.takeWhile Bytes.isDigit).isEmpty then r else f.dropWhile Bytes.isDigit
    | _ => r
  if hour < 24 && minute < 60 && second < 60 then some r else none

/-- Whether a text is empty or an offset from Greenwich. -/
def isOffset (s : Bytes) : Bool :=
  match s with
  | [] => true
  | [90] => true
  | [122] => true
  | b :: r =>
    if b == 43 || b == 45 then
      match two? r with
      | some (h, 58 :: r) =>
        match two? r with
        | some (m, []) => h < 24 && m < 60
        | _ => false
      | _ => false
    else false

/-- Whether a text is a date, a time or both. -/
def isMoment (s : Bytes) : Bool :=
  match dateRest? s with
  | some [] => true
  | some (b :: r) =>
    (b == 84 || b == 116 || b == 32) && ((timeRest? r).map isOffset).getD false
  | none => timeRest? s == some []

/-- Bytes that numbers and times are made of. -/
def isScalarByte (b : UInt8) : Bool :=
  Bytes.isAlpha b || Bytes.isDigit b || b == 43 || b == 45 || b == 46 || b == 58 || b == 95

/-- A number, a time or a truth value, and the rest. A date may be followed by a blank and a
time. -/
def readScalar (s : Bytes) : Option (Value × Bytes) :=
  let word := s.takeWhile isScalarByte
  let rest := s.drop word.length
  if word == Bytes.ofString "true" then some (.truth true, rest)
  else if word == Bytes.ofString "false" then some (.truth false, rest)
  else if isInteger word || isFraction word then some (.other, rest)
  else
    let time := match rest with
      | 32 :: r => r.takeWhile isScalarByte
      | _ => []
    let both := word ++ ascii ' ' :: time
    if dateRest? word == some [] && !time.isEmpty && isMoment both then
      some (.other, s.drop both.length)
    else if isMoment word then some (.other, rest)
    else none

end ScriptLower.Toml
