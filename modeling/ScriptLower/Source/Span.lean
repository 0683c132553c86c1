import ScriptLower.Text.Bytes

/-!
# Positions and spans

Every byte of every registered file has a position of its own; position zero belongs to no byte
and marks what has no place in a source. A span is a half-open range of positions together with
the number of its file.
-/

namespace ScriptLower

/-- A half-open range of positions in one file. -/
structure Span where
  /-- The number of the file. -/
  file : Nat := 0
  /-- The first position. -/
  start : Nat := 0
  /-- The position behind the last. -/
  stop : Nat := 0
  deriving DecidableEq, Repr, Inhabited

namespace Span

/-- The span of what has no place in a source. -/
def none : Span := {}

/-- Whether the span names no place. -/
def isDummy (s : Span) : Bool := s.start == 0

/-- Whether the span holds no position. -/
def isEmpty (s : Span) : Bool := s.start == s.stop

/-- Whether a position lies inside. -/
def contains (s : Span) (pos : Nat) : Bool := s.start ≤ pos && pos < s.stop

/-- The span collapsed to its start. -/
def atStart (s : Span) : Span := { s with stop := s.start }

/-- The least span around both. A span that names no place is absorbed, and a span of another
file is ignored. -/
def cover (s t : Span) : Span :=
  if t.isDummy then s
  else if s.isDummy then t
  else if s.file != t.file then s
  else { s with start := min s.start t.start, stop := max s.stop t.stop }

/-- The span as `file:start-end`. -/
def text (s : Span) : Bytes :=
  Bytes.ofNat s.file ++ ":" ++ Bytes.ofNat s.start ++ "-" ++ Bytes.ofNat s.stop

end Span

/-- A place as a person counts it: line and column from one, the column in bytes. Line zero is no
place. -/
structure LineCol where
  /-- The line, from one. -/
  line : Nat := 0
  /-- The column in bytes, from one. -/
  col : Nat := 0
  deriving DecidableEq, Repr, Inhabited

end ScriptLower
