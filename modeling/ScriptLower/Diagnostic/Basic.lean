import ScriptLower.Diagnostic.Code
import ScriptLower.Source.Span

/-!
# Diagnostics

A diagnostic is a message about a place, with a severity, a code and notes about further places.
-/

namespace ScriptLower

/-- How serious a diagnostic is; a higher level is more serious. -/
structure Severity where
  /-- The level. -/
  level : Nat
  deriving DecidableEq, Repr, Inhabited

namespace Severity

/-- Worth knowing. -/
def info : Severity := ⟨0⟩

/-- Worth a look; never stops the work. -/
def warning : Severity := ⟨1⟩

/-- Stops the work. -/
def error : Severity := ⟨2⟩

/-- The name of a severity. -/
def name (s : Severity) : Bytes :=
  match s.level with
  | 0 => "INFO"
  | 1 => "WARNING"
  | 2 => "ERROR"
  | _ => "UNKNOWN"

/-- Whether a severity is an error or worse. -/
def isError (s : Severity) : Bool := 2 ≤ s.level

end Severity

/-- A remark about a further place. -/
structure Note where
  /-- The place. -/
  span : Span
  /-- The remark. -/
  message : Bytes
  deriving DecidableEq, Repr, Inhabited

/-- A message about a place in a source. -/
structure Diagnostic where
  /-- How serious it is. -/
  severity : Severity
  /-- What kind of problem it is. -/
  code : Code
  /-- The message. -/
  message : Bytes
  /-- The place. -/
  primary : Span
  /-- Remarks about further places. -/
  notes : List Note := []
  deriving DecidableEq, Repr, Inhabited

namespace Diagnostic

/-- An error without notes. -/
def error (code : Code) (primary : Span) (message : Bytes) : Diagnostic :=
  { severity := .error, code := code, message := message, primary := primary }

/-- A warning without notes. -/
def warning (code : Code) (primary : Span) (message : Bytes) : Diagnostic :=
  { severity := .warning, code := code, message := message, primary := primary }

/-- Adds a note. -/
def withNote (d : Diagnostic) (span : Span) (message : Bytes) : Diagnostic :=
  { d with notes := d.notes ++ [⟨span, message⟩] }

/-- Whether the diagnostic stops the work. -/
def isError (d : Diagnostic) : Bool := d.severity.isError

/-- The diagnostic on one line, its place as bare positions. -/
def text (d : Diagnostic) : Bytes :=
  d.code.kind.name ++ " " ++ d.code.id ++ " at " ++ d.primary.text ++ ": " ++ d.message

end Diagnostic

end ScriptLower

/-!
## Collecting diagnostics

A bag holds diagnostics up to a limit. The limit never hides a failure: the first error is taken
even by a full bag. In front of a bag stands a filter that lets each combination of code, place
and message through once, since a parser that tries an input twice finds its faults twice.
-/

namespace ScriptLower

/-- Diagnostics up to a limit. -/
structure Bag where
  /-- What was taken, in order. -/
  items : List Diagnostic := []
  /-- The limit. -/
  limit : Nat := 100
  deriving Inhabited

namespace Bag

/-- The limit when none is asked for. -/
def defaultLimit : Nat := 100

/-- An empty bag. A limit that is not positive or does not fit in sixteen bits means the default. -/
def new (limit : Int) : Bag :=
  { limit := if limit ≤ 0 || 0xFFFF < limit then defaultLimit else limit.toNat }

/-- Whether the limit is reached. -/
def isFull (b : Bag) : Bool := b.limit ≤ b.items.length

/-- Whether the bag holds an error. -/
def hasErrors (b : Bag) : Bool := b.items.any Diagnostic.isError

/-- Whether the bag holds a warning or worse. -/
def hasWarnings (b : Bag) : Bool := b.items.any fun d => 1 ≤ d.severity.level

/-- Whether the bag takes a diagnostic: it has room, or it holds no error yet and this is one. -/
def admits (b : Bag) (d : Diagnostic) : Bool := !b.isFull || (d.isError && !b.hasErrors)

/-- Takes a diagnostic if the limit allows it. -/
def add (b : Bag) (d : Diagnostic) : Bag :=
  if b.admits d then { b with items := b.items ++ [d] } else b

/-- The errors. -/
def errors (b : Bag) : List Diagnostic := b.items.filter Diagnostic.isError

/-- All but the errors. -/
def warnings (b : Bag) : List Diagnostic := b.items.filter fun d => !d.isError

/-- Takes all of another bag; the limit grows when it must and can. -/
def merge (b other : Bag) : Bag :=
  let total := b.items.length + other.items.length
  { items := b.items ++ other.items
    limit := if b.limit < total && total ≤ 0xFFFF then total else b.limit }

/-- The order of a sorted bag: by file, start and end of the place, the more serious first, and
then by code. -/
def comesBefore (a b : Diagnostic) : Bool :=
  if a.primary.file != b.primary.file then a.primary.file < b.primary.file
  else if a.primary.start != b.primary.start then a.primary.start < b.primary.start
  else if a.primary.stop != b.primary.stop then a.primary.stop < b.primary.stop
  else if a.severity != b.severity then b.severity.level < a.severity.level
  else a.code.number < b.code.number

/-- Sorts; diagnostics of one place and kind keep their order. -/
def sort (b : Bag) : Bag :=
  { b with items := b.items.mergeSort fun x y => !comesBefore y x }

/-- Keeps the first diagnostic of each code identifier and place. -/
def dedup (b : Bag) : Bag :=
  { b with
    items := b.items.foldl (fun kept d =>
      if kept.any fun k => k.code.id == d.code.id && k.primary == d.primary then kept
      else kept ++ [d]) [] }

end Bag

/-- A bag behind a filter that drops what was reported before. -/
structure Reports where
  /-- What went through. -/
  bag : Bag := {}
  /-- Code, place and message of all that was reported. -/
  seen : List (Code × Span × Bytes) := []
  deriving Inhabited

namespace Reports

/-- Nothing reported yet; the limit is read as in `Bag.new`. -/
def new (limit : Int) : Reports := { bag := Bag.new limit }

/-- Reports a diagnostic, unless its code, place and message were reported before. -/
def report (r : Reports) (d : Diagnostic) : Reports :=
  let key := (d.code, d.primary, d.message)
  if r.seen.contains key then r else { bag := r.bag.add d, seen := key :: r.seen }

/-- Reports several diagnostics in order. -/
def reportAll (r : Reports) (ds : List Diagnostic) : Reports := ds.foldl report r

end Reports

/-! ## Failures

A phase fails where it looks into a node that is not there, or cuts a list behind more members than
the list has. It then ends at once, and its last diagnostic tells why.
-/

namespace Failure

/-- A node that is looked into is not there. -/
def missingNode : Bytes := "runtime error: invalid memory address or nil pointer dereference"

/-- A list has no member before its first. -/
def noLast : Bytes := "runtime error: index out of range [-1]"

/-- A list of some length is cut behind its first `i` members. -/
def cutBeyond (i length : Nat) : Bytes :=
  "runtime error: slice bounds out of range [" ++ Bytes.ofNat i ++ ":" ++ Bytes.ofNat length ++ "]"

end Failure

end ScriptLower
