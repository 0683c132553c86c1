import ScriptLower.Pipeline.Run
import ScriptLower.Text.Bytes
import ScriptLower.Text.Json
import ScriptLower.Text.Quoted
import ScriptLower.Text.Words

/-!
# Traces

What a trace records, and what becomes of its events.
-/

/-!
## Trace events

What a trace records: that a span of work began or ended, that something happened inside one, or
that the program is alive. How fine the work is that an event speaks of is its scope, and the
level of a trace says down to which scope events are kept.
-/

namespace ScriptLower.Trace

open ScriptLower

/-- What an event says; the numbers without a name say nothing. -/
structure Kind where
  /-- The number. -/
  number : Nat
  deriving DecidableEq, Repr, Inhabited

namespace Kind

/-- A span begins. -/
def started : Kind := ⟨1⟩

/-- A span ends. -/
def ended : Kind := ⟨2⟩

/-- Something happened at one moment. -/
def point : Kind := ⟨3⟩

/-- The program is alive. -/
def heartbeat : Kind := ⟨4⟩

/-- The name of a kind. -/
def name (k : Kind) : Bytes :=
  match k.number with
  | 1 => "begin"
  | 2 => "end"
  | 3 => "point"
  | 4 => "heartbeat"
  | _ => "unknown"

end Kind

/-- How fine the work is that an event speaks of; a higher rank is finer. -/
structure Scope where
  /-- The rank. -/
  rank : Nat
  deriving DecidableEq, Repr, Inhabited

namespace Scope

/-- A whole run, build or command. -/
def driver : Scope := ⟨1⟩

/-- A phase of a run. -/
def pass : Scope := ⟨2⟩

/-- A file of a build. -/
def module : Scope := ⟨3⟩

/-- A single declaration. -/
def node : Scope := ⟨4⟩

/-- The name of a scope. -/
def name (s : Scope) : Bytes :=
  match s.rank with
  | 1 => "driver"
  | 2 => "pass"
  | 3 => "module"
  | 4 => "node"
  | _ => "unknown"

end Scope

/-- A record of a trace. -/
structure Event where
  /-- When it happened, in microseconds since the start of 1970. -/
  time : Int
  /-- Its number in the trace. -/
  seq : Nat := 0
  /-- What it says. -/
  kind : Kind
  /-- How fine its work is. -/
  scope : Scope
  /-- The number of its span; zero is none. -/
  span : Nat := 0
  /-- The number of the span around its span; zero is none. -/
  parent : Nat := 0
  /-- The thread that did the work. -/
  thread : Nat := 0
  /-- What the work is called. -/
  name : Bytes
  /-- A remark. -/
  detail : Bytes := []
  /-- Further remarks by name. -/
  extra : List (Bytes × Bytes) := []
  deriving DecidableEq, Repr, Inhabited

/-- The time of an event that was given none: the start of the year one. -/
def Event.noTime : Int := -62135596800000000

end ScriptLower.Trace

/-!
### Trace levels

A level says down to which scope events are kept. A sign of life is kept at every level.
-/

namespace ScriptLower.Trace

open ScriptLower

/-- How much a trace keeps. -/
inductive Level
  /-- Nothing. -/
  | off
  /-- Whole runs, to see which one failed. -/
  | error
  /-- Runs and their phases. -/
  | phase
  /-- Also the files of a build. -/
  | detail
  /-- Everything. -/
  | debug
  deriving DecidableEq, Repr, Inhabited

namespace Level

/-- All levels. -/
def all : List Level := [off, error, phase, detail, debug]

/-- The name of a level. -/
def name : Level → Bytes
  | off => "off"
  | error => "error"
  | phase => "phase"
  | detail => "detail"
  | debug => "debug"

/-- Reads the name of a level in any case. -/
def parse (s : Bytes) : Except Bytes Level :=
  match all.find? (·.name == Words.lowerName (Words.trim s)) with
  | some l => .ok l
  | none =>
    .error ("invalid trace level: " ++ Quoted.quote s ++ " (expected: "
      ++ Bytes.join "|" (all.map name) ++ ")")

/-- Whether anything is traced. -/
def isOn (l : Level) : Bool := l != off

/-- Whether events of a scope are kept. -/
def keeps : Level → Scope → Bool
  | off, _ => false
  | error, s => s.rank ≤ Scope.driver.rank
  | phase, s => s.rank ≤ Scope.pass.rank
  | detail, s => s.rank ≤ Scope.module.rank
  | debug, _ => true

/-- Whether an event is kept. -/
def accepts (l : Level) (e : Event) : Bool := l.keeps e.scope || e.kind == Kind.heartbeat

end Level

end ScriptLower.Trace

/-!
### Points in time

A moment, in microseconds since the start of 1970, as a date and time of day in Greenwich. The
calendar repeats every 400 years; inside such an era years are counted from March, so that the
leap day is the last of its year.
-/

namespace ScriptLower.Trace

open ScriptLower

/-- Year, month and day of a number of days since the start of 1970. -/
def civil (days : Int) : Int × Nat × Nat :=
  let z := days + 719468
  let era := Int.fdiv z 146097
  let doe := (z - era * 146097).toNat
  let yoe := (doe - doe / 1460 + doe / 36524 - doe / 146096) / 365
  let doy := doe - (365 * yoe + yoe / 4 - yoe / 100)
  let mp := (5 * doy + 2) / 153
  let day := doy - (153 * mp + 2) / 5 + 1
  let month := if mp < 10 then mp + 3 else mp - 9
  let year := Int.ofNat yoe + era * 400
  (if month ≤ 2 then year + 1 else year, month, day)

/-- A number with zeros up to a width. -/
def digits (width n : Nat) : Bytes := Bytes.padLeft width (ascii '0') (Bytes.ofNat n)

/-- A year with at least four digits. -/
def yearText (y : Int) : Bytes :=
  if y < 0 then ascii '-' :: digits 4 y.natAbs else digits 4 y.natAbs

/-- The moment as date and time of day, to the microsecond. -/
def timestamp (micros : Int) : Bytes :=
  let perDay : Int := 86400000000
  let days := Int.fdiv micros perDay
  let rest := (micros - days * perDay).toNat
  let (year, month, day) := civil days
  let seconds := rest / 1000000
  yearText year ++ "-" ++ digits 2 month ++ "-" ++ digits 2 day ++ "T" ++ digits 2 (seconds / 3600)
    ++ ":" ++ digits 2 (seconds / 60 % 60) ++ ":" ++ digits 2 (seconds % 60) ++ "."
    ++ digits 6 (rest % 1000000) ++ "Z"

end ScriptLower.Trace

/-!
## Tracers

A tracer takes events one by one. It may write them out, keep the last of them in a ring to be
written when something fails, or both.
-/

/-!
### Written traces

A trace is written as lines for people, as one JSON value a line, or as a document for trace
viewers. Only the document has a frame around its events and commas between them.
-/

namespace ScriptLower.Trace

open ScriptLower JsonValue

/-- How a trace is written. -/
inductive Format
  /-- By the name of the file it goes to. -/
  | auto
  /-- Lines for people. -/
  | text
  /-- One JSON value a line. -/
  | lines
  /-- A document for trace viewers. -/
  | chrome
  deriving DecidableEq, Repr, Inhabited

namespace Format

/-- The name of a format. -/
def name : Format → Bytes
  | auto => "auto"
  | text => "text"
  | lines => "ndjson"
  | chrome => "chrome"

/-- Reads the name of a format in any case. -/
def parse (s : Bytes) : Except Bytes Format :=
  let known : List (Bytes × Format) := [
    ("", auto), ("auto", auto), ("text", text), ("ndjson", lines), ("json", lines),
    ("chrome", chrome)]
  match known.lookup (Words.lowerName (Words.trim s)) with
  | some f => .ok f
  | none =>
    .error ("invalid trace format: " ++ Quoted.quote s ++ " (expected: auto|text|ndjson|chrome)")

/-- The format that the name of an output file asks for. -/
def ofPath (path : Bytes) : Format :=
  if (Bytes.ofString ".ndjson").isSuffixOf path then lines
  else if (Bytes.ofString ".json").isSuffixOf path then chrome
  else text

/-- A format with the choice by file name made. -/
def resolve (f : Format) (path : Bytes) : Format :=
  match f with
  | auto => ofPath path
  | f => f

end Format

namespace Event

/-- The event as a value on a line. -/
def toLine (e : Event) : Bytes :=
  let extra := if e.extra.isEmpty then none else some (sorted e.extra)
  (members [
    ("time", some (str (timestamp e.time))),
    ("seq", some (nat e.seq)),
    ("kind", some (str e.kind.name)),
    ("scope", some (str e.scope.name)),
    ("span_id", some (nat e.span)),
    ("parent_id", nonzero e.parent),
    ("gid", nonzero e.thread),
    ("name", some (str e.name)),
    ("detail", nonempty e.detail),
    ("extra", extra)]).compact ++ "\n"

/-- The remarks of an event by name, the main one among them. -/
def remarks (e : Event) : List (Bytes × Bytes) :=
  let own : Bytes := "detail"
  if e.detail.isEmpty then e.extra
  else e.extra.filter (·.1 != own) ++ [(own, e.detail)]

/-- The event for trace viewers. A moment is drawn over its whole thread. -/
def toViewer (e : Event) : Bytes :=
  let phase : Bytes :=
    if e.kind = .started then "B" else if e.kind = .ended then "E" else "i"
  let args := if e.remarks.isEmpty then none else some (sorted e.remarks)
  (members [
    ("name", some (str e.name)),
    ("cat", some (str e.scope.name)),
    ("ph", some (str phase)),
    ("ts", some (num (Bytes.ofInt e.time))),
    ("pid", some (nat 1)),
    ("tid", some (nat e.thread)),
    ("s", if phase == Bytes.ofString "i" then some (str "t") else none),
    ("args", args)]).compact

/-- The sign of a kind of event. -/
def sign (k : Kind) : Bytes :=
  match k.number with
  | 1 => "→ "
  | 2 => "← "
  | 3 => "• "
  | 4 => "♡ "
  | _ => []

/-- The further remarks in braces. -/
def extraText (e : Event) : Bytes :=
  if e.extra.isEmpty then []
  else
    let entries := e.extra.mergeSort fun a b => Bytes.le a.1 b.1
    let entry (kv : Bytes × Bytes) : Bytes := kv.1 ++ "=" ++ Quoted.quote kv.2
    " \x7b" ++ Bytes.join ", " (entries.map entry) ++ "\x7d"

/-- The event for people, with the time since `epoch`; an event from before then, or without a
time, shows none. -/
def toText (epoch : Int) (e : Event) : Bytes :=
  let elapsed := if e.time = noTime then 0 else (e.time - epoch).toNat
  let millis : Bytes := Bytes.ofNat (elapsed / 1000) ++ "." ++ digits 3 (elapsed % 1000)
  let indent : Bytes := if 0 < e.parent then "  " else []
  let detail : Bytes := if e.detail.isEmpty then [] else " (" ++ e.detail ++ ")"
  "[" ++ Bytes.padLeft 9 32 millis ++ "ms] " ++ indent ++ sign e.kind ++ e.name ++ detail
    ++ e.extraText ++ "\n"

end Event

/-- The whole text of a trace with the given events. -/
def write (format : Format) (epoch : Int) (events : List Event) : Bytes :=
  match format with
  | .lines => events.flatMap Event.toLine
  | .chrome =>
    "\x7b\"traceEvents\":[\n" ++ Bytes.join ",\n" (events.map Event.toViewer) ++ "\n]\x7d\n"
  | _ => events.flatMap (Event.toText epoch)

end ScriptLower.Trace

/-!
### Ring buffers

A ring holds the last so many of the items put into it. Its slots are filled one after the other,
and once the last is taken it starts again with the first, so nothing is ever moved.
-/

namespace ScriptLower

/-- The last items of a sequence, up to the number of slots. -/
structure Ring (α : Type) where
  /-- The slots. -/
  slots : List α
  /-- The slot that the next item goes to. -/
  next : Nat := 0
  /-- Whether all slots were taken once. -/
  full : Bool := false
  deriving Inhabited

namespace Ring

variable {α : Type}

/-- The capacity when none is asked for. -/
def defaultCapacity : Nat := 4096

/-- An empty ring. A capacity that is not positive means the default. -/
def new [Inhabited α] (capacity : Int) : Ring α :=
  { slots := List.replicate (if capacity ≤ 0 then defaultCapacity else capacity.toNat) default }

/-- How many items are held at most. -/
def capacity (r : Ring α) : Nat := r.slots.length

/-- Puts an item in; a full ring forgets its oldest. -/
def push (r : Ring α) (a : α) : Ring α :=
  if r.next + 1 = r.capacity then { slots := r.slots.set r.next a, next := 0, full := true }
  else { r with slots := r.slots.set r.next a, next := r.next + 1 }

/-- The items held, oldest first. -/
def toList (r : Ring α) : List α :=
  if r.full then r.slots.drop r.next ++ r.slots.take r.next else r.slots.take r.next

/-- How many items are held. -/
def size (r : Ring α) : Nat := if r.full then r.capacity else r.next

end Ring

end ScriptLower

/-! ## Taking events -/

namespace ScriptLower.Trace

open ScriptLower

/-- Where events go. -/
inductive Mode
  /-- They are written out. -/
  | stream
  /-- The last of them are kept. -/
  | ring
  /-- Both. -/
  | both
  /-- They go to the program's log. -/
  | log
  deriving DecidableEq, Repr, Inhabited

namespace Mode

/-- The name of a mode. -/
def name : Mode → Bytes
  | stream => "stream"
  | ring => "ring"
  | both => "both"
  | log => "zap"

/-- Reads the name of a mode in any case. -/
def parse (s : Bytes) : Except Bytes Mode :=
  let known : List (Bytes × Mode) := [
    ("stream", stream), ("ring", ring), ("both", both), ("zap", log), ("log", log)]
  match known.lookup (Words.lowerName (Words.trim s)) with
  | some m => .ok m
  | none =>
    .error ("invalid storage mode: " ++ Quoted.quote s ++ " (expected: stream|ring|both|zap)")

end Mode

/-- Takes events. -/
structure Tracer where
  /-- What is kept. -/
  level : Level
  /-- What was written out, if anything is. -/
  written : Option (List Event) := none
  /-- The last events, if they are kept. -/
  ring : Option (Ring Event) := none
  deriving Inhabited

namespace Tracer

/-- The tracer that takes nothing. -/
def off : Tracer := { level := .off }

/-- A tracer without a log to write to. -/
def new (level : Level) (mode : Mode) (capacity : Int) : Except Bytes Tracer :=
  if level = .off then .ok off
  else match mode with
    | .stream => .ok { level := level, written := some [] }
    | .ring => .ok { level := level, ring := some (Ring.new capacity) }
    | .both => .ok { level := level, written := some [], ring := some (Ring.new capacity) }
    | .log => .error "zap trace mode needs a logger"

/-- Takes an event if the level keeps it. -/
def emit (t : Tracer) (e : Event) : Tracer :=
  if t.level.accepts e then
    { t with written := t.written.map (· ++ [e]), ring := t.ring.map (·.push e) }
  else t

/-- Takes events in order. -/
def emitAll (t : Tracer) (es : List Event) : Tracer := es.foldl emit t

/-- The text written out when the tracer is closed. -/
def streamText (t : Tracer) (format : Format) (epoch : Int) : Bytes :=
  match t.written with
  | some es => write format epoch es
  | none => []

end Tracer

end ScriptLower.Trace

/-!
### Traces of runs

A run is a span around the spans of its phases. The end of a phase says how many errors it found,
the end of the run how far it came.
-/

namespace ScriptLower.Trace

open ScriptLower

/-- An event of a span at a moment. -/
def spanEvent (time : Int) (kind : Kind) (scope : Scope) (span : Nat) (name : Bytes)
    (detail : Bytes) (extra : List (Bytes × Bytes)) : Event :=
  { time := time, kind := kind, scope := scope, span := span, name := name, detail := detail
    extra := extra }

/-- The events of the phases, their spans numbered from `span` on. -/
def phaseEvents (time : Int) : Nat → List Phase → List Event
  | _, [] => []
  | span, p :: r =>
    spanEvent time .started .pass span p.name [] []
      :: spanEvent time .ended .pass span p.name [] [("errors", Bytes.ofNat p.errors)]
      :: phaseEvents time (span + 1) r

/-- The events of a run of a source. -/
def runEvents (time : Int) (specifier : Bytes) (r : Run) : List Event :=
  spanEvent time .started .driver 1 "transpile" [] []
    :: phaseEvents time 2 r.phases
    ++ [spanEvent time .ended .driver 1 "transpile" specifier [("state", r.stage.name)]]

end ScriptLower.Trace
