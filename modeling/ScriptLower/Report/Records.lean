import ScriptLower.Diagnostic.Basic
import ScriptLower.Number.Binary64
import ScriptLower.Number.Literal
import ScriptLower.Pipeline.Run
import ScriptLower.Report.Text
import ScriptLower.Text.Json

/-!
# Reports as records

Diagnostics and times in forms that programs read.
-/

/-!
## Reports for programs

The diagnostics as a JSON document: a list of records and its length. Offsets count the bytes of
the file, not the positions of the set.
-/

namespace ScriptLower.Report

open ScriptLower JsonValue

/-- How diagnostics are written for programs. -/
structure RecordOptions where
  /-- Whether lines and columns are written. -/
  positions : Bool := false
  /-- How paths are shown. -/
  pathMode : PathMode := .auto
  /-- How many records are written at most; zero is no limit. -/
  limit : Nat := 0
  /-- Whether notes are written. -/
  notes : Bool := false
  deriving Inhabited

namespace RecordOptions

/-- Where a span lies. -/
def location (o : RecordOptions) (files : Option FileSet) (span : Span) : Option JsonValue :=
  (place? files span o.pathMode).map fun p =>
    let number (n : Nat) : Option JsonValue := if o.positions then nonzero n else none
    members [
      ("file", some (str p.path)),
      ("start_byte", some (nat p.startByte)),
      ("end_byte", some (nat p.stopByte)),
      ("start_line", number p.start.line),
      ("start_col", number p.start.col),
      ("end_line", number p.stop.line),
      ("end_col", number p.stop.col)]

/-- A note. -/
def note (o : RecordOptions) (files : Option FileSet) (n : Note) : JsonValue :=
  members [("message", some (str n.message)), ("location", o.location files n.span)]

/-- The record of a diagnostic. -/
def record (o : RecordOptions) (files : Option FileSet) (d : Diagnostic) : JsonValue :=
  let notes := if showsNotes o.notes d then d.notes.map (o.note files) else []
  members [
    ("severity", some (str d.severity.name)),
    ("code", some (str d.code.id)),
    ("kind", some (str d.code.kind.name)),
    ("message", some (str d.message)),
    ("location", o.location files d.primary),
    ("notes", nonemptyList notes)]

end RecordOptions

/-- The diagnostics as a value. -/
def records (o : RecordOptions) (files : Option FileSet) (ds : List Diagnostic) : JsonValue :=
  let shown := if o.limit = 0 then ds else ds.take o.limit
  obj [("diagnostics", arr (shown.map (o.record files))), ("count", nat shown.length)]

/-- The diagnostics as a document. -/
def json (o : RecordOptions) (files : Option FileSet) (ds : List Diagnostic) : Bytes :=
  (records o files ds).document

end ScriptLower.Report

/-!
### Interchange reports

The diagnostics as a log of the static analysis results interchange format, version 2.1.0. Each
code that occurs is a rule, in increasing order of code, and a result refers to its rule by its
place in that list. Notes are related locations, numbered from one.
-/

namespace ScriptLower.Report

open ScriptLower JsonValue

/-- Who reports. -/
structure Tool where
  /-- The name of the tool; the program's own name when empty. -/
  name : Bytes := []
  /-- Its version. -/
  version : Bytes := []
  /-- Where to read about it. -/
  uri : Bytes := []
  /-- The arguments of the run. -/
  arguments : List Bytes := []
  deriving Inhabited

namespace Sarif

/-- The name of the program. -/
def programName : Bytes := "mesozoic"

/-- The level of a result. -/
def level (s : Severity) : Bytes :=
  if s = .error then "error" else if s = .warning then "warning" else "note"

/-- A message. -/
def message (s : Bytes) : JsonValue := obj [("text", str s)]

/-- Where a span lies. -/
def physical (files : Option FileSet) (span : Span) : Option JsonValue :=
  (place? files span .relative).map fun p =>
    obj [
      ("artifactLocation", obj [("uri", str p.path)]),
      ("region", obj [
        ("startLine", nat p.start.line),
        ("startColumn", nat p.start.col),
        ("endLine", nat p.stop.line),
        ("endColumn", nat p.stop.col),
        ("byteOffset", nat p.startByte),
        ("byteLength", nat (p.stopByte - p.startByte))])]

/-- The codes that occur, each once and in increasing order. -/
def rules (ds : List Diagnostic) : List Code :=
  ((ds.map (·.code)).eraseDups).mergeSort fun a b => a.number ≤ b.number

/-- A note as a related location. -/
def related (files : Option FileSet) (n : Note) (index : Nat) : JsonValue :=
  members [
    ("id", some (nat (index + 1))),
    ("physicalLocation", physical files n.span),
    ("message", some (message n.message))]

/-- The result of a diagnostic. -/
def result (files : Option FileSet) (rules : List Code) (d : Diagnostic) : JsonValue :=
  let locations := match physical files d.primary with
    | some p => [obj [("physicalLocation", p)]]
    | none => []
  members [
    ("ruleId", some (str d.code.id)),
    ("ruleIndex", some (nat (rules.idxOf d.code))),
    ("level", some (str (level d.severity))),
    ("message", some (message d.message)),
    ("locations", nonemptyList locations),
    ("relatedLocations", nonemptyList (d.notes.mapIdx fun i n => related files n i))]

/-- The description of a rule. -/
def rule (c : Code) : JsonValue :=
  obj [("id", str c.id), ("shortDescription", message c.title)]

/-- The tool with its rules. -/
def driver (tool : Tool) (rules : List Code) : JsonValue :=
  members [
    ("name", some (str (if tool.name.isEmpty then programName else tool.name))),
    ("version", nonempty tool.version),
    ("informationUri", nonempty tool.uri),
    ("rules", nonemptyList (rules.map rule))]

/-- The run: it succeeded if there is no error. -/
def run (tool : Tool) (files : Option FileSet) (ds : List Diagnostic) : JsonValue :=
  let rs := rules ds
  let invocation := members [
    ("arguments", nonemptyList (tool.arguments.map str)),
    ("executionSuccessful", some (bool (!ds.any Diagnostic.isError)))]
  obj [
    ("tool", obj [("driver", driver tool rs)]),
    ("invocations", arr [invocation]),
    ("results", arr (ds.map (result files rs)))]

end Sarif

/-- The diagnostics as a log. -/
def sarif (tool : Tool) (files : Option FileSet) (ds : List Diagnostic) : Bytes :=
  (obj [
    ("version", str "2.1.0"),
    ("$schema", str "https://json.schemastore.org/sarif-2.1.0.json"),
    ("runs", arr [Sarif.run tool files ds])]).document

end ScriptLower.Report

/-!
## Times of phases

How long the phases of a run took, as a table for people or inside a diagnostic whose note holds the
numbers for programs.
-/

namespace ScriptLower.Report

open ScriptLower JsonValue

/-- How long a phase took, in milliseconds. -/
structure PhaseTime where
  /-- The phase. -/
  name : Bytes
  /-- The time. -/
  millis : Float
  /-- A remark. -/
  note : Bytes := []
  deriving Inhabited

/-- The phases of a run with their times; a phase that found errors says so. -/
def phaseTimes (r : Run) (millis : List Float) : List PhaseTime :=
  (r.phases.zip (millis ++ List.replicate r.phases.length 0)).map fun (p, t) =>
    { name := p.name, millis := t, note := if p.errors = 0 then [] else "failed" }

/-- The times as lines, the total last. -/
def timeTable (times : List PhaseTime) (total : Float) : Bytes :=
  let width := (times.map (·.name.length)).foldl max 5
  let line (name : Bytes) (t : Float) : Bytes :=
    "  " ++ Bytes.padRight width 32 name ++ " " ++ Bytes.padLeft 8 32 (Fixed.text 2 t) ++ " ms"
  let phase (p : PhaseTime) : Bytes :=
    let note : Bytes := if p.note.isEmpty then [] else "  (" ++ p.note ++ ")"
    line p.name p.millis ++ note ++ "\n"
  "timings:\n" ++ times.flatMap phase ++ line "total" total ++ "\n"

/-- A number of milliseconds in a document. -/
def number (x : Float) : JsonValue :=
  num (if x == 0 && Binary64.signBit x then "-0" else Number.format x)

/-- The diagnostic that carries times; `phases` is none when they were not recorded. -/
def timingDiagnostic (kind path : Bytes) (total : Float) (phases : Option (List PhaseTime)) :
    Diagnostic :=
  let kind : Bytes := if kind.isEmpty then "pipeline" else kind
  let place : Bytes := if path.isEmpty then [] else ": " ++ path
  let phase (p : PhaseTime) : JsonValue :=
    members [("name", some (str p.name)), ("duration_ms", some (number p.millis)),
      ("note", nonempty p.note)]
  let payload := members [
    ("kind", some (str kind)),
    ("path", nonempty path),
    ("total_ms", some (number total)),
    ("phases", some (match phases with
      | some ps => arr (ps.map phase)
      | none => .null))]
  let message := "timings (" ++ kind ++ "): total " ++ Fixed.text 2 total ++ " ms" ++ place
  { severity := .info, code := Code.timings, message := message, primary := {}
    notes := [⟨{}, payload.compact⟩] }

end ScriptLower.Report
