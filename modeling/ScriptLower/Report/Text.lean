import ScriptLower.Diagnostic.Basic
import ScriptLower.Source.File
import ScriptLower.Text.Bytes
import ScriptLower.Text.Width
import ScriptLower.Text.Words

/-!
# Reports as text

Diagnostics with their places, for people and for tools that read a report line by line.
-/

/-!
## Places of diagnostics

A report shows the place of a diagnostic as a path with line and column. A span whose start lies
in no file of the set has no place, and a span that ends before it starts is taken as empty.
-/

namespace ScriptLower.Report

open ScriptLower

/-- A span found in a file set. -/
structure Place where
  /-- The file that holds the start of the span. -/
  file : SourceFile
  /-- The path as it is shown. -/
  path : Bytes
  /-- Line and column of the start. -/
  start : LineCol
  /-- Line and column of the end. -/
  stop : LineCol
  /-- The offset of the start in the file. -/
  startByte : Nat
  /-- The offset of the end in the file. -/
  stopByte : Nat

/-- The place of a span, its path shown in a given way. -/
def place? (files : Option FileSet) (span : Span) (mode : PathMode) : Option Place := do
  let fs ← files
  if span.isDummy then none
  else
    let file ← fs.fileOf? span.start
    let stop := max span.stop span.start
    pure {
      file := file
      path := file.formatPath mode fs.workDir (if mode = .relative then fs.shownBase else [])
      start := file.lineCol span.start
      stop := file.lineCol stop
      startByte := file.offset span.start
      stopByte := file.offset stop }

/-- The place as `path:line:column`. -/
def Place.text (p : Place) : Bytes :=
  p.path ++ ":" ++ Bytes.ofNat p.start.line ++ ":" ++ Bytes.ofNat p.start.col

/-- Whether the notes of a diagnostic are shown: on demand, and always where they carry the
contents of the diagnostic. -/
def showsNotes (asked : Bool) (d : Diagnostic) : Bool := asked || d.code == Code.timings

end ScriptLower.Report

/-!
### Terminal styles

A style is a list of attributes. Styled text stands between the sequence that turns the
attributes on and the one that turns them off again; without colour it stands as it is.
-/

namespace ScriptLower.Report

open ScriptLower

/-- A text attribute of a terminal. -/
inductive Attribute
  /-- Heavy letters. -/
  | bold
  /-- Red letters. -/
  | red
  /-- Green letters. -/
  | green
  /-- Yellow letters. -/
  | yellow
  /-- Blue letters. -/
  | blue
  /-- Cyan letters. -/
  | cyan
  deriving DecidableEq, Repr, Inhabited

/-- The number that turns an attribute on. -/
def Attribute.on : Attribute → Nat
  | .bold => 1
  | .red => 31
  | .green => 32
  | .yellow => 33
  | .blue => 34
  | .cyan => 36

/-- The number that turns an attribute off: heavy letters have one of their own, a colour ends
with everything else. -/
def Attribute.off : Attribute → Nat
  | .bold => 22
  | _ => 0

/-- The terminal sequence of some attribute numbers. -/
def sequence (numbers : List Nat) : Bytes :=
  0x1B :: ascii '[' :: Bytes.join ";" (numbers.map Bytes.ofNat) ++ [ascii 'm']

/-- A text in a style, if there is colour. -/
def styled (color : Bool) (style : List Attribute) (s : Bytes) : Bytes :=
  if color then sequence (style.map Attribute.on) ++ s ++ sequence (style.map Attribute.off)
  else s

end ScriptLower.Report

/-!
## Reports for people

Each diagnostic stands on a line of its own, followed by the source line it is about and a line
that marks the place with a caret. The mark is as wide as the marked text is on a terminal; a
span over several lines is marked up to the end of its first.
-/

namespace ScriptLower.Report

open ScriptLower

/-- How diagnostics are shown to people. -/
structure PrettyOptions where
  /-- Whether terminal colours are used. -/
  color : Bool := false
  /-- How many lines above the place are shown. -/
  context : Nat := 0
  /-- How paths are shown. -/
  pathMode : PathMode := .auto
  /-- Whether notes are shown. -/
  notes : Bool := false
  /-- How many blanks a tab is shown as. -/
  tabWidth : Nat := 4
  deriving Inhabited

/-- A tab width; a number that is not positive means the default. -/
def tabWidthOf (n : Int) : Nat := if n ≤ 0 then 4 else n.toNat

/-- The style of a severity's name. -/
def severityStyle (s : Severity) : List Attribute :=
  if s = .error then [.red, .bold]
  else if s = .warning then [.yellow, .bold]
  else [.cyan]

namespace PrettyOptions

/-- A line with its tabs shown as blanks. -/
def expand (o : PrettyOptions) (s : Bytes) : Bytes :=
  s.flatMap fun b => if b == 9 then List.replicate o.tabWidth 32 else [b]

/-- What stands in front of each shown line. -/
def gutter (o : PrettyOptions) (width : Nat) (label : Bytes) : Bytes :=
  styled o.color [.blue] (Bytes.padLeft width 32 label ++ " |")

/-- The mark under a text of some columns. -/
def mark (columns : Nat) : Bytes := ascii '^' :: List.replicate (columns - 1) (ascii '~')

/-- The line that marks a place. -/
def caretLine (o : PrettyOptions) (width : Nat) (p : Place) : Bytes :=
  let line := p.file.line p.start.line
  let first := min (p.start.col - 1) line.length
  let last :=
    if p.stop.line = p.start.line then min (max (p.stop.col - 1) first) line.length
    else line.length
  let lead := Width.ofText (o.expand (line.take first))
  let span := Width.ofText (o.expand ((line.take last).drop first))
  let blanks : Bytes := List.replicate (lead + 1) 32
  o.gutter width [] ++ blanks ++ styled o.color [.green, .bold] (mark span) ++ "\n"

/-- The source lines up to a place, with its mark below. -/
def excerpt (o : PrettyOptions) (p : Place) (context : Nat) : Bytes :=
  let width := (Bytes.ofNat p.start.line).length
  let first := max 1 (p.start.line - context)
  let shown (n : Nat) : Bytes :=
    o.gutter width (Bytes.ofNat n) ++ " " ++ o.expand (p.file.line n) ++ "\n"
  (List.range' first (p.start.line + 1 - first)).flatMap shown ++ o.caretLine width p

/-- A note, with the line it is about. -/
def note (o : PrettyOptions) (files : Option FileSet) (n : Note) : Bytes :=
  let head : Bytes := "  " ++ styled o.color [.cyan] "note:" ++ " "
  match place? files n.span o.pathMode with
  | none => head ++ n.message ++ "\n"
  | some p => head ++ p.text ++ ": " ++ n.message ++ "\n" ++ o.excerpt p 0

/-- A diagnostic, with the line it is about and its notes. -/
def diagnostic (o : PrettyOptions) (files : Option FileSet) (d : Diagnostic) : Bytes :=
  let place := place? files d.primary o.pathMode
  let front : Bytes := match place with
    | some p => p.text ++ ": "
    | none => []
  let below : Bytes := match place with
    | some p => o.excerpt p o.context
    | none => []
  let notes := if showsNotes o.notes d then d.notes.flatMap (o.note files) else []
  front ++ styled o.color (severityStyle d.severity) d.severity.name ++ " "
    ++ styled o.color [.bold] d.code.id ++ ": " ++ d.message ++ "\n" ++ below ++ notes

end PrettyOptions

/-- The diagnostics as people read them. -/
def pretty (o : PrettyOptions) (files : Option FileSet) (ds : List Diagnostic) : Bytes :=
  ds.flatMap (o.diagnostic files)

end ScriptLower.Report

/-!
## Reports of one line a diagnostic

Editors and build services read a report line by line. So each diagnostic is one line,
`path:line:column: severity code: message`, and the lines come in the order of their places, the
more serious first where places agree.
-/

namespace ScriptLower.Report

open ScriptLower

/-- Where a line of the report points to. -/
structure Spot where
  /-- The path. -/
  path : Bytes := "<unknown>"
  /-- Line and column. -/
  pos : LineCol := {}
  deriving DecidableEq, Inhabited

/-- A diagnostic or note as a line. -/
structure ShortLine where
  /-- Where it points to. -/
  spot : Spot
  /-- How serious it is. -/
  severity : Severity
  /-- The code. -/
  code : Code
  /-- The message, on one line. -/
  message : Bytes
  /-- The lines of the notes. -/
  notes : List (Spot × Bytes) := []
  deriving Inhabited

namespace Short

/-- A message with every run of white space as one blank. -/
def oneLine (s : Bytes) : Bytes := Bytes.join " " (Words.split s)

/-- Where a span points to. -/
def spot (files : Option FileSet) (span : Span) : Spot :=
  match files with
  | none => {}
  | some fs =>
    if span.isDummy then {}
    else match fs.get? span.file with
      | none => {}
      | some f =>
        { path := Bytes.trimPrefix "./" (f.formatPath .relative fs.workDir fs.shownBase)
          pos := (fs.resolve span).1 }

/-- The line of a diagnostic. -/
def line (files : Option FileSet) (notes : Bool) (d : Diagnostic) : ShortLine :=
  { spot := spot files d.primary
    severity := d.severity
    code := d.code
    message := oneLine d.message
    notes := if notes then d.notes.map fun n => (spot files n.span, oneLine n.message) else [] }

/-- The order of the lines: by path, line and column, the more serious first, then by code and
message. -/
def order (a b : ShortLine) : Ordering :=
  (Bytes.compare a.spot.path b.spot.path).then <|
  (compare a.spot.pos.line b.spot.pos.line).then <|
  (compare a.spot.pos.col b.spot.pos.col).then <|
  (compare b.severity.level a.severity.level).then <|
  (compare a.code.number b.code.number).then <|
  Bytes.compare a.message b.message

/-- A spot as `path:line:column`. -/
def spotText (s : Spot) : Bytes :=
  s.path ++ ":" ++ Bytes.ofNat s.pos.line ++ ":" ++ Bytes.ofNat s.pos.col

/-- The text of a line, its notes below it. -/
def text (l : ShortLine) : Bytes :=
  let note (n : Spot × Bytes) : Bytes := spotText n.1 ++ ": note: " ++ n.2 ++ "\n"
  spotText l.spot ++ ": " ++ Bytes.lower l.severity.name ++ " " ++ l.code.id ++ ": " ++ l.message
    ++ "\n" ++ l.notes.flatMap note

/-- The lines of a report, in order. -/
def lines (files : Option FileSet) (notes : Bool) (ds : List Diagnostic) : List ShortLine :=
  (ds.map (line files notes)).mergeSort fun a b => (order a b).isLE

end Short

/-- The diagnostics, one a line. -/
def short (files : Option FileSet) (notes : Bool) (ds : List Diagnostic) : Bytes :=
  (Short.lines files notes ds).flatMap Short.text

end ScriptLower.Report
