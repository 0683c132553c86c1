import ScriptLower.Number.Binary64
import ScriptLower.Text.Width

/-!
# Stages of a build

A build finds its files, runs each and writes each output. Along the way it tells how far it is, in
events that speak of a file or of the whole build, and adds up the time each stage took.
-/

/-!
## Tables

A table with a heading, rows and a last line, set apart by rules. Headings are in capitals. Texts
stand to the left, but the second column of the rows and of the last line, and everything in a table
without rows, stands to the right.
-/

namespace ScriptLower.Report

open ScriptLower

/-- A row of two cells. -/
structure TableRow where
  /-- The first cell. -/
  left : Bytes
  /-- The second cell. -/
  right : Bytes
  deriving DecidableEq, Repr, Inhabited

namespace Table

/-- The capital form of an ASCII letter; other bytes stay. -/
def upper (s : Bytes) : Bytes := s.map fun b => if 97 ≤ b && b ≤ 122 then b - 32 else b

/-- A row in capitals. -/
def capitals (r : TableRow) : TableRow := ⟨upper r.left, upper r.right⟩

/-- A cell filled up behind its text. -/
def toLeft (width : Nat) (s : Bytes) : Bytes := s ++ List.replicate (width - Width.ofText s) 32

/-- A cell filled up in front of its text. -/
def toRight (width : Nat) (s : Bytes) : Bytes := List.replicate (width - Width.ofText s) 32 ++ s

/-- The columns of a column. -/
def widest (cells : List Bytes) : Nat := (cells.map Width.ofText).foldl max 0

/-- The lines of a table, the last without line end. -/
def render (heading : TableRow) (rows : List TableRow) (footer : TableRow) : Bytes :=
  let heading := capitals heading
  let footer := capitals footer
  let all := heading :: footer :: rows
  let w1 := widest (all.map (·.left))
  let w2 := widest (all.map (·.right))
  let text := if rows.isEmpty then toRight else toLeft
  let line (second : Nat → Bytes → Bytes) (r : TableRow) : Bytes :=
    " " ++ text w1 r.left ++ "  " ++ second w2 r.right ++ " "
  let rule : Bytes := (List.replicate (w1 + w2 + 4) (Bytes.ofString "─")).flatten
  Bytes.join "\n"
    ([line text heading, rule] ++ rows.map (line toRight) ++ [rule, line toRight footer])

end Table

end ScriptLower.Report

/-! ## Stages -/

namespace ScriptLower.Build

open ScriptLower

/-- A stage of a build. -/
structure Stage where
  /-- Its name. -/
  name : Bytes
  deriving DecidableEq, Repr, Inhabited

namespace Stage

/-- The files are found. -/
def discover : Stage := ⟨"discover"⟩

/-- A file is run. -/
def transpile : Stage := ⟨"transpile"⟩

/-- An output is written. -/
def write : Stage := ⟨"write"⟩

end Stage

/-- How a stage stands. -/
structure Status where
  /-- Its name. -/
  name : Bytes
  deriving DecidableEq, Repr, Inhabited

namespace Status

/-- It waits. -/
def queued : Status := ⟨"queued"⟩

/-- It goes on. -/
def working : Status := ⟨"working"⟩

/-- It is over. -/
def done : Status := ⟨"done"⟩

/-- The output was in the cache. -/
def cached : Status := ⟨"cached"⟩

/-- It failed. -/
def error : Status := ⟨"error"⟩

end Status

/-- How far a file, or the build when `file` is empty, has come. -/
structure Event where
  /-- The file. -/
  file : Bytes := []
  /-- The stage. -/
  stage : Stage
  /-- How it stands. -/
  status : Status
  /-- What went wrong. -/
  error : Option Bytes := none
  deriving DecidableEq, Repr, Inhabited

/-- Times of stages in microseconds, added up over the files. -/
abbrev StageTimes := List (Stage × Int)

namespace StageTimes

/-- Adds to the time of a stage. -/
def add (t : StageTimes) (stage : Stage) (micros : Int) : StageTimes :=
  if t.any (·.1 == stage) then t.map fun e => if e.1 == stage then (stage, e.2 + micros) else e
  else t ++ [(stage, micros)]

/-- Microseconds as milliseconds with one decimal. -/
def millis (micros : Int) : Bytes :=
  let nanos := Float.ofInt (micros * 1000)
  Fixed.text 1 (nanos / 1000000.0)

/-- The times as a table, in the order of the stages, with their sum. -/
def table (t : StageTimes) : Bytes :=
  let seen := [Stage.discover, .transpile, .write].filterMap fun s =>
    (t.lookup s).map fun micros => (s, micros)
  Report.Table.render ⟨"stage", "ms"⟩ (seen.map fun (s, micros) => ⟨s.name, millis micros⟩)
    ⟨"total", millis (seen.foldl (fun sum e => sum + e.2) 0)⟩

end StageTimes

end ScriptLower.Build

/-!
## Progress of a build

What a terminal shows while a build runs: a heading with a count, a line for each file, a bar and a
summary. A file that ended in an error keeps the text of it below its line.
-/

namespace ScriptLower.Build

open ScriptLower

/-- How far a file is. -/
inductive FileState
  /-- It waits. -/
  | queued
  /-- It is run. -/
  | transpiling
  /-- Its output is written. -/
  | writing
  /-- Its output is written. -/
  | done
  /-- Its output came from the cache. -/
  | cached
  /-- There is no output. -/
  | failed
  deriving DecidableEq, Repr, Inhabited

namespace FileState

/-- The name of a state. -/
def name : FileState → Bytes
  | queued => "queued"
  | transpiling => "transpiling"
  | writing => "writing"
  | done => "done"
  | cached => "cached"
  | failed => "failed"

/-- Whether nothing more happens to the file. -/
def isFinal : FileState → Bool
  | done | cached | failed => true
  | queued | transpiling | writing => false

/-- The state after an event; none when the event says nothing about it. -/
def after? (e : Event) : Option FileState :=
  if e.status = .queued then some queued
  else if e.status = .working then some (if e.stage = .write then writing else transpiling)
  else if e.status = .done then some done
  else if e.status = .cached then some cached
  else if e.status = .error then some failed
  else none

end FileState

/-- The line of a file. -/
structure ProgressRow where
  /-- The file. -/
  path : Bytes
  /-- How far it is. -/
  state : FileState := .queued
  /-- The last error. -/
  error : Bytes := []
  deriving DecidableEq, Repr, Inhabited

/-- What the terminal shows. -/
structure Progress where
  /-- The heading. -/
  title : Bytes
  /-- The lines of the files. -/
  rows : List ProgressRow
  /-- What the build as a whole is doing. -/
  phase : Bytes := []
  /-- The columns of the terminal. -/
  width : Int := 80
  /-- The lines of the terminal; zero when unknown. -/
  height : Int := 0
  /-- The columns of the bar. -/
  barWidth : Nat := 60
  /-- Whether the build is over. -/
  done : Bool := false
  deriving Inhabited

namespace Progress

/-- The start of a build of some files. -/
def new (title : Bytes) (files : List Bytes) : Progress :=
  { title := title, rows := files.map fun f => { path := f } }

/-- A row after an event about its file. -/
def rowAfter (r : ProgressRow) (e : Event) : ProgressRow :=
  { r with
    state := (FileState.after? e).getD r.state
    error := if e.status = .error then e.error.getD r.error else r.error }

/-- Changes the last row of a file. -/
def changeLast (f : ProgressRow → ProgressRow) (path : Bytes) (rows : List ProgressRow) :
    List ProgressRow :=
  match rows.reverse.span (·.path != path) with
  | (later, r :: earlier) => (later ++ f r :: earlier).reverse
  | (_, []) => rows

/-- Takes an event. A file that was not known before shows up when it is queued. -/
def apply (p : Progress) (e : Event) : Progress :=
  if e.file.isEmpty then
    if e.status = .working then { p with phase := e.stage.name } else p
  else if p.rows.any (·.path == e.file) then
    { p with rows := changeLast (rowAfter · e) e.file p.rows }
  else if e.status = .queued then { p with rows := p.rows ++ [{ path := e.file }] }
  else p

/-- The terminal has a new size. -/
def resize (p : Progress) (width height : Int) : Progress :=
  { p with width := width, height := height, barWidth := (max (width - 4) 10).toNat }

/-- The build is over. -/
def finish (p : Progress) : Progress := { p with done := true }

/-- How many files are in a state. -/
def count (p : Progress) (s : FileState) : Nat := p.rows.countP (·.state == s)

/-- A text on some columns; dots say that something is missing. -/
def shorten (s : Bytes) (columns : Nat) : Bytes :=
  if Width.ofText s ≤ columns then s else Width.truncate s (columns - 3) "..."

/-- A block of text: tabs are four blanks, and its lines are filled up to the longest. -/
def block (s : Bytes) : Bytes :=
  let s := s.flatMap fun b => if b == 9 then [32, 32, 32, 32] else [b]
  let lines := Bytes.splitOn 10 (Bytes.replace [13, 10] [10] s)
  let width := (lines.map Width.ofText).foldl max 0
  let fill (l : Bytes) : Bytes := l ++ List.replicate (width - Width.ofText l) 32
  Bytes.join "\n" (lines.map fill)

/-- The rows that are shown and the number of the others: when the terminal has too few lines,
files that went well are only counted. -/
def shown (p : Progress) : List ProgressRow × Nat :=
  if p.height = 0 || (p.rows.length : Int) ≤ p.height - 7 then (p.rows, 0)
  else
    let isFine (r : ProgressRow) : Bool := r.state == .done || r.state == .cached
    (p.rows.filter fun r => !isFine r, p.rows.countP isFine)

/-- The heading. -/
def heading (p : Progress) : Bytes :=
  let count := p.rows.countP (·.state.isFinal)
  let title := p.title ++ " [" ++ Bytes.ofNat count ++ "/" ++ Bytes.ofNat p.rows.length ++ "]"
  let phase : Bytes := if p.phase.isEmpty then [] else " " ++ p.phase
  if p.done then "done: " ++ title else "⠋ " ++ title ++ phase

/-- The line of a file, with its error below. -/
def rowText (columns : Nat) (r : ProgressRow) : Bytes :=
  let error : Bytes :=
    if r.error.isEmpty then []
    else List.replicate 14 32 ++ block (shorten r.error columns) ++ [10]
  "  " ++ Bytes.padLeft 11 32 r.state.name ++ " " ++ shorten r.path columns ++ "\n" ++ error

/-- The bar: it is full when the build is over. -/
def bar (p : Progress) : Bytes :=
  (List.replicate p.barWidth (if p.done then Bytes.ofString "█" else Bytes.ofString "░")).flatten

/-- What the terminal shows. -/
def view (p : Progress) : Bytes :=
  if p.rows.isEmpty then []
  else
    let (rows, hidden) := p.shown
    let columns := (max (p.width - 16) 20).toNat
    let more : Bytes :=
      if hidden = 0 then []
      else List.replicate 14 32 ++ Bytes.ofNat hidden ++ Bytes.ofString " more finished\n"
    block p.heading ++ "\n\n" ++ rows.flatMap (rowText columns) ++ more ++ "\n" ++ p.bar ++ "\n"
      ++ Bytes.ofNat (p.count .done) ++ " done, " ++ Bytes.ofNat (p.count .cached) ++ " cached, "
      ++ Bytes.ofNat (p.count .failed) ++ " failed\n"

end Progress

end ScriptLower.Build
