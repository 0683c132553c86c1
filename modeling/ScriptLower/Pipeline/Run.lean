import ScriptLower.Pipeline.Options
import ScriptLower.Print.Program

/-!
# A run

A run reads a source, lowers it and prints it. It stops at the first phase that reports an error,
and what it comes to is either an output, without errors, or a failure that says which phase failed
and why. Runs share nothing.
-/

namespace ScriptLower

/-- How far a run has come. -/
inductive Stage
  /-- Not begun. -/
  | idle
  /-- Reading failed. -/
  | parseFailed
  /-- Lowering failed. -/
  | lowerFailed
  /-- Printing failed. -/
  | printFailed
  /-- Done. -/
  | done
  deriving DecidableEq, Repr, Inhabited

namespace Stage

/-- The name of a stage. -/
def name : Stage → Bytes
  | idle => "idle"
  | parseFailed => "parse failed"
  | lowerFailed => "transform failed"
  | printFailed => "emit failed"
  | done => "emitted"

/-- Whether a phase failed. -/
def isFailure : Stage → Bool
  | parseFailed | lowerFailed | printFailed => true
  | idle | done => false

end Stage

/-- A phase that was begun, and how many errors it found. -/
structure Phase where
  /-- Its name. -/
  name : String
  /-- The number of errors. -/
  errors : Nat
  deriving DecidableEq, Repr, Inhabited

/-- A run without an output. -/
structure Failure where
  /-- Where it stopped. -/
  stage : Stage
  /-- All diagnostics, in the order found. -/
  diagnostics : List Diagnostic
  /-- The files that the diagnostics speak of. -/
  files : FileSet
  deriving Inhabited

namespace Failure

/-- The diagnostic that the failure is named for: the first error, or the first of all. -/
def first? (f : Failure) : Option Diagnostic :=
  (f.diagnostics.find? Diagnostic.isError).or f.diagnostics.head?

/-- The kind of the failure. -/
def kind (f : Failure) : ErrorKind :=
  match f.first? with
  | some d => d.code.kind
  | none => .other

/-- The place of a span as path, line and column; nothing when it names no place. -/
def position (fs : FileSet) (span : Span) : Bytes :=
  if span.isDummy then []
  else match fs.fileOf? span.start with
    | none => []
    | some f =>
      let p := f.lineCol span.start
      f.path ++ ":" ++ Bytes.ofNat p.line ++ ":" ++ Bytes.ofNat p.col

/-- The failure on one line. -/
def message (f : Failure) : Bytes :=
  match f.first? with
  | none => "transpile: " ++ f.stage.name
  | some d =>
    let place := position f.files d.primary
    let place : Bytes := if place.isEmpty then [] else place ++ ": "
    let count := f.diagnostics.countP Diagnostic.isError
    let more : Bytes :=
      if 1 < count then " (and " ++ Bytes.ofNat (count - 1) ++ " more errors)" else []
    "transpile: " ++ f.stage.name ++ ": " ++ place ++ d.code.id ++ " " ++ d.message ++ more

end Failure

/-- A run that succeeded. -/
structure Output where
  /-- The printed text. -/
  code : Bytes
  /-- The source map, if it stands beside the text. -/
  map : Option Bytes := none
  /-- The warnings. -/
  diagnostics : List Diagnostic
  /-- The tokens of the source, if they are kept. -/
  tokens : Option (List Token) := none
  /-- The dialect of the source. -/
  dialect : Dialect
  /-- The files that the diagnostics speak of. -/
  files : FileSet
  deriving Inhabited

/-- What a run came to, and the phases it went through. -/
structure Run where
  /-- The output or the failure. -/
  result : Except Failure Output
  /-- The phases that were begun, in order. -/
  phases : List Phase := []
  deriving Inhabited

namespace Run

/-- Whether the run succeeded. -/
def isOk (r : Run) : Bool := r.result.isOk

/-- The stage the run ended in. -/
def stage (r : Run) : Stage :=
  match r.result with
  | .ok _ => .done
  | .error f => f.stage

/-- All diagnostics of the run. -/
def diagnostics (r : Run) : List Diagnostic :=
  match r.result with
  | .ok x => x.diagnostics
  | .error f => f.diagnostics

/-- The files that the diagnostics speak of. -/
def files (r : Run) : FileSet :=
  match r.result with
  | .ok x => x.files
  | .error f => f.files

/-- A run that failed. -/
def failed (stage : Stage) (reports : Reports) (files : FileSet) (phases : List Phase) : Run :=
  { result := .error { stage := stage, diagnostics := reports.bag.items, files := files }
    phases := phases }

/-- Puts a map into the output or beside it. -/
def attachMap (mode : MapMode) (sink : MapSink) (specifier code : Bytes) : Bytes × Option Bytes :=
  let name := Path.base (Dialect.outputName specifier)
  let map := sink.json name
  let code : Bytes := if ([10] : Bytes).isSuffixOf code then code else code ++ [10]
  match mode with
  | .none => (code, none)
  | .inline => (code ++ MapSink.inlineComment map ++ [10], none)
  | .separate => (code ++ MapSink.urlComment (name ++ ".map") ++ [10], some map)

/-- The last phase: prints a lowered tree. -/
def print (o : Options) (c : Configuration) (specifier : Bytes) (files : FileSet)
    (file : SourceFile) (parsed : Parse.Result) (lowered : Lower.Result) (tree : Node)
    (reports : Reports) (phases : List Phase) : Run :=
  let sink : Option MapSink := if o.sourceMap == .none then none else some { file := file }
  let printed := Print.printTree tree lowered.comments
    { minify := o.minify, asciiOnly := o.asciiOnly, sink := sink }
  let reports := reports.reportAll printed.reports
  let phases := phases ++ [{ name := "emit", errors := printed.errors }]
  match printed.code with
  | none => failed .printFailed reports files phases
  | some code =>
    if reports.bag.hasErrors then failed .printFailed reports files phases
    else
      let (code, map) := match printed.sink with
        | some s => attachMap o.sourceMap s specifier code
        | none => (code, none)
      { result := .ok
          { code := code, map := map, diagnostics := reports.bag.items, dialect := c.dialect
            tokens := if o.captureTokens then some parsed.tokens else none, files := files }
        phases := phases }

/-- The middle phase: lowers a tree. -/
def lower (o : Options) (c : Configuration) (specifier : Bytes) (files : FileSet)
    (file : SourceFile) (parsed : Parse.Result) (tree : Node) (reports : Reports)
    (phases : List Phase) : Run :=
  let lowered := Lower.lowerTree file tree parsed.comments {} c.lowering
  let reports := reports.reportAll lowered.reports
  let phases := phases ++ [{ name := "fold", errors := lowered.errors }]
  match lowered.tree with
  | none => failed .lowerFailed reports files phases
  | some out =>
    if reports.bag.hasErrors then failed .lowerFailed reports files phases
    else print o c specifier files file parsed lowered out reports phases

/-- The first phase: reads the text. -/
def parse (o : Options) (c : Configuration) (specifier text : Bytes) (reports : Reports) : Run :=
  let (files, file) := FileSet.empty.add specifier text true
  let parsed := Parse.parseFile file
    { grammar := o.grammar c.dialect, capture := o.captureTokens, maxErrors := reports.bag.limit }
  let reports := reports.reportAll parsed.reports
  let phases := [{ name := "parse", errors := parsed.errors }]
  match parsed.tree with
  | none => failed .parseFailed reports files phases
  | some tree =>
    if reports.bag.hasErrors then failed .parseFailed reports files phases
    else lower o c specifier files file parsed tree reports phases

end Run

/-- Turns a source into a script. -/
def transpile (specifier text : Bytes) (o : Options) : Run :=
  let reports := (Reports.new o.maxDiagnostics).reportAll
    ((o.faults specifier text).map fun (code, message) => .error code {} message)
  if reports.bag.hasErrors then Run.failed .idle reports FileSet.empty []
  else Run.parse o (o.configuration specifier) specifier text reports

end ScriptLower
