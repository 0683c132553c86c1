import ScriptLower.Build.Stage
import ScriptLower.Disk.Basic
import ScriptLower.Project.Cache
import ScriptLower.Project.Manifest
import ScriptLower.Report.Records

/-!
# Running a build

A build finds its sources, then runs them one by one and writes each output beside where its source
would be in the directory of outputs. A source that fails does not stop the build, but a disk that
fails does. What happens is told in events as it happens.
-/

/-!
## Finding the sources of a build

The sources of a project are the files below its source directory whose names end like scripts, in
the order of their paths. Declarations have no code and are no sources; hidden directories and
installed packages are not looked into, and neither is the output of an earlier build that lies
among the sources.
-/

namespace ScriptLower.Build

open ScriptLower

/-- The endings of declarations. -/
def declarationEndings : List Bytes := [".d.ts", ".d.mts", ".d.cts"].map Bytes.ofString

/-- The endings of scripts. -/
def sourceEndings : List Bytes :=
  [".ts", ".tsx", ".mts", ".cts", ".jsx", ".js", ".mjs", ".cjs"].map Bytes.ofString

/-- Whether a file is a source. -/
def isSource (path : Bytes) : Bool :=
  !(declarationEndings.any (·.isSuffixOf path)) && sourceEndings.contains (Path.ext path)

/-- Whether a directory is not looked into. -/
def isSkipped (name : Bytes) : Bool :=
  name == Bytes.ofString "node_modules" || name.head? == some (ascii '.')

/-- What a build works on. -/
structure Request where
  /-- The directory of the sources. -/
  srcDir : Bytes
  /-- The directory of the outputs. -/
  outDir : Bytes
  /-- The sources, from their directory; when there are none they are looked for. -/
  files : List Bytes := []
  /-- Which of the sources found are left out. -/
  excludes : Bytes → Bool := fun _ => false
  deriving Inhabited

/-- Why the sources were not found. -/
inductive DiscoverFault
  /-- The outputs would stand among the sources. -/
  | outIsSource (dir : Bytes)
  /-- A disk did not do what it was asked. -/
  | disk (e : Disk.Error)
  deriving DecidableEq, Repr, Inhabited

/-- A fault on one line. -/
def DiscoverFault.message : DiscoverFault → Bytes
  | outIsSource dir => "output directory " ++ dir ++ " is the source directory"
  | disk e => e.message

/-- How deep directories may stand in each other: a path on a disk is not longer than this. -/
def maxDepth : Nat := 4096

variable {m : Type → Type} [Monad m] [Disk m]

/-- The files at and below a path, at most `depth` directories deep. -/
def walk : Nat → Bytes → ExceptT Disk.Error m (List Bytes)
  | 0, _ => pure []
  | depth + 1, dir => do
    let names ← Disk.named "open" dir (Disk.list dir)
    names.foldlM (fun (found : List Bytes) name => do
      let path := Path.join [dir, name]
      match ← Disk.named "lstat" path (Disk.kindOf path) with
      | .file => return found ++ [path]
      | .directory => if isSkipped name then return found else return found ++ (← walk depth path))
      []

/-- The files at and below a path, which may be a file itself. -/
def allFiles (dir : Bytes) : ExceptT Disk.Error m (List Bytes) := do
  match ← Disk.named "lstat" dir (Disk.kindOf dir) with
  | .file => return [dir]
  | .directory => walk maxDepth dir

/-- Whether a source is an output of an earlier build among the sources. -/
def isEarlierOutput (r : Request) (rel : Bytes) : Bool :=
  Manifest.isWithin r.srcDir r.outDir && match Path.relative? r.srcDir r.outDir with
    | some out => (out ++ [Path.slash]).isPrefixOf rel
    | none => false

/-- The sources of a build, from their directory. -/
def discover (r : Request) : ExceptT DiscoverFault m (List Bytes) := do
  if Path.clean r.srcDir == Path.clean r.outDir then
    throw (.outIsSource r.outDir)
  else if !r.files.isEmpty then
    return r.files
  else
    let paths ← (allFiles r.srcDir).adapt DiscoverFault.disk
    let rels := (paths.filter isSource).filterMap (Path.relative? r.srcDir)
    return (rels.filter fun rel => !isEarlierOutput r rel && !r.excludes rel).mergeSort Bytes.le

end ScriptLower.Build

/-! ## Runs -/

namespace ScriptLower.Build

open ScriptLower

/-- How a build runs its sources. -/
structure Settings where
  /-- The options of each run. -/
  options : Options := {}
  /-- Where outputs are kept, if they are. -/
  cache : Option Cache := none
  /-- Whether each output carries the times of its run. -/
  timings : Bool := false
  deriving Inhabited

/-- What became of a source. -/
structure BuiltFile where
  /-- Its path from the directory of sources. -/
  rel : Bytes
  /-- Where the output was written; nothing when the run failed. -/
  outPath : Bytes := []
  /-- What the run came to. -/
  output : FileOutput
  deriving Inhabited

/-- What became of a build. -/
structure Result where
  /-- The sources, in order. -/
  files : List BuiltFile := []
  /-- How long it took, in microseconds. -/
  elapsed : Int := 0
  deriving Inhabited

namespace Result

/-- How many sources failed. -/
def failed (r : Result) : Nat := r.files.countP fun f => !f.output.isOk

/-- How many outputs were in the cache. -/
def cached (r : Result) : Nat := r.files.countP fun f => f.output.isOk && f.output.cached

/-- The bytes of all sources. -/
def inputBytes (r : Result) : Nat := (r.files.map (·.output.inputBytes)).foldr (· + ·) 0

/-- The bytes of all outputs. -/
def outputBytes (r : Result) : Nat :=
  ((r.files.filter (·.output.isOk)).map (·.output.code.length)).foldr (· + ·) 0

end Result

/-- Why a build stopped. -/
inductive Fault
  /-- The sources were not found. -/
  | discover (f : DiscoverFault)
  /-- A source could not be read or its output not written. -/
  | file (rel : Bytes) (f : RunFault)
  deriving DecidableEq, Repr, Inhabited

/-- A fault on one line. -/
def Fault.message : Fault → Bytes
  | discover f => f.message
  | file rel f => rel ++ ": " ++ f.message

/-- What was told so far. -/
structure Log where
  /-- The events, in order. -/
  events : List Event := []
  /-- The times of the stages. -/
  times : StageTimes := []
  deriving Inhabited

/-- The work of a build: it tells what it does, and may stop. -/
abbrev Work (m : Type → Type) := ExceptT Fault (StateT Log m)

variable {m : Type → Type} [Monad m] [Disk m] [Clock m]

/-- Tells an event. -/
def tell (e : Event) : Work m Unit := modify fun l => { l with events := l.events ++ [e] }

/-- Adds to the time of a stage. -/
def spend (stage : Stage) (micros : Int) : Work m Unit :=
  modify fun l => { l with times := l.times.add stage micros }

/-- Does something outside the build. -/
def outside (x : m α) : Work m α := ExceptT.lift (StateT.lift x)

/-- The time. -/
def now : Work m Int := outside Clock.now

/-- Does something on the disk. -/
def onDisk (x : ExceptT ε m α) : Work m (Except ε α) := outside x.run

/-- Where the output of a source stands. -/
def outputPath (outDir rel : Bytes) : Bytes := Path.join [outDir, Dialect.outputName rel]

/-- Writes an output, and its map beside it. -/
def writeOutput (path : Bytes) (o : FileOutput) : ExceptT Disk.Error m Unit := do
  Disk.makeDirectories (Path.dir path)
  Disk.write path o.code
  match o.map with
  | some map => Disk.write (path ++ ".map") map
  | none => pure ()

/-- Reads and runs a source. -/
def runFile (r : Request) (s : Settings) (rel : Bytes) : ExceptT RunFault m FileOutput := do
  let content ← (readSource (Path.join [r.srcDir, rel])).adapt RunFault.disk
  transpileCached rel content s.options s.cache

/-- Adds the time of a run to an output, unless it was in the cache. -/
def withTimes (s : Settings) (rel : Bytes) (micros : Int) (o : FileOutput) : FileOutput :=
  if s.timings && !o.cached then
    let total := Float.ofInt micros / 1000
    { o with diagnostics := o.diagnostics ++ [Report.timingDiagnostic "file" rel total (some [])] }
  else o

/-- Builds one source. -/
def buildFile (r : Request) (s : Settings) (rel : Bytes) : Work m BuiltFile := do
  let began ← now
  tell { file := rel, stage := .transpile, status := .working }
  let ran ← onDisk (runFile r s rel)
  let ended ← now
  spend .transpile (ended - began)
  match ran with
  | .error f =>
    tell { file := rel, stage := .transpile, status := .error, error := some f.message }
    throw (.file rel f)
  | .ok out =>
    let out := withTimes s rel (ended - began) out
    match out.failure with
    | some f =>
      tell { file := rel, stage := .transpile, status := .error, error := some f.message }
      return { rel := rel, output := out }
    | none =>
      let path := outputPath r.outDir rel
      tell { file := rel, stage := .write, status := .working }
      let wrote ← onDisk (writeOutput path out)
      spend .write ((← now) - ended)
      match wrote with
      | .error e =>
        tell { file := rel, stage := .write, status := .error, error := some e.message }
        throw (.file rel (.disk e))
      | .ok () =>
        tell { file := rel, stage := .write, status := .done }
        return { rel := rel, outPath := path, output := out }

/-- Builds sources one by one. -/
def buildFiles (r : Request) (s : Settings) : List Bytes → Work m (List BuiltFile)
  | [] => pure []
  | rel :: rest => do
    let f ← buildFile r s rel
    return f :: (← buildFiles r s rest)

/-- Finds the sources. -/
def findFiles (r : Request) : Work m (List Bytes) := do
  let began ← now
  tell { stage := .discover, status := .working }
  let found ← onDisk (discover r)
  spend .discover ((← now) - began)
  match found with
  | .error f =>
    tell { stage := .discover, status := .error, error := some f.message }
    throw (.discover f)
  | .ok files =>
    tell { stage := .discover, status := .done }
    return files

/-- Runs a build. -/
def work (r : Request) (s : Settings) : Work m Result := do
  let files ← findFiles r
  for rel in files do
    tell { file := rel, stage := .transpile, status := .queued }
  let began ← now
  tell { stage := .transpile, status := .working }
  let built ← tryCatch (buildFiles r s files) fun f => do
    tell { stage := .transpile, status := .error, error := some f.message }
    throw f
  for f in built do
    if f.output.isOk && f.output.cached then
      tell { file := f.rel, stage := .write, status := .cached }
  tell { stage := .transpile, status := .done }
  return { files := built, elapsed := (← now) - began }

/-- Runs a build and gives what it told with what became of it. -/
def run (r : Request) (s : Settings) : m (Except Fault Result × Log) := (work r s).run.run {}

end ScriptLower.Build
