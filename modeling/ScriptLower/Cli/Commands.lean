import ScriptLower.Build.Run
import ScriptLower.Cli.Session
import ScriptLower.Parse.Program
import ScriptLower.Project.Cache
import ScriptLower.Project.Manifest
import ScriptLower.Report.Listing
import ScriptLower.Report.Records
import ScriptLower.Report.Text
import ScriptLower.Trace.Tracer

/-!
# What the commands do

Each command is a function of a session: it reads its options, works on sources or on a project, and
shows its diagnostics on the output for errors.
-/

/-!
## Showing diagnostics

A command shows its diagnostics on the output for errors, in the format it is asked for. A quiet
command shows errors only.
-/

namespace ScriptLower.Cli

open ScriptLower

/-- How diagnostics are written. -/
inductive DiagnosticFormat
  /-- For people, with the lines they are about. -/
  | pretty
  /-- One line each. -/
  | short
  /-- For programs. -/
  | json
  /-- For tools that collect results of analyses. -/
  | sarif
  deriving DecidableEq, Repr, Inhabited

/-- Reads the name of a format, in any case. -/
def DiagnosticFormat.parse (s : Bytes) : Except Bytes DiagnosticFormat :=
  let known : List (Bytes × DiagnosticFormat) := [
    ("", pretty), ("pretty", pretty), ("json", json), ("sarif", sarif), ("short", short)]
  match known.lookup (Words.lowerName (Words.trim s)) with
  | some f => .ok f
  | none =>
    .error ("invalid --diagnostics-format " ++ Quoted.quote s
      ++ " (expected pretty|short|json|sarif)")

/-- Writes diagnostics. -/
structure Printer where
  /-- The format. -/
  format : DiagnosticFormat := .pretty
  /-- How they are shown to people. -/
  options : Report.PrettyOptions := {}
  /-- Whether only errors are shown. -/
  quiet : Bool := false
  /-- The command and its arguments. -/
  arguments : List Bytes := []
  deriving Inhabited

/-- The printer of a command. A command without the flag for notes shows none. -/
def Call.printer (c : Call) : Except Bytes Printer := do
  let format ← DiagnosticFormat.parse (c.parsed.text "diagnostics-format")
  let hasNotes := c.command.ownFlags.any (·.name == "notes")
  return {
    format := format
    options :=
      { color := c.errHasColor, context := (c.parsed.int "context").toNat
        notes := c.parsed.truth "notes" hasNotes }
    quiet := c.isQuiet
    arguments := c.command.fullName :: c.args }

namespace Printer

/-- The diagnostics as they are written. -/
def text (p : Printer) (files : FileSet) (ds : List Diagnostic) : Bytes :=
  let ds := if p.quiet then ds.filter Diagnostic.isError else ds
  match p.format with
  | .pretty => Report.pretty p.options (some files) ds
  | .short => Report.short (some files) p.options.notes ds
  | .json =>
    Report.json { positions := true, pathMode := .relative, notes := p.options.notes }
      (some files) ds
  | .sarif =>
    Report.sarif { name := programName, version := versionText, arguments := p.arguments }
      (some files) ds

/-- Shows diagnostics. -/
def report {m : Type → Type} [Monad m] (p : Printer) (files : FileSet) (ds : List Diagnostic) :
    Work m Unit :=
  complain (p.text files ds)

end Printer

end ScriptLower.Cli

/-!
## Commands that begin and clean projects

A project begins with a manifest and one source. Cleaning removes its outputs, but never the project
itself or its sources.
-/

namespace ScriptLower.Cli

open ScriptLower

/-! ## Beginning -/

/-- Whether a byte may stand in the name of a package. -/
def isNameByte (b : UInt8) : Bool :=
  (97 ≤ b && b ≤ 122) || Bytes.isDigit b || b == ascii '.' || b == ascii '_' || b == ascii '-'

/-- A text in which each run of bytes that may not stand in a name is one hyphen. -/
def hyphenate : Bytes → Bytes
  | [] => []
  | b :: r =>
    if isNameByte b then b :: hyphenate r
    else if r.head?.any (!isNameByte ·) then hyphenate r
    else ascii '-' :: hyphenate r

/-- The name of a package in a directory. -/
def packageName (dir : Bytes) : Bytes :=
  let atEnd (b : UInt8) : Bool := b == ascii '-' || b == ascii '.'
  let name := hyphenate (Words.lowerName (Words.trim (Path.base dir)))
  let name := Bytes.trimRight atEnd (Bytes.trimLeft atEnd name)
  if name.isEmpty then "mesozoic-project" else name

/-- The manifest of a new project. -/
def manifestTemplate (name : Bytes) : Bytes :=
  "[package]\nname = " ++ Quoted.quote name ++ "\n\n[build]\nsrc = \"src\"\nout = \"dist\"\n"
    ++ "target = \"es2022\"\nsource_map = \"separate\"\n\n[jsx]\nruntime = \"automatic\"\n"
    ++ "import_source = \"react\"\n"

/-- The first source of a project. -/
def scriptTemplate : Bytes :=
  "export interface Greeting \x7b\n  name: string;\n\x7d\n\nexport function greet(\x7b name \x7d: "
    ++ "Greeting): string \x7b\n  return `hello, $\x7bname\x7d`;\n\x7d\n"

/-- The first source of a project with elements. -/
def elementTemplate : Bytes :=
  "type Props = \x7b name: string \x7d;\n\nexport function App(\x7b name \x7d: Props) \x7b\n"
    ++ "  return <h1>hello, \x7bname\x7d</h1>;\n\x7d\n"

variable {m : Type → Type} [Monad m] [Disk m]

/-- Makes sure that a directory is there. -/
def needDirectory (dir : Bytes) : Work m Unit := do
  match ← outside (Disk.kindOf dir) with
  | .ok .directory => return
  | .ok .file => refuse (Quoted.quote dir ++ " is not a directory")
  | .error .missing =>
    attempt (fun (e : Disk.Error) =>
      "failed to create directory " ++ Quoted.quote dir ++ ": " ++ e.message)
      (Disk.makeDirectories dir)
  | .error r => refuse (Disk.Error.mk "stat" dir r).message

/-- Whether something stands at a path. -/
def isThere (path : Bytes) : Work m Bool := return (← outside (Disk.kindOf path)).isOk

/-- Begins a project. -/
def initAction (c : Call) : Work m Unit := do
  let dir := Path.absolute (← outside Disk.workDir) (c.args.headD ".")
  needDirectory dir
  let manifest := Path.join [dir, manifestName]
  if ← isThere manifest then
    refuse ("project already initialized: " ++ manifest ++ " exists")
  let (name, body) : Bytes × Bytes :=
    if c.parsed.truth "jsx" then ("index.tsx", elementTemplate) else ("index.ts", scriptTemplate)
  let entry := Path.join [dir, "src", name]
  if ← isThere entry then
    refuse ("refusing to overwrite " ++ entry)
  attempt Disk.Error.message do
    Disk.write manifest (manifestTemplate (packageName dir))
    Disk.makeDirectories (Path.dir entry)
    Disk.write entry body
  say ("created " ++ manifest ++ "\ncreated " ++ entry ++ "\n")

/-! ## Cleaning -/

/-- The manifest of the project that a directory belongs to, if there is one. -/
def findManifest (dir : Bytes) : Work m (Option Manifest) := do
  match ← outside (Manifest.find? (if dir.isEmpty then [46] else dir)) with
  | .error e => refuse ("failed to stat " ++ Quoted.quote e.path ++ ": " ++ e.message)
  | .ok none => return none
  | .ok (some path) =>
    let text ← attempt (fun (e : Disk.Error) => path ++ ": failed to parse TOML: " ++ e.message)
      (Disk.read path)
    match Manifest.parse path text with
    | .ok manifest => return some manifest
    | .error f => refuse f.message

/-- A result about a project, or a stop. -/
def needOf : Except Manifest.Fault α → Work m α
  | .ok a => pure a
  | .error f => refuse f.message

/-- The cache that flags ask for. -/
def openCache (c : Call) : ExceptT Disk.Error m Cache :=
  let dir := c.parsed.text "cache-dir"
  Cache.openAt (if dir.isEmpty then Path.join [c.environment.cacheHome, programName] else dir)

/-- Removes the outputs of a project. -/
def removeOutputs (manifest : Manifest) : Work m Unit := do
  let out ← needOf manifest.outDirectory
  if Path.clean out == Path.clean manifest.root then
    refuse ("refusing to remove project root " ++ out)
  match ← outside manifest.sourceDirectory with
  | .ok src =>
    if Path.clean src == Path.clean out then
      refuse ("refusing to remove source directory " ++ out)
  | .error _ => pure ()
  match ← outside (Disk.kindOf out) with
  | .error .missing => say (out ++ " not found\n")
  | .error r =>
    refuse ("failed to stat " ++ Quoted.quote out ++ ": " ++ (Disk.Error.mk "stat" out r).message)
  | .ok _ =>
    attempt (fun (e : Disk.Error) => "failed to remove " ++ Quoted.quote out ++ ": " ++ e.message)
      (Disk.named "unlinkat" out (Disk.removeTree out))
    say ("removed " ++ out ++ "\n")

/-- Removes the outputs of a project, and the cache if that is asked for. -/
def cleanAction (c : Call) : Work m Unit := do
  let dir := c.args.headD "."
  let manifest ← findManifest dir
  match manifest with
  | some manifest => removeOutputs manifest
  | none => pure ()
  if c.parsed.truth "cache" then
    let cache ← attempt Disk.Error.message (openCache c)
    attempt Disk.Error.message cache.dropAll
    say ("dropped cache " ++ cache.dir ++ "\n")
  else if manifest.isNone then
    refuse ("no " ++ manifestName ++ " found in " ++ dir ++ " or its parents")

end ScriptLower.Cli

/-!
## Commands that run sources

One command runs a source and writes its code; another runs each source and then its output, and
says whether the two agree.
-/

namespace ScriptLower.Cli

open ScriptLower

variable {m : Type → Type} [Monad m] [Disk m] [Clock m]

/-- The name and the text of the source to run. -/
def readInput (c : Call) (path : Bytes) : Work m (Bytes × Bytes) := do
  if path == [45] then
    return (c.parsed.text "specifier" "stdin.ts", (Decode.decode c.environment.input).text)
  else return (path, ← attempt Disk.Error.message (readSource path))

/-- Where the map of an output stands: beside it, under the name that the code gives. -/
def mapPath (out specifier : Bytes) : Bytes :=
  Path.join [Path.dir out, Path.base (Dialect.outputName specifier) ++ ".map"]

/-- Writes an output to a file, and its map beside it. -/
def writeFiles (path : Bytes) (o : FileOutput) : Work m Unit :=
  attempt Disk.Error.message do
    let dir := Path.dir path
    if dir != [46] then
      Disk.makeDirectories dir
    Disk.write path o.code
    match o.map with
    | some map => Disk.write (mapPath path o.specifier) map
    | none => pure ()

/-- Runs a source, adds the run to the trace and shows its diagnostics and times. -/
def runSource (c : Call) (o : ScriptLower.Options) (p : Printer) (specifier content : Bytes) :
    Work m FileOutput := do
  let began ← outside Clock.now
  let run := transpile specifier content o
  let output := FileOutput.ofRun specifier content run
  let ended ← outside Clock.now
  traceEvents (Trace.runEvents began specifier run)
  p.report output.files output.diagnostics
  if c.showsTimes then
    complain (Report.timeTable (Report.phaseTimes run []) (Float.ofInt (ended - began) / 1000))
  return output

/-- Runs one source and writes its code. -/
def transpileAction (c : Call) : Work m Unit := do
  let o ← need (c.options {})
  let printer ← need c.printer
  let out := c.parsed.text "output"
  if o.sourceMap == .separate && out.isEmpty then
    refuse "--source-map=separate needs --output"
  let (specifier, content) ← readInput c (c.args.headD [])
  let output ← runSource c o printer specifier content
  if !output.isOk then
    throw .reported
  else if out.isEmpty then say output.code
  else writeFiles out output

/-! ## Stability -/

/-- A line of a difference in its colour. -/
def diffLine (color : Bool) (line : Bytes) : Bytes :=
  match line with
  | 45 :: _ => Report.styled color [.red] line
  | 43 :: _ => Report.styled color [.green] line
  | _ => line

/-- A difference with its lines in colour. -/
def diffText (color : Bool) (diff : Bytes) : Bytes :=
  let lines := Bytes.splitOn 10 diff
  (lines.dropLast.map (· ++ [10]) ++ lines.getLast?.toList.filter (!·.isEmpty)).flatMap
    (diffLine color)

/-- How many sources failed and how many outputs are not stable. -/
structure CheckCount where
  /-- Sources that failed. -/
  failed : Nat := 0
  /-- Outputs that are not stable. -/
  unstable : Nat := 0
  deriving DecidableEq, Repr, Inhabited

/-- Checks one source. -/
def checkFile (c : Call) (o : ScriptLower.Options) (p : Printer) (n : CheckCount) (path : Bytes) :
    Work m CheckCount := do
  let content ← attempt Disk.Error.message (readSource path)
  let now ← outside Clock.now
  traceEvents (Trace.runEvents now path (transpile path content { o with sourceMap := .none }))
  let r := checkRoundTrip path content o
  if !r.first.isOk then
    p.report r.first.files r.first.diagnostics
    return { n with failed := n.failed + 1 }
  else if r.stable then
    if !c.isQuiet then
      say (path ++ ": ok\n")
    return n
  else
    match r.second.filter (!·.isOk) with
    | some second =>
      say (path ++ ": output does not transpile again\n")
      p.report second.files second.diagnostics
    | none =>
      say (path ++ ": output changed when transpiled again\n")
      say (diffText c.outHasColor r.diff)
    return { n with unstable := n.unstable + 1 }

/-- Checks that outputs are stable. -/
def checkAction (c : Call) : Work m Unit := do
  let o ← need (c.options {})
  let printer ← need c.printer
  let n ← c.args.foldlM (checkFile c o printer) {}
  if 0 < n.failed + n.unstable then
    refuse (Bytes.ofNat n.failed ++ " failed, " ++ Bytes.ofNat n.unstable ++ " unstable of "
      ++ Bytes.ofNat c.args.length ++ " files")

end ScriptLower.Cli

/-!
## Commands that show sources

A source can be shown as its tokens or as its tree, without being run.
-/

namespace ScriptLower.Cli

open ScriptLower

/-- A source that was read into a tree. -/
structure Inspection where
  /-- The files. -/
  files : FileSet
  /-- The source. -/
  file : SourceFile
  /-- The tree; none when there are errors. -/
  tree : Option Node := none
  /-- The tokens that the tree was read from. -/
  tokens : List Token := []
  /-- What was found. -/
  bag : Bag

variable {m : Type → Type} [Monad m] [Disk m]

/-- Reads a source into a tree. -/
def inspect (c : Call) (path : Bytes) (asked : Dialect) (decorators capture : Bool) :
    Work m Inspection := do
  let content ← attempt Disk.Error.message (readSource path)
  let workDir ← outside Disk.workDir
  let (files, file) := FileSet.add { workDir := workDir } path content false
  match Dialect.resolve path asked with
  | .error message =>
    let conflict : Diagnostic :=
      { severity := .error, code := Code.dialectConflict, message := message, primary := {} }
    return { files := files, file := file, bag := (Bag.new c.maxDiagnostics).add conflict }
  | .ok dialect =>
    let reports := Reports.new c.maxDiagnostics
    let r := Parse.parseFile file
      { grammar := { Grammar.ofDialect dialect with decorators := decorators }
        capture := capture, maxErrors := reports.bag.limit }
    return {
      files := files
      file := file
      tree := r.tree
      tokens := r.tokens
      bag := (reports.reportAll r.reports).bag }

/-- Reads which of two formats is asked for: whether it is the second. -/
def readFormat (c : Call) (first second : String) : Except Bytes Bool :=
  let format := c.parsed.text "format" first
  if format == Bytes.ofString first then .ok false
  else if format == Bytes.ofString second then .ok true
  else
    .error ("unsupported format " ++ Quoted.quote format ++ " (must be " ++ Bytes.ofString first
      ++ " or " ++ Bytes.ofString second ++ ")")

/-- Lists the tokens of a source. Where it cannot be read into a tree the tokens are those found
without one. -/
def tokenizeAction (c : Call) : Work m Unit := do
  let json ← need (readFormat c "pretty" "json")
  let printer ← need c.printer
  let i ← inspect c (c.args.headD []) .none false true
  let tokens := if i.tree.isSome then i.tokens else (Lexer.tokens i.file false false).1
  say (if json then Token.jsonText i.file tokens else Token.listing i.file tokens)
  printer.report i.files i.bag.items
  if i.bag.hasErrors then
    throw .reported

/-- Shows the tree of a source. -/
def parseAction (c : Call) : Work m Unit := do
  let json ← need (readFormat c "tree" "json")
  let dialect ← match Dialect.parse (c.parsed.text "syntax") with
    | .ok d => pure d
    | .error e => refuse ("--syntax: " ++ e)
  let printer ← need c.printer
  let i ← inspect c (c.args.headD []) dialect (c.parsed.truth "decorators") false
  printer.report i.files i.bag.items
  match i.tree with
  | none => throw .reported
  | some tree => say (if json then tree.jsonText (some i.file) else tree.dump (some i.file))

end ScriptLower.Cli

/-!
## The command that builds a project

A build takes its options from the manifest, with those of the flags over them, shows the
diagnostics of each source and ends with one line that sums it up.
-/

namespace ScriptLower.Cli

open ScriptLower

/-! ## Sizes -/

/-- The units of sizes, each a thousand times the one before. -/
def sizeUnits : List String := ["B", "kB", "MB", "GB", "TB", "PB", "EB"]

/-- How often a size can be divided by a thousand, at most `limit` times. -/
def thousands : Nat → Nat → Nat
  | 0, _ => 0
  | limit + 1, n => if n < 1000 then 0 else thousands limit (n / 1000) + 1

/-- A size as people say it: two digits or more, in the unit that fits. -/
def sizeText (n : Nat) : Bytes :=
  if n < 10 then Bytes.ofNat n ++ " B"
  else
    let e := thousands (sizeUnits.length - 1) n
    let tenths := (Float.ofNat n / Float.ofNat (Nat.pow 10 (3 * e)) * 10 + 0.5).floor
    let value := tenths / 10
    Fixed.text (if value < 10 then 1 else 0) value ++ " " ++ Bytes.ofString (sizeUnits.getD e "B")

/-- A time in microseconds, to the millisecond. -/
def elapsedText (micros : Int) : Bytes := Scalar.duration ((micros.toNat + 500) / 1000 * 1000000)

/-! ## The command -/

/-- Reads whether progress is shown while the build runs. -/
def checkProgress (s : Bytes) : Except Bytes Unit :=
  if (["", "auto", "on", "off"].map Bytes.ofString).contains (Words.trim (Words.lowerName s)) then
    .ok ()
  else .error ("invalid --ui value " ++ Quoted.quote s ++ " (expected auto|on|off)")

/-- The line that sums a build up. -/
def summary (r : Build.Result) : Bytes :=
  "built " ++ Bytes.ofNat r.files.length ++ " files (" ++ Bytes.ofNat r.cached ++ " cached, "
    ++ Bytes.ofNat r.failed ++ " failed) " ++ sizeText r.inputBytes ++ " -> "
    ++ sizeText r.outputBytes ++ " in " ++ elapsedText r.elapsed ++ "\n"

variable {m : Type → Type} [Monad m] [Disk m] [Clock m]

/-- What a build works on. -/
def buildRequest (c : Call) (manifest : Manifest) : Work m Build.Request := do
  let src ← needOf (← outside manifest.sourceDirectory)
  let out ← needOf manifest.outDirectory
  let workDir ← outside Disk.workDir
  let asked := c.parsed.text "out"
  let out := if asked.isEmpty then out else Path.absolute workDir asked
  return { srcDir := src, outDir := out, excludes := manifest.excludes }

/-- The cache of a build. One that cannot be opened only costs time. -/
def buildCache (c : Call) : Work m (Option Cache) := do
  if c.parsed.truth "no-cache" then return none
  else return (← outside (openCache c).run).toOption

/-- Builds a project. -/
def buildAction (c : Call) : Work m Unit := do
  need (checkProgress (c.parsed.text "ui" "auto"))
  let dir := c.args.headD "."
  let some manifest ← findManifest dir
    | refuse ("no " ++ manifestName ++ " found in " ++ dir ++
        " or its parents (run \"mesozoic init\")")
  let options ← need (c.options (← needOf manifest.options))
  let request ← buildRequest c manifest
  let cache ← buildCache c
  let files ← attempt Build.DiscoverFault.message (Build.discover request)
  let (result, log) ← outside (Build.run { request with files := files }
    { options := options, cache := cache, timings := c.showsTimes })
  let result ← need (result.mapError Build.Fault.message)
  let printer ← need c.printer
  for f in result.files do
    printer.report f.output.files f.output.diagnostics
  if !c.isQuiet then
    say (summary result)
  if c.showsTimes then
    complain (log.times.table ++ "\n")
  if 0 < result.failed then
    refuse (Bytes.ofNat result.failed ++ " of " ++ Bytes.ofNat result.files.length ++
      " files failed")

end ScriptLower.Cli
