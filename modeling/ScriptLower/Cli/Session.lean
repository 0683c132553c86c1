import ScriptLower.Cli.Usage
import ScriptLower.Disk.Basic
import ScriptLower.Trace.Tracer

/-!
# Sessions

A command runs in a session: it knows its environment, its flags and its arguments, and it writes to
two outputs and a log. It may stop for a reason that is still to be told, or after diagnostics that
tell it already. The flags of every command are read when a session opens, in a fixed order, and the
first that makes no sense stops it.
-/

namespace ScriptLower.Cli

open ScriptLower

/-- Where the program runs. -/
structure Environment where
  /-- What can be read from the standard input. -/
  input : Bytes := []
  /-- Where programs keep what they can make again. -/
  cacheHome : Bytes := []
  /-- Whether colours are unwanted. -/
  noColor : Bool := false
  /-- Whether the output is a terminal. -/
  outIsTerminal : Bool := false
  /-- Whether the output for errors is a terminal. -/
  errIsTerminal : Bool := false
  /-- What the program was made with. -/
  toolchain : Bytes := []
  /-- When the program began, in microseconds. -/
  began : Int := 0
  deriving Inhabited

/-- A command as it was called. -/
structure Call where
  /-- Where. -/
  environment : Environment
  /-- Which command. -/
  command : Command
  /-- Its flags and arguments. -/
  parsed : Parsed
  deriving Inhabited

/-- Why a command stopped. -/
inductive Failure
  /-- Diagnostics tell why. -/
  | reported
  /-- For a reason still to be told. -/
  | because (reason : Bytes)
  deriving DecidableEq, Repr, Inhabited

/-- A trace that is being taken. -/
structure Tracing where
  /-- What was traced so far. -/
  tracer : Trace.Tracer := .off
  /-- Where the trace goes. -/
  mode : Trace.Mode := .stream
  /-- How it is written. -/
  format : Trace.Format := .auto
  /-- The file it is written to; the log when it is a hyphen or nothing. -/
  path : Bytes := []
  deriving Inhabited

/-- A server that a command sets up. -/
structure Serving where
  /-- Where it listens. -/
  address : Bytes
  /-- The server. -/
  server : Server.State
  deriving Inhabited

/-- What a command has written and set up. -/
structure Transcript where
  /-- The output. -/
  out : Bytes := []
  /-- The output for errors. -/
  err : Bytes := []
  /-- The log. -/
  log : Bytes := []
  /-- The trace. -/
  tracing : Tracing := {}
  /-- The server, if there is one. -/
  serving : Option Serving := none
  deriving Inhabited

/-- The work of a command. -/
abbrev Work (m : Type → Type) := ExceptT Failure (StateT Transcript m)

variable {m : Type → Type} [Monad m]

/-- Writes to the output. -/
def say (s : Bytes) : Work m Unit := modify fun t => { t with out := t.out ++ s }

/-- Writes to the output for errors. -/
def complain (s : Bytes) : Work m Unit := modify fun t => { t with err := t.err ++ s }

/-- Writes to the log. -/
def logText (s : Bytes) : Work m Unit := modify fun t => { t with log := t.log ++ s }

/-- Stops for a reason. -/
def refuse (reason : Bytes) : Work m α := throw (.because reason)

/-- A result, or a stop for the reason why there is none. -/
def need : Except Bytes α → Work m α
  | .ok a => pure a
  | .error reason => refuse reason

/-- Does something outside, and stops when that fails. -/
def attempt (message : ε → Bytes) (x : ExceptT ε m α) : Work m α := do
  match ← ExceptT.lift (StateT.lift x.run) with
  | .ok a => return a
  | .error e => refuse (message e)

/-- Does something outside that cannot fail. -/
def outside (x : m α) : Work m α := ExceptT.lift (StateT.lift x)

namespace Call

/-- The arguments. -/
def args (c : Call) : List Bytes := c.parsed.args

/-- Whether the output on a terminal, or not, has colours. -/
def hasColor (c : Call) (isTerminal : Bool) : Bool :=
  let wish := c.parsed.text "color" "auto"
  if wish == Bytes.ofString "on" then true
  else if wish == Bytes.ofString "off" then false
  else !c.environment.noColor && isTerminal

/-- Whether the output has colours. -/
def outHasColor (c : Call) : Bool := c.hasColor c.environment.outIsTerminal

/-- Whether the output for errors has colours. -/
def errHasColor (c : Call) : Bool := c.hasColor c.environment.errIsTerminal

/-- Whether only errors are shown. -/
def isQuiet (c : Call) : Bool := c.parsed.truth "quiet"

/-- Whether times are shown. -/
def showsTimes (c : Call) : Bool := c.parsed.truth "timings"

/-- How many diagnostics are kept. -/
def maxDiagnostics (c : Call) : Int := c.parsed.int "max-diagnostics" 100

/-! ## Traces -/

/-- Reads how much is traced. A file for the trace asks for the phases. -/
def traceLevel (c : Call) : Except Bytes Trace.Level := do
  let level ← Trace.Level.parse (c.parsed.text "trace-level" "off")
  let asked := !(c.parsed.text "trace").isEmpty && !c.parsed.has "trace-level"
  return if level == .off && asked then .phase else level

/-- The levels of a log. -/
def logLevels : List Bytes :=
  ["debug", "info", "", "warn", "error", "dpanic", "panic", "fatal"].map Bytes.ofString

/-- Whether the level of the log is one, or why not. -/
def checkLogLevel (c : Call) : Except Bytes Unit :=
  let level := c.parsed.text "log-level" "warn"
  if logLevels.contains (Words.lowerName level) then .ok ()
  else
    .error ("invalid --log-level " ++ Quoted.quote level ++ ": unrecognized level: "
      ++ Quoted.quote (Words.lowerName level))

/-- Whether colours are asked for in a known way, or why not. -/
def checkColor (c : Call) : Except Bytes Unit :=
  let wish := c.parsed.text "color" "auto"
  if (["auto", "on", "off"].map Bytes.ofString).contains wish then .ok ()
  else .error ("invalid --color value " ++ Quoted.quote wish ++ " (expected auto|on|off)")

/-- A tracer of a mode; what goes to the log is not kept. -/
def tracer (c : Call) (level : Trace.Level) (mode : Trace.Mode) : Trace.Tracer :=
  match Trace.Tracer.new level mode (c.parsed.int "trace-ring-size" 4096) with
  | .ok t => t
  | .error _ => { level := level }

/-- Reads the flags about the trace and the log. -/
def tracing (c : Call) : Except Bytes Tracing := do
  c.checkColor
  let level ← c.traceLevel
  let mode ← Trace.Mode.parse (c.parsed.text "trace-mode" "stream")
  let format ← Trace.Format.parse (c.parsed.text "trace-format" "auto")
  c.checkLogLevel
  let path := c.parsed.text "trace"
  return { tracer := c.tracer level mode, mode := mode, format := format.resolve path
           path := path }

end Call

namespace Tracing

/-- Whether the trace is written to a file. -/
def hasFile (t : Tracing) : Bool :=
  t.tracer.written.isSome && !t.path.isEmpty && t.path != Bytes.ofString "-"

end Tracing

/-- Adds events to the trace. -/
def traceEvents (es : List Trace.Event) : Work m Unit :=
  modify fun t => { t with tracing := { t.tracing with tracer := t.tracing.tracer.emitAll es } }

variable [Disk m]

/-- Makes an empty file for a profile, if there is to be one. -/
def makeProfile (what path : Bytes) : Work m Unit := do
  if !path.isEmpty then
    attempt (fun (e : Disk.Error) => what ++ ": " ++ e.message) (Disk.write path [])

/-- Opens a session. -/
def openSession (c : Call) : Work m Unit := do
  let tracing ← need c.tracing
  if tracing.hasFile then
    attempt (fun (e : Disk.Error) => "failed to open trace output: " ++ e.message)
      (Disk.write tracing.path [])
  modify fun t => { t with tracing := tracing }
  makeProfile "cpu profile" (c.parsed.text "cpu-profile")
  makeProfile "runtime trace" (c.parsed.text "runtime-trace")

/-- Closes a session: what is left of the trace is written out. The last events are told when a
command failed. -/
def closeSession (e : Environment) (failed : Bool) (t : Transcript) : m Transcript := do
  let tracing := t.tracing
  let told : Bytes := match tracing.tracer.ring with
    | some ring =>
      if failed && tracing.mode == .ring then
        "trace: last " ++ Bytes.ofNat ring.size ++ " events\n"
          ++ Trace.write .text e.began ring.toList
      else []
    | none => []
  let stream := tracing.tracer.streamText tracing.format e.began
  if tracing.hasFile then
    let _ ← Disk.writeFile tracing.path stream
    return { t with log := t.log ++ told }
  else return { t with log := t.log ++ told ++ stream }

end ScriptLower.Cli

/-!
## Options from flags

The flags of a run are laid over options that may come from a project. A flag that is not given
leaves its option as it is.
-/

namespace ScriptLower.Cli

open ScriptLower

/-- A value of a flag read by a function that says why it refuses; the value it had when the flag is
not given. -/
def overlay (p : Parsed) (name : String) (read : Bytes → Except Bytes α) (other : α) :
    Except Bytes α :=
  if p.has name then
    match read (p.text name) with
    | .ok a => .ok a
    | .error e => .error ("--" ++ Bytes.ofString name ++ ": " ++ e)
  else .ok other

/-- A definition on the command line: a name and an expression with an equals sign between them. -/
def readDefine (s : Bytes) : Except Bytes (Bytes × Bytes) :=
  let shown : Bytes := "--define " ++ Quoted.quote s
  match Bytes.cut? "=" s with
  | none => .error (shown ++ ": expected NAME=EXPR")
  | some (name, value) =>
    let name := Words.trim name
    if name.isEmpty then .error (shown ++ ": expected NAME=EXPR")
    else if (Words.trim value).isEmpty then .error (shown ++ ": empty expression")
    else .ok (name, value)

/-- Definitions with another added; it takes the place of one with the same name. -/
def define (defines : List (Bytes × Bytes)) (d : Bytes × Bytes) : List (Bytes × Bytes) :=
  defines.filter (·.1 != d.1) ++ [d]

namespace Call

/-- The options of a run: those of the flags over others. -/
def options (c : Call) (base : ScriptLower.Options) : Except Bytes ScriptLower.Options := do
  let p := c.parsed
  let runtime ← overlay p "jsx" Runtime.parse base.elements.runtime
  let target ← overlay p "target" Target.parse base.target
  let sourceMap ← overlay p "source-map" MapMode.parse base.sourceMap
  let dialect ← overlay p "syntax" Dialect.parse base.dialect
  let defines ← (p.texts "define").mapM readDefine
  let elements : ElementOptions :=
    { runtime := runtime
      importSource := p.text "jsx-import-source" base.elements.importSource
      factory := p.text "jsx-factory" base.elements.factory
      fragment := p.text "jsx-fragment" base.elements.fragment
      development := p.truth "dev" base.elements.development }
  return {
    elements := elements
    minify := p.truth "minify" base.minify
    dialect := dialect
    target := target
    asciiOnly := p.truth "ascii-only" base.asciiOnly
    sourceMap := sourceMap
    decorators := p.truth "decorators" base.decorators
    strictEarlyErrors := p.truth "strict" base.strictEarlyErrors
    captureTokens := base.captureTokens
    stripConditionals := base.stripConditionals ++ p.texts "strip"
    defines := defines.foldl define base.defines
    preserveImports := p.truth "preserve-imports" base.preserveImports
    maxDiagnostics := c.maxDiagnostics }

end Call

end ScriptLower.Cli
