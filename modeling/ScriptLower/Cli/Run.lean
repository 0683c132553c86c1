import ScriptLower.Cli.Commands
import ScriptLower.Cli.Session
import ScriptLower.Report.Text
import ScriptLower.Text.Json

/-!
# The command line

A run of the program finds its command, reads the flags, and then either explains the command, tells
the version or does what the command does. What went wrong stands on the last line of the output for
errors, unless diagnostics tell it.
-/

/-!
## The version of the program

A version is three numbers with dots between them, and perhaps a suffix. In colour each number has
one of its own.
-/

namespace ScriptLower.Cli

open ScriptLower JsonValue

/-- A version in colour; whatever is no version stays as it is. -/
def coloredVersion (color : Bool) (version : Bytes) : Bytes :=
  let core := version.takeWhile fun b => b != ascii '-' && b != ascii '+'
  match Bytes.splitOn (ascii '.') core with
  | [major, minor, patch] =>
    Report.styled color [.yellow, .bold] major ++ "." ++ Report.styled color [.green, .bold] minor
      ++ "." ++ Report.styled color [.blue, .bold] patch ++ version.drop core.length
  | _ => version

/-- What stands for something that was not recorded. -/
def unrecorded : Bytes := "unknown"

/-- The words about the program. -/
def tagline : Bytes := "types go extinct, javascript survives"

/-- Which of the facts about the program are told. -/
structure Facts where
  /-- The state it was made from. -/
  hash : Bool
  /-- What was said of that state. -/
  message : Bool
  /-- When it was made. -/
  date : Bool

/-- The facts that flags ask for. -/
def Call.facts (c : Call) : Facts :=
  let full := c.parsed.truth "full"
  { hash := c.parsed.truth "hash" || full
    message := c.parsed.truth "message" || full
    date := c.parsed.truth "date" || full }

/-- The version for people. -/
def versionLines (c : Call) : Bytes :=
  let line (asked : Bool) (label : Bytes) : Bytes :=
    if asked then label ++ unrecorded ++ "\n" else []
  let f := c.facts
  Bytes.ofString programName ++ " " ++ coloredVersion c.outHasColor versionText ++ " ("
    ++ c.environment.toolchain ++ "): " ++ tagline ++ "\n"
    ++ line f.hash "commit:  " ++ line f.message "message: " ++ line f.date "built:   "

/-- The version for programs. -/
def versionDocument (c : Call) : Bytes :=
  let f := c.facts
  let told (asked : Bool) : Option JsonValue := if asked then some (str unrecorded) else none
  (members [
    ("tool", some (str programName)),
    ("version", some (str versionText)),
    ("go", some (str c.environment.toolchain)),
    ("git_commit", told f.hash),
    ("git_message", told f.message),
    ("build_date", told f.date)]).document

/-- Tells the version. -/
def versionAction {m : Type → Type} [Monad m] (c : Call) : Work m Unit :=
  let format := c.parsed.text "format" "pretty"
  let asked := Words.lowerName format
  if asked == Bytes.ofString "json" then say (versionDocument c)
  else if asked == Bytes.ofString "pretty" then say (versionLines c)
  else refuse ("unsupported format " ++ Quoted.quote format ++ " (must be pretty or json)")

end ScriptLower.Cli

/-! ## Runs -/

namespace ScriptLower.Cli

open ScriptLower

/-- What a run of the program came to. -/
structure Outcome where
  /-- What it wrote and set up. -/
  transcript : Transcript := {}
  /-- Whether it did what it was asked. -/
  ok : Bool := true
  deriving Inhabited

/-- The exit code of a run. -/
def Outcome.exitCode (o : Outcome) : Nat := if o.ok then 0 else 1

/-- A word between quotes that need no escapes, where that is possible. -/
def quoteTopic (s : Bytes) : Bytes :=
  if s.all fun b => (32 ≤ b || b == 9) && b != 0x7F && b != ascii '`' then
    ascii '`' :: s ++ [ascii '`']
  else Quoted.quote s

variable {m : Type → Type} [Monad m]

/-- Explains a command, named by words. -/
def helpAction (c : Call) : Work m Unit :=
  match findCommand commands c.args with
  | .ok (command, _) => say (command.help commands)
  | .error _ =>
    say ("Unknown help topic [" ++ Bytes.join " " (c.args.map quoteTopic) ++ "]\n"
      ++ program.usage commands)

/-- Sets up a server. -/
def serveAction (c : Call) : Work m Unit := do
  let o ← need (c.options {})
  let address := c.parsed.text "addr" ":8080"
  let server := Server.State.new o (c.parsed.int "max-body" Server.defaultMaxBody)
    (c.parsed.int "memo") versionText
  complain ("listening on " ++ address ++ "\n")
  modify fun t => { t with serving := some { address := address, server := server } }

variable [Disk m] [Clock m]

/-- Does what a command does. -/
def act (c : Call) : Action → Work m Unit
  | .transpile => transpileAction c
  | .build => buildAction c
  | .check => checkAction c
  | .tokenize => tokenizeAction c
  | .parse => parseAction c
  | .serve => serveAction c
  | .version => versionAction c
  | .init => initAction c
  | .clean => cleanAction c
  | .help => helpAction c
  | .completion shell => refuse ("no completion script for " ++ Bytes.ofString shell)

/-- Runs a command that was found, with the arguments that are left. -/
def runCommand (e : Environment) (command : Command) (args : List Bytes) : Work m Unit := do
  let parsed ← need (parseArgs command.flags args)
  let explain := say (command.help commands)
  if parsed.truth "help" then explain
  else if command.isProgram && parsed.truth "version" then
    say (Bytes.ofString programName ++ " version " ++ Bytes.ofString versionText ++ "\n")
  else
    match command.action with
    | none => explain
    | some action =>
      match command.arity.fault? command.fullName parsed.args with
      | some fault => refuse fault
      | none =>
        let call : Call := { environment := e, command := command, parsed := parsed }
        openSession call
        act call action

/-- Finds and runs the command of a command line. -/
def runLine (e : Environment) (args : List Bytes) : Work m Unit := do
  let (command, rest) ← need (findCommand commands args)
  runCommand e command rest

/-- Runs the program. -/
def run (e : Environment) (args : List Bytes) : m Outcome := do
  let (result, transcript) ← (runLine e args).run.run {}
  let transcript ← closeSession e (!result.isOk) transcript
  match result with
  | .ok () => return { transcript := transcript }
  | .error .reported => return { transcript := transcript, ok := false }
  | .error (.because reason) =>
    return {
      transcript := { transcript with err := transcript.err ++ "error: " ++ reason ++ "\n" }
      ok := false }

end ScriptLower.Cli
