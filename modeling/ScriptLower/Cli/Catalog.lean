import ScriptLower.Cli.Command
import ScriptLower.Lower.Options
import ScriptLower.Server.Handler

/-!
# The commands of the program

Every command with its flags, as the program knows them.
-/

namespace ScriptLower.Cli

open ScriptLower

/-- The version of the program. -/
def versionText : String := "0.1.0-dev"

/-- The flags of every command. -/
def globalFlags : List Flag := [
  .string "color" "auto" "colorize output (auto|on|off)",
  .switch "quiet" "suppress warnings and summaries",
  .switch "timings" "show phase timings",
  .number "max-diagnostics" 100 "maximum number of diagnostics to collect per file",
  .string "log-level" "warn" "operational log level (debug|info|warn|error)",
  .string "trace" "" "write trace events to file (\"-\" for stderr)",
  .string "trace-level" "off" "trace level (off|error|phase|detail|debug)",
  .string "trace-mode" "stream" "trace storage (stream|ring|both|zap)",
  .string "trace-format" "auto" "trace format (auto|text|ndjson|chrome)",
  .number "trace-ring-size" 4096 "events kept by the ring tracer",
  .duration "trace-heartbeat" "emit a heartbeat event at this interval (0 disables)",
  .string "cpu-profile" "" "write a CPU profile to file",
  .string "mem-profile" "" "write a heap profile to file on exit",
  .string "runtime-trace" "" "write a Go runtime trace to file"]

/-- The flag that forces a dialect. -/
def syntaxFlag : Flag := .string "syntax" "" "force the input dialect (ts|tsx|jsx|js|dts)"

/-- The flag that accepts decorators. -/
def decoratorsFlag : Flag := .switch "decorators" "accept legacy decorators"

/-- The flags that say how a source is run. -/
def runFlags : List Flag := [
  .string "jsx" "automatic" "JSX runtime (automatic|classic)",
  .string "jsx-import-source" "" "package providing jsx-runtime (automatic runtime)",
  .string "jsx-factory" "" "element factory for the classic runtime",
  .string "jsx-fragment" "" "fragment factory for the classic runtime",
  .switch "dev" "emit jsxDEV calls with source locations",
  .switch "minify" "print without optional whitespace",
  .switch "ascii-only" "escape non-ASCII characters in the output",
  .string "target" "es2022" "language level of the output (es2015..es2022|esnext)",
  .string "source-map" "none" "source map mode (none|separate|inline)",
  syntaxFlag,
  .strings "strip" "remove if-blocks guarded by this condition (repeatable)",
  .strings "define" "replace a global with an expression, NAME=EXPR (repeatable)",
  decoratorsFlag,
  .switch "strict" "report early errors the parser would otherwise tolerate",
  .switch "preserve-imports" "keep imports whose bindings are only used as types"]

/-- The flags that say how diagnostics are shown. -/
def diagnosticFlags : List Flag := [
  .string "diagnostics-format" "pretty" "diagnostics output (pretty|short|json|sarif)",
  { name := "context", kind := .int8, default := .int 0
    usage := "source lines shown above each diagnostic" },
  { name := "notes", kind := .truth, default := .truth true, usage := "print diagnostic notes" }]

/-- The flag that says where outputs are kept. -/
def cacheDirFlag : Flag :=
  .string "cache-dir" "" "disk cache location (default $XDG_CACHE_HOME/mesozoic)"

/-- The program itself. -/
def program : Command where
  path := []
  short := "TypeScript and JSX to JavaScript transpiler"
  long := "mesozoic strips TypeScript types, lowers JSX and newer syntax, and prints\n"
    ++ "JavaScript, one file at a time or for a whole project described by mesozoic.toml."
  ownFlags := [{ Flag.switch "version" "version for mesozoic" with letter := some 'v' }]

/-- Runs one source. -/
def transpileCommand : Command where
  path := ["transpile"]
  operands := "[flags] FILE"
  short := "Transpile one file to JavaScript"
  long := "Transpile one TypeScript, TSX, JSX or JavaScript file. FILE \"-\" reads\n"
    ++ "standard input under the name given by --specifier."
  ownFlags := runFlags ++ diagnosticFlags ++ [
    { Flag.string "output" "" "write the code to file instead of stdout" with letter := some 'o' },
    .string "specifier" "stdin.ts" "name of the source read from stdin"]
  arity := .exactly 1
  action := some .transpile

/-- Builds a project. -/
def buildCommand : Command where
  path := ["build"]
  operands := "[flags] [DIR]"
  short := "Transpile a project described by mesozoic.toml"
  long := "Build looks for mesozoic.toml in DIR or its parents and transpiles every\n"
    ++ "source under [build].src into [build].out. Flags override the manifest."
  ownFlags := runFlags ++ [
    .string "out" "" "output directory (overrides [build].out)",
    { Flag.number "jobs" 0 "parallel transpile jobs (0 = GOMAXPROCS)" with letter := some 'j' },
    .switch "no-cache" "do not read or write the disk cache",
    cacheDirFlag,
    .string "ui" "auto" "progress UI (auto|on|off)"]
  arity := .atMost 1
  action := some .build

/-- Checks that outputs are stable. -/
def checkCommand : Command where
  path := ["check"]
  operands := "[flags] FILE..."
  short := "Check that output is stable when transpiled again"
  long := "Check transpiles each file, then transpiles the output again as JavaScript.\n"
    ++ "The second output must match the first byte for byte; a diff is printed when\n"
    ++ "it does not."
  ownFlags := runFlags ++ diagnosticFlags
  arity := .atLeast 1
  action := some .check

/-- Lists tokens. -/
def tokenizeCommand : Command where
  path := ["tokenize"]
  operands := "[flags] FILE"
  short := "Print the tokens of a file"
  ownFlags := .string "format" "pretty" "output format (pretty|json)" :: diagnosticFlags
  arity := .exactly 1
  action := some .tokenize

/-- Shows a tree. -/
def parseCommand : Command where
  path := ["parse"]
  operands := "[flags] FILE"
  short := "Print the syntax tree of a file"
  long := "Parse a file without folding and print its tree."
  ownFlags :=
    [.string "format" "tree" "output format (tree|json)", syntaxFlag, decoratorsFlag] ++
      diagnosticFlags
  arity := .exactly 1
  action := some .parse

/-- Answers requests. -/
def serveCommand : Command where
  path := ["serve"]
  operands := "[flags]"
  short := "Serve the transpiler over HTTP"
  long := "Serve answers POST /transpile with the transpiled code of the request body\n"
    ++ "(or its multipart \"file\" part) and GET /healthz. Query parameters override the\n"
    ++ "options given as flags."
  ownFlags := runFlags ++ [
    .string "addr" ":8080" "listen address",
    .number "max-body" Server.defaultMaxBody "maximum request body in bytes",
    .number "memo" 0 "results kept in memory (0 = default)",
    .duration "shutdown-timeout" "graceful shutdown limit (0 = 5s)"]
  arity := .nothing
  action := some .serve

/-- Tells the version. -/
def versionCommand : Command where
  path := ["version"]
  short := "Show mesozoic build fingerprints"
  ownFlags := [
    .switch "hash" "include git commit hash",
    .switch "message" "include git commit message",
    .switch "date" "include build timestamp",
    .switch "full" "show every recorded bit of build metadata",
    .string "format" "pretty" "output format (pretty|json)"]
  arity := .nothing
  action := some .version

/-- Begins a project. -/
def initCommand : Command where
  path := ["init"]
  operands := "[path|name]"
  short := "Initialize a new mesozoic project"
  long := "Initialize a project by creating mesozoic.toml and src/index.ts. Without an\n"
    ++ "argument the current directory is used; a missing directory is created."
  ownFlags := [.switch "jsx" "start from src/index.tsx with a JSX component"]
  arity := .atMost 1
  action := some .init

/-- Removes outputs. -/
def cleanCommand : Command where
  path := ["clean"]
  operands := "[DIR]"
  short := "Remove build output"
  long :=
    "Remove the [build].out directory of the project in DIR and, with --cache, the disk cache."
  ownFlags := [.switch "cache" "also drop the disk cache", cacheDirFlag]
  arity := .atMost 1
  action := some .clean

/-- Explains a command. -/
def helpCommand : Command where
  path := ["help"]
  operands := "[command]"
  short := "Help about any command"
  long := "Help provides help for any command in the application.\n"
    ++ "Simply type mesozoic help [path to command] for full details."
  action := some .help

/-- Writes scripts for shells. -/
def completionCommand : Command where
  path := ["completion"]
  short := "Generate the autocompletion script for the specified shell"
  long := "Generate the autocompletion script for mesozoic for the specified shell.\n"
    ++ "See each sub-command's help for details on how to use the generated script."
  arity := .nothing

/-- Writes a script for a shell, explained by some lines. -/
def shellCommand (shell : String) (long : List String) : Command where
  path := ["completion", shell]
  showsFlags := shell != "bash"
  short := "Generate the autocompletion script for " ++ shell
  long := "\n".intercalate long
  ownFlags := [.switch "no-descriptions" "disable completion descriptions"]
  arity := .nothing
  action := some (.completion shell)

/-- The commands that write scripts for shells. -/
def shellCommands : List Command := [
  shellCommand "bash" [
    "Generate the autocompletion script for the bash shell.",
    "",
    "This script depends on the 'bash-completion' package.",
    "If it is not installed already, you can install it via your OS's package manager.",
    "",
    "To load completions in your current shell session:",
    "",
    "\tsource <(mesozoic completion bash)",
    "",
    "To load completions for every new session, execute once:",
    "",
    "#### Linux:",
    "",
    "\tmesozoic completion bash > /etc/bash_completion.d/mesozoic",
    "",
    "#### macOS:",
    "",
    "\tmesozoic completion bash > $(brew --prefix)/etc/bash_completion.d/mesozoic",
    "",
    "You will need to start a new shell for this setup to take effect."],
  shellCommand "fish" [
    "Generate the autocompletion script for the fish shell.",
    "",
    "To load completions in your current shell session:",
    "",
    "\tmesozoic completion fish | source",
    "",
    "To load completions for every new session, execute once:",
    "",
    "\tmesozoic completion fish > ~/.config/fish/completions/mesozoic.fish",
    "",
    "You will need to start a new shell for this setup to take effect."],
  shellCommand "powershell" [
    "Generate the autocompletion script for powershell.",
    "",
    "To load completions in your current shell session:",
    "",
    "\tmesozoic completion powershell | Out-String | Invoke-Expression",
    "",
    "To load completions for every new session, add the output of the above command",
    "to your powershell profile."],
  shellCommand "zsh" [
    "Generate the autocompletion script for the zsh shell.",
    "",
    "If shell completion is not already enabled in your environment you will need",
    "to enable it.  You can execute the following once:",
    "",
    "\techo \"autoload -U compinit; compinit\" >> ~/.zshrc",
    "",
    "To load completions in your current shell session:",
    "",
    "\tsource <(mesozoic completion zsh)",
    "",
    "To load completions for every new session, execute once:",
    "",
    "#### Linux:",
    "",
    "\tmesozoic completion zsh > \"$\x7bfpath[1]\x7d/_mesozoic\"",
    "",
    "#### macOS:",
    "",
    "\tmesozoic completion zsh > $(brew --prefix)/share/zsh/site-functions/_mesozoic",
    "",
    "You will need to start a new shell for this setup to take effect."]]

/-- All commands, in the order of their names. -/
def commands : List Command := [
  program, buildCommand, checkCommand, cleanCommand, completionCommand, helpCommand, initCommand,
  parseCommand, serveCommand, tokenizeCommand, transpileCommand, versionCommand] ++ shellCommands

end ScriptLower.Cli
