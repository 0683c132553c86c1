import ScriptLower.Text.Scalar

/-!
# Flags and commands

What may stand on a command line: the flags with their values, and the words that name a command.
-/

/-!
## Flags

A flag has a long name and perhaps a letter, and takes a value of its kind. A flag that is a truth
value may stand alone. Flags and arguments stand in any order, until two hyphens end the flags.
-/

namespace ScriptLower.Cli

open ScriptLower

/-- The kind of value a flag takes. -/
inductive FlagKind
  /-- A truth value. -/
  | truth
  /-- A text. -/
  | text
  /-- A text each time the flag is given. -/
  | texts
  /-- A whole number of eight bits. -/
  | int8
  /-- A whole number. -/
  | int
  /-- A duration. -/
  | duration
  deriving DecidableEq, Repr, Inhabited

/-- A value of a flag. -/
inductive FlagValue
  /-- A truth value. -/
  | truth (b : Bool)
  /-- A text. -/
  | text (s : Bytes)
  /-- A whole number, or a duration in nanoseconds. -/
  | int (n : Int)
  deriving DecidableEq, Repr, Inhabited

namespace FlagKind

/-- Reads a value; the error says why it is none. -/
def read : FlagKind → Bytes → Except Bytes FlagValue
  | truth, s => (Scalar.readTruth s).map .truth
  | text, s => .ok (.text s)
  | texts, s => .ok (.text s)
  | int8, s => (Scalar.readInt 8 s).map .int
  | int, s => (Scalar.readInt 64 s).map .int
  | duration, s => (Scalar.readDuration s).map .int

/-- The name of the kind in the list of flags. -/
def shown : FlagKind → Bytes
  | truth => ""
  | text => "string"
  | texts => "stringArray"
  | int8 => "int8"
  | int => "int"
  | duration => "duration"

end FlagKind

/-- A flag. -/
structure Flag where
  /-- The long name. -/
  name : String
  /-- The letter, if there is one. -/
  letter : Option Char := none
  /-- What it takes. -/
  kind : FlagKind
  /-- The value when it is not given. -/
  default : FlagValue
  /-- What it does. -/
  usage : String
  deriving Inhabited

namespace Flag

/-- A flag that is a truth value, and false when it is not given. -/
def switch (name usage : String) : Flag :=
  { name := name, kind := .truth, default := .truth false, usage := usage }

/-- A flag that takes a text. -/
def string (name default usage : String) : Flag :=
  { name := name, kind := .text, default := .text default, usage := usage }

/-- A flag that takes a whole number. -/
def number (name : String) (default : Int) (usage : String) : Flag :=
  { name := name, kind := .int, default := .int default, usage := usage }

/-- A flag that takes a text each time it is given. -/
def strings (name usage : String) : Flag :=
  { name := name, kind := .texts, default := .text [], usage := usage }

/-- A flag that takes a duration, and is zero when it is not given. -/
def duration (name usage : String) : Flag :=
  { name := name, kind := .duration, default := .int 0, usage := usage }

/-- The flag in front of a command's help. -/
def help (command : String) : Flag :=
  { switch "help" ("help for " ++ command) with letter := some 'h' }

/-- The flag as people name it. -/
def shownName (f : Flag) : Bytes :=
  match f.letter with
  | some c => "-" ++ [ascii c] ++ ", --" ++ Bytes.ofString f.name
  | none => "--" ++ Bytes.ofString f.name

/-- Whether the flag may stand alone. -/
def standsAlone (f : Flag) : Bool := f.kind == .truth

/-- The flag of a long name. -/
def named? (flags : List Flag) (name : Bytes) : Option Flag :=
  flags.find? fun f => Bytes.ofString f.name == name

/-- The flag of a letter. -/
def lettered? (flags : List Flag) (b : UInt8) : Option Flag :=
  flags.find? fun f => f.letter.any fun c => ascii c == b

end Flag

/-- What stands on a command line. -/
structure Parsed where
  /-- The flags that are given, in order. -/
  given : List (String × FlagValue) := []
  /-- The arguments. -/
  args : List Bytes := []
  deriving Inhabited

namespace Parsed

/-- Gives a flag a value. -/
def give (p : Parsed) (f : Flag) (raw : Bytes) : Except Bytes Parsed :=
  match f.kind.read raw with
  | .ok v => .ok { p with given := p.given ++ [(f.name, v)] }
  | .error e =>
    .error ("invalid argument " ++ Quoted.quote raw ++ " for " ++ Quoted.quote f.shownName
      ++ " flag: " ++ e)

/-- Whether a flag is given. -/
def has (p : Parsed) (name : String) : Bool := p.given.any (·.1 == name)

/-- The values of a flag, in order. -/
def values (p : Parsed) (name : String) : List FlagValue :=
  (p.given.filter (·.1 == name)).map (·.2)

/-- The value of a flag, if it is given: the last counts. -/
def value? (p : Parsed) (name : String) : Option FlagValue := (p.values name).getLast?

/-- The text of a flag. -/
def text (p : Parsed) (name : String) (default : Bytes := []) : Bytes :=
  match p.value? name with
  | some (.text s) => s
  | _ => default

/-- The texts of a flag. -/
def texts (p : Parsed) (name : String) : List Bytes :=
  (p.values name).filterMap fun v => match v with
    | .text s => some s
    | _ => none

/-- The truth of a flag. -/
def truth (p : Parsed) (name : String) (default : Bool := false) : Bool :=
  match p.value? name with
  | some (.truth b) => b
  | _ => default

/-- The number of a flag. -/
def int (p : Parsed) (name : String) (default : Int := 0) : Int :=
  match p.value? name with
  | some (.int n) => n
  | _ => default

end Parsed

/-- A byte as a character in quotes. -/
def quoteLetter (b : UInt8) : Bytes :=
  if b == ascii '\'' then "'\\''"
  else if b == ascii '"' then "'\"'"
  else ascii '\'' :: Quoted.escape b b.toNat 2 ++ [ascii '\'']

/-- Reads a long flag, given without its hyphens. The next argument is its value when it needs one
and has none. -/
def readLong (flags : List Flag) (p : Parsed) (s : Bytes) (rest : List Bytes) :
    Except Bytes (Parsed × List Bytes) :=
  if s.isEmpty || s.head? == some (ascii '-') || s.head? == some (ascii '=') then
    .error ("bad flag syntax: --" ++ s)
  else
    let (name, value) : Bytes × Option Bytes := match Bytes.cut? "=" s with
      | some (n, v) => (n, some v)
      | none => (s, none)
    match Flag.named? flags name with
    | none => .error ("unknown flag: --" ++ name)
    | some f =>
      match value with
      | some v => (p.give f v).map (·, rest)
      | none =>
        if f.standsAlone then (p.give f "true").map (·, rest)
        else match rest with
          | v :: rest => (p.give f v).map (·, rest)
          | [] => .error ("flag needs an argument: --" ++ s)

/-- Reads letters of flags, given without the hyphen. The rest of the letters, or the next argument,
is the value of a flag that needs one. -/
def readLetters (flags : List Flag) (p : Parsed) (rest : List Bytes) :
    Bytes → Except Bytes (Parsed × List Bytes)
  | [] => .ok (p, rest)
  | c :: more =>
    if (Bytes.ofString "test.").isPrefixOf (c :: more) then .ok (p, rest)
    else match Flag.lettered? flags c with
      | none =>
        .error ("unknown shorthand flag: " ++ quoteLetter c ++ " in -" ++ (c :: more))
      | some f =>
        match more with
        | 61 :: v :: vs => (p.give f (v :: vs)).map (·, rest)
        | _ =>
          if f.standsAlone then
            match p.give f "true" with
            | .ok p => readLetters flags p rest more
            | .error e => .error e
          else if !more.isEmpty then (p.give f more).map (·, rest)
          else match rest with
            | v :: rest => (p.give f v).map (·, rest)
            | [] =>
              .error ("flag needs an argument: " ++ quoteLetter c ++ " in -" ++ (c :: more))

/-- Reads a command line in at most `fuel` steps. -/
def readArgs (flags : List Flag) : Nat → Parsed → List Bytes → Except Bytes Parsed
  | _, p, [] => .ok p
  | 0, p, _ :: _ => .ok p
  | fuel + 1, p, s :: rest =>
    match s with
    | 45 :: 45 :: [] => .ok { p with args := p.args ++ rest }
    | 45 :: 45 :: long =>
      match readLong flags p long rest with
      | .ok (p, rest) => readArgs flags fuel p rest
      | .error e => .error e
    | 45 :: c :: letters =>
      match readLetters flags p rest (c :: letters) with
      | .ok (p, rest) => readArgs flags fuel p rest
      | .error e => .error e
    | _ => readArgs flags fuel { p with args := p.args ++ [s] } rest

/-- Reads a command line; the error is the message. Every step takes an argument off. -/
def parseArgs (flags : List Flag) (args : List Bytes) : Except Bytes Parsed :=
  readArgs flags args.length {} args

end ScriptLower.Cli

/-!
## Commands

The program is a tree of commands, held as a table: a command is named by the words on the way to
it, and the program itself by no words at all. A command that does something has an action; one that
does not stands for those below it.
-/

namespace ScriptLower.Cli

open ScriptLower

/-- The name of the program. -/
def programName : String := "mesozoic"

/-- How many arguments a command takes. -/
inductive Arity
  /-- As many as are given. -/
  | any
  /-- None. -/
  | nothing
  /-- This many. -/
  | exactly (n : Nat)
  /-- This many or fewer. -/
  | atMost (n : Nat)
  /-- This many or more. -/
  | atLeast (n : Nat)
  deriving DecidableEq, Repr, Inhabited

/-- What a command does. -/
inductive Action
  /-- Runs one source. -/
  | transpile
  /-- Builds a project. -/
  | build
  /-- Checks that outputs are stable. -/
  | check
  /-- Lists tokens. -/
  | tokenize
  /-- Shows a tree. -/
  | parse
  /-- Answers requests. -/
  | serve
  /-- Tells the version. -/
  | version
  /-- Begins a project. -/
  | init
  /-- Removes outputs. -/
  | clean
  /-- Explains a command. -/
  | help
  /-- Writes a script for a shell. -/
  | completion (shell : String)
  deriving DecidableEq, Repr, Inhabited

/-- A command. -/
structure Command where
  /-- The words on the way to it. -/
  path : List String
  /-- What stands behind its last word in a line that shows its use. -/
  operands : String := ""
  /-- Whether its line of use says that there are flags. -/
  showsFlags : Bool := true
  /-- What it does, on one line. -/
  short : String
  /-- What it does; the one line when there is no more to say. -/
  long : String := ""
  /-- Its own flags. -/
  ownFlags : List Flag := []
  /-- How many arguments it takes. -/
  arity : Arity := .any
  /-- What it does when it is run. -/
  action : Option Action := none
  deriving Inhabited

namespace Command

/-- The name of a command. -/
def name (c : Command) : String := c.path.getLastD programName

/-- Whether a command is the program itself. -/
def isProgram (c : Command) : Bool := c.path.isEmpty

/-- The command as it is called. -/
def fullName (c : Command) : Bytes :=
  Bytes.join " " ((programName :: c.path).map Bytes.ofString)

/-- The commands right below one. -/
def below (table : List Command) (c : Command) : List Command :=
  table.filter fun d => !d.isProgram && d.path.dropLast == c.path

/-- The command right below one that has a name. -/
def child? (table : List Command) (c : Command) (word : Bytes) : Option Command :=
  (c.below table).find? fun d => Bytes.ofString d.name == word

end Command

namespace Arity

/-- Why a number of arguments does not fit, if it does not. -/
def fault? (a : Arity) (command : Bytes) (args : List Bytes) : Option Bytes :=
  let received := Bytes.ofNat args.length
  match a with
  | any => none
  | nothing =>
    args.head?.map fun word => "unknown command " ++ Quoted.quote word ++ " for " ++
      Quoted.quote command
  | exactly n =>
    if args.length = n then none
    else some ("accepts " ++ Bytes.ofNat n ++ " arg(s), received " ++ received)
  | atMost n =>
    if args.length ≤ n then none
    else some ("accepts at most " ++ Bytes.ofNat n ++ " arg(s), received " ++ received)
  | atLeast n =>
    if n ≤ args.length then none
    else some ("requires at least " ++ Bytes.ofNat n ++ " arg(s), only received " ++ received)

end Arity

end ScriptLower.Cli
