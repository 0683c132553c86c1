import ScriptLower.Cli.Catalog

/-!
# Help

What a command does, how it is called, and which commands and flags there are. Lists are in the
order of the names, in columns.
-/

/-!
## Finding a command

The words of a command stand among the flags. To find them the values of flags are passed over: a
flag that may not stand alone, or that nobody knows, takes the argument behind it as its value.
Whatever is left of the arguments belongs to the command that was found.
-/

namespace ScriptLower.Cli

open ScriptLower

namespace Command

/-- The flags that a command knows: its own, those of every command, and the one for help. -/
def flags (c : Command) : List Flag := c.ownFlags ++ globalFlags ++ [Flag.help c.name]

end Command

/-- Whether an argument is a flag whose value is the next argument. -/
def takesNext (flags : List Flag) (s : Bytes) : Bool :=
  !s.contains (ascii '=') && match s with
    | 45 :: 45 :: name => !(Flag.named? flags name).any Flag.standsAlone
    | [45, letter] => !(Flag.lettered? flags letter).any Flag.standsAlone
    | _ => false

/-- Whether an argument looks like a flag. -/
def isDashed (s : Bytes) : Bool := s.head? == some (ascii '-')

/-- The first argument that is neither a flag nor the value of one. A flag that takes a value hides
the last argument even when it is the one behind it. -/
def firstWord? (flags : List Flag) : List Bytes → Option Bytes
  | [] => none
  | s :: rest =>
    if s == [45, 45] then none
    else if takesNext flags s then
      match rest with
      | _ :: next :: more => firstWord? flags (next :: more)
      | _ => none
    else if !s.isEmpty && !isDashed s then some s
    else firstWord? flags rest

/-- The arguments without the first that is a given word and not the value of a flag. -/
def withoutWord (flags : List Flag) (word : Bytes) : List Bytes → List Bytes
  | [] => []
  | s :: rest =>
    if s == [45, 45] then s :: rest
    else if takesNext flags s then
      match rest with
      | value :: more => s :: value :: withoutWord flags word more
      | [] => [s]
    else if s == word then rest
    else s :: withoutWord flags word rest

/-- The command that arguments lead to from another, in at most `fuel` steps, and what is left of
them. -/
def descend (table : List Command) : Nat → Command → List Bytes → Command × List Bytes
  | 0, c, args => (c, args)
  | fuel + 1, c, args =>
    match firstWord? c.flags args with
    | none => (c, args)
    | some word =>
      match c.child? table word with
      | none => (c, args)
      | some d => descend table fuel d (withoutWord c.flags word args)

/-! ## Words that are no commands -/

/-- One more row of the table of distances: from the letters so far to each beginning of the other
word, given the row before. -/
def distanceRow (c : UInt8) (above : Nat) : Bytes → List Nat → List Nat
  | d :: ds, diagonal :: up :: more =>
    let here := if c == d then diagonal else 1 + min (min up above) diagonal
    here :: distanceRow c here ds (up :: more)
  | _, _ => []

/-- How many letters are changed, added or left out between two words. -/
def distance (a b : Bytes) : Nat :=
  (a.foldl (fun row c =>
    let first := row.headD 0 + 1
    first :: distanceRow c first b row) (List.range (b.length + 1))).getLastD 0

/-- Whether a word may stand for a command: two letters or fewer differ, or it is how the name
begins. -/
def isLike (word name : Bytes) : Bool :=
  distance (Words.lowerName word) (Words.lowerName name) ≤ 2
    || (Words.lowerName word).isPrefixOf (Words.lowerName name)

/-- The commands of the program that a word may stand for. -/
def suggestions (table : List Command) (word : Bytes) : List Bytes :=
  ((program.below table).filter (·.action != some .help)).map (Bytes.ofString ·.name)
    |>.filter (isLike word)

/-- What is said of a word that is no command. -/
def unknownCommand (table : List Command) (word : Bytes) : Bytes :=
  let row (name : Bytes) : Bytes := "\t" ++ name ++ "\n"
  let meant : Bytes := match suggestions table word with
    | [] => []
    | names => "\n\nDid you mean this?\n" ++ names.flatMap row
  "unknown command " ++ Quoted.quote word ++ " for " ++ Quoted.quote programName ++ meant

/-- The command that arguments name, and what is left of them. The program itself takes no words. -/
def findCommand (table : List Command) (args : List Bytes) : Except Bytes (Command × List Bytes) :=
  let (c, rest) := descend table args.length program args
  match if c.isProgram then firstWord? c.flags rest else none with
  | some word => .error (unknownCommand table word)
  | none => .ok (c, rest)

end ScriptLower.Cli

/-! ## Usage -/

namespace ScriptLower.Cli

open ScriptLower

namespace Flag

/-- A flag and the kind of its value. -/
def signature (f : Flag) : Bytes :=
  let name : Bytes := Bytes.ofString f.name
  let front : Bytes := match f.letter with
    | some c => "  -" ++ [ascii c] ++ ", --" ++ name
    | none => "      --" ++ name
  let kind := f.kind.shown
  if kind.isEmpty then front else front ++ " " ++ kind

/-- The value of a flag that is not given, unless that is nothing. -/
def shownDefault (f : Flag) : Bytes :=
  match f.default with
  | .truth true => " (default true)"
  | .text s => if s.isEmpty then [] else " (default " ++ Quoted.quote s ++ ")"
  | .int n => if n = 0 then [] else " (default " ++ Bytes.ofInt n ++ ")"
  | _ => []

/-- A list of flags. -/
def listing (flags : List Flag) : Bytes :=
  let sorted := flags.mergeSort fun a b => Bytes.le a.name b.name
  let width := (sorted.map (·.signature.length)).foldl max 0
  Bytes.join "\n" (sorted.map fun f =>
    Bytes.padRight width 32 f.signature ++ "   " ++ Bytes.ofString f.usage ++ f.shownDefault)

end Flag

namespace Command

/-- The line that shows how a command is called. -/
def useLine (c : Command) : Bytes :=
  let line : Bytes :=
    if c.operands.isEmpty then c.fullName else c.fullName ++ " " ++ Bytes.ofString c.operands
  if c.showsFlags && !Bytes.includes "[flags]" line then line ++ " [flags]" else line

/-- The list of the commands below one. -/
def childListing (table : List Command) (c : Command) : Bytes :=
  let children := (c.below table).mergeSort fun a b => Bytes.le a.name b.name
  let width := (children.map (Bytes.ofString ·.name |>.length)).foldl max 11
  children.flatMap fun d =>
    "\n  " ++ Bytes.padRight width 32 (Bytes.ofString d.name) ++ " " ++ Bytes.ofString d.short

/-- How a command is called. -/
def usage (table : List Command) (c : Command) : Bytes :=
  let isParent := !(c.below table).isEmpty
  let help := Flag.help c.name
  let called : Bytes := if c.action.isSome then "\n  " ++ c.useLine else []
  let parent : Bytes := if isParent then "\n  " ++ c.fullName ++ " [command]" else []
  let children : Bytes :=
    if isParent then "\n\nAvailable Commands:" ++ c.childListing table else []
  let own : Bytes := Flag.listing (help :: c.ownFlags ++ if c.isProgram then globalFlags else [])
  let inherited : Bytes :=
    if c.isProgram then [] else "\n\nGlobal Flags:\n" ++ Flag.listing globalFlags
  let more : Bytes :=
    if isParent then
      "\n\nUse \"" ++ c.fullName ++ " [command] --help\" for more information about a command."
    else []
  "Usage:" ++ called ++ parent ++ children ++ "\n\nFlags:\n" ++ own ++ inherited ++ more ++ "\n"

/-- What a command does and how it is called. -/
def help (table : List Command) (c : Command) : Bytes :=
  let about := Bytes.ofString (if c.long.isEmpty then c.short else c.long)
  about ++ "\n\n" ++ c.usage table

end Command

end ScriptLower.Cli
