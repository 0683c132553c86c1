import ScriptLower.Cli.Run

/-!
# The program

The command line on a real disk: the operations of a disk and a clock, and the program that runs a
command with them and writes what it said.
-/

namespace ScriptLower.Main

open ScriptLower

/-- A text of bytes that are not UTF-8 is no path. -/
def pathText (path : Bytes) : Except Disk.Reason String :=
  match String.fromUTF8? ⟨path.toArray⟩ with
  | some s => .ok s
  | none => .error (.other "invalid argument")

/-- Why the system did not do something. -/
def reasonOf : IO.Error → Disk.Reason
  | .noFileOrDirectory .. => .missing
  | .alreadyExists .. => .taken
  | .permissionDenied .. => .denied
  | .inappropriateType _ code _ => if code == 21 then .isDirectory else .notDirectory
  | e => .other (Bytes.ofString e.toString)

/-- Does something with a path. -/
def withPath (path : Bytes) (f : String → IO α) : IO (Except Disk.Reason α) := do
  match pathText path with
  | .error r => return .error r
  | .ok s =>
    match ← (f s).toBaseIO with
    | .ok a => return .ok a
    | .error e => return .error (reasonOf e)

/-- What stands at a path. -/
def entryKind (path : String) : IO EntryKind := do
  let place := (← IO.currentDir) / path
  return if (← place.metadata).type == .dir then .directory else .file

instance : Disk IO where
  workDir := return Bytes.ofString (← IO.currentDir).toString
  kindOf path := withPath path entryKind
  readFile path := do
    match ← withPath path entryKind with
    | .error r => return .error r
    | .ok .directory => return .error .isDirectory
    | .ok .file => withPath path fun s => return (← IO.FS.readBinFile s).toList
  writeFile path content := do
    match ← withPath path entryKind with
    | .ok .directory => return .error .isDirectory
    | _ => withPath path fun s => IO.FS.writeBinFile s ⟨content.toArray⟩
  makeDirectory path := withPath path fun s => IO.FS.createDir s
  list path := withPath path fun s => do
    let names := (← ((← IO.currentDir) / s).readDir).toList.map fun e => Bytes.ofString e.fileName
    return names.mergeSort Bytes.le
  removeTree path := do
    match ← withPath path entryKind with
    | .error .missing => return .ok ()
    | .error r => return .error r
    | .ok .directory => withPath path fun s => IO.FS.removeDirAll s
    | .ok .file => withPath path fun s => IO.FS.removeFile s

instance : Clock IO where
  now := return Int.ofNat ((← IO.monoNanosNow) / 1000)

/-- Everything that a stream still holds. -/
partial def readAll (s : IO.FS.Stream) (before : ByteArray) : IO ByteArray := do
  let next ← s.read 65536
  if next.isEmpty then return before else readAll s (before ++ next)

/-- The value of a variable of the environment; nothing when it is not set. -/
def variable_ (name : String) : IO Bytes := return Bytes.ofString ((← IO.getEnv name).getD "")

/-- Where programs keep what they can make again. -/
def cacheHome : IO Bytes := do
  let asked ← variable_ "XDG_CACHE_HOME"
  if asked.isEmpty then return Path.join [← variable_ "HOME", ".cache"] else return asked

/-- The environment of the program. The standard input is read only if an argument asks for it. -/
def environment (args : List String) : IO Cli.Environment := do
  let input ← if args.contains "-" then readAll (← IO.getStdin) .empty else pure .empty
  return {
    input := input.toList
    cacheHome := ← cacheHome
    noColor := !(← variable_ "NO_COLOR").isEmpty
    outIsTerminal := ← (← IO.getStdout).isTty
    errIsTerminal := ← (← IO.getStderr).isTty
    toolchain := "lean4"
    began := ← Clock.now }

end ScriptLower.Main

open ScriptLower in
/-- Runs a command and writes what it said. There is no network to serve on. -/
def main (args : List String) : IO UInt32 := do
  let outcome ← Cli.run (← Main.environment args) (args.map Bytes.ofString)
  let t := outcome.transcript
  (← IO.getStdout).write ⟨t.out.toArray⟩
  (← IO.getStderr).write ⟨(t.log ++ t.err).toArray⟩
  match t.serving with
  | some s =>
    (← IO.getStderr).write
      ⟨(Bytes.ofString "error: listen tcp " ++ s.address ++ ": not supported\n").toArray⟩
    return 1
  | none => return outcome.exitCode.toUInt32
