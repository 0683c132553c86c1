import ScriptLower.Source.Path

/-!
# Disks

What the library asks of a disk: files and directories are looked up, read, written and removed by
path, and each question has an answer or a reason why not. Code that works on a disk is written for
any monad with these operations, so it runs on a disk held in memory as well as on a real one.
-/

namespace ScriptLower

/-- What stands at a path. -/
inductive EntryKind
  /-- A file. -/
  | file
  /-- A directory. -/
  | directory
  deriving DecidableEq, Repr, Inhabited

namespace Disk

/-- Why a disk did not do what it was asked. -/
inductive Reason
  /-- Nothing stands at the path. -/
  | missing
  /-- An element on the way is no directory. -/
  | notDirectory
  /-- A directory stands where a file is needed. -/
  | isDirectory
  /-- Something stands at the path already. -/
  | taken
  /-- The disk does not allow it. -/
  | denied
  /-- Anything else. -/
  | other (message : Bytes)
  deriving DecidableEq, Repr, Inhabited

namespace Reason

/-- The words for a reason. -/
def message : Reason → Bytes
  | missing => "no such file or directory"
  | notDirectory => "not a directory"
  | isDirectory => "is a directory"
  | taken => "file exists"
  | denied => "permission denied"
  | other m => m

end Reason

/-- Something that a disk did not do. -/
structure Error where
  /-- What it was asked to do. -/
  action : Bytes
  /-- The path it was asked for. -/
  path : Bytes
  /-- Why it did not. -/
  reason : Reason
  deriving DecidableEq, Repr, Inhabited

/-- An error on one line. -/
def Error.message (e : Error) : Bytes := e.action ++ " " ++ e.path ++ ": " ++ e.reason.message

end Disk

/-- A disk. Paths that are not absolute are taken from the working directory. -/
class Disk (m : Type → Type) where
  /-- The working directory, as an absolute path. -/
  workDir : m Bytes
  /-- What stands at a path. -/
  kindOf : Bytes → m (Except Disk.Reason EntryKind)
  /-- The content of a file. -/
  readFile : Bytes → m (Except Disk.Reason Bytes)
  /-- Gives a file its content; the file is made if it is missing. -/
  writeFile : Bytes → Bytes → m (Except Disk.Reason Unit)
  /-- Makes a directory in one that exists. -/
  makeDirectory : Bytes → m (Except Disk.Reason Unit)
  /-- The names in a directory. -/
  list : Bytes → m (Except Disk.Reason (List Bytes))
  /-- Removes whatever stands at a path, and all below it. -/
  removeTree : Bytes → m (Except Disk.Reason Unit)

namespace Disk

variable {m : Type → Type} [Monad m] [Disk m]

/-- Names the action and the path of an answer. -/
def named (action path : Bytes) (answer : m (Except Reason α)) : ExceptT Error m α :=
  ExceptT.mk do
    match ← answer with
    | .ok a => pure (.ok a)
    | .error r => pure (.error ⟨action, path, r⟩)

/-- What stands at a path. -/
def stat (path : Bytes) : ExceptT Error m EntryKind := named "stat" path (kindOf path)

/-- The content of a file. A directory can be opened, but not read. -/
def read (path : Bytes) : ExceptT Error m Bytes :=
  ExceptT.mk do
    match ← readFile path with
    | .ok s => pure (.ok s)
    | .error .isDirectory => pure (.error ⟨"read", path, .isDirectory⟩)
    | .error r => pure (.error ⟨"open", path, r⟩)

/-- Gives a file its content. -/
def write (path content : Bytes) : ExceptT Error m Unit :=
  named "open" path (writeFile path content)

/-- The directory around a path, with the slash behind it; nothing when there is none to name. -/
def parent (path : Bytes) : Bytes :=
  ((Bytes.trimRight (· == Path.slash) path).reverse.dropWhile (· != Path.slash)).reverse

/-- Makes a directory and those around it, at most `depth` of them. -/
def makeWithin : Nat → Bytes → ExceptT Error m Unit
  | 0, _ => pure ()
  | depth + 1, path => ExceptT.mk do
    match ← kindOf path with
    | .ok .directory => pure (.ok ())
    | .ok .file => pure (.error ⟨"mkdir", path, .notDirectory⟩)
    | .error _ =>
      let around ← if (parent path).isEmpty then pure (.ok ())
        else (makeWithin depth (parent path)).run
      match around with
      | .error e => pure (.error e)
      | .ok () =>
        match ← makeDirectory path with
        | .ok () => pure (.ok ())
        | .error r =>
          match ← kindOf path with
          | .ok .directory => pure (.ok ())
          | _ => pure (.error ⟨"mkdir", path, r⟩)

/-- Makes a directory and those around it. Each step leaves a shorter path. -/
def makeDirectories (path : Bytes) : ExceptT Error m Unit := makeWithin (path.length + 1) path

end Disk

end ScriptLower

/-!
## Disks in memory

A file tree keeps files and directories under the elements of their absolute paths. A path is walked
element by element from the root or from the working directory: every element passed must be a
directory, and only the last one may be missing.
-/

namespace ScriptLower

/-- What is kept at a path. -/
inductive TreeEntry
  /-- A file and its content. -/
  | file (content : Bytes)
  /-- A directory. -/
  | directory
  deriving DecidableEq, Repr, Inhabited

/-- A disk in memory. -/
structure FileTree where
  /-- The entries by the elements of their paths; the root itself is not among them. -/
  entries : List (List Bytes × TreeEntry) := []
  /-- The elements of the working directory. -/
  workDir : List Bytes := []
  deriving Inhabited

namespace FileTree

/-- What stands at a place. -/
def find? (t : FileTree) (place : List Bytes) : Option TreeEntry :=
  if place.isEmpty then some .directory else t.entries.lookup place

/-- Puts something at a place. -/
def put (t : FileTree) (place : List Bytes) (e : TreeEntry) : FileTree :=
  if (t.entries.lookup place).isSome then
    { t with entries := t.entries.map fun x => if x.1 == place then (place, e) else x }
  else { t with entries := t.entries ++ [(place, e)] }

/-- Takes away what stands at a place and below it. -/
def erase (t : FileTree) (place : List Bytes) : FileTree :=
  { t with entries := t.entries.filter fun x => !place.isPrefixOf x.1 }

/-- Walks on from a place, which must be a directory if there is a way to go. -/
def walk (t : FileTree) : List Bytes → List Bytes → Except Disk.Reason (List Bytes)
  | place, [] => .ok place
  | place, e :: rest =>
    match t.find? place with
    | none => .error .missing
    | some (.file _) => .error .notDirectory
    | some .directory =>
      if e.isEmpty || e == Bytes.ofString "." then t.walk place rest
      else if e == Bytes.ofString ".." then t.walk place.dropLast rest
      else t.walk (place ++ [e]) rest

/-- The place of a path; the last element may be missing. -/
def locate (t : FileTree) (path : Bytes) : Except Disk.Reason (List Bytes) :=
  if path.isEmpty then .error .missing
  else t.walk (if Path.isAbsolute path then [] else t.workDir) (Bytes.splitOn Path.slash path)

/-- What stands at a path. -/
def kindOf (t : FileTree) (path : Bytes) : Except Disk.Reason EntryKind := do
  match t.find? (← t.locate path) with
  | none => .error .missing
  | some .directory => .ok .directory
  | some (.file _) => .ok .file

/-- The content of a file. -/
def readFile (t : FileTree) (path : Bytes) : Except Disk.Reason Bytes := do
  match t.find? (← t.locate path) with
  | none => .error .missing
  | some .directory => .error .isDirectory
  | some (.file content) => .ok content

/-- Whether something can be made at a place: its directory exists. -/
def checkParent (t : FileTree) (place : List Bytes) : Except Disk.Reason Unit :=
  match t.find? place.dropLast with
  | none => .error .missing
  | some (.file _) => .error .notDirectory
  | some .directory => .ok ()

/-- Gives a file its content. -/
def writeFile (t : FileTree) (path content : Bytes) : Except Disk.Reason FileTree := do
  let place ← t.locate path
  match t.find? place with
  | some .directory => .error .isDirectory
  | some (.file _) => .ok (t.put place (.file content))
  | none =>
    t.checkParent place
    .ok (t.put place (.file content))

/-- Makes a directory; slashes behind its name do not count. -/
def makeDirectory (t : FileTree) (path : Bytes) : Except Disk.Reason FileTree := do
  let place ← t.locate (Bytes.trimRight (· == Path.slash) path)
  match t.find? place with
  | some _ => .error .taken
  | none =>
    t.checkParent place
    .ok (t.put place .directory)

/-- The names in a directory, in order. -/
def list (t : FileTree) (path : Bytes) : Except Disk.Reason (List Bytes) := do
  let place ← t.locate path
  match t.find? place with
  | none => .error .missing
  | some (.file _) => .error .notDirectory
  | some .directory =>
    let names := t.entries.filterMap fun (p, _) =>
      if p.length == place.length + 1 && place.isPrefixOf p then p.getLast? else none
    .ok (names.mergeSort Bytes.le)

/-- Removes what stands at a path; nothing needs to. -/
def removeTree (t : FileTree) (path : Bytes) : Except Disk.Reason FileTree :=
  match t.locate path with
  | .error .missing => .ok t
  | .error r => .error r
  | .ok place => .ok (t.erase place)

/-- Puts a file or a directory below a directory, with the directories around it. -/
def add (t : FileTree) (base : List Bytes) (path : Bytes) (e : TreeEntry) : FileTree :=
  let es := (Bytes.splitOn Path.slash path).filter (!·.isEmpty)
  let t := (List.range es.length).foldl (fun t n =>
    let place := base ++ es.take n
    if (t.find? place).isSome then t else t.put place .directory) t
  t.put (base ++ es) e

/-- The files below a directory by their paths from there. -/
def filesBelow (t : FileTree) (base : List Bytes) : List (Bytes × Bytes) :=
  t.entries.filterMap fun (p, e) =>
    match e with
    | .file content =>
      if base.isPrefixOf p then some (Bytes.join [Path.slash] (p.drop base.length), content)
        else none
    | .directory => none

/-- Changes the tree if that is possible. -/
def change (f : FileTree → Except Disk.Reason FileTree) :
    StateM FileTree (Except Disk.Reason Unit) := do
  match f (← get) with
  | .ok t =>
    set t
    pure (.ok ())
  | .error r => pure (.error r)

/-- A tree as a disk. -/
instance : Disk (StateM FileTree) where
  workDir := do
    return Path.ofElements true (← get).workDir
  kindOf path := do
    return (← get).kindOf path
  readFile path := do
    return (← get).readFile path
  writeFile path content := change (·.writeFile path content)
  makeDirectory path := change (·.makeDirectory path)
  list path := do
    return (← get).list path
  removeTree path := change (·.removeTree path)

end FileTree

end ScriptLower

/-!
## Clocks

What takes time is measured by a clock. In memory no time passes.
-/

namespace ScriptLower

/-- A clock. -/
class Clock (m : Type → Type) where
  /-- The time in microseconds. Only differences between two times have a meaning. -/
  now : m Int

instance : Clock (StateM FileTree) where
  now := pure 0

end ScriptLower
