import ScriptLower.Diff.Lines
import ScriptLower.Digest.Key
import ScriptLower.Disk.Basic
import ScriptLower.Pipeline.Run
import ScriptLower.Source.File
import ScriptLower.Text.Bytes

/-!
# Kept outputs

What a run of a file came to, and how outputs are kept on disk and in memory.
-/

/-!
## Outputs of files

What a run of one file came to, as the commands of a project handle it: the code or the failure,
with the diagnostics to show.
-/

namespace ScriptLower

/-- What a run of one file came to. -/
structure FileOutput where
  /-- The name the file was run under. -/
  specifier : Bytes
  /-- The code; nothing when the run failed. -/
  code : Bytes := []
  /-- The source map, if it stands beside the code. -/
  map : Option Bytes := none
  /-- What is to be shown. -/
  diagnostics : List Diagnostic := []
  /-- The files that the diagnostics speak of. -/
  files : FileSet := {}
  /-- Why there is no code. -/
  failure : Option Failure := none
  /-- Whether the output was taken from a cache. -/
  cached : Bool := false
  /-- The bytes of the source. -/
  inputBytes : Nat := 0
  deriving Inhabited

namespace FileOutput

/-- Whether there is code. -/
def isOk (o : FileOutput) : Bool := o.failure.isNone

/-- The output of a run. -/
def ofRun (specifier content : Bytes) (r : Run) : FileOutput :=
  match r.result with
  | .ok x =>
    { specifier := specifier, code := x.code, map := x.map, diagnostics := x.diagnostics
      files := x.files, inputBytes := content.length }
  | .error f =>
    { specifier := specifier, diagnostics := f.diagnostics, files := f.files, failure := some f
      inputBytes := content.length }

end FileOutput

/-- Runs one source. -/
def transpileSource (specifier content : Bytes) (o : Options) : FileOutput :=
  .ofRun specifier content (transpile specifier content o)

end ScriptLower

/-!
### Stability of outputs

An output is stable when running it again, under its own name, gives the same code. Maps are left
out of both runs, since the comment that names a map would differ.
-/

namespace ScriptLower

/-- What running a source and then its output came to. -/
structure RoundTrip where
  /-- The output of the source. -/
  first : FileOutput
  /-- The output of the output, if there was one. -/
  second : Option FileOutput := none
  /-- Whether both have the same code. -/
  stable : Bool := false
  /-- The difference of the codes by lines; nothing when they agree. -/
  diff : Bytes := []
  deriving Inhabited

/-- Runs a source and then its output. -/
def checkRoundTrip (specifier content : Bytes) (o : Options) : RoundTrip :=
  let o := { o with sourceMap := .none }
  let first := transpileSource specifier content o
  if !first.isOk then { first := first }
  else
    let second := transpileSource (Dialect.outputName specifier) first.code
      { o with dialect := .none }
    if !second.isOk then { first := first, second := some second }
    else
      let stable := first.code == second.code
      { first := first, second := some second, stable := stable
        diff := if stable then [] else Diff.lineDiff first.code second.code }

end ScriptLower

/-!
## Outputs kept on disk

A cache keeps the outputs of runs that succeeded in files named by their keys. An output is kept
without its files: places are offsets into the source, which whoever asks has at hand, so that the
places can be put back. Failures are never kept; they are found anew every time.
-/

/-!
### Lists of texts in one text

Each text of a list is written behind its length and a colon, so any bytes may stand in it and the
list can be read back part by part.
-/

namespace ScriptLower.Netstring

open ScriptLower

/-- One text behind its length. -/
def encodePart (s : Bytes) : Bytes := Bytes.ofNat s.length ++ ascii ':' :: s

/-- A list of texts as one text. -/
def encode (parts : List Bytes) : Bytes := parts.flatMap encodePart

/-- The first text of a list, and the rest. -/
def readPart (s : Bytes) : Option (Bytes × Bytes) := do
  let digits := s.takeWhile Bytes.isDigit
  let n ← Bytes.toNatBase? 10 digits
  match s.drop digits.length with
  | 58 :: r => if n ≤ r.length then some (r.take n, r.drop n) else none
  | _ => none

/-- Reads a list of at most `fuel` texts. -/
def decodeParts : Nat → Bytes → Option (List Bytes)
  | _, [] => some []
  | 0, _ :: _ => none
  | fuel + 1, s => do
    let (part, r) ← readPart s
    (decodeParts fuel r).map (part :: ·)

/-- Reads a list of texts; none when the text is not one. Every part takes something off the
text. -/
def decode? (s : Bytes) : Option (List Bytes) := decodeParts s.length s

end ScriptLower.Netstring

/-! ## The cache -/

namespace ScriptLower

/-- A warning without its file. -/
structure CachedWarning where
  /-- How serious it is. -/
  severity : Severity
  /-- What kind of problem it is. -/
  code : Code
  /-- The message. -/
  message : Bytes
  /-- The offsets of its place, if it has one. -/
  place : Option (Nat × Nat) := none
  deriving DecidableEq, Repr, Inhabited

/-- An output without its files. -/
structure CachedOutput where
  /-- The name the source was run under. -/
  specifier : Bytes
  /-- The code. -/
  code : Bytes
  /-- The source map, if it stands beside the code. -/
  map : Option Bytes := none
  /-- The warnings. -/
  warnings : List CachedWarning := []
  deriving DecidableEq, Repr, Inhabited

namespace CachedWarning

/-- Takes a diagnostic from its files. -/
def ofDiagnostic (files : FileSet) (d : Diagnostic) : CachedWarning where
  severity := d.severity
  code := d.code
  message := d.message
  place :=
    if d.primary.isDummy then none
    else (files.fileOf? d.primary.start).map fun f =>
      (f.offset d.primary.start, f.offset d.primary.stop)

/-- Puts a warning back into a file. -/
def restore (file : SourceFile) (w : CachedWarning) : Diagnostic where
  severity := w.severity
  code := w.code
  message := w.message
  primary :=
    match w.place with
    | some (start, stop) => file.span start stop
    | none => {}

/-- A warning as parts of a stored text. -/
def parts (w : CachedWarning) : List Bytes :=
  [Bytes.ofNat w.severity.level, Bytes.ofNat w.code.number, w.message]
    ++ match w.place with
      | some (start, stop) => [Bytes.ofNat start, Bytes.ofNat stop]
      | none => [[], []]

/-- Reads warnings back from parts. -/
def ofParts? : List Bytes → Option (List CachedWarning)
  | [] => some []
  | severity :: code :: message :: start :: stop :: rest => do
    let severity ← Bytes.toNatBase? 10 severity
    let code ← Bytes.toNatBase? 10 code
    let place := do
      pure ((← Bytes.toNatBase? 10 start), (← Bytes.toNatBase? 10 stop))
    let more ← ofParts? rest
    pure ({ severity := ⟨severity⟩, code := ⟨code⟩, message := message, place := place } :: more)
  | _ => none

end CachedWarning

namespace CachedOutput

/-- Takes an output from its files; a failure is not kept. -/
def ofOutput? (o : FileOutput) : Option CachedOutput :=
  if o.isOk then
    some {
      specifier := o.specifier
      code := o.code
      map := o.map
      warnings := o.diagnostics.map (CachedWarning.ofDiagnostic o.files) }
  else none

/-- Puts an output back, given the source it was made from. -/
def restore (c : CachedOutput) (content : Bytes) : FileOutput :=
  let (files, file) := FileSet.empty.add c.specifier content true
  { specifier := c.specifier, code := c.code, map := c.map
    diagnostics := c.warnings.map (CachedWarning.restore file), files := files, cached := true
    inputBytes := content.length }

/-- An output as a stored text. -/
def encode (c : CachedOutput) : Bytes :=
  let map : List Bytes := match c.map with
    | some map => ["map", map]
    | none => ["", ""]
  Netstring.encode ([Bytes.ofNat Digest.schemaVersion, c.specifier, c.code] ++ map
    ++ c.warnings.flatMap CachedWarning.parts)

/-- Reads a stored text; none when it is of another version or damaged. -/
def decode? (s : Bytes) : Option CachedOutput := do
  match ← Netstring.decode? s with
  | version :: specifier :: code :: marked :: map :: rest =>
    if version == Bytes.ofNat Digest.schemaVersion then
      let warnings ← CachedWarning.ofParts? rest
      pure {
        specifier := specifier
        code := code
        map := if marked.isEmpty then none else some map
        warnings := warnings }
    else none
  | _ => none

end CachedOutput

/-- A cache in a directory. -/
structure Cache where
  /-- The directory. -/
  dir : Bytes
  deriving DecidableEq, Repr, Inhabited

namespace Cache

variable {m : Type → Type} [Monad m] [Disk m]

/-- Opens a cache; its directory is made if it is missing. -/
def openAt (dir : Bytes) : ExceptT Disk.Error m Cache := do
  Disk.makeDirectories dir
  return ⟨dir⟩

/-- The file of a key, in a directory named by the first digits of the key. -/
def pathOf (c : Cache) (key : Bytes) : Bytes :=
  let name := Digest.hex key
  Path.join [c.dir, "out", name.take 2, name ++ ".entry"]

/-- The output kept under a key. -/
def get? (c : Cache) (key : Bytes) : ExceptT Disk.Error m (Option CachedOutput) :=
  ExceptT.mk do
    match ← Disk.readFile (c.pathOf key) with
    | .ok s => return .ok (CachedOutput.decode? s)
    | .error .missing => return .ok none
    | .error r => return .error ⟨"open", c.pathOf key, r⟩

/-- Keeps an output under a key. -/
def put (c : Cache) (key : Bytes) (o : CachedOutput) : ExceptT Disk.Error m Unit := do
  Disk.makeDirectories (Path.dir (c.pathOf key))
  Disk.write (c.pathOf key) o.encode

/-- Forgets everything. -/
def dropAll (c : Cache) : ExceptT Disk.Error m Unit := do
  Disk.named "rename" c.dir (Disk.removeTree c.dir)
  Disk.makeDirectories c.dir

end Cache

/-- Why a source could not be run. -/
inductive RunFault
  /-- A disk did not do what it was asked. -/
  | disk (e : Disk.Error)
  /-- An output could not be kept. -/
  | cache (specifier : Bytes) (e : Disk.Error)
  deriving DecidableEq, Repr, Inhabited

/-- A fault on one line. -/
def RunFault.message : RunFault → Bytes
  | disk e => e.message
  | cache specifier e => "cache " ++ specifier ++ ": " ++ e.message

variable {m : Type → Type} [Monad m] [Disk m]

/-- The text of a source file: decoded, with plain line ends. -/
def readSource (path : Bytes) : ExceptT Disk.Error m Bytes := do
  return (Decode.decode (← Disk.read path)).text

/-- The output of a source, from a cache if it is there. -/
def transpileCached (specifier content : Bytes) (o : Options) (cache : Option Cache) :
    ExceptT RunFault m FileOutput := do
  match cache with
  | none => return transpileSource specifier content o
  | some c =>
    let key := Digest.entryKey specifier content (Digest.ofOptions o)
    match ← (c.get? key).adapt RunFault.disk with
    | some kept => return kept.restore content
    | none =>
      let out := transpileSource specifier content o
      match CachedOutput.ofOutput? out with
      | some kept => (c.put key kept).adapt (RunFault.cache specifier)
      | none => pure ()
      return out

end ScriptLower

/-!
### Remembered outputs

A memo keeps the outputs of runs that succeeded, up to a number, under keys that name everything
that can change them. A full memo still answers, but takes nothing new.
-/

namespace ScriptLower

/-- Outputs by key, with counts of the questions asked. -/
structure Memo where
  /-- The outputs kept. -/
  entries : List (Bytes × FileOutput) := []
  /-- How many are kept at most. -/
  limit : Nat := 1024
  /-- How many questions were answered from memory. -/
  hits : Nat := 0
  /-- How many were not. -/
  misses : Nat := 0
  deriving Inhabited

namespace Memo

/-- An empty memo. A limit that is not positive means the default. -/
def new (limit : Int) : Memo := { limit := if limit ≤ 0 then 1024 else limit.toNat }

/-- The key of a question. -/
def key (specifier content : Bytes) (o : Options) : Bytes :=
  Digest.entryKey specifier content (Digest.ofOptions o)

/-- Keeps an output under a new key, if it is one and there is room. -/
def keep (m : Memo) (key : Bytes) (out : FileOutput) : Memo :=
  if out.isOk && m.entries.length < m.limit then { m with entries := (key, out) :: m.entries }
  else m

/-- The output of a source, from memory if it is there. -/
def transpile (m : Memo) (specifier content : Bytes) (o : Options) : FileOutput × Memo :=
  let k := key specifier content o
  match m.entries.lookup k with
  | some out => (out, { m with hits := m.hits + 1 })
  | none =>
    let out := transpileSource specifier content o
    (out, { m with misses := m.misses + 1 }.keep k out)

/-- How many outputs are kept. -/
def size (m : Memo) : Nat := m.entries.length

end Memo

end ScriptLower
