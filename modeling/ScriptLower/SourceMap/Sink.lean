import ScriptLower.Source.File
import ScriptLower.Text.Bytes
import ScriptLower.Text.Json

/-!
# Source maps

A source map tells for places in the printed text where they come from. Places are lines and
columns from zero, columns in UTF-16 units. Entries arrive in the order of the printed text; they
are written line by line, each as the difference to the entry before.
-/

/-!
## Base64

Three bytes become four characters of an alphabet of sixty-four; a shorter group at the end is
filled up with equals signs.
-/

namespace ScriptLower.Base64

open ScriptLower

/-- The alphabet, in order of value. -/
def alphabet : Bytes := "ABCDEFGHIJKLMNOPQRSTUVWXYZabcdefghijklmnopqrstuvwxyz0123456789+/"

/-- The character of a value below 64. -/
def char (n : Nat) : UInt8 := alphabet.getD n 61

/-- The value of a character. -/
def value? (b : UInt8) : Option Nat := alphabet.findIdx? (· == b)

/-- Encodes a text. -/
def encode : Bytes → Bytes
  | [] => []
  | [a] =>
    let n := a.toNat * 65536
    [char (n / 262144), char (n / 4096 % 64), 61, 61]
  | [a, b] =>
    let n := a.toNat * 65536 + b.toNat * 256
    [char (n / 262144), char (n / 4096 % 64), char (n / 64 % 64), 61]
  | a :: b :: c :: r =>
    let n := a.toNat * 65536 + b.toNat * 256 + c.toNat
    char (n / 262144) :: char (n / 4096 % 64) :: char (n / 64 % 64) :: char (n % 64) :: encode r

/-- Decodes groups of four characters; none for a character outside the alphabet or a group that
is not full. -/
def decode? : Bytes → Option Bytes
  | [] => some []
  | [a, b, 61, 61] => do
    let n := (← value? a) * 64 + (← value? b)
    some [(n / 16).toUInt8]
  | [a, b, c, 61] => do
    let n := ((← value? a) * 64 + (← value? b)) * 64 + (← value? c)
    some [(n / 1024).toUInt8, (n / 4 % 256).toUInt8]
  | a :: b :: c :: d :: r => do
    let n := (((← value? a) * 64 + (← value? b)) * 64 + (← value? c)) * 64 + (← value? d)
    let more ← decode? r
    some ((n / 65536).toUInt8 :: (n / 256 % 256).toUInt8 :: (n % 256).toUInt8 :: more)
  | _ => none

end ScriptLower.Base64

/-!
## Numbers of variable length

A number is written in digits of five bits, the lowest first, as characters of the Base64
alphabet. The lowest bit of all is the sign, and the highest bit of a character says that more
follow.
-/

namespace ScriptLower.Vlq

open ScriptLower

/-- The number with its sign in the lowest bit. -/
def fold (v : Int) : Nat := if v < 0 then 2 * v.natAbs + 1 else 2 * v.natAbs

/-- The digits of a number, the lowest first. -/
def digits (u : Nat) : Bytes :=
  if u < 32 then [Base64.char u]
  else Base64.char (u % 32 + 32) :: digits (u / 32)
termination_by u
decreasing_by omega

/-- Writes a number. -/
def encode (v : Int) : Bytes := digits (fold v)

end ScriptLower.Vlq

/-! ## Places -/

namespace ScriptLower

/-- One entry: a place in the printed text and the place it comes from. -/
structure Mapping where
  /-- The printed line. -/
  line : Nat
  /-- The printed column. -/
  col : Nat
  /-- The line in the source. -/
  sourceLine : Nat
  /-- The column in the source. -/
  sourceCol : Nat
  deriving DecidableEq, Repr, Inhabited

/-- The entries for one source file. -/
structure MapSink where
  /-- The source file. -/
  file : SourceFile
  /-- The entries, the latest first. -/
  latestFirst : List Mapping := []
  deriving Inhabited

/-- Why an entry is refused. -/
inductive MapError
  /-- The place is not in the file. -/
  | outside (span : Span) (path : Bytes)
  /-- The printed place lies before that of the latest entry. -/
  | disorder (line col lastLine lastCol : Nat)
  deriving DecidableEq, Repr, Inhabited

/-- The message of an error. -/
def MapError.message : MapError → Bytes
  | outside span path =>
    "sourcemap: span outside the source file: " ++ span.text ++ " in " ++ path
  | disorder line col lastLine lastCol =>
    "sourcemap: mapping " ++ Bytes.ofNat line ++ ":" ++ Bytes.ofNat col ++ " arrives after "
      ++ Bytes.ofNat lastLine ++ ":" ++ Bytes.ofNat lastCol

/-- Why no map can be made for a file. -/
inductive SinkError
  /-- There is no file. -/
  | noFile
  /-- The file is not the one registered under its number. -/
  | otherFile (path : Bytes)
  deriving DecidableEq, Repr, Inhabited

/-- The message of an error. -/
def SinkError.message : SinkError → Bytes
  | noFile => "sourcemap: file does not match the source registry"
  | otherFile path =>
    "sourcemap: file does not match the source registry: " ++ path
      ++ " is registered with a different base"

namespace MapSink

/-- A map for a file, which must be the registered one. -/
def new (fs : FileSet) (file : Option SourceFile) : Except SinkError MapSink :=
  match file with
  | none => .error .noFile
  | some f =>
    match fs.get? f.id with
    | none => .error (.otherFile f.path)
    | some r =>
      if r.base == f.base && r.content.length == f.content.length then .ok { file := f }
      else .error (.otherFile f.path)

/-- The entries, in order. -/
def mappings (s : MapSink) : List Mapping := s.latestFirst.reverse

/-- Whether a span lies in the file of the map. -/
def holds (s : MapSink) (span : Span) : Bool :=
  span.file == s.file.id && s.file.base ≤ span.start && span.start ≤ s.file.endWord.toNat
    && span.stop ≤ s.file.endWord.toNat

/-- The entry for a printed place and the start of a span. -/
def entry (s : MapSink) (line col : Nat) (span : Span) : Mapping :=
  let (sourceLine, sourceCol) := s.file.lineCol16 span.start
  { line := line, col := col, sourceLine := sourceLine, sourceCol := sourceCol }

/-- Adds an entry. A span without a place adds none, and neither does a printed place that has an
entry already. -/
def add (s : MapSink) (line col : Nat) (span : Span) : Except MapError MapSink :=
  if span.isDummy then .ok s
  else if !s.holds span then .error (.outside span s.file.path)
  else match s.latestFirst with
    | [] => .ok { s with latestFirst := [s.entry line col span] }
    | last :: _ =>
      if last.line = line && last.col = col then .ok s
      else if line < last.line || (line = last.line && col < last.col) then
        .error (.disorder line col last.line last.col)
      else .ok { s with latestFirst := s.entry line col span :: s.latestFirst }

/-! ## Writing -/

/-- Where the writer of a map stands: the line, whether the line has an entry, and the values of
the entry before. -/
structure Cursor where
  /-- The printed line. -/
  line : Nat := 0
  /-- Whether the line has no entry yet. -/
  isFirst : Bool := true
  /-- The printed column of the entry before on this line. -/
  col : Nat := 0
  /-- The source line of the entry before. -/
  sourceLine : Nat := 0
  /-- The source column of the entry before. -/
  sourceCol : Nat := 0
  deriving DecidableEq, Repr, Inhabited

/-- The difference of two numbers. -/
def difference (now before : Nat) : Bytes := Vlq.encode ((now : Int) - (before : Int))

/-- One entry as text. There is one source, so its number never changes. -/
def encodeEntry (c : Cursor) (m : Mapping) : Bytes :=
  let lines := m.line - c.line
  let moved := 0 < lines
  let separator : Bytes := if moved || c.isFirst then [] else ","
  List.replicate lines (ascii ';') ++ separator
    ++ difference m.col (if moved then 0 else c.col) ++ Vlq.encode 0
    ++ difference m.sourceLine c.sourceLine ++ difference m.sourceCol c.sourceCol

/-- The entries as text, from a place on. -/
def encodeFrom : Cursor → List Mapping → Bytes
  | _, [] => []
  | c, m :: r =>
    encodeEntry c m ++ encodeFrom
      { line := max c.line m.line, isFirst := false, col := m.col, sourceLine := m.sourceLine,
        sourceCol := m.sourceCol } r

/-- All entries as text. -/
def encoded (s : MapSink) : Bytes := encodeFrom {} s.mappings

/-- The map as a JSON text; `generated` names the printed file. -/
def json (s : MapSink) (generated : Bytes) : Bytes :=
  (JsonValue.members [
    ("version", some (.nat 3)),
    ("file", JsonValue.nonempty generated),
    ("sources", some (.arr [.str s.file.path])),
    ("sourcesContent", some (.arr [.str s.file.content])),
    ("names", some (.arr [])),
    ("mappings", some (.str s.encoded))]).compact

/-- The comment that holds a map. -/
def inlineComment (map : Bytes) : Bytes :=
  "//# sourceMappingURL=data:application/json;base64," ++ Base64.encode map

/-- The comment that names a map. -/
def urlComment (url : Bytes) : Bytes := "//# sourceMappingURL=" ++ url

end MapSink

end ScriptLower
