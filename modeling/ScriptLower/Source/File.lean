import ScriptLower.Source.Path
import ScriptLower.Source.Span
import ScriptLower.Text.Utf8

/-!
# Sources

The text of a source, and the positions of its bytes among all sources.
-/

/-!
## Source texts from raw bytes

A text may arrive as UTF-16 with a byte order mark, or with the UTF-8 mark in front, or with
carriage returns before its line feeds. Decoding gives plain UTF-8 with line feeds and says what
it changed.
-/

namespace ScriptLower.Decode

open ScriptLower

/-- A decoded text and what decoding changed. -/
structure Decoded where
  /-- The text. -/
  text : Bytes
  /-- A byte order mark stood in front. -/
  hadMark : Bool := false
  /-- Pairs of carriage return and line feed became line feeds. -/
  hadCrLf : Bool := false
  /-- The text was UTF-16. -/
  wasUtf16 : Bool := false
  deriving Repr, DecidableEq

/-- The UTF-16 units of a text, an odd byte at the end read as the replacement character. -/
def units16 (bigEndian : Bool) : Bytes → List Nat
  | [] => []
  | [_] => [Utf8.replacement]
  | a :: b :: r =>
    (if bigEndian then a.toNat * 256 + b.toNat else b.toNat * 256 + a.toNat) :: units16 bigEndian r

/-- The characters of UTF-16 units. A low half is read together with the half before it: behind a
high half it completes a character, behind another low half both together are unreadable. A half
that is left alone is unreadable too. -/
def chars16 : List Nat → List Nat
  | [] => []
  | [u] => [if Utf8.isSurrogate u then Utf8.replacement else u]
  | u :: v :: r =>
    if Utf8.isSurrogate u && 0xDC00 ≤ v && v ≤ 0xDFFF then
      (if u < 0xDC00 then Utf8.joinSurrogates u v else Utf8.replacement) :: chars16 r
    else (if Utf8.isSurrogate u then Utf8.replacement else u) :: chars16 (v :: r)

/-- Line feeds for pairs of carriage return and line feed; a carriage return alone stays. -/
def dropCrLf : Bytes → Bytes
  | [] => []
  | 13 :: 10 :: r => 10 :: dropCrLf r
  | b :: r => b :: dropCrLf r

/-- The text of raw bytes. -/
def decode (raw : Bytes) : Decoded :=
  let (body, utf16) : Bytes × Bool := match raw with
    | 0xFF :: 0xFE :: r => (Utf8.ofCodePoints (chars16 (units16 false r)), true)
    | 0xFE :: 0xFF :: r => (Utf8.ofCodePoints (chars16 (units16 true r)), true)
    | _ => (raw, false)
  let (body, mark) : Bytes × Bool := match body with
    | 0xEF :: 0xBB :: 0xBF :: r => (r, true)
    | _ => (body, false)
  let text := dropCrLf body
  { text := text, hadMark := mark || utf16, hadCrLf := text.length != body.length,
    wasUtf16 := utf16 }

end ScriptLower.Decode

/-!
## Registered files

A file set hands out positions: the first file begins at position one, and each file begins one
behind the end of the file before it, so that the end of a file is a position of its own and no
two files share one.
-/

/-!
### Lines of a text

A line ends at a line feed, a carriage return, the two together, or one of the two Unicode line
terminators. `starts` lists where the lines begin; it is increasing and begins with zero, so the
line of an offset is found by halving.
-/

namespace ScriptLower.Lines

open ScriptLower

/-- The bytes of the line terminator at the head of a text; zero when there is none. -/
def terminator : Bytes → Nat
  | 10 :: _ => 1
  | 13 :: 10 :: _ => 2
  | 13 :: _ => 1
  | 0xE2 :: 0x80 :: c :: _ => if c == 0xA8 || c == 0xA9 then 3 else 0
  | _ => 0

/-- The offsets behind each terminator, when the text begins at `off` and its first `skip` bytes
belong to a terminator already seen. -/
def startsFrom : Nat → Nat → Bytes → List Nat
  | _, _, [] => []
  | off, skip + 1, _ :: r => startsFrom (off + 1) skip r
  | off, 0, b :: r =>
    match terminator (b :: r) with
    | 0 => startsFrom (off + 1) 0 r
    | n + 1 => (off + n + 1) :: startsFrom (off + 1) n r

/-- The offsets at which lines start. -/
def starts (s : Bytes) : List Nat := 0 :: startsFrom 0 0 s

/-- The last of the starts up to an offset, counted from zero and found by halving the range from
`lo` to `hi`: those in front of it are up to the offset, and those from its end on are not. -/
def search (starts : List Nat) (off lo hi : Nat) : Nat :=
  if lo < hi then
    let mid := (lo + hi - 1) / 2
    if starts.getD mid 0 ≤ off then search starts off (mid + 1) hi else search starts off lo mid
  else hi - 1
termination_by hi - lo

/-- The number, from zero, of the line that holds an offset. -/
def indexOf (starts : List Nat) (off : Nat) : Nat := search starts off 0 starts.length

/-- Line and column of an offset. -/
def lineCol (s : Bytes) (off : Nat) : LineCol :=
  let st := starts s
  let i := indexOf st off
  ⟨i + 1, off - st.getD i 0 + 1⟩

/-- Line and column of an offset, both from zero and the column in UTF-16 units. -/
def lineCol16 (s : Bytes) (off : Nat) : Nat × Nat :=
  let st := starts s
  let i := indexOf st off
  let start := st.getD i 0
  (i, Utf8.length16 ((s.take off).drop start))

/-- A line, counted from one, without its terminator. -/
def line (s : Bytes) (n : Nat) : Bytes :=
  let st := starts s
  if n = 0 || st.length < n then []
  else
    let start := st.getD (n - 1) 0
    let stop := st.getD n s.length
    let body := Bytes.trimRight (fun b => b == 13 || b == 10) ((s.take stop).drop start)
    Bytes.trimSuffix [0xE2, 0x80, 0xA9] (Bytes.trimSuffix [0xE2, 0x80, 0xA8] body)

end ScriptLower.Lines

/-! ## Files -/

namespace ScriptLower

/-- A registered source. -/
structure SourceFile where
  /-- Its number in the set. -/
  id : Nat := 0
  /-- Its cleaned path. -/
  path : Bytes := []
  /-- Its bytes. -/
  content : Bytes := []
  /-- The position of its first byte. -/
  base : Nat := 1
  /-- Whether it came from memory and not from disk. -/
  virtual : Bool := true
  deriving DecidableEq, Repr, Inhabited

/-- How a file's path is shown. -/
inductive PathMode
  /-- As an absolute path. -/
  | absolute
  /-- Relative to the base directory. -/
  | relative
  /-- The last element. -/
  | basename
  /-- The path, or its last element when it is long and absolute. -/
  | auto
  /-- The path as it is. -/
  | asIs
  deriving DecidableEq, Repr, Inhabited

namespace SourceFile

/-- The position of an offset, in 32-bit words. -/
def posWord (f : SourceFile) (off : Nat) : UInt32 := f.base.toUInt32 + off.toUInt32

/-- The position behind the last byte, in 32-bit words. -/
def endWord (f : SourceFile) : UInt32 := f.posWord f.content.length

/-- The offset of a position, clamped to the content. -/
def offset (f : SourceFile) (pos : Nat) : Nat := min (pos - f.base) f.content.length

/-- The span of a range of offsets. -/
def span (f : SourceFile) (start stop : Nat) : Span := ⟨f.id, f.base + start, f.base + stop⟩

/-- The bytes a span covers. -/
def text (f : SourceFile) (s : Span) : Bytes :=
  if s.isDummy then []
  else (f.content.take (f.offset s.stop)).drop (f.offset s.start)

/-- Line and column of a position. -/
def lineCol (f : SourceFile) (pos : Nat) : LineCol := Lines.lineCol f.content (f.offset pos)

/-- Line and column of a position, from zero, the column in UTF-16 units. -/
def lineCol16 (f : SourceFile) (pos : Nat) : Nat × Nat := Lines.lineCol16 f.content (f.offset pos)

/-- A line, counted from one, without its terminator. -/
def line (f : SourceFile) (n : Nat) : Bytes := Lines.line f.content n

/-- A path relative to the directory `dir`, or its absolute form when it lies outside. Relative
paths are taken from the directory `cwd`. -/
def relativePath (cwd dir p : Bytes) : Bytes :=
  let abs := Path.absolute cwd p
  match Path.relative? (Path.absolute cwd dir) abs with
  | some rel => if Path.climbs rel then abs else rel
  | none => abs

/-- The path as it is shown. -/
def formatPath (f : SourceFile) (mode : PathMode) (cwd dir : Bytes) : Bytes :=
  match mode with
  | .absolute => Path.absolute cwd f.path
  | .relative =>
    if f.virtual then f.path
    else relativePath cwd (if dir.isEmpty then cwd else dir) f.path
  | .basename => Path.base f.path
  | .auto =>
    if f.path.length < 40 || !Path.isAbsolute f.path then f.path else Path.base f.path
  | .asIs => f.path

end SourceFile

/-- The registered sources, in order of registration. -/
structure FileSet where
  /-- The files; a file's number is its index. -/
  files : List SourceFile := []
  /-- The position of the next file. -/
  next : Nat := 1
  /-- The directory shown paths are relative to; empty for the working directory. -/
  baseDir : Bytes := []
  /-- The working directory. -/
  workDir : Bytes := []
  deriving Inhabited

namespace FileSet

/-- The set without files. -/
def empty : FileSet := {}

/-- The last position at which a text of `size` bytes may begin, in 32-bit words. -/
def lastBase (size : Nat) : UInt32 := 0xFFFFFFFF - size.toUInt32 - 1

/-- The position behind a text of `size` bytes and its end, in 32-bit words. -/
def behind (base size : Nat) : UInt32 := base.toUInt32 + size.toUInt32 + 1

/-- Whether one more file, with a text of `size` bytes, passes the checks of its number, its size
and its positions. -/
def hasRoom (fs : FileSet) (size : Nat) : Bool :=
  fs.files.length < UInt32.size && size < UInt32.size && fs.next ≤ (lastBase size).toNat

/-- The file that registering a text makes. -/
def fileFor (fs : FileSet) (path content : Bytes) (virtual : Bool) : SourceFile :=
  { id := fs.files.length, path := Path.clean path, content := content, base := fs.next,
    virtual := virtual }

/-- Registers a text under a path, without the checks. A path may be registered more than once; each
time makes a file of its own. -/
def add (fs : FileSet) (path content : Bytes) (virtual : Bool) : FileSet × SourceFile :=
  let f := fs.fileFor path content virtual
  ({ fs with files := fs.files ++ [f], next := fs.next + content.length + 1 }, f)

/-- Registers a file with a text of `size` bytes if it passes the checks. -/
def register? (fs : FileSet) (f : SourceFile) (size : Nat) : Option FileSet :=
  if fs.hasRoom size then
    some { fs with files := fs.files ++ [f], next := (behind fs.next size).toNat }
  else none

/-- Registers a text under a path if it passes the checks. -/
def add? (fs : FileSet) (path content : Bytes) (virtual : Bool) : Option (FileSet × SourceFile) :=
  let f := fs.fileFor path content virtual
  (fs.register? f content.length).map (·, f)

/-- The file with a number. -/
def get? (fs : FileSet) (id : Nat) : Option SourceFile := fs.files[id]?

/-- The latest file registered under a path. -/
def byPath? (fs : FileSet) (path : Bytes) : Option SourceFile :=
  fs.files.reverse.find? (·.path == Path.clean path)

/-- The file whose range of positions, its end included, holds a position. -/
def fileOf? (fs : FileSet) (pos : Nat) : Option SourceFile :=
  if pos = 0 then none else fs.files.find? fun f => f.base ≤ pos && pos ≤ f.endWord.toNat

/-- Line and column of both ends of a span; zero for a span that names no place. -/
def resolve (fs : FileSet) (s : Span) : LineCol × LineCol :=
  if s.isDummy then ({}, {})
  else match fs.get? s.file with
    | some f => (f.lineCol s.start, f.lineCol s.stop)
    | none => ({}, {})

/-- The directory shown paths are relative to. -/
def shownBase (fs : FileSet) : Bytes := if fs.baseDir.isEmpty then fs.workDir else fs.baseDir

end FileSet

end ScriptLower
