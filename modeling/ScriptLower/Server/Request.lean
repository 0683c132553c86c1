import ScriptLower.Pipeline.Options
import ScriptLower.Source.Path
import ScriptLower.Text.Quoted
import ScriptLower.Text.Scalar
import ScriptLower.Text.Words

/-!
# Requests

What a request says: the options in its query, the type of its body, and the parts of a form.
-/

/-!
## Options in queries

The query of a request overrides the options of the server, parameter by parameter. Of the values of
a parameter the last counts, but definitions and conditions add up. A parameter that nobody knows is
refused, so that a slip of the pen does not go unnoticed.
-/

namespace ScriptLower.Server

open ScriptLower

/-- The parameters of a query in order. -/
abbrev Query := List (Bytes × Bytes)

namespace Query

/-- Decodes a name or a value: a plus sign is a blank. None for a broken escape. -/
def unescape? (s : Bytes) : Option Bytes :=
  Location.unescape? .plain (s.map fun b => if b == ascii '+' then 32 else b)

/-- Reads a query. What cannot be read of it is passed over. -/
def read (s : Bytes) : Query :=
  (Bytes.splitOn (ascii '&') s).filterMap fun part =>
    if part.isEmpty || part.contains (ascii ';') then none
    else
      let (name, value) := (Bytes.cut? "=" part).getD (part, [])
      match unescape? name, unescape? value with
      | some n, some v => some (n, v)
      | _, _ => none

/-- The first value of a parameter; nothing when there is none. -/
def first (q : Query) (name : Bytes) : Bytes := (q.lookup name).getD []

/-- The values of a parameter, in order. -/
def values (q : Query) (name : Bytes) : List Bytes :=
  (q.filter (·.1 == name)).map (·.2)

/-- The names of the parameters, each once. -/
def names (q : Query) : List Bytes := (q.map (·.1)).eraseDups

/-- A truth value; a parameter without a value is true. -/
def truth (s : Bytes) : Except Bytes Bool := if s.isEmpty then .ok true else Scalar.readTruth s

/-- Puts a definition in the place of one of its name. -/
def define (ds : List (Bytes × Bytes)) (name value : Bytes) : List (Bytes × Bytes) :=
  ds.filter (·.1 != name) ++ [(name, value)]

/-- Adds definitions to the options. -/
def addDefines (o : Options) : List Bytes → Except Bytes Options
  | [] => .ok o
  | v :: r =>
    match Bytes.cut? "=" v with
    | some (name, value) =>
      let name := Words.trim name
      if name.isEmpty then .error ("define " ++ Quoted.quote v ++ ": expected NAME=EXPR")
      else addDefines { o with defines := define o.defines name value } r
    | none => .error ("define " ++ Quoted.quote v ++ ": expected NAME=EXPR")

/-- An option that is read from a value; the error names the parameter. -/
def setting (name : Bytes) (r : Except Bytes α) (f : α → Options) : Except Bytes Options :=
  match r with
  | .ok a => .ok (f a)
  | .error m => .error (name ++ ": " ++ m)

/-- The names of the parameters that can be given. -/
def knownNames : List String :=
  ["specifier", "format", "syntax", "target", "jsx_runtime", "jsx_import_source", "jsx_factory",
    "jsx_fragment", "source_map", "development", "minify", "ascii_only", "preserve_imports",
    "decorators", "strict", "define", "strip"]

/-- Overrides the options with the values of one parameter. The name and the format are for the
caller. -/
def override (o : Options) (name : Bytes) (values : List Bytes) : Except Bytes Options :=
  let last := values.getLastD []
  let e := o.elements
  match knownNames.find? fun k => Bytes.ofString k == name with
  | some "specifier" => .ok o
  | some "format" => .ok o
  | some "syntax" => setting name (Dialect.parse last) fun d => { o with dialect := d }
  | some "target" => setting name (Target.parse last) fun t => { o with target := t }
  | some "jsx_runtime" =>
    setting name (Runtime.parse last) fun r => { o with elements := { e with runtime := r } }
  | some "jsx_import_source" => .ok { o with elements := { e with importSource := last } }
  | some "jsx_factory" => .ok { o with elements := { e with factory := last } }
  | some "jsx_fragment" => .ok { o with elements := { e with fragment := last } }
  | some "source_map" => setting name (MapMode.parse last) fun m => { o with sourceMap := m }
  | some "development" =>
    setting name (truth last) fun b => { o with elements := { e with development := b } }
  | some "minify" => setting name (truth last) fun b => { o with minify := b }
  | some "ascii_only" => setting name (truth last) fun b => { o with asciiOnly := b }
  | some "preserve_imports" => setting name (truth last) fun b => { o with preserveImports := b }
  | some "decorators" => setting name (truth last) fun b => { o with decorators := b }
  | some "strict" => setting name (truth last) fun b => { o with strictEarlyErrors := b }
  | some "define" => addDefines o values
  | some "strip" => .ok { o with stripConditionals := o.stripConditionals ++ values }
  | _ => .error ("unknown parameter " ++ Quoted.quote name)

/-- Overrides the options with the parameters of some names. -/
def applyNames (q : Query) : List Bytes → Options → Except Bytes Options
  | [], o => .ok o
  | name :: r, o => (override o name (q.values name)).bind (applyNames q r)

/-- Overrides the options with a query; the error is the message. -/
def apply (q : Query) (o : Options) : Except Bytes Options := applyNames q q.names o

end Query

end ScriptLower.Server

/-!
## Media types

A media type, or a disposition, is a word or two words with a slash between them, followed by
parameters. A parameter may be spread over several pieces and may be written with percent escapes.
-/

namespace ScriptLower.Server

open ScriptLower

/-- A media type with its parameters. -/
structure MediaType where
  /-- The type in lower case. -/
  name : Bytes := []
  /-- The parameters by name in lower case; none when they cannot be read. -/
  parameters : Option (List (Bytes × Bytes)) := none
  deriving DecidableEq, Repr, Inhabited

namespace MediaType

/-- Whether a byte belongs to a word. -/
def isWordByte (b : UInt8) : Bool :=
  0x20 < b && b < 0x7F && !(Bytes.ofString "()<>@,;:\\\"/[]?=").contains b

/-- The word a text begins with, and the rest. -/
def readWord (s : Bytes) : Bytes × Bytes :=
  let word := s.takeWhile isWordByte
  (word, s.drop word.length)

/-- A text without the white space in front. -/
def skipBlanks (s : Bytes) : Bytes :=
  let front := (Utf8.chars s).takeWhile fun c => CharClass.isWhitespace c.1
  s.drop ((front.map (·.2)).foldr (· + ·) 0)

/-- Whether a text is the name of a type or a disposition. -/
def isName (s : Bytes) : Bool :=
  let (word, r) := readWord s
  !word.isEmpty && match r with
    | [] => true
    | 47 :: r =>
      let (second, r) := readWord r
      !second.isEmpty && r.isEmpty
    | _ => false

/-- A value in quotes behind its first quote, and the rest. Only special characters are escaped. -/
def readQuoted : Bytes → Option (Bytes × Bytes)
  | [] => none
  | 34 :: r => some ([], r)
  | 13 :: _ => none
  | 10 :: _ => none
  | 92 :: b :: r =>
    if isWordByte b || b ≤ 0x20 || 0x7F ≤ b then
      (readQuoted (b :: r)).map fun (v, r) => (92 :: v, r)
    else (readQuoted r).map fun (v, r) => (b :: v, r)
  | b :: r => (readQuoted r).map fun (v, r) => (b :: v, r)

/-- A value, and the rest. -/
def readValue (s : Bytes) : Option (Bytes × Bytes) :=
  match s with
  | 34 :: r => readQuoted r
  | _ =>
    let (word, r) := readWord s
    if word.isEmpty then none else some (word, r)

/-- A parameter behind its semicolon, and the rest. -/
def readParameter (s : Bytes) : Option (Bytes × Bytes × Bytes) := do
  let r ← Bytes.dropPrefix? ";" (skipBlanks s)
  let (name, r) := readWord (skipBlanks r)
  if name.isEmpty then none
  else
    let r ← Bytes.dropPrefix? "=" (skipBlanks r)
    let (value, r) ← readValue (skipBlanks r)
    pure (Bytes.lower name, value, r)

/-- Adds a parameter; one that is there already must have the same value. -/
def addParameter (known : List (Bytes × Bytes)) (name value : Bytes) :
    Option (List (Bytes × Bytes)) :=
  match known.lookup name with
  | some v => if v == value then some known else none
  | none => some (known ++ [(name, value)])

/-- Why parameters were not read. -/
inductive ParameterFault
  /-- A parameter is not well formed. -/
  | malformed
  /-- A parameter has two values. -/
  | twice
  deriving DecidableEq, Repr, Inhabited

/-- Reads at most `fuel` parameters. A semicolon may stand at the end. -/
def readParameters : Nat → List (Bytes × Bytes) → Bytes →
    Except ParameterFault (List (Bytes × Bytes))
  | 0, known, _ => .ok known
  | fuel + 1, known, s =>
    let s := skipBlanks s
    if s.isEmpty then .ok known
    else match readParameter s with
      | none => if Words.trim s == Bytes.ofString ";" then .ok known else .error .malformed
      | some (name, value, r) =>
        match addParameter known name value with
        | some known => readParameters fuel known r
        | none => .error .twice

/-- A value that names its character set and language in front, with percent escapes. -/
def decodeValue (v : Bytes) : Option Bytes := do
  let (charset, r) ← Bytes.cut? "'" v
  let (_, r) ← Bytes.cut? "'" r
  let charset := Bytes.lower charset
  if charset == Bytes.ofString "us-ascii" || charset == Bytes.ofString "utf-8" then
    Location.unescape? .plain r
  else none

/-- The pieces of a parameter from the number `n` on, at most `fuel` of them; none when there is
not one. -/
def joinPieces (known : List (Bytes × Bytes)) (name : Bytes) : Nat → Nat → Option Bytes
  | 0, _ => none
  | fuel + 1, n =>
    let key := name ++ "*" ++ Bytes.ofNat n
    let piece : Option Bytes := (known.lookup key).or
      ((known.lookup (key ++ "*")).map fun v =>
        ((if n = 0 then decodeValue v else Location.unescape? .plain v).getD []))
    piece.map fun p => p ++ (joinPieces known name fuel (n + 1)).getD []

/-- The value of a parameter that may be written in pieces or with escapes. -/
def extended (known : List (Bytes × Bytes)) (name : Bytes) : Option Bytes :=
  match known.lookup (name ++ "*") with
  | some v => decodeValue v
  | none => joinPieces known name known.length 0

/-- Reads a media type; without a name when it is none. -/
def read (s : Bytes) : MediaType :=
  let base := s.takeWhile (· != ascii ';')
  let name := Words.trim (Bytes.lower base)
  if !isName name then {}
  else match readParameters (s.length + 1) [] (s.drop base.length) with
    | .ok ps => { name := name, parameters := some ps }
    | .error .malformed => { name := name }
    | .error .twice => {}

/-- The value of a parameter. -/
def parameter? (m : MediaType) (name : Bytes) : Option Bytes :=
  match m.parameters with
  | some ps => (extended ps name).or (ps.lookup name)
  | none => none

end MediaType

end ScriptLower.Server

/-!
## Forms in parts

A form is a list of parts between lines that begin with a boundary. Each part has headers, an empty
line and a content. A body may have been cut off because it was too long; the reader then goes as
far as the bytes reach.
-/

namespace ScriptLower.Server

open ScriptLower

/-- What stands behind the bytes of a body. -/
inductive Ending
  /-- Nothing. -/
  | complete
  /-- More than is read. -/
  | tooLarge
  deriving DecidableEq, Repr, Inhabited

/-- A body as far as it is read. -/
structure Body where
  /-- The bytes. -/
  bytes : Bytes
  /-- What stands behind them. -/
  ending : Ending := .complete
  deriving DecidableEq, Repr, Inhabited

/-- A body, read up to a limit. -/
def Body.limited (limit : Nat) (s : Bytes) : Body :=
  if s.length ≤ limit then { bytes := s } else { bytes := s.take limit, ending := .tooLarge }

/-- Why a file was not found in a form. -/
inductive FormFault
  /-- There is no such part. -/
  | noFile
  /-- The body is too long; `context` says what was being read. -/
  | tooLarge (context : Bytes)
  /-- The body ends inside the file. -/
  | cutOff
  /-- The form is not well formed. -/
  | malformed (message : Bytes)
  deriving DecidableEq, Repr, Inhabited

/-- The words for a body that is too long. -/
def tooLargeMessage : Bytes := "http: request body too large"

/-- A fault on one line. -/
def FormFault.message : FormFault → Bytes
  | noFile => "expecting \"file\" field in request"
  | tooLarge context => context ++ tooLargeMessage
  | cutOff => "failed to read file from body: unexpected EOF"
  | malformed m => m

namespace Multipart

/-- The line a text begins with, its line feed included, and the rest; none when no line feed
comes. -/
def readLine? (s : Bytes) : Option (Bytes × Bytes) :=
  let front := s.takeWhile (· != 10)
  match s.drop front.length with
  | [] => none
  | _ :: r => some (front ++ [10], r)

/-- Whether a byte is a blank or a tab. -/
def isBlank (b : UInt8) : Bool := b == 32 || b == 9

/-- A form being read. -/
structure Reader where
  /-- The line that begins a part, without its end. -/
  boundary : Bytes
  /-- How lines end. -/
  lineEnd : Bytes := [13, 10]
  /-- Whether a part was read. -/
  started : Bool := false
  /-- What is left. -/
  rest : Bytes
  /-- What stands behind it. -/
  ending : Ending
  deriving Inhabited

namespace Reader

/-- What stands behind the boundary on a line, without blanks in front. -/
def behind? (pre line : Bytes) : Option Bytes :=
  (Bytes.dropPrefix? pre line).map (·.dropWhile isBlank)

/-- Whether a line ends the form. -/
def isFinal (f : Reader) (line : Bytes) : Bool :=
  match behind? (f.boundary ++ "--") line with
  | some r => r.isEmpty || r == f.lineEnd
  | none => false

/-- The form after a line that begins a part. The first such line shows how lines end. -/
def begin? (f : Reader) (line : Bytes) : Option Reader :=
  match behind? f.boundary line with
  | none => none
  | some r =>
    let lineEnd := if !f.started && r == [10] then [10] else f.lineEnd
    if r == lineEnd then some { f with lineEnd := lineEnd, started := true } else none

/-- The fault of a form that ends too early. -/
def early (f : Reader) (context : Bytes) : FormFault :=
  match f.ending with
  | .complete => .noFile
  | .tooLarge => .tooLarge context

/-- Goes to the next part, over at most `fuel` lines; `blank` says that an empty line was passed. -/
def next : Nat → Bool → Reader → Except FormFault Reader
  | 0, _, f => .error (f.early [])
  | fuel + 1, blank, f =>
    match readLine? f.rest with
    | none => .error (f.early "multipart: NextPart: ")
    | some (line, rest) =>
      let f := { f with rest := rest }
      match f.begin? line with
      | some f => .ok f
      | none =>
        if f.isFinal line then .error .noFile
        else if blank then
          .error (.malformed ("multipart: expecting a new Part; got line " ++ Quoted.quote line))
        else if !f.started then next fuel false f
        else if line == f.lineEnd then next fuel true f
        else .error (.malformed ("multipart: unexpected line in Next(): " ++ Quoted.quote line))

/-- A line without its end, or what is left when no line end comes. -/
def headerLine? (s : Bytes) : Option (Bytes × Bytes) :=
  match readLine? s with
  | some (line, r) => some (Bytes.trimSuffix "\r" (Bytes.trimSuffix "\n" line), r)
  | none => if s.isEmpty then none else some (s, [])

/-- The lines that continue a header, at most `fuel` of them: each begins with blanks. -/
def continued : Nat → Bytes → Bytes → Bytes × Bytes
  | 0, line, s => (line, s)
  | fuel + 1, line, s =>
    let r := s.dropWhile isBlank
    if r.length == s.length then (line, s)
    else match headerLine? r with
      | some (more, r) =>
        continued fuel (line ++ [32] ++ Bytes.trimRight isBlank (more.dropWhile isBlank)) r
      | none => (line ++ [32], r)

/-- Whether a text can name a header. -/
def isHeaderName (s : Bytes) : Bool :=
  !s.isEmpty && s.all fun b =>
    b == 32 || Bytes.isAlpha b || Bytes.isDigit b || (Bytes.ofString "!#$%&'*+-.^_`|~").contains b

/-- Whether a byte may stand in the value of a header. -/
def isValueByte (b : UInt8) : Bool := b == 9 || (32 ≤ b && b != 127)

/-- Reads at most `fuel` headers up to an empty line. -/
def headers : Nat → List (Bytes × Bytes) → Reader → Except FormFault (List (Bytes × Bytes) × Reader)
  | 0, _, f => .error (f.early [])
  | fuel + 1, known, f =>
    match headerLine? f.rest with
    | none => .error (f.early [])
    | some (line, r) =>
      if line.isEmpty then .ok (known, { f with rest := r })
      else if !line.contains (ascii ':') then
        .error (.malformed ("malformed MIME header: missing colon: " ++ Quoted.quote line))
      else
        let (line, r) :=
          continued (r.length + 1) (Bytes.trimRight isBlank (line.dropWhile isBlank)) r
        let name := line.takeWhile (· != ascii ':')
        let value := line.drop (name.length + 1)
        if !isHeaderName name || !value.all isValueByte then
          .error (.malformed ("malformed MIME header line: " ++ line))
        else headers fuel (known ++ [(Bytes.lower name, value.dropWhile isBlank)])
          { f with rest := r }

/-- Reads the headers of a part. The first of them does not begin with a blank. -/
def partHeaders (f : Reader) : Except FormFault (List (Bytes × Bytes) × Reader) :=
  match f.rest with
  | b :: _ =>
    if isBlank b then
      match headerLine? f.rest with
      | some (line, _) => .error (.malformed ("malformed MIME header initial line: " ++ line))
      | none => .error (f.early [])
    else headers (f.rest.length + 1) [] f
  | [] => .error (f.early [])

/-- Whether what stands behind a boundary makes it one. -/
def endsBoundary : Bytes → Bool
  | b :: r => b == 32 || b == 9 || b == 13 || b == 10 || (b == 45 && r.head? == some 45)
  | [] => false

/-- Where the boundary of the next part stands, with the line end in front of it. -/
def findEnd (mark : Bytes) : Bytes → Option Nat
  | [] => none
  | b :: r =>
    if mark.isPrefixOf (b :: r) && endsBoundary ((b :: r).drop mark.length) then some 0
    else (findEnd mark r).map (· + 1)

/-- The content of a part, and the form behind it; none when the content does not end. -/
def content? (f : Reader) : Option (Bytes × Reader) :=
  if f.boundary.isPrefixOf f.rest && endsBoundary (f.rest.drop f.boundary.length) then some ([], f)
  else (findEnd (f.lineEnd ++ f.boundary) f.rest).map fun n =>
    (f.rest.take n, { f with rest := f.rest.drop n })

/-- The disposition of a part. -/
def disposition (hs : List (Bytes × Bytes)) : MediaType :=
  match hs.lookup (Bytes.ofString "content-disposition") with
  | some v =>
    let m := MediaType.read v
    if m.parameters.isSome then m else {}
  | none => {}

/-- Looks for the part that holds the file, over at most `fuel` parts: its content and the name of
the file. -/
def findFile : Nat → Reader → Except FormFault (Bytes × Bytes)
  | 0, f => .error (f.early [])
  | fuel + 1, f =>
    match next (f.rest.length + 1) false f with
    | .error e => .error e
    | .ok f =>
      match f.partHeaders with
      | .error e => .error e
      | .ok (hs, f) =>
        let d := disposition hs
        let isFile := d.name == Bytes.ofString "form-data"
          && d.parameter? "name" == some (Bytes.ofString "file")
        match f.content? with
        | none =>
          if !isFile then findFile fuel { f with rest := [] }
          else .error (match f.ending with
            | .complete => .cutOff
            | .tooLarge => .tooLarge "failed to read file from body: ")
        | some (content, f) =>
          if isFile then
            let name := (d.parameter? "filename").getD []
            .ok (content, if name.isEmpty then [] else Path.base name)
          else findFile fuel f

end Reader

/-- The content of the file in a form, and its name. -/
def file (boundary : Bytes) (body : Body) : Except FormFault (Bytes × Bytes) :=
  if boundary.isEmpty then .error (.malformed "multipart: boundary is empty")
  else
    let boundary : Bytes := "--" ++ boundary
    Reader.findFile (body.bytes.length + 1)
      { boundary := boundary, rest := body.bytes, ending := body.ending }

end Multipart

end ScriptLower.Server
