import ScriptLower.Comment.Table
import ScriptLower.Diagnostic.Basic
import ScriptLower.SourceMap.Sink
import ScriptLower.Text.Utf8

/-!
# Writing pieces

A text is written piece by piece: the writer knows where its end stands, and the pieces say what
comes next.
-/

/-!
## Writing text

A writer holds the text so far and where its end stands, as line and column in UTF-16 units. It
puts a blank between tokens that would otherwise run together, indents lines, and when it
minifies holds a semicolon back, since none is needed in front of a closing brace.
-/

namespace ScriptLower

/-- The text so far and where it ends. -/
structure Writer where
  /-- Whether blanks and line ends are left out. -/
  minify : Bool := false
  /-- How many blanks a level of indentation has. -/
  indent : Nat := 2
  /-- The bytes so far, the last first. -/
  reversed : Bytes := []
  /-- The level of indentation. -/
  level : Nat := 0
  /-- Whether the next text is to be indented. -/
  atLineStart : Bool := false
  /-- The line of the end, from zero. -/
  line : UInt32 := 0
  /-- The column of the end in UTF-16 units, from zero. -/
  col : UInt32 := 0
  /-- Whether a semicolon is held back. -/
  heldSemi : Bool := false
  /-- The map, if there is one. -/
  sink : Option MapSink := none
  /-- The place that the next token comes from. -/
  pending : Option Span := none
  /-- The first entry that the map refused. -/
  mapError : Option MapError := none
  deriving Inhabited

namespace Writer

/-- The text so far. -/
def text (w : Writer) : Bytes := w.reversed.reverse

/-- The end of the text behind one more byte. Of the bytes of a character the first counts, for
two units when the character has four bytes. -/
def advance (p : UInt32 × UInt32) (b : UInt8) : UInt32 × UInt32 :=
  if b == 10 then (p.1 + 1, 0)
  else if b < 0x80 then (p.1, p.2 + 1)
  else if 0xF0 ≤ b then (p.1, p.2 + 2)
  else if 0xC0 ≤ b then (p.1, p.2 + 1)
  else p

/-- Adds text as it is. -/
def append (w : Writer) (s : Bytes) : Writer :=
  let (line, col) := s.foldl advance (w.line, w.col)
  { w with reversed := s.reverse ++ w.reversed, line := line, col := col }

/-- Indents the line if it has just begun. -/
def startLine (w : Writer) : Writer :=
  if !w.atLineStart then w
  else
    let w := { w with atLineStart := false }
    if w.minify then w else w.append (List.replicate (w.level * w.indent) 32)

/-- Writes the semicolon that was held back. -/
def flushSemi (w : Writer) : Writer :=
  if w.heldSemi then { w with heldSemi := false }.append ";" else w

/-- A byte of a name or number. -/
def isWordByte (b : UInt8) : Bool :=
  b == ascii '_' || b == ascii '$' || b == ascii '\\' || 0x80 ≤ b || Bytes.isAlpha b
    || Bytes.isDigit b

/-- Whether a token that begins with `next` would run together with one that ends in `last`. -/
def runTogether (last next : UInt8) : Bool :=
  (isWordByte last && isWordByte next)
    || (last == next && (next == ascii '+' || next == ascii '-' || next == ascii '/'))

/-- Keeps two tokens apart. -/
def separate (w : Writer) (next : UInt8) : Writer :=
  match w.reversed with
  | last :: _ => if runTogether last next then w.append " " else w
  | [] => w

/-- Enters the end of the text into the map, if a place is pending. -/
def place (w : Writer) : Writer :=
  match w.pending, w.sink with
  | some span, some sink =>
    let w := { w with pending := none }
    match sink.add w.line.toNat w.col.toNat span with
    | .ok sink => { w with sink := some sink }
    | .error e => { w with mapError := w.mapError.or (some e) }
  | _, _ => w

/-- Writes a token. -/
def token (w : Writer) (s : Bytes) : Writer :=
  match s with
  | [] => w
  | b :: _ => ((w.flushSemi.startLine.separate b).place).append s

/-- Writes text as it is. -/
def raw (w : Writer) (s : Bytes) : Writer := w.flushSemi.startLine.append s

/-- Ends a statement. -/
def semi (w : Writer) : Writer :=
  if w.minify then { w.flushSemi with heldSemi := true } else w.token ";"

/-- Forgets the semicolon that was held back. -/
def dropSemi (w : Writer) : Writer := { w with heldSemi := false }

/-- Writes a blank, unless there is one or nothing is written yet. -/
def space (w : Writer) : Writer :=
  match w.reversed with
  | [] => w
  | last :: _ =>
    if w.minify || last == 32 || last == 10 then w else w.startLine.append " "

/-- Ends the line, also when minifying. -/
def forceNewline (w : Writer) : Writer :=
  let w := w.flushSemi
  let w := match w.reversed with
    | [] => w
    | last :: _ => if last == 10 then w else w.append [10]
  { w with atLineStart := true }

/-- Ends the line. -/
def newline (w : Writer) : Writer := if w.minify then w else w.forceNewline

/-- Goes one level deeper. -/
def push (w : Writer) : Writer := { w with level := w.level + 1 }

/-- Goes one level back. -/
def pop (w : Writer) : Writer := { w with level := w.level - 1 }

/-- Says where the next token comes from. -/
def map (w : Writer) (span : Span) : Writer :=
  if w.sink.isNone || span.isDummy then w else { w with pending := some span }

end Writer

end ScriptLower

/-!
## Pieces of printed text

A tree is first laid out as a list of pieces, and then the pieces are written. Which comments
stand where is only known while writing, because each is printed once, at the first place that
asks for it.
-/

/-!
### Printing in ASCII

Where only ASCII may be printed, the other characters become escapes that mean the same: code
points in names, UTF-16 units elsewhere, since strings and regular expressions of any kind know
those.
-/

namespace ScriptLower.Print

open ScriptLower

/-- Four upper-case hexadecimal digits at least. -/
def hex4 (n : Nat) : Bytes :=
  Bytes.padLeft 4 (ascii '0') ((Bytes.ofNatHex n).map fun b => if 97 ≤ b then b - 32 else b)

/-- The escape of one character. -/
def escapeChar (inName : Bool) (c : Nat) : Bytes :=
  if c < 0x80 then Utf8.encode c
  else if c ≤ 0xFFFF then "\\u" ++ hex4 c
  else if inName then "\\u\x7b" ++ hex4 c ++ "\x7d"
  else
    let (hi, lo) := Utf8.splitSurrogates c
    "\\u" ++ hex4 hi ++ "\\u" ++ hex4 lo

/-- A text with its characters beyond ASCII as escapes. -/
def escapeText (inName : Bool) (s : Bytes) : Bytes :=
  (Utf8.codePoints s).flatMap (escapeChar inName)

end ScriptLower.Print

/-! ## Pieces -/

namespace ScriptLower.Print

open ScriptLower

/-- A step of writing. -/
inductive Piece
  /-- A token. -/
  | token (s : Bytes)
  /-- Text as it is. -/
  | raw (s : Bytes)
  /-- A blank. -/
  | space
  /-- The end of a line. -/
  | newline
  /-- The end of a statement. -/
  | semi
  /-- The last semicolon is not needed. -/
  | dropSemi
  /-- One level deeper. -/
  | push
  /-- One level back. -/
  | pop
  /-- Where the next token comes from. -/
  | map (span : Span)
  /-- The comments before the statement at a position. -/
  | leading (pos : Nat)
  /-- The comments before the closing brace at a position. -/
  | dangling (pos : Nat)
  /-- The rest of an empty body with its closing brace at a position. -/
  | emptyBody (pos : Nat)
  /-- Something that cannot be printed. -/
  | fault (d : Diagnostic)
  deriving DecidableEq, Repr, Inhabited

/-- Steps of writing, in order. -/
abbrev Pieces := List Piece

/-- What writing changes. -/
structure State where
  /-- The text. -/
  writer : Writer := {}
  /-- The comments still to be printed. -/
  comments : CommentTable := {}
  /-- Whether the output keeps to ASCII. -/
  asciiOnly : Bool := false
  /-- The diagnostics, in order. -/
  reports : List Diagnostic := []
  deriving Inhabited

namespace State

/-- Changes the text. -/
def write (s : State) (f : Writer → Writer) : State := { s with writer := f s.writer }

/-- Whether a comment is printed. -/
def prints (s : State) (c : Comment) : Bool := !c.hashbang && (!s.writer.minify || c.legal)

/-- Prints a comment, on lines of its own unless the output is minified. A comment that runs to the
end of its line ends the line in any case. -/
def comment (s : State) (c : Comment) : State :=
  if !s.prints c then s
  else
    let text := if s.asciiOnly then escapeText false c.text else c.text
    s.write fun w =>
      let w := w.newline.raw text
      if !c.block || (w.minify && text.contains 10) then w.forceNewline else w.newline

/-- Prints the comments before the statement at a position. -/
def leading (s : State) (pos : Nat) : State :=
  if pos = 0 then s
  else
    let (cs, table) := s.comments.takeLeading pos
    cs.foldl comment { s with comments := table }

/-- Prints the comments before the closing brace at a position. -/
def dangling (s : State) (pos : Nat) : State :=
  if pos = 0 then s
  else
    let (cs, table) := s.comments.takeDangling pos
    cs.foldl comment { s with comments := table }

/-- Whether comments stand before the closing brace at a position. -/
def hasDangling (s : State) (pos : Nat) : Bool := pos != 0 && (s.comments.dangling.at? pos).isSome

/-- Prints a closing brace on a line of its own. -/
def closeBody (s : State) : State := s.write fun w => w.pop.dropSemi.newline.token [0x7D]

/-- Prints a piece. -/
def step (s : State) : Piece → State
  | .token t => s.write (·.token t)
  | .raw t => s.write (·.raw t)
  | .space => s.write Writer.space
  | .newline => s.write Writer.newline
  | .semi => s.write Writer.semi
  | .dropSemi => s.write Writer.dropSemi
  | .push => s.write Writer.push
  | .pop => s.write Writer.pop
  | .map span => s.write (·.map span)
  | .leading pos => s.leading pos
  | .dangling pos => s.dangling pos
  | .emptyBody pos =>
    if s.hasDangling pos then ((s.write (·.push.newline)).dangling pos).closeBody
    else s.write (·.token [0x7D])
  | .fault d => { s with reports := s.reports ++ [d] }

/-- Prints pieces in order. -/
def run (s : State) (ps : Pieces) : State := ps.foldl step s

end State

end ScriptLower.Print
