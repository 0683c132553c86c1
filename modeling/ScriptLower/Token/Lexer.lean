import ScriptLower.Diagnostic.Basic
import ScriptLower.Source.File
import ScriptLower.Token.Basic
import ScriptLower.Token.Lexeme

/-!
# The lexer

A lexer is a place in a file, and perhaps one token read ahead. Every operation returns the token,
the lexer behind it, and the faults found on the way. Since a lexer is a value, going back means
using an older one.

Some tokens depend on what the grammar expects: a slash may open a regular expression, a closing
brace may continue a template, and between tags blanks count. The grammar asks for those
readings with the operations that read a token again.
-/

/-!
## Trivia at the head of a text

Blanks that follow each other form one piece, and so do line ends; each comment is a piece of its
own. A block comment over several lines counts as a line end for the token behind it.
-/

namespace ScriptLower.TriviaRun

open ScriptLower

/-- A piece of trivia as its reader sees it. -/
structure Piece where
  /-- What it is. -/
  kind : TriviaKind
  /-- The bytes it takes. -/
  size : Nat
  /-- Whether it holds a line end. -/
  newline : Bool := false
  /-- What is wrong with it. -/
  faults : List Lexeme.Fault := []
  deriving Repr, DecidableEq

/-- A blank that is no line end. -/
def isBlank (c : Nat) : Bool :=
  c == 32 || c == 9 || c == 11 || c == 12 || c == 0xFEFF
    || (0x80 ≤ c && CharClass.inRanges CharClass.spaces c)

/-- A character that ends a line. -/
def isLineEnd (c : Nat) : Bool := c == 10 || c == 13 || c == 0x2028 || c == 0x2029

/-- The bytes before the end of the line. -/
def lineSize : Bytes → Nat
  | [] => 0
  | b :: r => if Lines.terminator (b :: r) != 0 then 0 else lineSize r + 1

/-- Walks over a block comment behind its opening: the bytes, whether it is closed, and whether it
holds a line end. -/
def blockFrom (n : Nat) (newline : Bool) : Bytes → Nat × Bool × Bool
  | [] => (n, false, newline)
  | 42 :: 47 :: _ => (n + 2, true, newline)
  | b :: r => blockFrom (n + 1) (newline || Lines.terminator (b :: r) != 0) r

/-- The piece of trivia at the head of a text. -/
def piece? (s : Bytes) : Option Piece :=
  let blanks := Lexeme.run isBlank s
  if blanks != 0 then some { kind := .space, size := blanks }
  else
    let ends := Lexeme.run isLineEnd s
    if ends != 0 then some { kind := .newline, size := ends, newline := true }
    else match s with
      | 47 :: 47 :: r => some { kind := .lineComment, size := lineSize r + 2 }
      | 47 :: 42 :: r =>
        let (n, closed, newline) := blockFrom 2 false r
        some
          { kind := .blockComment, size := n, newline := newline
            faults := if closed then []
              else [⟨.unterminatedComment, 0, n, "unterminated block comment"⟩] }
      | _ => none

/-- The pieces at the head of a text; the first `skip` bytes belong to the piece before. -/
def piecesFrom : Nat → Bytes → List Piece
  | _, [] => []
  | skip + 1, _ :: r => piecesFrom skip r
  | 0, b :: r =>
    match piece? (b :: r) with
    | none => []
    | some p => p :: piecesFrom (p.size - 1) r

/-- The interpreter line at the start of a file. -/
def hashbang? : Bytes → Option Piece
  | 35 :: 33 :: r => some { kind := .hashbang, size := lineSize r + 2 }
  | _ => none

/-- The pieces at the head of a text that stands at the start of its file when `atStart`. -/
def pieces (atStart : Bool) (s : Bytes) : List Piece :=
  match (if atStart then hashbang? s else none) with
  | some p => p :: piecesFrom 0 (s.drop p.size)
  | none => piecesFrom 0 s

end ScriptLower.TriviaRun

/-! ## Lexers -/

namespace ScriptLower

/-- A place in a file. -/
structure Lexer where
  /-- The file. -/
  file : SourceFile
  /-- Whether older octal spellings are faults. -/
  strictOctal : Bool := false
  /-- The offset of the next byte. -/
  offset : Nat := 0
  /-- The token read ahead; it ends at `offset`. -/
  held : Option Token := none
  deriving Inhabited

namespace Lexer

/-- What reading gives: a token, the lexer behind it, and faults in the order found. -/
abbrev Result := Token × Lexer × List Diagnostic

/-- The bytes from the current offset on. -/
def rest (lx : Lexer) : Bytes := lx.file.content.drop lx.offset

/-- The lexer at an offset, with nothing read ahead. -/
def seek (lx : Lexer) (offset : Nat) : Lexer := { lx with offset := offset, held := none }

/-- The lexer at the start of a token. -/
def seekToken (lx : Lexer) (t : Token) : Lexer := lx.seek (lx.file.offset t.span.start)

/-- The faults of a lexeme that starts at `at_`. -/
def diagnose (lx : Lexer) (at_ : Nat) (faults : List Lexeme.Fault) : List Diagnostic :=
  faults.map fun f =>
    Diagnostic.error f.code (lx.file.span (at_ + f.start) (at_ + f.stop)) f.message

/-- Turns the lexeme at the current offset into a token with the given trivia in front. -/
def accept (lx : Lexer) (l : Lexeme) (leading : List Trivia) (newline : Bool) : Result :=
  ({ kind := l.kind
     span := lx.file.span lx.offset (lx.offset + l.extent)
     text := lx.rest.take l.size
     leading := leading
     newline := newline
     escaped := l.escaped },
   lx.seek (lx.offset + l.extent),
   lx.diagnose lx.offset l.faults)

/-- Places pieces of trivia one behind the other from the current offset. -/
def placeTrivia (lx : Lexer) : List TriviaRun.Piece → List Trivia × Lexer × List Diagnostic
  | [] => ([], lx, [])
  | p :: ps =>
    let t : Trivia :=
      { kind := p.kind, span := lx.file.span lx.offset (lx.offset + p.size),
        text := lx.rest.take p.size }
    let faults := lx.diagnose lx.offset p.faults
    let (ts, lx', more) := placeTrivia (lx.seek (lx.offset + p.size)) ps
    (t :: ts, lx', faults ++ more)

/-- Reads the next token from the text: the trivia first, then the token behind it. -/
def scan (lx : Lexer) : Result :=
  let pieces := TriviaRun.pieces (lx.offset == 0) lx.rest
  let (leading, lx', faults) := placeTrivia lx pieces
  let (t, lx'', more) :=
    lx'.accept (Lexeme.next lx'.strictOctal lx'.rest) leading (pieces.any (·.newline))
  (t, lx'', faults ++ more)

/-- The next token: the one read ahead, or a new one. The end of the text is a token that comes
again and again. -/
def next (lx : Lexer) : Result :=
  match lx.held with
  | some t => (t, { lx with held := none }, [])
  | none => lx.scan

/-- Makes a token the next one. It must end at the current offset. -/
def push (lx : Lexer) (t : Token) : Lexer := { lx with held := some t }

/-- The next token, which stays the next one. -/
def peek (lx : Lexer) : Result :=
  let (t, lx', faults) := lx.next
  (t, lx'.push t, faults)

/-! ## Reading a token again -/

/-- Reads the lexeme at the start of a token instead of the token, keeping its trivia. -/
def reread (lx : Lexer) (t : Token) (read : Bytes → Lexeme) : Result :=
  let lx' := lx.seekToken t
  lx'.accept (read lx'.rest) t.leading t.newline

/-- Reads a greater-than sign as the longest operator that begins with it. -/
def rereadGreater (lx : Lexer) (t : Token) : Result :=
  if t.kind == .gt then lx.reread t Lexeme.greater else (t, lx, [])

/-- Reads only the less-than sign of an operator that begins with it. -/
def rereadLess (lx : Lexer) (t : Token) : Result :=
  if t.kind == .shl || t.kind == .ltEq || t.kind == .shlAssign then
    lx.reread t fun s => { kind := .lt, size := min 1 s.length }
  else (t, lx, [])

/-- Reads a slash as a regular expression. -/
def rereadSlash (lx : Lexer) (t : Token) : Result := lx.reread t Lexeme.regExp

/-- Reads a closing brace as the continuation of a template. -/
def rereadTemplate (lx : Lexer) (t : Token) : Result := lx.reread t (Lexeme.template false)

/-- Reads a name in a tag, hyphens included. -/
def rereadTagName (lx : Lexer) (t : Token) : Result :=
  if t.kind.isPropertyName then lx.reread t Lexeme.tagName else (t, lx, [])

/-- Reads an attribute value in quotes. A value without its closing quote keeps no trivia, and
where no quote stands the token is as before but has to be read again. -/
def rereadAttribute (lx : Lexer) (t : Token) : Result :=
  if t.kind == .stringLit || t.kind == .invalid then
    let lx' := lx.seekToken t
    match Lexeme.attributeString lx'.rest with
    | none => (t, lx', [])
    | some l =>
      if l.kind == .stringLit then lx'.accept l t.leading t.newline else lx'.accept l [] false
  else (t, lx, [])

/-- Reads what follows a token between two tags, where blanks count. -/
def nextChild (lx : Lexer) (t : Token) : Result :=
  let lx' := lx.seek (lx.file.offset t.span.stop)
  lx'.accept (Lexeme.child lx'.rest) [] false

/-- All tokens up to and including the end of the text, at most `fuel` of them, each passed
through `adjust`. -/
def tokensFrom (adjust : Lexer → Token → Result) : Nat → Lexer → List Token × List Diagnostic
  | 0, _ => ([], [])
  | fuel + 1, lx =>
    let (t, lx', faults) := lx.next
    let (t, lx', more) := adjust lx' t
    if t.kind == .eof then ([t], faults ++ more)
    else
      let (ts, ds) := tokensFrom adjust fuel lx'
      (t :: ts, faults ++ more ++ ds)

/-- All tokens of a file up to and including the end of the text. Each token but the last takes at
least one byte, so there are at most as many as bytes and one more. With `slashes` each slash is
read as a regular expression. -/
def tokens (file : SourceFile) (strictOctal slashes : Bool) : List Token × List Diagnostic :=
  let adjust (lx : Lexer) (t : Token) : Result :=
    if slashes && (t.kind == .slash || t.kind == .slashAssign) then lx.rereadSlash t
    else (t, lx, [])
  tokensFrom adjust (file.content.length + 1) { file := file, strictOctal := strictOctal }

end Lexer

end ScriptLower
