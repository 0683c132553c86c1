import ScriptLower.Token.Kind
import ScriptLower.Source.Span

/-!
# Tokens and what stands between them

Blanks, line ends and comments are trivia; they travel in front of the token they precede, so
the texts of trivia and tokens together are the source.
-/

namespace ScriptLower

/-- What a piece of trivia is. -/
inductive TriviaKind
  /-- Blanks within a line. -/
  | space
  /-- Line ends. -/
  | newline
  /-- A comment up to the end of its line. -/
  | lineComment
  /-- A comment between two marks. -/
  | blockComment
  /-- The interpreter line at the start of a file. -/
  | hashbang
  deriving DecidableEq, Repr, Inhabited

/-- The name of a kind of trivia. -/
def TriviaKind.name : TriviaKind → Bytes
  | .space => "space"
  | .newline => "newline"
  | .lineComment => "line-comment"
  | .blockComment => "block-comment"
  | .hashbang => "hashbang"

/-- A piece of text between tokens. -/
structure Trivia where
  /-- What it is. -/
  kind : TriviaKind
  /-- Where it stands. -/
  span : Span
  /-- Its text. -/
  text : Bytes
  deriving DecidableEq, Repr, Inhabited

namespace Trivia

/-- Whether the piece is a comment or an interpreter line. -/
def isComment (t : Trivia) : Bool :=
  match t.kind with
  | .lineComment | .blockComment | .hashbang => true
  | .space | .newline => false

/-- Whether the piece must survive minification: an interpreter line, a comment that begins with
an exclamation mark, or one that mentions a licence. -/
def isLegal (t : Trivia) : Bool :=
  t.kind == .hashbang || (t.isComment &&
    ((Bytes.ofString "/*!").isPrefixOf t.text || Bytes.includes "@license" t.text
      || Bytes.includes "@preserve" t.text))

end Trivia

/-- A token with the trivia in front of it. -/
structure Token where
  /-- What it is. -/
  kind : TokenKind := .invalid
  /-- Where it stands. -/
  span : Span := {}
  /-- Its text in the source. -/
  text : Bytes := []
  /-- The trivia in front. -/
  leading : List Trivia := []
  /-- Whether a line end stands between the token before and this one. -/
  newline : Bool := false
  /-- Whether the name is spelled with escapes; such a name is never a keyword. -/
  escaped : Bool := false
  deriving DecidableEq, Repr, Inhabited

/-- Whether the token is a contextual keyword. -/
def Token.is (t : Token) (word : String) : Bool :=
  t.kind == .ident && !t.escaped && t.text == Bytes.ofString word

end ScriptLower
