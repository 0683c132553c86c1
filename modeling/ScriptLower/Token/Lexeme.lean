import ScriptLower.Diagnostic.Code
import ScriptLower.Source.File
import ScriptLower.Text.StringLiteral
import ScriptLower.Token.Kind

/-!
# Lexemes

Each reader below looks at the bytes that follow and says how many of them form a token, what
kind of token it is, and which faults it has. Nothing here knows where in a file it stands: the
sizes and the places of faults are relative to the first byte read, so the text of a token is a
prefix of what the reader was given.

Strings, templates, regular expressions and comments are walked byte by byte. That is enough,
because no byte of a character above ASCII equals an ASCII byte. Names are walked character by
character, with a counter of bytes that belong to the character just read.
-/

namespace ScriptLower.Lexeme

open ScriptLower

/-- A fault in a lexeme; its place is relative to the start of the lexeme. -/
structure Fault where
  /-- What kind of fault it is. -/
  code : Code
  /-- Where it starts. -/
  start : Nat
  /-- Where it ends. -/
  stop : Nat
  /-- What is wrong. -/
  message : Bytes
  deriving DecidableEq, Repr, Inhabited

/-- Moves a fault to the right. -/
def Fault.shift (n : Nat) (f : Fault) : Fault := { f with start := f.start + n, stop := f.stop + n }

end Lexeme

/-- A token as its reader sees it. -/
structure Lexeme where
  /-- What it is. -/
  kind : TokenKind
  /-- The bytes of its text. -/
  size : Nat
  /-- The bytes it takes; more than its text for a number that runs into a name. -/
  extent : Nat := size
  /-- Whether a name is spelled with escapes. -/
  escaped : Bool := false
  /-- What is wrong with it, in the order found. -/
  faults : List Lexeme.Fault := []
  deriving DecidableEq, Repr, Inhabited

namespace Lexeme

/-! ## Names -/

/-- A byte that may start a name. -/
def isNameStartByte (b : UInt8) : Bool := b == 95 || b == 36 || Bytes.isAlpha b

/-- A byte that may continue a name. -/
def isNamePartByte (b : UInt8) : Bool := isNameStartByte b || Bytes.isDigit b

/-- A Unicode escape at the head of a text: the bytes read, and whether it is complete. -/
def unicodeEscape : Bytes → Nat × Bool
  | 92 :: 117 :: 0x7B :: r =>
    let n := (r.takeWhile Bytes.isHexDigit).length
    if n == 0 then (3, false)
    else match r.drop n with
      | 0x7D :: _ => (n + 4, true)
      | _ => (n + 3, false)
  | 92 :: 117 :: r =>
    let n := ((r.take 4).takeWhile Bytes.isHexDigit).length
    (n + 2, n == 4)
  | _ => (0, false)

/-- How the walk over a name ended. -/
inductive NameEnd
  /-- At a character that is no part of it. -/
  | done
  /-- In a malformed escape. -/
  | badEscape
  /-- At a first character that starts no name. -/
  | badStart
  deriving DecidableEq, Repr

/-- Walks over a name. `first` holds before its first character, `skip` bytes belong to the
character before, and `n` bytes are already counted. -/
def nameFrom (first : Bool) (skip n : Nat) (escaped : Bool) : Bytes → NameEnd × Nat × Bool
  | [] => (.done, n, escaped)
  | b :: r =>
    match skip with
    | k + 1 => nameFrom first k n escaped r
    | 0 =>
      if b == 92 then
        match unicodeEscape (b :: r) with
        | (size, true) => nameFrom false (size - 1) (n + size) true r
        | (size, false) => (.badEscape, n + size, escaped)
      else if b < 0x80 then
        if (if first then isNameStartByte b else isNamePartByte b) then
          nameFrom false 0 (n + 1) escaped r
        else (.done, n, escaped)
      else
        let (c, size) := Utf8.decode (b :: r)
        if (if first then CharClass.isNameStart c else CharClass.isNamePart c) then
          nameFrom false (size - 1) (n + size) escaped r
        else if first then (.badStart, n + size, escaped)
        else (.done, n, escaped)

/-- A name or a reserved word. -/
def name (s : Bytes) : Lexeme :=
  match nameFrom true 0 0 false s with
  | (.done, n, true) => { kind := .ident, size := n, escaped := true }
  | (.done, n, false) => { kind := (TokenKind.keyword? (s.take n)).getD .ident, size := n }
  | (.badEscape, n, _) =>
    { kind := .invalid, size := n
      faults := [⟨.badEscape, 0, n, "invalid unicode escape in identifier"⟩] }
  | (.badStart, n, _) =>
    { kind := .invalid, size := n
      faults := [⟨.unknownCharacter, 0, n, "unexpected character " ++ s.take n⟩] }

/-- A private name: a hash sign and a name. -/
def privateName (s : Bytes) : Lexeme :=
  let rest := s.drop 1
  let (c, size) := Utf8.decode rest
  if size == 0 || !(CharClass.isNameStart c || c == 92) then
    { kind := .invalid, size := 1
      faults := [⟨.unknownCharacter, 0, 1, "unexpected character '#'"⟩] }
  else
    let n := name rest
    { kind := .privateName, size := n.size + 1, escaped := n.escaped
      faults := n.faults.map (Fault.shift 1) }

/-- The bytes of the characters at the head of a text that satisfy `p`. -/
def runFrom (p : Nat → Bool) : Nat → Bytes → Nat
  | _, [] => 0
  | skip + 1, _ :: r => runFrom p skip r + 1
  | 0, b :: r =>
    let (c, size) := Utf8.decode (b :: r)
    if p c then runFrom p (size - 1) r + 1 else 0

/-- The bytes of the longest run of characters that satisfy `p`. -/
def run (p : Nat → Bool) (s : Bytes) : Nat := runFrom p 0 s

/-! ## Numbers -/

/-- The bytes of a run of digits; a separator belongs to it when a digit follows. -/
def digitRun (ok : UInt8 → Bool) : Bytes → Nat
  | [] => 0
  | b :: r =>
    if ok b || (b == 95 && r.head?.any ok) then digitRun ok r + 1 else 0

/-- Takes in a name that follows a number without a gap, which is a fault. -/
def numberTail (l : Lexeme) (s : Bytes) : Lexeme :=
  let rest := s.drop l.size
  let (c, size) := Utf8.decode rest
  if 0 < size && (CharClass.isNameStart c || rest.head?.any Bytes.isDigit) then
    let n := run CharClass.isNamePart rest
    { l with
      extent := l.size + n
      faults := l.faults ++ [⟨.badNumber, l.size, l.size + n, "identifier directly after number"⟩] }
  else l

/-- Takes in the suffix of a big integer, and then what follows. -/
def finishNumber (integer : Bool) (size : Nat) (faults : List Fault) (s : Bytes) : Lexeme :=
  if integer && (s.drop size).head? == some (ascii 'n') then
    numberTail { kind := .bigIntLit, size := size + 1, faults := faults } s
  else numberTail { kind := .numberLit, size := size, faults := faults } s

/-- A number with a radix mark of two bytes. -/
def radixNumber (ok : UInt8 → Bool) (s : Bytes) : Lexeme :=
  let n := 2 + digitRun ok (s.drop 2)
  finishNumber true n
    (if n == 2 then [⟨.badNumber, 0, 2, "expected digits after radix prefix"⟩] else []) s

/-- The length of the sign in front of an exponent's digits. -/
def exponentSign : Bytes → Nat
  | c :: _ => if c == ascii '+' || c == ascii '-' then 1 else 0
  | [] => 0

/-- The exponent at the head of a text, when there is one: its bytes and whether it has digits. -/
def exponent : Bytes → Option (Nat × Bool)
  | b :: r =>
    if b == ascii 'e' || b == ascii 'E' then
      let sign := exponentSign r
      let n := digitRun Bytes.isDigit (r.drop sign)
      if (r.drop sign).head?.any Bytes.isDigit then some (1 + sign + n, true)
      else some (1 + sign, false)
    else none
  | [] => none

/-- The length of the digits of a decimal number with its fraction, and whether it has none. -/
def mantissa (s : Bytes) : Nat × Bool :=
  let whole := digitRun Bytes.isDigit s
  match s.drop whole with
  | 46 :: r => (whole + 1 + digitRun Bytes.isDigit r, false)
  | _ => (whole, true)

/-- A decimal number. -/
def decimalNumber (s : Bytes) : Lexeme :=
  let (n, integer) := mantissa s
  match exponent (s.drop n) with
  | some (k, true) => finishNumber false (n + k) [] s
  | some (k, false) =>
    { kind := .numberLit, size := n + k
      faults := [⟨.badNumber, 0, n + k, "expected exponent digits"⟩] }
  | none => finishNumber integer n [] s

/-- An octal digit. -/
def isOctalDigit (b : UInt8) : Bool := 48 ≤ b && b ≤ 55

/-- A binary digit. -/
def isBinaryDigit (b : UInt8) : Bool := b == 48 || b == 49

/-- A number. In strict code a leading zero before another digit is a fault. -/
def number (strict : Bool) (s : Bytes) : Lexeme :=
  match s with
  | 48 :: b :: r =>
    match Char.ofNat (Bytes.lowerByte b).toNat with
    | 'b' => radixNumber isBinaryDigit s
    | 'o' => radixNumber isOctalDigit s
    | 'x' => radixNumber Bytes.isHexDigit s
    | _ =>
      if Bytes.isDigit b then
        let n := 1 + ((b :: r).takeWhile Bytes.isDigit).length
        numberTail
          { kind := .numberLit, size := n
            faults := if strict then
              [⟨.legacyOctal, 0, n, "legacy octal literals are not allowed in strict mode"⟩]
              else [] } s
      else decimalNumber s
  | _ => decimalNumber s

/-! ## Strings -/

/-- An escape in a string, its backslash included: its bytes, and its fault over all of them. -/
def stringEscape (strict : Bool) (s : Bytes) : Nat × Option (Code × Bytes) :=
  match s.drop 1 with
  | [] => (1, none)
  | b :: r =>
    if b == ascii 'x' then
      match r with
      | h :: l :: _ =>
        if Bytes.isHexDigit h && Bytes.isHexDigit l then (4, none)
        else (2, some (.badEscape, "invalid hexadecimal escape sequence"))
      | _ => (2, some (.badEscape, "invalid hexadecimal escape sequence"))
    else if b == ascii 'u' then
      match unicodeEscape s with
      | (n, true) => (n, none)
      | (n, false) => (n, some (.badEscape, "invalid unicode escape sequence"))
    else if (49 ≤ b && b ≤ 55) || (b == 48 && r.head?.any Bytes.isDigit) then
      (1 + (((b :: r).take 3).takeWhile Bytes.isDigit).length,
        if strict then
          some (.legacyOctal, "octal escape sequences are not allowed in strict mode")
        else none)
    else if b == 13 then (if r.head? == some 10 then 3 else 2, none)
    else (1 + (Utf8.decode (b :: r)).2, none)

/-- How the walk over a string ended. -/
inductive StringEnd
  /-- At its closing quote. -/
  | closed
  /-- At the end of a line. -/
  | lineEnd
  /-- At the end of the text. -/
  | textEnd
  deriving DecidableEq, Repr

/-- Walks over a string; `n` bytes are counted and the first `skip` of the rest are among them. -/
def stringFrom (strict : Bool) (quote : UInt8) (skip n : Nat) (faults : List Fault) :
    Bytes → StringEnd × Nat × List Fault
  | [] => (.textEnd, n, faults)
  | b :: r =>
    match skip with
    | k + 1 => stringFrom strict quote k n faults r
    | 0 =>
      if b == quote then (.closed, n + 1, faults)
      else if b == 92 then
        let (size, fault) := stringEscape strict (b :: r)
        let faults := match fault with
          | some (code, message) => faults ++ [⟨code, n, n + size, message⟩]
          | none => faults
        stringFrom strict quote (size - 1) (n + size) faults r
      else if b == 10 || b == 13 then (.lineEnd, n, faults)
      else stringFrom strict quote 0 (n + 1) faults r

/-- A string in quotes. -/
def string (strict : Bool) (s : Bytes) : Lexeme :=
  match s with
  | [] => { kind := .invalid, size := 0 }
  | q :: r =>
    match stringFrom strict q 0 1 [] r with
    | (.closed, n, faults) => { kind := .stringLit, size := n, faults := faults }
    | (.lineEnd, n, faults) =>
      { kind := .invalid, size := n
        faults := faults ++ [⟨.unterminatedString, 0, n, "newline in string literal"⟩] }
    | (.textEnd, n, faults) =>
      { kind := .invalid, size := n
        faults := faults ++ [⟨.unterminatedString, 0, n, "unterminated string literal"⟩] }

/-- The value of an attribute in quotes: no escapes, any number of lines. None when no quote
stands here. -/
def attributeString (s : Bytes) : Option Lexeme :=
  match s with
  | q :: r =>
    if q == 34 || q == 39 then
      match r.findIdx? (· == q) with
      | some i => some { kind := .stringLit, size := i + 2 }
      | none =>
        some { kind := .invalid, size := r.length + 1
               faults := [⟨.unterminatedString, 0, r.length + 1,
                 "unterminated JSX attribute string"⟩] }
    else none
  | [] => none

/-! ## Templates -/

/-- How a piece of a template ended. -/
inductive TemplateEnd
  /-- At the closing backtick. -/
  | closed
  /-- At a substitution. -/
  | substitution
  /-- At the end of the text. -/
  | textEnd
  deriving DecidableEq, Repr

/-- Walks over a piece of a template; a byte behind a backslash is skipped. -/
def templateFrom (n : Nat) : Bytes → TemplateEnd × Nat
  | [] => (.textEnd, n)
  | 96 :: _ => (.closed, n + 1)
  | 36 :: 0x7B :: _ => (.substitution, n + 2)
  | 92 :: _ :: r => templateFrom (n + 2) r
  | _ :: r => templateFrom (n + 1) r

/-- A piece of a template: from its backtick when `head`, and otherwise from the brace that closes
a substitution. -/
def template (head : Bool) (s : Bytes) : Lexeme :=
  match templateFrom (min 1 s.length) (s.drop 1) with
  | (.closed, n) => { kind := if head then .noSubstTemplate else .templateTail, size := n }
  | (.substitution, n) => { kind := if head then .templateHead else .templateMiddle, size := n }
  | (.textEnd, n) =>
    { kind := .invalid, size := n
      faults := [⟨.unterminatedTemplate, 0, n, "unterminated template literal"⟩] }

/-! ## Regular expressions -/

/-- Walks over the body of a regular expression up to its closing slash; none when a line or the
text ends first. A slash between brackets closes nothing. -/
def regExpFrom (inClass : Bool) (n : Nat) : Bytes → Bool × Nat
  | [] => (false, n)
  | b :: r =>
    if Lines.terminator (b :: r) != 0 then (false, n)
    else if b == 92 then
      match r with
      | [] => (false, n + 1)
      | c :: r' =>
        if Lines.terminator (c :: r') != 0 then (false, n + 1)
        else regExpFrom inClass (n + 2) r'
    else if b == 47 && !inClass then (true, n + 1)
    else regExpFrom (if b == 91 then true else if b == 93 then false else inClass) (n + 1) r

/-- A regular expression, from its opening slash, with its flags. -/
def regExp (s : Bytes) : Lexeme :=
  match regExpFrom false (min 1 s.length) (s.drop 1) with
  | (true, n) => { kind := .regExpLit, size := n + run CharClass.isNamePart (s.drop n) }
  | (false, n) =>
    { kind := .invalid, size := n
      faults := [⟨.unterminatedRegExp, 0, n, "unterminated regular expression"⟩] }

/-! ## Marks -/

/-- The marks of more than one character, longer ones first. -/
def longMarks : List (String × TokenKind) := [
  ("...", .dotDotDot), ("===", .eqEqEq), ("!==", .bangEqEq), ("**=", .starStarAssign),
  ("<<=", .shlAssign), ("&&=", .andAndAssign), ("||=", .orOrAssign),
  ("??=", .questionQuestionAssign), ("=>", .arrow), ("==", .eqEq), ("!=", .bangEq),
  ("<=", .ltEq), ("<<", .shl), ("**", .starStar), ("++", .plusPlus), ("--", .minusMinus),
  ("&&", .andAnd), ("||", .orOr), ("??", .questionQuestion), ("+=", .plusAssign),
  ("-=", .minusAssign), ("*=", .starAssign), ("/=", .slashAssign), ("%=", .percentAssign),
  ("&=", .ampAssign), ("|=", .pipeAssign), ("^=", .caretAssign)]

/-- The mark of one character. -/
def shortMark? (b : UInt8) : Option TokenKind :=
  match b with
  | 0x7B => some .lBrace
  | 0x7D => some .rBrace
  | 40 => some .lParen
  | 41 => some .rParen
  | 91 => some .lBracket
  | 93 => some .rBracket
  | 46 => some .dot
  | 59 => some .semicolon
  | 44 => some .comma
  | 60 => some .lt
  | 62 => some .gt
  | 43 => some .plus
  | 45 => some .minus
  | 42 => some .star
  | 47 => some .slash
  | 37 => some .percent
  | 38 => some .amp
  | 124 => some .pipe
  | 94 => some .caret
  | 33 => some .bang
  | 126 => some .tilde
  | 63 => some .question
  | 58 => some .colon
  | 64 => some .atSign
  | 61 => some .assign
  | _ => none

/-- A mark: the longest that stands here. A question mark and a dot before a digit are two marks. -/
def mark (s : Bytes) : Lexeme :=
  match longMarks.find? fun m => (Bytes.ofString m.1).isPrefixOf s with
  | some (m, kind) => { kind := kind, size := (Bytes.ofString m).length }
  | none =>
    match s with
    | [] => { kind := .invalid, size := 0 }
    | b :: r =>
      if b == 63 && r.head? == some 46 && !(r.drop 1).head?.any Bytes.isDigit then
        { kind := .questionDot, size := 2 }
      else match shortMark? b with
        | some kind => { kind := kind, size := 1 }
        | none =>
          { kind := .invalid, size := 1
            faults := [⟨.unknownCharacter, 0, 1, "unexpected character " ++ [b]⟩] }

/-- The marks that begin with a greater-than sign, longer ones first. -/
def greaterMarks : List (String × TokenKind) := [
  (">>>=", .uShrAssign), (">>>", .uShr), (">>=", .shrAssign), (">>", .shr), (">=", .gtEq)]

/-- The longest mark that begins with the greater-than sign that stands here. -/
def greater (s : Bytes) : Lexeme :=
  match greaterMarks.find? fun m => (Bytes.ofString m.1).isPrefixOf s with
  | some (m, kind) => { kind := kind, size := (Bytes.ofString m).length }
  | none => { kind := .gt, size := min 1 s.length }

/-! ## Elements -/

/-- A name in a tag: names joined by hyphens. -/
def tagName (s : Bytes) : Lexeme :=
  { kind := .ident, size := run (fun c => CharClass.isNamePart c || c == 45) s }

/-- What follows between two tags: the start of a tag or of an expression, or text up to one. -/
def child (s : Bytes) : Lexeme :=
  match s with
  | [] => { kind := .eof, size := 0 }
  | 60 :: _ => { kind := .lt, size := 1 }
  | 0x7B :: _ => { kind := .lBrace, size := 1 }
  | _ => { kind := .jsxText, size := (s.takeWhile fun b => b != 60 && b != 0x7B).length }

/-! ## The next token -/

/-- The token at the head of a text in which no trivia stands first. -/
def next (strict : Bool) (s : Bytes) : Lexeme :=
  match s with
  | [] => { kind := .eof, size := 0 }
  | b :: r =>
    if isNameStartByte b || b == 92 || 0x80 ≤ b then name s
    else if Bytes.isDigit b || (b == 46 && r.head?.any Bytes.isDigit) then number strict s
    else if b == 34 || b == 39 then string strict s
    else if b == 96 then template true s
    else if b == 35 then privateName s
    else mark s

end Lexeme

end ScriptLower
