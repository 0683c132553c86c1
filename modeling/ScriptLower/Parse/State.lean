import ScriptLower.Token.Lexer
import ScriptLower.Comment.Table
import ScriptLower.Tree.Node
import ScriptLower.Dialect

/-!
# Parsers

A parser takes a state to an outcome: a value and the state behind it, a failure, or a stop. A
failure keeps the state it was found in, because a list of statements goes on behind the fault, and
says whether a diagnostic tells of it. A stop ends the parse for good.

Where the grammar cannot be decided by one or two tokens a parser is tried: its diagnostics are
held back, and unless it succeeds without any, the state goes back to what was saved before the
try. Only the places that every parser changes are saved; what the grammar sets on the way in, such
as the enclosing function, each rule sets back itself on the way out. What only the final parse may
do, such as recording comments and declarations, does not happen during a try.
-/

namespace ScriptLower.Parse

open ScriptLower

/-- What the enclosing function allows. -/
structure FunctionContext where
  /-- The function is asynchronous. -/
  async : Bool := false
  /-- The function is a generator. -/
  generator : Bool := false
  /-- There is an enclosing function. -/
  inFunction : Bool := false
  /-- There is an enclosing class. -/
  inClass : Bool := false
  deriving DecidableEq, Repr, Inhabited

/-- A label, or a loop or switch without one. -/
structure Label where
  /-- The name; empty for none. -/
  name : Bytes := []
  /-- Whether it names a loop. -/
  isLoop : Bool := false
  deriving DecidableEq, Repr, Inhabited

/-- The names declared in one block; the mark says whether the declaration is lexical. -/
abbrev Scope := List (Bytes × Bool)

/-- Where a parse stands. -/
structure State where
  /-- The place in the text. -/
  lexer : Lexer
  /-- What the grammar accepts. -/
  grammar : Grammar := {}
  /-- Whether consumed tokens are kept. -/
  capture : Bool := false
  /-- The number of errors that stops the parse; zero for none. -/
  maxErrors : Nat := 0
  /-- The last consumed token. -/
  lastToken : Token := {}
  /-- Its place. -/
  lastSpan : Span := {}
  /-- How many tries are under way. -/
  depth : Nat := 0
  /-- What the enclosing function allows. -/
  fn : FunctionContext := {}
  /-- Whether `in` is no operator here. -/
  noIn : Bool := false
  /-- How many types enclose this place. -/
  typeDepth : Nat := 0
  /-- How many ambient declarations enclose this place. -/
  ambient : Nat := 0
  /-- The declared names, innermost block first. -/
  scopes : List Scope := []
  /-- The labels, innermost first. -/
  labels : List Label := []
  /-- Where type syntax stood in a script during the tries under way. -/
  pendingTypes : List Span := []
  /-- The number of errors counted. -/
  errors : Nat := 0
  /-- The diagnostics: all so far, or during a try those of the try. -/
  reports : List Diagnostic := []
  /-- The comments recorded. -/
  comments : CommentTable := {}
  /-- The tokens kept. -/
  tokens : List Token := []
  deriving Inhabited

/-- Where the last consumed token ends. -/
def State.consumed (s : State) : Nat := s.lastSpan.stop

/-- What a rule may ask of the state. -/
structure View where
  /-- What the grammar accepts. -/
  grammar : Grammar
  /-- The place of the last consumed token. -/
  lastSpan : Span
  /-- What the enclosing function allows. -/
  fn : FunctionContext
  /-- Whether `in` is no operator here. -/
  noIn : Bool
  /-- How many types enclose this place. -/
  typeDepth : Nat
  /-- How many ambient declarations enclose this place. -/
  ambient : Nat
  /-- The labels, innermost first. -/
  labels : List Label

/-- What a rule may ask of a state. -/
def State.view (s : State) : View :=
  { grammar := s.grammar, lastSpan := s.lastSpan, fn := s.fn, noIn := s.noIn,
    typeDepth := s.typeDepth, ambient := s.ambient, labels := s.labels }

/-- Why a parse stopped for good. -/
inductive Stop
  /-- The limit of errors is reached. -/
  | errorLimit
  /-- A repetition consumed nothing, and would be repeated for ever. -/
  | noProgress
  /-- The bound on the number of steps is reached. -/
  | outOfSteps
  deriving DecidableEq, Repr, Inhabited

/-- Why a parser fails. -/
inductive Cause
  /-- A diagnostic says what is wrong. -/
  | reported
  /-- An array or object in parentheses is assigned to; no diagnostic says so. -/
  | wrappedTarget
  /-- The text ends where the name of a tag or an attribute should go on; no diagnostic says so. -/
  | cutName
  /-- The text is to be read in another way. Only a try fails for this. -/
  | otherReading
  deriving DecidableEq, Repr, Inhabited

/-- What a parser comes to. -/
inductive Outcome (α : Type) where
  /-- A value, and the state behind it. -/
  | ok (value : α) (state : State)
  /-- The text is not what the parser reads. -/
  | fail (why : Cause) (state : State)
  /-- The parse ends here. -/
  | halt (why : Stop) (state : State)
  deriving Inhabited

/-- The state of an outcome. -/
def Outcome.state {α : Type} : Outcome α → State
  | ok _ s => s
  | fail _ s => s
  | halt _ s => s

/-- A parser. -/
def Parser (α : Type) : Type := State → Outcome α

namespace Parser

/-- Consumes nothing. -/
@[inline] protected def pure {α : Type} (a : α) : Parser α := fun s => .ok a s

/-- One parser behind another. -/
@[inline] protected def bind {α β : Type} (p : Parser α) (f : α → Parser β) : Parser β := fun s =>
  match p s with
  | .ok a s' => f a s'
  | .fail c s' => .fail c s'
  | .halt w s' => .halt w s'

instance : Monad Parser where
  pure := Parser.pure
  bind := Parser.bind

end Parser

/-- Fails here. -/
def fail {α : Type} (why : Cause) : Parser α := fun s => .fail why s

/-- The bound on the number of steps is reached. -/
def exhausted {α : Type} : Parser α := fun s => .halt .outOfSteps s

/-- The state. -/
def get : Parser State := fun s => .ok s s

/-- What a rule may ask here. -/
def view : Parser View := fun s => .ok s.view s

/-- Changes the state. -/
def modify (f : State → State) : Parser Unit := fun s => .ok () (f s)

/-- A failure becomes a missing value; the state stays as the failure left it. -/
def attempt {α : Type} (p : Parser α) : Parser (Option α) := fun s =>
  match p s with
  | .ok a s' => .ok (some a) s'
  | .fail _ s' => .ok none s'
  | .halt w s' => .halt w s'

/-- Runs a parser in a changed state and takes the change back, also when it fails. The second
function gets the state before and the state behind the parser. -/
def bracket {α : Type} (enter : State → State) (leave : State → State → State) (p : Parser α) :
    Parser α := fun s =>
  match p (enter s) with
  | .ok a t => .ok a (leave s t)
  | .fail c t => .fail c (leave s t)
  | .halt w t => .halt w (leave s t)

/-- Repeats a step at most so many times, until it gives a result. A repetition that consumes
nothing ends the parse. -/
def loopFrom {σ α : Type} (step : σ → Parser (σ ⊕ α)) : Nat → σ → Parser α
  | 0, _ => exhausted
  | n + 1, a => fun s =>
    match step a s with
    | .ok (.inl a') t =>
      if s.consumed < t.consumed then loopFrom step n a' t else .halt .noProgress t
    | .ok (.inr b) t => .ok b t
    | .fail c t => .fail c t
    | .halt w t => .halt w t

/-- Repeats a step until it gives a result. Each repetition consumes a token, so one more than
there are bytes is enough. -/
def loop {σ α : Type} (step : σ → Parser (σ ⊕ α)) (init : σ) : Parser α := fun s =>
  loopFrom step (s.lexer.file.content.length + 2) init s

/-! ## Tokens and diagnostics -/

/-- Takes note of a diagnostic. -/
def State.note (s : State) (d : Diagnostic) : State :=
  { s with
    reports := s.reports ++ [d]
    errors := if d.isError then s.errors + 1 else s.errors }

/-- Takes note of several diagnostics in order. -/
def State.noteAll (s : State) (ds : List Diagnostic) : State := ds.foldl State.note s

/-- Reads a token with the lexer. -/
def lex (read : Lexer → Lexer.Result) : Parser Token := fun s =>
  match read s.lexer with
  | (t, lx, ds) => .ok t (State.noteAll { s with lexer := lx } ds)

/-- The next token, which stays the next one. -/
def peek : Parser Token := lex Lexer.peek

/-- The token behind the next one. -/
def peek2 : Parser Token := fun s => .ok (s.lexer.next.2.1.next).1 s

/-- Makes a token the next one. -/
def push (t : Token) : Parser Unit := modify fun s => { s with lexer := s.lexer.push t }

/-- Records a token taken from the lexer. -/
def consume (t : Token) : Parser Token := fun s =>
  if t.kind == .eof then .ok t s
  else .ok t { s with
    lastSpan := t.span
    lastToken := t
    tokens := if s.capture then s.tokens ++ [t] else s.tokens }

/-- Takes the next token. -/
def advance : Parser Token := do consume (← lex Lexer.next)

/-! ### Tokens read again

The next token `t` is read again under another grammar, from its first byte on. -/

/-- Splits the less-than sign off the operator that is next. -/
def splitLess (t : Token) : Parser Unit := do push (← lex fun lx => lx.rereadLess t)

/-- Puts the greater-than sign that is next together with what follows it. -/
def joinGreater (t : Token) : Parser Token := do
  let t ← lex fun lx => lx.rereadGreater t
  push t
  return t

/-- Takes the slash that is next as a regular expression. -/
def readRegExp (t : Token) : Parser Token := do consume (← lex fun lx => lx.rereadSlash t)

/-- Takes the closing brace that is next as the continuation of a template. -/
def readTemplate (t : Token) : Parser Token := do consume (← lex fun lx => lx.rereadTemplate t)

/-- Takes the name that is next as a part of a tag's name, hyphens included. -/
def readTagName (t : Token) : Parser Token := do consume (← lex fun lx => lx.rereadTagName t)

/-- Takes what follows the last consumed token between two tags. -/
def readChild : Parser Token := do
  let last := (← get).lastToken
  consume (← lex fun lx => lx.nextChild last)

/-! ### Questions about the next token -/

/-- Whether the next token is of a kind. -/
def at_ (k : TokenKind) : Parser Bool := do return (← peek).kind == k

/-- Whether the next token is of one of some kinds. -/
def atAny (ks : List TokenKind) : Parser Bool := do return ks.contains (← peek).kind

/-- Whether the next token is a contextual keyword. -/
def atWord (w : String) : Parser Bool := do return (← peek).is w

/-- Takes the next token if it is of a kind. -/
def eat (k : TokenKind) : Parser Bool := do
  if ← at_ k then
    let _ ← advance
    return true
  else return false

/-- Takes the next token if it is a contextual keyword. -/
def eatWord (w : String) : Parser Bool := do
  if ← atWord w then
    let _ ← advance
    return true
  else return false

/-- Reports an error; the limit of errors stops the parse, though never during a try. -/
def errorAt (span : Span) (code : Code) (message : Bytes) : Parser Unit := fun s =>
  let s := s.note (Diagnostic.error code span message)
  if s.depth == 0 && 0 < s.maxErrors && s.maxErrors ≤ s.errors then .halt .errorLimit s
  else .ok () s

/-- The place of an error at the next token: at the end of the text, right behind the last token. -/
def errorSpan : Parser Span := do
  let t ← peek
  let v ← view
  if t.kind == .eof && 0 < v.lastSpan.stop then
    return { v.lastSpan with start := v.lastSpan.stop }
  else return t.span

/-- Reports an error at the next token. -/
def error (code : Code) (message : Bytes) : Parser Unit := do errorAt (← errorSpan) code message

/-- A token as messages call it. -/
def describe (t : Token) : Bytes :=
  match t.kind with
  | .eof => "end of input"
  | .ident => "identifier '" ++ t.text ++ "'"
  | .stringLit | .numberLit | .bigIntLit => "literal " ++ t.text
  | _ => "'" ++ t.text ++ "'"

/-- Takes a token of a kind, or reports its absence and fails. -/
def expect (k : TokenKind) (code : Code) (message : String) : Parser Token := do
  if ← at_ k then advance
  else
    let t ← peek
    errorAt (← errorSpan) (if t.kind == .eof then .unexpectedEnd else code)
      (Bytes.ofString message ++ ", got " ++ describe t)
    fail .reported

/-- Takes the sign that closes a list of types. -/
def expectGreater : Parser Token := expect .gt .unexpectedToken "expected '>'"

/-- Takes the parenthesis that closes something. -/
def expectRParen : Parser Token := expect .rParen .unclosedParen "expected ')'"

/-- Takes the bracket that closes something. -/
def expectRBracket : Parser Token := expect .rBracket .unclosedBracket "expected ']'"

/-- Takes the brace that closes something. -/
def expectRBrace : Parser Token := expect .rBrace .unclosedBrace "expected '\x7d'"

/-- Reports the next token as unexpected and fails. -/
def unexpected {α : Type} (what : Bytes) : Parser α := do
  let t ← peek
  if t.kind == .eof then error .unexpectedEnd ("unexpected end of input, expected " ++ what)
  else error .unexpectedToken ("unexpected " ++ describe t ++ ", expected " ++ what)
  fail .reported

/-- Takes a contextual keyword, or reports its absence and fails. -/
def expectWord (w : String) : Parser Token := do
  if ← atWord w then advance else unexpected ("'" ++ Bytes.ofString w ++ "'")

/-- Whether a statement may end in front of a token. -/
def endsStatement (t : Token) : Bool := t.kind == .rBrace || t.kind == .eof || t.newline

/-- Whether a statement may end in front of the next token. -/
def canEndStatement : Parser Bool := do
  let t ← peek
  return t.kind == .semicolon || endsStatement t

/-- The end of a statement: a semicolon, or a place where one may be left out. -/
def semicolon : Parser Unit := do
  if ← eat .semicolon then return
  let t ← peek
  if endsStatement t then return
  error .expectedSemicolon ("expected ';', got " ++ describe t)
  fail .reported

/-- The span from a start to the last consumed token. -/
def spanTo (start : Span) : Parser Span := do return start.cover (← view).lastSpan

/-- The span from the start of a node to the last consumed token. -/
def spanFrom (n : Node) : Parser Span := spanTo n.span

/-- A node from a start to the last consumed token. -/
def node (kind : NodeKind) (start : Span) (kids : List Node) : Parser Node := do
  return Node.new kind (← spanTo start) kids

/-- The name a token spells. -/
def identOf (t : Token) : Node := Node.ident t.text t.span

/-- The literal a token spells. -/
def literalOf (t : Token) : Node := Node.literal t.kind t.text t.span

/-- The string a token spells. -/
def stringOf (t : Token) : Node := Node.literal .stringLit t.text t.span

/-! ## Effects of the final parse -/

/-- Records the comments in front of a statement. -/
def addLeading (t : Token) : Parser Unit := modify fun s =>
  if 0 < s.depth then s else { s with comments := s.comments.addLeading t.span.start t.leading }

/-- Records the comments in front of a token that closes a block or ends the text. -/
def addDanglingOf (t : Token) : Parser Unit := modify fun s =>
  if 0 < s.depth then s else { s with comments := s.comments.addDangling t.span.start t.leading }

/-- Records the comments in front of the next token, which closes a block or ends the text. -/
def addDangling : Parser Unit := do addDanglingOf (← peek)

/-- Declares a name in the innermost block. Two declarations of a name are an error when one of them
is lexical. -/
def declareIn (lexical : Bool) (n : Node) (scope : Scope) (outer : List Scope) : Parser Unit :=
  match scope.find? (·.1 == n.text) with
  | some (_, before) =>
    if lexical || before then
      errorAt n.span .duplicateDeclaration
        ("identifier '" ++ n.text ++ "' has already been declared")
    else pure ()
  | none => modify fun s => { s with scopes := ((n.text, lexical) :: scope) :: outer }

/-- Declares a name in the innermost block. A lexical declaration shares its name with no other of
the block. Nothing is checked unless early errors are asked for, nor in a try, a type or an
ambient declaration. -/
def declare (lexical : Bool) (n : Node) : Parser Unit := do
  let s ← get
  if !s.grammar.strictEarlyErrors || 0 < s.depth || 0 < s.ambient || 0 < s.typeDepth then return
  match s.scopes with
  | [] => return
  | scope :: outer => declareIn lexical n scope outer

/-- Declares each of some names. -/
def declareAll (lexical : Bool) : List Node → Parser Unit
  | [] => pure ()
  | n :: r => do
    declare lexical n
    declareAll lexical r

/-- Reports type syntax in a script. During a try the report waits until the try is kept. -/
def requireTypes (t : Token) : Parser Unit := do
  let s ← get
  if s.grammar.types then return
  if 0 < s.depth then modify fun s => { s with pendingTypes := s.pendingTypes ++ [t.span] }
  else errorAt t.span .typesInScript "type syntax is only allowed in TypeScript files"

/-- Reports a statement in an ambient context. -/
def checkRuntime (t : Token) : Parser Unit := do
  let v ← view
  if 0 < v.ambient && !v.fn.inFunction then
    errorAt t.span .ambientBody "statements are not allowed in an ambient context"

/-! ## Contexts -/

/-- Where `in` is an operator or, with the mark set, none. -/
def withNoIn {α : Type} (noIn : Bool) : Parser α → Parser α :=
  bracket (fun s => { s with noIn := noIn }) fun s t => { t with noIn := s.noIn }

/-- Inside brackets, where `in` is an operator. -/
def withIn {α : Type} : Parser α → Parser α := withNoIn false

/-- Where `in` is no operator. -/
def withoutIn {α : Type} : Parser α → Parser α := withNoIn true

/-- Inside a type. -/
def inType {α : Type} : Parser α → Parser α :=
  bracket (fun s => { s with typeDepth := s.typeDepth + 1 })
    fun s t => { t with typeDepth := s.typeDepth }

/-- Inside an ambient declaration. -/
def inAmbient {α : Type} : Parser α → Parser α :=
  bracket (fun s => { s with ambient := s.ambient + 1 }) fun s t => { t with ambient := s.ambient }

/-- Inside the body of a function, which is never ambient. -/
def outsideAmbient {α : Type} : Parser α → Parser α :=
  bracket (fun s => { s with ambient := 0 }) fun s t => { t with ambient := s.ambient }

/-- Inside a block of its own. -/
def inScope {α : Type} : Parser α → Parser α :=
  bracket (fun s => { s with scopes := [] :: s.scopes }) fun _ t =>
    { t with scopes := t.scopes.tail }

/-- Inside a labelled statement, a loop or a switch. -/
def inLabel {α : Type} (l : Label) : Parser α → Parser α :=
  bracket (fun s => { s with labels := l :: s.labels }) fun s t => { t with labels := s.labels }

/-- Keeps what the enclosing function allows. -/
def keepingFunction {α : Type} (change : FunctionContext → FunctionContext) : Parser α → Parser α :=
  bracket (fun s => { s with fn := change s.fn }) fun s t => { t with fn := s.fn }

/-- Inside a function with the given modifiers. -/
def inFunction {α : Type} (flags : Flags) : Parser α → Parser α :=
  bracket
    (fun s => { s with
      fn := { async := flags.async, generator := flags.generator, inFunction := true,
              inClass := s.fn.inClass }
      labels := []
      noIn := false
      scopes := [] :: s.scopes })
    fun s t => { t with fn := s.fn, labels := s.labels, noIn := s.noIn, scopes := t.scopes.tail }

/-! ## Tries -/

/-- What is saved of a state before a try. -/
structure Snapshot where
  /-- The offset of the lexer. -/
  offset : Nat
  /-- The token the lexer has read ahead. -/
  held : Option Token
  /-- How many tokens are kept. -/
  tokens : Nat
  /-- The last consumed token. -/
  lastToken : Token
  /-- Its place. -/
  lastSpan : Span
  /-- The number of errors counted. -/
  errors : Nat

/-- Saves what a try changes. -/
def State.save (s : State) : Snapshot :=
  { offset := s.lexer.offset, held := s.lexer.held, tokens := s.tokens.length,
    lastToken := s.lastToken, lastSpan := s.lastSpan, errors := s.errors }

/-- Sets a state back to what was saved; everything else stays as it is. -/
def State.restore (t : State) (k : Snapshot) : State :=
  { t with
    lexer := { t.lexer with offset := k.offset, held := k.held }
    tokens := t.tokens.take k.tokens
    lastToken := k.lastToken
    lastSpan := k.lastSpan
    errors := k.errors }

/-- The state a try starts in: one level deeper, with nothing reported. -/
def State.enterTry (s : State) : State := { s with depth := s.depth + 1, reports := [] }

/-- The state behind a try that started in `s`: one level up, with the diagnostics from before. -/
def State.leaveTry (s t : State) : State := { t with depth := t.depth - 1, reports := s.reports }

/-- The state behind a try that started in `s` and is not kept. -/
def State.undoTry (s t : State) : State :=
  { (s.leaveTry t).restore s.save with
    pendingTypes := t.pendingTypes.take s.pendingTypes.length }

/-- Reports each place of type syntax that waited for a try to be kept. -/
def reportPending : List Span → Parser Unit
  | [] => modify fun s => { s with pendingTypes := [] }
  | sp :: r => do
    errorAt sp .typesInScript "type syntax is only allowed in TypeScript files"
    reportPending r

/-- The value of a try that is kept. The outermost try reports the type syntax found in it. -/
def keepTry {α : Type} (a : α) : Parser (Option α) := do
  let t ← get
  if t.depth == 0 then reportPending t.pendingTypes
  return some a

/-- Tries a parser. A try that fails or reports anything is undone and gives nothing. -/
def speculate {α : Type} (p : Parser α) : Parser (Option α) := fun s =>
  match p s.enterTry with
  | .ok a t => if t.reports.isEmpty then keepTry a (s.leaveTry t) else .ok none (s.undoTry t)
  | .fail _ t => .ok none (s.undoTry t)
  | .halt .errorLimit t => .ok none (s.undoTry t)
  | .halt w t => .halt w t

/-- Whether a parser would answer yes without reporting anything. It is undone in any case. -/
def lookahead (p : Parser Bool) : Parser Bool := fun s =>
  match p s.enterTry with
  | .ok b t => .ok (b && t.reports.isEmpty) (s.undoTry t)
  | .fail _ t => .ok false (s.undoTry t)
  | .halt .errorLimit t => .ok false (s.undoTry t)
  | .halt w t => .halt w t

/-! ## Lists -/

/-- Repeats a step, which adds to a list, up to a closing token or the end of the text. -/
def listUntil {α : Type} (close : TokenKind) (step : List α → Parser (List α)) : Parser (List α) :=
  loop (fun acc => do
    if (← at_ close) || (← at_ .eof) then return .inr acc
    else return .inl (← step acc)) []

/-- The comma behind an element, which may be missing in front of the closing token. -/
def separator (close : TokenKind) (message : String) : Parser Unit := do
  if ← at_ close then return
  let _ ← expect .comma .unexpectedToken message

/-- Elements with commas between them, up to a closing token. -/
def commaList {α : Type} (close : TokenKind) (message : String) (item : Parser α) :
    Parser (List α) :=
  listUntil close fun acc => do
    let x ← item
    separator close message
    return acc ++ [x]

/-! ## Recovery -/

/-- The contextual keywords that begin a statement. -/
def statementWords : List String := ["let", "interface", "type", "declare", "namespace", "abstract"]

/-- Whether a token probably begins a statement. -/
def startsStatement (t : Token) : Bool :=
  match t.kind with
  | .kwVar | .kwConst | .kwFunction | .kwClass | .kwIf | .kwFor | .kwWhile | .kwDo | .kwReturn
  | .kwTry | .kwSwitch | .kwThrow | .kwImport | .kwExport | .kwBreak | .kwContinue | .kwEnum => true
  | .ident => statementWords.any fun w => Bytes.ofString w == t.text
  | _ => false

/-- Skips tokens up to a place where a statement probably begins. -/
def resync : Parser Unit :=
  loop (fun (depth : Nat) => do
    let t ← peek
    let goOn (depth : Nat) : Parser (Nat ⊕ Unit) := do
      let _ ← advance
      return .inl depth
    let stopBehind : Parser (Nat ⊕ Unit) := do
      let _ ← advance
      return .inr ()
    match t.kind with
    | .eof => return .inr ()
    | .lBrace => goOn (depth + 1)
    | .rBrace =>
      if depth = 0 then return .inr ()
      else if depth = 1 then stopBehind
      else goOn (depth - 1)
    | .semicolon => if depth = 0 then stopBehind else goOn depth
    | _ => if depth = 0 && t.newline && startsStatement t then return .inr () else goOn depth) 0

/-! ## The grammar's knots -/

/-- The parts of the grammar that refer to each other. Every rule takes a parser for these as an
argument, so each rule is a plain function and only the knot between them recurs. -/
inductive Part where
  /-- An expression without commas. -/
  | assign
  /-- Operators that bind more tightly than a precedence. -/
  | binary (above : Nat)
  /-- An operand with its prefix operators. -/
  | unary
  /-- An operand with what follows it. -/
  | lhs
  /-- A construction. -/
  | construct
  /-- A name or a destructuring pattern. -/
  | binding
  /-- A type; the mark says that a condition belongs to an outer type. -/
  | type (noCond : Bool)
  /-- A type with its prefix operators. -/
  | typeOperator (noCond : Bool)
  /-- An element behind its opening sign. -/
  | element (opening : Token)
  /-- A statement; the mark says whether module items may stand here. -/
  | statement (top : Bool)
  /-- A namespace from its keyword on. -/
  | namespaceFrom (start : Token) (flags : Flags)

/-- A parser for every part of the grammar. -/
abbrev Rules := Part → Parser Node

/-- A type on its own. -/
def parseType (g : Rules) : Parser Node := inType (g (.type false))

/-- An expression with commas. -/
def parseExpression (g : Rules) : Parser Node := do
  let first ← g .assign
  if !(← at_ .comma) then return first
  let kids ← loop (fun kids => do
    if ← eat .comma then return .inl (kids ++ [← g .assign]) else return .inr kids) [first]
  node .seq first.span kids

end ScriptLower.Parse
