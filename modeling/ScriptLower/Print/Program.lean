import ScriptLower.Print.Expression

/-!
# Layout of statements and programs
-/

/-!
## Layout of statements
-/

namespace ScriptLower.Print

open ScriptLower

/-- A declaration of variables. -/
def bindings (n : Node) (ks : List Layout) (r : Restriction) : Pieces :=
  [Piece.token n.text, Piece.space] ++ commaSeparated (ks.map fun k => k (.declarator r))

/-- A variable with its value. -/
def declarator (n : Node) (ks : List Layout) (r : Restriction) : Pieces :=
  [Piece.map n.span] ++ child ks 0 (.expr Level.comma {})
    ++ (if (n.kid 1).isPresent then spacedWord "=" ++ child ks 1 (.expr Level.comma r) else [])

/-- An expression that may be absent, with a blank in front. -/
def optional (n : Node) (k : Layout) : Pieces := if n.isPresent then .space :: plain k else []

/-- The first part of a loop head. -/
def loopHead (n : Node) (k : Layout) : Pieces :=
  if n.kind == .varDecl then k (.bindings { noIn := true })
  else k (.expr Level.lowest { noIn := true })

/-- A conditional statement. A branch that would take the else is put in braces. -/
def ifStatement (n : Node) (ks : List Layout) : Pieces :=
  let yes := n.kid 1
  let no := n.kid 2
  let guarded := no.isPresent && yes.kind != .block && takesElse yes
  let first : Pieces :=
    if guarded then
      [Piece.space, openBrace, Piece.push, Piece.newline] ++ child ks 1 .line
        ++ [Piece.pop, Piece.dropSemi, Piece.newline, closeBrace]
    else child ks 1 .body
  let first : Pieces :=
    if no.isPresent && yes.kind != .block then ((searchFailure? yes).map failure).getD first
      else first
  let second : Pieces :=
    if no.isAbsent then []
    else
      [if guarded || yes.kind == .block then Piece.space else Piece.newline] ++ tok "else"
        ++ (if no.kind == .ifStmt then [Piece.space, Piece.map no.span] ++ child ks 2 .stmt
          else child ks 2 .body)
  word "if" ++ inParens (child ks 0) ++ first ++ second

/-- A counting loop. -/
def forStatement (n : Node) (ks : List Layout) : Pieces :=
  word "for" ++ tok "(" ++ (if (n.kid 0).isPresent then loopHead (n.kid 0) (child ks 0) else [])
    ++ tok ";" ++ optional (n.kid 1) (child ks 1)
    ++ tok ";" ++ optional (n.kid 2) (child ks 2) ++ tok ")" ++ child ks 3 .body

/-- A loop over keys or over values. -/
def forEach (n : Node) (ks : List Layout) : Pieces :=
  let overKeys := n.kind == .forIn
  tok "for" ++ (if n.flags.awaits then Piece.space :: tok "await" else []) ++
    [Piece.space] ++ tok "("
    ++ lookingInto (n.kid 0) (loopHead (n.kid 0) (child ks 0)) ++
      spacedWord (if overKeys then "in" else "of")
    ++ child ks 1 (.expr (if overKeys then Level.lowest else Level.comma) {}) ++ tok ")"
    ++ child ks 2 .body

/-- A statement with a handler. -/
def tryStatement (n : Node) (ks : List Layout) : Pieces :=
  word "try" ++ child ks 0 .block
    ++ (if (n.kid 1).isPresent then Piece.space :: child ks 1 .handler else [])
    ++ (if (n.kid 2).isPresent then spacedWord "finally" ++ child ks 2 .block else [])

/-- A handler. -/
def handler (n : Node) (ks : List Layout) : Pieces :=
  [Piece.map n.span] ++ tok "catch"
    ++ (if (n.kid 0).isPresent then Piece.space :: inParens (child ks 0) else [])
    ++ [Piece.space] ++ child ks 1 .block

/-- A selection by value. -/
def switchStatement (n : Node) (ks : List Layout) : Pieces :=
  word "switch" ++ inParens (child ks 0) ++ [Piece.space, openBrace, Piece.push, Piece.newline]
    ++ behind 1 n ((ks.drop 1).flatMap fun k => k .branch)
    ++ [Piece.dangling (closer n.span), Piece.pop, Piece.dropSemi, Piece.newline, closeBrace]

/-- A branch of a selection by value. -/
def branch (n : Node) (ks : List Layout) : Pieces :=
  let label : Pieces :=
    if (n.kid 0).isPresent then word "case" ++ plain (child ks 0) else tok "default"
  let isBlock : Bool := n.kids.length == 2 && (n.kid 1).kind == .block
  let stmts : Pieces :=
    if isBlock then [Piece.space] ++ child ks 1 .block ++ [Piece.newline]
    else [Piece.push, Piece.newline] ++ (ks.drop 1).flatMap (fun k => k .line) ++
      [Piece.pop, Piece.newline]
  [Piece.leading n.span.start, Piece.map n.span] ++ label ++ tok ":" ++ behind 1 n stmts

/-! ## Imports and exports -/

/-- A module and its attributes. -/
def source (n : Node) (ks : List Layout) : Pieces :=
  plain (child ks 0)
    ++ (if (n.kid 1).isPresent then spacedWord "with" ++ plain (child ks 1) else [])

/-- Names in braces. -/
def specList (ks : List Layout) : Pieces :=
  if ks.isEmpty then [.token [0x7B, 0x7D]]
  else [openBrace, Piece.space] ++ commaSeparated (ks.map fun k => k .spec) ++
    [Piece.space, closeBrace]

/-- An imported or exported name with its other name. -/
def spec (n : Node) (ks : List Layout) : Pieces :=
  let first := n.kid 0
  let second := n.kid 1
  [Piece.map n.span] ++ plain (child ks 0)
    ++ (if second.isAbsent then []
      else lookingInto first
        (if first.kind != second.kind || first.text != second.text then
          spacedWord "as" ++ plain (child ks 1) else []))

/-- What an import binds behind its default name. -/
def importBindings (specs : List Node) (ks : List Layout) : Pieces :=
  match specs, ks with
  | s :: _, k :: _ =>
    if s.kind == .importNamespace then tok "*" ++ spacedWord "as" ++ k .bound else specList ks
  | _, _ => []

/-- An import. -/
def importStatement (n : Node) (ks : List Layout) : Pieces :=
  let specs := n.kids.drop 2
  let ss := ks.drop 2
  let bindings : Pieces :=
    if (specs.headD .absent).kind == .importDefault then
      child ss 0 .bound ++ (if 1 < specs.length then word "," else [])
        ++ importBindings (specs.drop 1) (ss.drop 1)
    else importBindings specs ss
  word "import"
    ++ behind 2 n ((if specs.isEmpty then [] else bindings ++ spacedWord "from") ++ source n ks
      ++ [Piece.semi])

/-- An export of names. -/
def exportNamed (n : Node) (ks : List Layout) : Pieces :=
  word "export" ++ behind 2 n (specList (ks.drop 2))
    ++ (if (n.kid 0).isPresent then spacedWord "from" ++ source n ks else []) ++ [Piece.semi]

/-- An export of all names of a module. -/
def exportAll (n : Node) (ks : List Layout) : Pieces :=
  word "export" ++ tok "*"
    ++ (if (n.kid 2).isPresent then spacedWord "as" ++ plain (child ks 2) else [])
    ++ spacedWord "from" ++ source n ks ++ [Piece.semi]

/-- A default export. -/
def exportDefault (n : Node) (ks : List Layout) : Pieces :=
  word "export" ++ word "default"
    ++ lookingInto (n.kid 0) (match (n.kid 0).kind with
      | .funcDecl | .classDecl => child ks 0 .stmt
      | _ =>
        wrapIf (looksLikeStatement (n.kid 0)) (child ks 0 (.expr Level.comma {})) ++ [Piece.semi])

/-! ## Statements -/

/-- A statement. -/
def statement (n : Node) (ks ds : List Layout) : Pieces :=
  let jump (w : String) : Pieces := tok w ++ optional (n.kid 0) (child ks 0) ++ [Piece.semi]
  match n.kind with
  | .exprStmt => wrapIf (looksLikeStatement (n.kid 0)) (plain (child ks 0)) ++ [Piece.semi]
  | .varDecl => bindings n ks {} ++ [Piece.semi]
  | .funcDecl => function n ks
  | .classDecl => class_ n ks ds
  | .block => .map n.span :: braced n.span (ks.map fun k => k .line)
  | .empty => tok ";"
  | .debugger => tok "debugger" ++ [Piece.semi]
  | .ifStmt => ifStatement n ks
  | .forStmt => forStatement n ks
  | .forIn | .forOf => forEach n ks
  | .whileStmt => word "while" ++ inParens (child ks 0) ++ child ks 1 .body
  | .doWhile =>
    tok "do" ++ child ks 0 .body ++
      [if (n.kid 0).kind == .block then Piece.space else Piece.newline]
      ++ word "while" ++ inParens (child ks 1) ++ [Piece.semi]
  | .returnStmt => jump "return"
  | .throwStmt => jump "throw"
  | .breakStmt => jump "break"
  | .continueStmt => jump "continue"
  | .tryStmt => tryStatement n ks
  | .switchStmt => switchStatement n ks
  | .labeled =>
    plain (child ks 0) ++ tok ":"
      ++ (if (n.kid 1).kind == .empty then tok ";" else Piece.space :: child ks 1 .stmt)
  | .withStmt => word "with" ++ inParens (child ks 0) ++ child ks 1 .body
  | .importDecl => importStatement n ks
  | .exportNamed => exportNamed n ks
  | .exportAll => exportAll n ks
  | .exportDecl => word "export" ++ [Piece.map (n.kid 0).span] ++ child ks 0 .stmt
  | .exportDefault => exportDefault n ks
  | _ => unprintable n

/-- The statement that a loop or a condition controls. -/
def controlled (n : Node) (ks ds : List Layout) : Pieces :=
  match n.kind with
  | .block => .space :: .map n.span :: braced n.span (ks.map fun k => k .line)
  | .empty => tok ";"
  | _ =>
    [Piece.push, Piece.newline, Piece.leading n.span.start, Piece.map n.span] ++ statement n ks ds
      ++ [Piece.pop]

/-! ## All roles -/

/-- The pieces of a node for a role, given the layouts of its children and decorators. -/
def rule (ascii : Bool) (n : Node) (ks ds : List Layout) : Layout
  | .expr level r => expr ascii n ks ds level r
  | .stmt => statement n ks ds
  | .line => [Piece.leading n.span.start, Piece.map n.span] ++ statement n ks ds ++ [Piece.newline]
  | .block => .map n.span :: braced n.span (ks.map fun k => k .line)
  | .body => controlled n ks ds
  | .bindings r => bindings n ks r
  | .declarator r => declarator n ks r
  | .params => tok "(" ++ commaSeparated (ks.map fun k => k .param) ++ tok ")"
  | .param => if n.kind == .param then parameter n ks ds else expr ascii n ks ds Level.comma {}
  | .property => property n ks fun _ => expr ascii n ks ds Level.comma {}
  | .key computed => key ascii n computed fun _ => expr ascii n ks ds Level.comma {}
  | .template => template ascii n ks
  | .decorator ownLine => decorator n ks ownLine
  | .classBody => braced n.span (ks.map fun k => k .member)
  | .member => member n ks ds
  | .handler => handler n ks
  | .branch => branch n ks
  | .spec => spec n ks
  | .bound => plain (child ks 0)

mutual

/-- The layout of a tree. -/
def layout (ascii : Bool) : Node → Layout
  | .absent => Layout.absent
  | .mk h ks ds t a x => rule ascii (.mk h ks ds t a x) (layoutAll ascii ks) (layoutAll ascii ds)

/-- The layouts of several trees. -/
def layoutAll (ascii : Bool) : List Node → List Layout
  | [] => []
  | n :: r => layout ascii n :: layoutAll ascii r

end

end ScriptLower.Print

/-!
## Printing a program

The pieces of a program are its interpreter line, its statements, and the comments at its end. The
text is checked once more before it is handed out.
-/

namespace ScriptLower.Print

open ScriptLower

/-- How a tree is printed. -/
structure Settings where
  /-- Whether blanks, line ends and comments are left out. -/
  minify : Bool := false
  /-- Whether the output keeps to ASCII. -/
  asciiOnly : Bool := false
  /-- How many blanks a level of indentation has; the default is taken when it is not positive. -/
  indent : Int := 0
  /-- The map to fill, if one is wanted. -/
  sink : Option MapSink := none
  deriving Inhabited

/-- The blanks of a level when none are asked for. -/
def defaultIndent : Nat := 2

/-- The blanks of a level. -/
def Settings.blanks (o : Settings) : Nat := if o.indent ≤ 0 then defaultIndent else o.indent.toNat

/-- What printing comes to. There is a text exactly when there is no error. -/
structure Result where
  /-- The text. -/
  code : Option Bytes
  /-- All diagnostics, in the order found. -/
  reports : List Diagnostic
  /-- The map, if one was wanted. -/
  sink : Option MapSink := none
  deriving Inhabited

/-- The number of errors. -/
def Result.errors (r : Result) : Nat := r.reports.countP Diagnostic.isError

/-- Prints the interpreter line, wherever it hangs. -/
def hashbang (s : State) : State :=
  match s.comments.all.find? (·.hashbang) with
  | some c => s.write fun w => (w.raw c.text).forceNewline
  | none => s

/-- The statements of a program and the comments at its end. -/
def programPieces (ascii : Bool) (root : Node) : Pieces :=
  (layoutAll ascii root.kids).flatMap (fun k => k .line) ++
    [Piece.dangling root.span.stop, Piece.dropSemi]

/-- Ends the last line of a text. -/
def finish (s : State) : State :=
  if s.writer.reversed.isEmpty then s else s.write Writer.newline

/-- What is wrong with a text: it is not UTF-8, or not ASCII where it should be. -/
def checkOutput (asciiOnly : Bool) (out : Bytes) : List Diagnostic :=
  if !Utf8.isValid out then [.error .badOutput {} "output is not valid UTF-8"]
  else if !asciiOnly then []
  else match out.findIdx? (fun b => 0x80 ≤ b) with
    | some i =>
      [.error .badOutput {} ("non-ASCII byte at offset " ++ Bytes.ofNat i
        ++ " in ASCII-only output")]
    | none => []

/-- The diagnostic of an entry that the map refused. -/
def mapDiagnostic (e : MapError) : Diagnostic :=
  let code := match e with
    | .outside .. => Code.spanOutOfRange
    | .disorder .. => Code.mapMismatch
  .error code {} e.message

/-- Whether printing fails at a piece. -/
def Piece.isFailure : Piece → Bool
  | .fault d => d.code == .printingFailure
  | _ => false

/-- Prints a tree. Where printing fails it ends at once, and nothing more is reported. -/
def printTree (root : Node) (comments : CommentTable) (o : Settings) : Result :=
  if root.kind != .program then
    { code := none, reports := [.error .unprintableNode {} "emit expects a program root"]
      sink := o.sink }
  else
    let start : State :=
      { writer := { minify := o.minify, indent := o.blanks, sink := o.sink }
        comments := comments, asciiOnly := o.asciiOnly }
    let pieces := programPieces o.asciiOnly root
    match pieces.findIdx? Piece.isFailure with
    | some i =>
      let s := (hashbang start).run (pieces.take (i + 1))
      { code := none, reports := s.reports, sink := s.writer.sink }
    | none =>
      let s := finish ((hashbang start).run pieces)
      let out := s.writer.text
      let reports := s.reports ++ (s.writer.mapError.map mapDiagnostic).toList
        ++ checkOutput o.asciiOnly out
      { code := if reports.isEmpty then some out else none, reports := reports
        sink := s.writer.sink }

end ScriptLower.Print
