import ScriptLower.Parse.Statement

/-!
# Programs

The rules of the grammar are tied together here, and a whole file is read. The knot is tied to a
depth: reading one part inside another goes one deeper, and between two tokens only a few parts can
open, so a depth of some multiple of the length of the text is never reached.
-/

namespace ScriptLower.Parse

open ScriptLower

/-- The rule of each part of the grammar. -/
def rule (g : Rules) : Part → Parser Node
  | .assign => parseAssign g
  | .binary above => parseBinary g above
  | .unary => parseUnary g
  | .lhs => parseLhs g
  | .construct => parseNew g
  | .binding => parseBindingTarget g
  | .type noCond => parseTypeInner g noCond
  | .typeOperator noCond => parseTypeOperator g noCond
  | .element opening => parseElementRest g opening
  | .statement top => parseStatement g top
  | .namespaceFrom start flags => parseNamespace g start flags

/-- The rules tied together to a depth. -/
def rules : Nat → Rules
  | 0 => fun _ => exhausted
  | n + 1 => fun part s => rule (rules n) part s

/-- How many parts open at most between two tokens. -/
def partsPerToken : Nat := 16

/-- A depth that is never reached in a text of a size. -/
def depthFor (size : Nat) : Nat := partsPerToken * (size + 4)

/-- A whole file. -/
def parseProgram (g : Rules) : Parser Node := do
  let start ← peek
  let stmts ← inScope (parseStatementList g .eof true)
  let eof ← peek
  addDangling
  let root := Node.new .program (start.span.cover eof.span) stmts
  return root.addFlags { strict := hasStrictDirective stmts }

/-- How a file is read. -/
structure Options where
  /-- What the grammar accepts; without a dialect, what the path says. -/
  grammar : Grammar := {}
  /-- Whether the tokens are kept. -/
  capture : Bool := false
  /-- The number of errors that stops the parse; zero for none. -/
  maxErrors : Nat := 0
  deriving Inhabited

/-- What reading a file comes to. There is a tree exactly when there is no error. -/
structure Result where
  /-- The tree. -/
  tree : Option Node
  /-- The number of errors. -/
  errors : Nat
  /-- All diagnostics, in the order found. -/
  reports : List Diagnostic
  /-- The comments that survive. -/
  comments : CommentTable
  /-- The tokens, if they are kept. -/
  tokens : List Token
  /-- The dialect the file was read in. -/
  dialect : Dialect
  deriving Inhabited

/-- The grammar a file is read in. -/
def Options.grammarFor (o : Options) (file : SourceFile) : Grammar :=
  if o.grammar.dialect == .none then Grammar.ofDialect (Dialect.ofSpecifier file.path)
  else o.grammar

/-- The state before the first token. -/
def initial (file : SourceFile) (o : Options) : State :=
  let grammar := o.grammarFor file
  { lexer := { file := file, strictOctal := grammar.strictEarlyErrors }
    grammar := grammar
    capture := o.capture
    maxErrors := o.maxErrors
    ambient := if grammar.ambientOnly then 1 else 0 }

/-- Reads a file. -/
def parseFile (file : SourceFile) (o : Options) : Result :=
  let s := initial file o
  let result (tree : Option Node) (errors : Nat) (t : State) : Result :=
    { tree := tree, errors := errors, reports := t.reports, comments := t.comments,
      tokens := t.tokens, dialect := s.grammar.dialect }
  match parseProgram (rules (depthFor file.content.length)) s with
  | .ok n t => if t.errors = 0 then result (some n) 0 t else result none t.errors t
  | .fail _ t => result none (max t.errors 1) t
  | .halt _ t => result none (max t.errors 1) t

/-! ## Single expressions -/

/-- Why a text is not an expression. -/
inductive ExpressionError
  /-- It does not parse; the first message says why. -/
  | malformed (message : Bytes)
  /-- It parses, and is not exactly one expression. -/
  | notSingle
  deriving DecidableEq, Repr, Inhabited

/-- The message of an error about a text. -/
def ExpressionError.message (source : Bytes) : ExpressionError → Bytes
  | malformed m => Quoted.quote source ++ ": " ++ m
  | notSingle => Quoted.quote source ++ ": not a single expression"

/-- Reads a text as one expression. -/
def parseExpressionText (source : Bytes) : Except ExpressionError (SourceFile × Node) :=
  let (_, file) := FileSet.empty.add "expr.ts" source true
  let r := parseFile file { grammar := Grammar.ofDialect .ts, maxErrors := 1 }
  match r.tree with
  | none =>
    match r.reports with
    | [] => .error .notSingle
    | d :: _ => .error (.malformed d.message)
  | some root =>
    match root.kids with
    | [stmt] => if stmt.kind == .exprStmt then .ok (file, stmt.kid 0) else .error .notSingle
    | _ => .error .notSingle

end ScriptLower.Parse
