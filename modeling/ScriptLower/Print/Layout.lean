import ScriptLower.Print.Piece
import ScriptLower.Token.Kind
import ScriptLower.Tree.Node

/-!
# Layouts

How a node is laid out depends on the role it plays: the same name is printed differently as an
expression and as a key. A layout gives the pieces of a node for each role, and it is computed from
the layouts of the children. What has to be known of the tree beyond that (what an expression
begins with, whether an else would bind to the wrong statement) is defined here first.

Parentheses come from the levels at which operators bind; those of the source are nodes of their
own.
-/

namespace ScriptLower.Print

open ScriptLower

/-! ## Levels -/

namespace Level

/-- Nothing around. -/
def lowest : Nat := 0

/-- An item of a list. -/
def comma : Nat := 1

/-- The operand of a yield. -/
def yields : Nat := 3

/-- An assignment. -/
def assign : Nat := 4

/-- A conditional. -/
def conditional : Nat := 5

/-- A bitwise or. -/
def bitwiseOr : Nat := 9

/-- A prefix operator. -/
def prefixed : Nat := 18

/-- A postfix operator, and the object of a call or property read. -/
def postfixed : Nat := 19

/-- A construction. -/
def construct : Nat := 20

end Level

/-- The level of a binary operator. -/
def level? (op : TokenKind) : Option Nat :=
  if op.precedence = 0 then none else some (op.precedence + Level.conditional)

/-- What the place of an expression rules out. -/
structure Restriction where
  /-- The operator `in` would begin a loop over keys. -/
  noIn : Bool := false
  /-- A call would take the arguments of the construction around it. -/
  noCall : Bool := false
  deriving DecidableEq, Repr, Inhabited

/-- Only what concerns the operator `in`. -/
def Restriction.onlyIn (r : Restriction) : Restriction := { noIn := r.noIn }

/-- Only what concerns calls. -/
def Restriction.onlyCall (r : Restriction) : Restriction := { noCall := r.noCall }

/-! ## Roles -/

/-- The role a node plays for the node around it. -/
inductive Role
  /-- An expression at a level. -/
  | expr (level : Nat) (r : Restriction)
  /-- A statement. -/
  | stmt
  /-- A statement with its comments, on lines of its own. -/
  | line
  /-- A block. -/
  | block
  /-- The statement that a loop or a condition controls. -/
  | body
  /-- A declaration of variables. -/
  | bindings (r : Restriction)
  /-- A variable with its value. -/
  | declarator (r : Restriction)
  /-- A parameter list. -/
  | params
  /-- A parameter. -/
  | param
  /-- A member of an object. -/
  | property
  /-- The key of a member. -/
  | key (computed : Bool)
  /-- A template. -/
  | template
  /-- A decorator, which may stand on a line of its own. -/
  | decorator (ownLine : Bool)
  /-- The body of a class. -/
  | classBody
  /-- A member of a class. -/
  | member
  /-- A handler. -/
  | handler
  /-- A branch of a selection by value. -/
  | branch
  /-- An imported or exported name with its other name. -/
  | spec
  /-- The name that an import binds. -/
  | bound
  deriving DecidableEq, Repr, Inhabited

/-- The pieces of a node for each role. -/
abbrev Layout := Role → Pieces

/-- A failure of printing itself. -/
def failure (what : Bytes) : Pieces :=
  [.fault (.error .printingFailure {} ("internal printer failure: " ++ what))]

/-- A node is looked into that is not there. -/
def missing : Pieces := failure Failure.missingNode

/-- The layout of a node that is not there. Where only an expression, a line, a block, parameters or
a handler is asked for, nothing or an empty form stands for it; any other role looks into the
node. -/
def Layout.absent : Layout
  | .expr .. | .line | .bindings _ | .handler | .bound => []
  | .block => [.token [0x7B, 0x7D]]
  | .params => [.token "(", .token ")"]
  | .key true => [.token "[", .token "]"]
  | .template => .token [96] :: missing
  | .classBody => .token [0x7B] :: missing
  | _ => missing

/-- Pieces for which a node is looked into. -/
def lookingInto (n : Node) (ps : Pieces) : Pieces := if n.isPresent then ps else missing

/-- Pieces of what stands behind the first children, of which there must be some number. -/
def behind (i : Nat) (n : Node) (ps : Pieces) : Pieces :=
  if i ≤ n.kids.length then ps else failure (Failure.cutBeyond i n.kids.length)

/-- The layout of the child at a place. -/
def child (ks : List Layout) (i : Nat) : Layout := ks.getD i Layout.absent

/-! ## Small pieces -/

/-- A token. -/
def tok (s : String) : Pieces := [.token (Bytes.ofString s)]

/-- Opening brace. -/
def openBrace : Piece := .token [0x7B]

/-- Closing brace. -/
def closeBrace : Piece := .token [0x7D]

/-- A word with a blank behind it. -/
def word (s : String) : Pieces := [.token (Bytes.ofString s), .space]

/-- An operator with blanks around it. -/
def spaced (s : Bytes) : Pieces := [.space, .token s, .space]

/-- A word with blanks around it. -/
def spacedWord (s : String) : Pieces := spaced (Bytes.ofString s)

/-- Parentheses where they are needed. -/
def wrapIf (wrap : Bool) (ps : Pieces) : Pieces :=
  if wrap then tok "(" ++ ps ++ tok ")" else ps

/-- Pieces with commas between them. -/
def commaSeparated : List Pieces → Pieces
  | [] => []
  | [p] => p
  | p :: r => p ++ [.token ",", .space] ++ commaSeparated r

/-- Expressions with commas between them, each at the level of an item. -/
def items (ks : List Layout) : Pieces := commaSeparated (ks.map fun k => k (.expr Level.comma {}))

/-- An expression where nothing is ruled out. -/
def plain (k : Layout) : Pieces := k (.expr Level.lowest {})

/-- An expression in parentheses. -/
def inParens (k : Layout) : Pieces := tok "(" ++ plain k ++ tok ")"

/-- Arguments. -/
def arguments (ks : List Layout) : Pieces := tok "(" ++ items ks ++ tok ")"

/-- Something that cannot be printed. -/
def unprintable (n : Node) : Pieces :=
  [.fault (.error .unprintableNode n.span ("cannot print " ++ n.kind.name))]

/-- The position of the brace that closes a span. -/
def closer (s : Span) : Nat := if s.isDummy then 0 else s.stop - 1

/-- A body in braces. -/
def braced (span : Span) (lines : List Pieces) : Pieces :=
  if lines.isEmpty then [openBrace, .emptyBody (closer span)]
  else [openBrace, .push, .newline] ++ lines.flatten
    ++ [.dangling (closer span), .pop, .dropSemi, .newline, closeBrace]

/-! ## Looking at the tree -/

mutual

/-- The node that an expression begins with. -/
def leftmost : Node → Node
  | .absent => .absent
  | .mk h ks ds t a x =>
    match h.kind with
    | .binary | .assign | .conditional | .call | .member | .index | .taggedTemplate | .optChain
    | .seq => leftmostFirst ks
    | .update => if h.flags.prefixed then .mk h ks ds t a x else leftmostFirst ks
    | _ => .mk h ks ds t a x

/-- The node that the first of some expressions begins with. -/
def leftmostFirst : List Node → Node
  | [] => .absent
  | n :: _ => leftmost n

end

/-- Whether an expression would be read as a declaration or a block at the head of a statement. -/
def looksLikeStatement (n : Node) : Bool :=
  let first := leftmost n
  match first.kind with
  | .object | .objectPattern | .funcExpr | .classExpr => true
  | .ident => first.text == Bytes.ofString "let" && n.kind != .ident
  | _ => false

mutual

/-- Whether an else behind a statement would bind to a condition inside it. -/
def takesElse : Node → Bool
  | .absent => false
  | .mk h ks _ _ _ _ =>
    match h.kind with
    | .ifStmt => (ks.getD 2 .absent).isAbsent || takesElseAt 2 ks
    | .forStmt | .whileStmt | .forIn | .forOf | .labeled | .withStmt =>
      takesElseAt (ks.length - 1) ks
    | _ => false

/-- Whether an else behind the statement at a place would bind inside it. -/
def takesElseAt : Nat → List Node → Bool
  | _, [] => false
  | 0, n :: _ => takesElse n
  | i + 1, _ :: r => takesElseAt i r

end

mutual

/-- Why the search for a condition that would take an else fails, if it does: it goes down into the
last part of each loop, and into the else of each condition. -/
def searchFailure? : Node → Option Bytes
  | .absent => some Failure.missingNode
  | .mk h ks _ _ _ _ =>
    match h.kind with
    | .ifStmt => if (ks.getD 2 .absent).isAbsent then none else searchFailureAt? 2 ks
    | .forStmt | .whileStmt | .forIn | .forOf | .labeled | .withStmt =>
      searchFailureAt? (ks.length - 1) ks
    | _ => none

/-- Why the search at a place fails, if it does. -/
def searchFailureAt? : Nat → List Node → Option Bytes
  | _, [] => some Failure.noLast
  | 0, n :: _ => searchFailure? n
  | i + 1, _ :: r => searchFailureAt? i r

end

mutual

/-- What stands in front of the property reads of an expression. -/
def readRoot : Node → Node
  | .absent => .absent
  | .mk h ks ds t a x =>
    if h.kind == .member && !h.flags.optional then readRootFirst ks else .mk h ks ds t a x

/-- What stands in front of the property reads of the first of some expressions. -/
def readRootFirst : List Node → Node
  | [] => .absent
  | n :: _ => readRoot n

end

mutual

/-- Whether an expression is a name with property reads behind it. -/
def isDottedPath : Node → Bool
  | .absent => false
  | .mk h ks _ _ _ _ =>
    match h.kind with
    | .ident => true
    | .member => !h.flags.optional && isDottedPathFirst ks
    | _ => false

/-- Whether the first of some expressions is a name with property reads behind it. -/
def isDottedPathFirst : List Node → Bool
  | [] => false
  | n :: _ => isDottedPath n

end

/-- Whether a decorator needs no parentheses: it is a dotted path, or a call of one. -/
def isSimpleDecorator (n : Node) : Bool := isDottedPath (if n.kind == .call then n.kid 0 else n)

/-- What a decorator calls or reads from. Calls but the outermost are not looked through. -/
def decoratorRoot (n : Node) : Node := readRoot (if n.kind == .call then n.kid 0 else n)

/-- Whether a dot behind a number would be read as part of it. -/
def swallowsDot (raw : Bytes) : Bool :=
  let hasRadix := match raw with
    | 48 :: c :: _ => (Bytes.ofString "xXoObB").contains c
    | _ => false
  !hasRadix && !raw.any fun b => (Bytes.ofString ".eEn").contains b

/-- What the value of a member that is written as its name alone names. -/
def namedValue (n : Node) : Node :=
  if (n.kid 1).kind == .assignPattern then (n.kid 1).kid 0 else n.kid 1

/-- Whether a member written as its name alone still names its key. -/
def namesKey (n : Node) : Bool :=
  let key := n.kid 0
  let value := namedValue n
  key.kind == .ident && value.kind == .ident && key.text == value.text

/-- Whether what has to be looked into for that is not there. -/
def lacksName (n : Node) : Bool :=
  (n.kid 0).isAbsent || (n.kid 1).isAbsent || ((n.kid 0).kind == .ident && (namedValue n).isAbsent)

end ScriptLower.Print
