import ScriptLower.Tree.Kind
import ScriptLower.Tree.Flags
import ScriptLower.Token.Kind
import ScriptLower.Source.Span

/-!
# Trees

A tree is a node or the absence of one. A node has a head, which says what it is and where it
stands, and slots: its children in order, its decorators, and one slot each for a type
annotation, for type parameters or arguments, and for a secondary list. An optional child that is
not there is `absent`, so the children of a kind always stand at the same places.

Asking an absent tree for a child gives an absent tree, and its kind is `invalid`; so paths into
a tree need no cases for what may be missing.
-/

namespace ScriptLower

/-- What a node is and where it stands. -/
structure Head where
  /-- What it is. -/
  kind : NodeKind := .invalid
  /-- Its modifiers. -/
  flags : Flags := {}
  /-- The operator, or the kind of a literal; `invalid` for none. -/
  op : TokenKind := .invalid
  /-- Where it stands. -/
  span : Span := {}
  /-- A name, the text of a literal, or a keyword. -/
  text : Bytes := []
  /-- The mark of a generated name; zero for what the source says. -/
  mark : Nat := 0
  deriving DecidableEq, Repr, Inhabited

/-- A node with its slots, or the absence of a node. -/
inductive Node where
  /-- No node. -/
  | absent
  /-- A node: head, children, decorators, type annotation, type parameters, secondary list. -/
  | mk (head : Head) (kids decos : List Node) (type targs aux : Node)
  deriving Repr, Inhabited

namespace Node

/-! ## Looking -/

/-- Whether there is a node. -/
def isPresent : Node → Bool
  | absent => false
  | mk .. => true

/-- Whether there is no node. -/
def isAbsent (n : Node) : Bool := !n.isPresent

/-- The head; an absent node has the empty one. -/
def head : Node → Head
  | absent => {}
  | mk h .. => h

/-- The children. -/
def kids : Node → List Node
  | absent => []
  | mk _ ks .. => ks

/-- The decorators. -/
def decos : Node → List Node
  | absent => []
  | mk _ _ ds .. => ds

/-- The type annotation. -/
def type : Node → Node
  | absent => absent
  | mk _ _ _ t _ _ => t

/-- The type parameters or type arguments. -/
def targs : Node → Node
  | absent => absent
  | mk _ _ _ _ a _ => a

/-- The secondary list. -/
def aux : Node → Node
  | absent => absent
  | mk _ _ _ _ _ x => x

/-- What the node is. -/
def kind (n : Node) : NodeKind := n.head.kind

/-- The modifiers. -/
def flags (n : Node) : Flags := n.head.flags

/-- The operator. -/
def op (n : Node) : TokenKind := n.head.op

/-- Where the node stands. -/
def span (n : Node) : Span := n.head.span

/-- The text. -/
def text (n : Node) : Bytes := n.head.text

/-- The mark of a generated name. -/
def mark (n : Node) : Nat := n.head.mark

/-- A child by its place; absent when there is none. -/
def kid (n : Node) (i : Nat) : Node := n.kids.getD i absent

/-- Whether the node is of a kind. -/
def isKind (n : Node) (k : NodeKind) : Bool := n.kind == k

/-- Whether the node is the name `name`. -/
def isIdent (n : Node) (name : String) : Bool :=
  n.kind == .ident && n.text == Bytes.ofString name

/-! ## Changing -/

/-- The node with another head. -/
def mapHead (f : Head → Head) : Node → Node
  | absent => absent
  | mk h ks ds t a x => mk (f h) ks ds t a x

/-- The node with other modifiers. -/
def mapFlags (f : Flags → Flags) (n : Node) : Node :=
  n.mapHead fun h => { h with flags := f h.flags }

/-- The node with more modifiers. -/
def addFlags (n : Node) (f : Flags) : Node := n.mapFlags (·.or f)

/-- The node with another text. -/
def withText (n : Node) (s : Bytes) : Node := n.mapHead fun h => { h with text := s }

/-- The node with another place. -/
def withSpan (n : Node) (s : Span) : Node := n.mapHead fun h => { h with span := s }

/-- The node as another kind. -/
def withKind (n : Node) (k : NodeKind) : Node := n.mapHead fun h => { h with kind := k }

/-- The node with other children. -/
def withKids (n : Node) (ks : List Node) : Node :=
  match n with
  | absent => absent
  | mk h _ ds t a x => mk h ks ds t a x

/-- The node with decorators. -/
def withDecos (n : Node) (ds : List Node) : Node :=
  match n with
  | absent => absent
  | mk h ks _ t a x => mk h ks ds t a x

/-- The node with a type annotation. -/
def withType (n t : Node) : Node :=
  match n with
  | absent => absent
  | mk h ks ds _ a x => mk h ks ds t a x

/-- The node with type parameters or arguments. -/
def withTargs (n a : Node) : Node :=
  match n with
  | absent => absent
  | mk h ks ds t _ x => mk h ks ds t a x

/-- The node with a secondary list. -/
def withAux (n x : Node) : Node :=
  match n with
  | absent => absent
  | mk h ks ds t a _ => mk h ks ds t a x

/-! ### What changing keeps -/

section

variable (n : Node)

@[simp] theorem isPresent_mapHead (f : Head → Head) : (n.mapHead f).isPresent = n.isPresent := by
  cases n <;> rfl

@[simp] theorem isPresent_addFlags (f : Flags) : (n.addFlags f).isPresent = n.isPresent :=
  n.isPresent_mapHead _

@[simp] theorem isPresent_withText (s : Bytes) : (n.withText s).isPresent = n.isPresent :=
  n.isPresent_mapHead _

@[simp] theorem isPresent_withSpan (s : Span) : (n.withSpan s).isPresent = n.isPresent :=
  n.isPresent_mapHead _

@[simp] theorem isPresent_withDecos (ds : List Node) :
    (n.withDecos ds).isPresent = n.isPresent := by
  cases n <;> rfl

@[simp] theorem isPresent_withType (t : Node) : (n.withType t).isPresent = n.isPresent := by
  cases n <;> rfl

@[simp] theorem isPresent_withTargs (a : Node) : (n.withTargs a).isPresent = n.isPresent := by
  cases n <;> rfl

@[simp] theorem isPresent_withAux (x : Node) : (n.withAux x).isPresent = n.isPresent := by
  cases n <;> rfl

@[simp] theorem span_addFlags (f : Flags) : (n.addFlags f).span = n.span := by cases n <;> rfl

@[simp] theorem span_withText (s : Bytes) : (n.withText s).span = n.span := by cases n <;> rfl

@[simp] theorem span_withDecos (ds : List Node) : (n.withDecos ds).span = n.span := by
  cases n <;> rfl

@[simp] theorem span_withType (t : Node) : (n.withType t).span = n.span := by cases n <;> rfl

@[simp] theorem span_withTargs (a : Node) : (n.withTargs a).span = n.span := by cases n <;> rfl

@[simp] theorem span_withAux (x : Node) : (n.withAux x).span = n.span := by cases n <;> rfl

theorem span_withSpan (s : Span) (h : n.isPresent = true) : (n.withSpan s).span = s := by
  cases n with
  | absent => contradiction
  | mk h ks ds t a x => rfl

end

/-! ## Building -/

/-- A node of a head and children. -/
def ofHead (h : Head) (kids : List Node) : Node := mk h kids [] absent absent absent

/-- A node of a kind. -/
def new (kind : NodeKind) (span : Span) (kids : List Node) : Node :=
  ofHead { kind := kind, span := span } kids

/-- An operator node. -/
def newOp (kind : NodeKind) (op : TokenKind) (span : Span) (kids : List Node) : Node :=
  ofHead { kind := kind, op := op, span := span } kids

/-- A leaf with a text. -/
def newText (kind : NodeKind) (span : Span) (text : Bytes) : Node :=
  ofHead { kind := kind, span := span, text := text } []

/-- A name. -/
def ident (name : Bytes) (span : Span) : Node := newText .ident span name

/-- A generated name that wants to be called `name`. -/
def marked (name : Bytes) (mark : Nat) : Node :=
  ofHead { kind := .ident, text := name, mark := mark, flags := { synth := true } } []

/-- A literal of a token kind, spelled `raw`. -/
def literal (op : TokenKind) (raw : Bytes) (span : Span) : Node :=
  ofHead { kind := .literal, op := op, text := raw, span := span } []

/-- One of the literals `true`, `false` and `null`. -/
def keyword (op : TokenKind) (span : Span) : Node := literal op op.name span

/-- A property read by name. -/
def member (obj : Node) (name : Bytes) (span : Span) : Node :=
  new .member span [obj, ident name span]

/-- A call. -/
def call (span : Span) (callee : Node) (args : List Node) : Node := new .call span (callee :: args)

/-! ## Walking -/

mutual

/-- All nodes of a tree: each before its children, decorators, type annotation, type parameters
and secondary list. -/
def walk : Node → List Node
  | absent => []
  | mk h ks ds t a x =>
    mk h ks ds t a x :: (walkAll ks ++ walkAll ds ++ walk t ++ walk a ++ walk x)

/-- All nodes of several trees. -/
def walkAll : List Node → List Node
  | [] => []
  | n :: r => walk n ++ walkAll r

end

mutual

/-- Applies a function to the head of every node. -/
def mapHeads (f : Head → Head) : Node → Node
  | absent => absent
  | mk h ks ds t a x =>
    mk (f h) (mapAllHeads f ks) (mapAllHeads f ds) (mapHeads f t) (mapHeads f a) (mapHeads f x)

/-- Applies a function to the head of every node of several trees. -/
def mapAllHeads (f : Head → Head) : List Node → List Node
  | [] => []
  | n :: r => mapHeads f n :: mapAllHeads f r

end

mutual

/-- The number of nodes. -/
def count : Node → Nat
  | absent => 0
  | mk _ ks ds t a x => 1 + countAll ks + countAll ds + count t + count a + count x

/-- The number of nodes of several trees. -/
def countAll : List Node → Nat
  | [] => 0
  | n :: r => count n + countAll r

end

mutual

/-- The expression inside any number of parentheses. -/
def unparen : Node → Node
  | absent => absent
  | mk h ks ds t a x =>
    if h.kind == .paren then unparenFirst ks else mk h ks ds t a x

/-- The first of the children, out of its parentheses. -/
def unparenFirst : List Node → Node
  | [] => absent
  | n :: _ => unparen n

end

end Node

end ScriptLower
