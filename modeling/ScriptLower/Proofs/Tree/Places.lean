import ScriptLower.Proofs.Source.Positions
import ScriptLower.Tree.Node

/-!
# Places of a tree

A node stands at a place, and the place says of which kind it may be. The kind then says which
places its children stand at. A tree fits a place when this is so all the way down, and when no
child is missing that has to be there.

The same places serve for the trees that a source is read into and for those that lowering makes.
The first may hold types and elements, and at some places whole nodes that lowering drops without
looking into them. The second hold neither, and no slot of a type either. Both keep to a file: a
node stands nowhere, or inside of it.
-/

namespace ScriptLower

/-! ## Places -/

/-- What a place of a tree is for. -/
inductive Place
  /-- A statement. -/
  | stmt
  /-- A statement that may be missing. -/
  | optStmt
  /-- An expression or a pattern, or what may stand in a list of them. -/
  | expr
  /-- The same, but it may be missing. -/
  | optExpr
  /-- A block. -/
  | block
  /-- A block that may be missing. -/
  | optBlock
  /-- A name or a literal that stands for one. -/
  | name
  /-- The same, but it may be missing. -/
  | optName
  /-- A name that is declared. -/
  | binder
  /-- The same, but it may be missing. -/
  | optBinder
  /-- A name or a pattern that is bound. -/
  | pattern
  /-- The same, but it may be missing. -/
  | optPattern
  /-- A parameter list. -/
  | params
  /-- A parameter. -/
  | param
  /-- A variable with its value. -/
  | declarator
  /-- What a counting loop begins with, if anything. -/
  | loopInit
  /-- What a loop over keys or values assigns to or declares. -/
  | loopTarget
  /-- A handler, which may be missing. -/
  | handler
  /-- A branch of a selection by value. -/
  | branch
  /-- A decorator. -/
  | decorator
  /-- The body of a class. -/
  | classBody
  /-- A member of a class. -/
  | member
  /-- A member of an object. -/
  | objectMember
  /-- A member of an object pattern. -/
  | patternMember
  /-- A text of a template. -/
  | quasi
  /-- A template. -/
  | template
  /-- What an import binds. -/
  | importItem
  /-- An exported name. -/
  | exportItem
  /-- A declaration behind the word `export`. -/
  | declaration
  /-- What is exported as the default. -/
  | exported
  /-- A namespace. -/
  | namespaceDecl
  /-- The body of a namespace, if it has one. -/
  | namespaceBody
  /-- A member of an enumeration. -/
  | enumMember
  /-- A dotted name. -/
  | entity
  /-- What an alias stands for. -/
  | reference
  /-- The name of a tag. -/
  | tag
  /-- The attributes of a tag. -/
  | attributes
  /-- One attribute. -/
  | attr
  /-- The value of an attribute, if it has one. -/
  | attributeValue
  /-- An element. -/
  | element
  /-- The children of an element. -/
  | children
  /-- A child of an element. -/
  | child
  deriving DecidableEq

namespace NodeKind

/-- Whether nodes of the kind are expressions or patterns of the plain language. -/
def isExpression : NodeKind → Bool
  | .ident | .privateName | .literal | .template | .taggedTemplate | .array | .hole | .object
  | .spread | .funcExpr | .arrow | .classExpr | .unary | .update | .binary | .assign
  | .conditional | .call | .newExpr | .member | .index | .optChain | .seq | .paren | .await
  | .yield | .thisExpr | .superExpr | .metaProp | .importCall | .raw | .arrayPattern
  | .objectPattern | .assignPattern | .restElement => true
  | _ => false

/-- Whether nodes of the kind are expressions that lowering replaces. -/
def isLowered : NodeKind → Bool
  | .asExpr | .satisfies | .typeAssert | .nonNull | .instantiation | .jsxElement
  | .jsxFragment => true
  | _ => false

/-- Whether nodes of the kind are statements of the plain language. -/
def isStatement : NodeKind → Bool
  | .exprStmt | .varDecl | .funcDecl | .classDecl | .block | .empty | .debugger | .ifStmt
  | .forStmt | .forIn | .forOf | .whileStmt | .doWhile | .returnStmt | .breakStmt
  | .continueStmt | .throwStmt | .tryStmt | .switchStmt | .labeled | .withStmt | .importDecl
  | .exportNamed | .exportAll | .exportDecl | .exportDefault => true
  | _ => false

/-- Whether nodes of the kind are statements that lowering replaces. -/
def isTypedStatement : NodeKind → Bool
  | .importEquals | .enumDecl | .namespaceDecl | .exportAssign => true
  | _ => false

/-- Whether nodes of the kind are names or literals. -/
def isName : NodeKind → Bool
  | .ident | .privateName | .literal => true
  | _ => false

/-- Whether nodes of the kind are the statements of types, which lowering drops. -/
def isTypeStatement : NodeKind → Bool
  | .interfaceDecl | .typeAlias | .overload | .exportAsNamespace => true
  | _ => false

end NodeKind

namespace Place

/-- Whether the place may be empty. -/
def isOptional : Place → Bool
  | optStmt | optExpr | optBlock | optName | optBinder | optPattern | loopInit | handler
  | namespaceBody | attributeValue => true
  | _ => false

/-- Whether lowering drops a node of a kind from the place without looking into it. -/
def drops : Place → NodeKind → Bool
  | stmt, k | optStmt, k | declaration, k | exported, k => k.isTypeStatement
  | member, k => k == .overload || k == .indexSignature
  | reference, k => k == .externalRef
  | _, _ => false

/-- Whether a node of a kind may stand at the place, in a tree of the plain language or in one of a
source. -/
@[simp] def allows (plain : Bool) : Place → NodeKind → Bool
  | stmt, k | optStmt, k => k.isStatement || !plain && k.isTypedStatement
  | expr, k | optExpr, k => k.isExpression || !plain && k.isLowered
  | block, k | optBlock, k => k == .block
  | name, k | optName, k => k.isName
  | binder, k | optBinder, k => k == .ident
  | pattern, k | optPattern, k => k == .ident || k == .arrayPattern || k == .objectPattern
  | params, k => k == .params
  | param, k => k == .param
  | declarator, k => k == .declarator
  | loopInit, k | loopTarget, k => k.isExpression || !plain && k.isLowered || k == .varDecl
  | handler, k => k == .catchClause
  | branch, k => k == .caseClause
  | decorator, k => k == .decorator
  | classBody, k => k == .classBody
  | member, k => k == .method || k == .property || k == .staticBlock
  | objectMember, k => k == .objProp || k == .method || k == .spread
  | patternMember, k => k == .objProp || k == .restElement
  | quasi, k => k == .templateElem
  | template, k => k == .template
  | importItem, k => k == .importSpec || k == .importDefault || k == .importNamespace
  | exportItem, k => k == .exportSpec
  | declaration, k =>
    if plain then k.isStatement
    else k == .varDecl || k == .funcDecl || k == .classDecl || k == .enumDecl
      || k == .namespaceDecl || k == .importEquals
  | exported, k =>
    k.isExpression || !plain && k.isLowered || k == .funcDecl || k == .classDecl
  | namespaceDecl, k => !plain && k == .namespaceDecl
  | namespaceBody, k => !plain && (k == .block || k == .namespaceDecl)
  | enumMember, k => !plain && k == .enumMember
  | entity, k | reference, k =>
    !plain && (k == .ident || k == .thisExpr || k == .typeQualified)
  | tag, k => !plain && (k == .jsxName || k == .jsxMemberName)
  | attributes, k => !plain && k == .jsxAttrs
  | attr, k => !plain && (k == .jsxAttr || k == .jsxSpreadAttr)
  | attributeValue, k =>
    !plain && (k == .literal || k == .jsxExprContainer || k == .jsxElement || k == .jsxFragment)
  | element, k => !plain && (k == .jsxElement || k == .jsxFragment)
  | children, k => !plain && k == .jsxChildren
  | child, k =>
    !plain && (k == .jsxText || k == .jsxExprContainer || k == .jsxSpreadChild
      || k == .jsxElement || k == .jsxFragment)

end Place

/-! ## Shapes -/

/-- What follows the first children of a node. -/
inductive Rest
  /-- Nothing. -/
  | none
  /-- Any number of children at places of one sort. -/
  | each (p : Place)
  /-- Any number of children at places of two sorts in turns. -/
  | turns (p q : Place)

/-- The places of the children of a node. -/
structure Shape where
  /-- Those that are always there. -/
  first : List Place := []
  /-- Those behind them. -/
  rest : Rest := .none

/-- The place of the key of a member. -/
def keyPlace (computed : Bool) : Place := if computed then .expr else .name

/-- The place of the name of a function or class: only one that is exported as the default may go
without. -/
def declaredPlace (p : Place) : Place := if p == .exported then .optBinder else .binder

/-- The places of the children of a node at a place. -/
def shapeOf (p : Place) (k : NodeKind) (f : Flags) : Shape :=
  match k with
  | .program | .block => { rest := .each .stmt }
  | .exprStmt | .throwStmt | .exportAssign => { first := [.expr] }
  | .varDecl => { rest := .each .declarator }
  | .declarator | .param => { first := [.expr, .optExpr] }
  | .funcDecl => { first := [declaredPlace p, .params, .block] }
  | .funcExpr => { first := [.optName, .params, .block] }
  | .classDecl => { first := [declaredPlace p, .optExpr, .classBody] }
  | .classExpr => { first := [.optName, .optExpr, .classBody] }
  | .ifStmt => { first := [.expr, .stmt, .optStmt] }
  | .forStmt => { first := [.loopInit, .optExpr, .optExpr, .stmt] }
  | .forIn | .forOf => { first := [.loopTarget, .expr, .stmt] }
  | .whileStmt | .withStmt => { first := [.expr, .stmt] }
  | .doWhile => { first := [.stmt, .expr] }
  | .returnStmt | .yield => { first := [.optExpr] }
  | .breakStmt | .continueStmt => { first := [.optName] }
  | .tryStmt => { first := [.block, .handler, .optBlock] }
  | .catchClause => { first := [.optPattern, .block] }
  | .switchStmt => { first := [.expr], rest := .each .branch }
  | .caseClause => { first := [.optExpr], rest := .each .stmt }
  | .labeled => { first := [.name, .stmt] }
  | .importDecl => { first := [.name, .optExpr], rest := .each .importItem }
  | .importDefault | .importNamespace => { first := [.name] }
  | .importSpec | .exportSpec => { first := [.name, .name] }
  | .importEquals => { first := [.name, .reference] }
  | .exportNamed => { first := [.optName, .optExpr], rest := .each .exportItem }
  | .exportAll => { first := [.name, .optExpr, .optName] }
  | .exportDecl => { first := [.declaration] }
  | .exportDefault => { first := [.exported] }
  | .enumDecl => { first := [.binder], rest := .each .enumMember }
  | .enumMember => { first := [.name, .optExpr] }
  | .namespaceDecl => { first := [.name, .namespaceBody] }
  | .classBody => { rest := .each .member }
  | .method => { first := [keyPlace f.computed, .params, .block] }
  | .property => { first := [keyPlace f.computed, .optExpr] }
  | .staticBlock => { first := [.block] }
  | .params => { rest := .each .param }
  | .template => { rest := .turns .quasi .expr }
  | .taggedTemplate => { first := [.expr, .template] }
  | .array | .arrayPattern | .seq => { rest := .each .expr }
  | .object => { rest := .each .objectMember }
  | .objectPattern => { rest := .each .patternMember }
  | .objProp => { first := [keyPlace f.computed, .expr] }
  | .spread | .restElement | .unary | .update | .paren | .await | .optChain | .decorator
  | .asExpr | .satisfies | .typeAssert | .nonNull | .instantiation | .jsxSpreadAttr
  | .jsxSpreadChild => { first := [.expr] }
  | .arrow => { first := [.params, if f.exprBody then .expr else .block] }
  | .binary | .assign | .assignPattern | .index => { first := [.expr, .expr] }
  | .conditional => { first := [.expr, .expr, .expr] }
  | .call | .newExpr | .importCall => { first := [.expr], rest := .each .expr }
  | .member => { first := [.expr, .name] }
  | .jsxElement => { first := [.tag, .attributes, .children] }
  | .jsxFragment => { first := [.children] }
  | .jsxAttrs => { rest := .each .attr }
  | .jsxChildren => { rest := .each .child }
  | .jsxMemberName => { first := [.tag, .tag] }
  | .jsxAttr => { first := [.tag, .attributeValue] }
  -- as the value of an attribute the braces are never empty
  | .jsxExprContainer => { first := [if p == .attributeValue then .expr else .optExpr] }
  | .typeQualified => { first := [.entity, .name] }
  | _ => {}

theorem declaredPlace_eq (p : Place) :
    declaredPlace p = .optBinder ∨ declaredPlace p = .binder := by
  unfold declaredPlace
  split
  · exact .inl rfl
  · exact .inr rfl

theorem isOptional_keyPlace (computed : Bool) : (keyPlace computed).isOptional = false := by
  cases computed <;> rfl

/-! ## Trees that fit -/

/-- What the trees of a language keep to. -/
structure Canon where
  /-- Whether types and elements are gone. -/
  plain : Bool
  /-- Where a node may stand. -/
  stands : Span → Bool

/-- Whether a span names no place, or one inside the file. -/
def SourceFile.holds (f : SourceFile) (s : Span) : Bool :=
  s.isDummy || s.file == f.id && f.base ≤ s.start && s.start ≤ f.stop && s.stop ≤ f.stop

namespace Canon

/-- The trees that a file is read into. -/
def source (f : SourceFile) : Canon := { plain := false, stands := f.holds }

/-- The trees that a file is lowered to. -/
def lowered (f : SourceFile) : Canon := { plain := true, stands := f.holds }

/-- Whether a node may have a head, and a type or not. The operator between two operands must be one
that has a level. -/
def accepts (c : Canon) (h : Head) (typed : Bool) : Bool :=
  c.stands h.span && (h.kind != .binary || h.op.precedence != 0)
    && !(c.plain && typed)

end Canon

mutual

/-- Whether a tree fits a place. -/
def Node.fits (c : Canon) (p : Place) : Node → Bool
  | .absent => p.isOptional
  | .mk h ks ds t a x =>
    !c.plain && p.drops h.kind && c.stands h.span
      || p.allows c.plain h.kind && c.accepts h (t.isPresent || a.isPresent || x.isPresent)
        && kidsFit c (shapeOf p h.kind h.flags).first (shapeOf p h.kind h.flags).rest ks
        && kidsFit c [] (.each .decorator) ds

/-- Whether trees fit some places in order, and the places behind them. -/
def kidsFit (c : Canon) : List Place → Rest → List Node → Bool
  | p :: ps, r, k :: ks => k.fits c p && kidsFit c ps r ks
  | _ :: _, _, [] => false
  | [], _, [] => true
  | [], .none, _ :: _ => false
  | [], .each p, k :: ks => k.fits c p && kidsFit c [] (.each p) ks
  | [], .turns p q, k :: ks => k.fits c p && kidsFit c [] (.turns q p) ks

end

section

variable {c : Canon} {p q : Place} {n : Node} {ns ms : List Node} {h : Head}

/-! ### Lists -/

@[simp] theorem kidsFit_first {ps : List Place} {r : Rest} :
    kidsFit c (p :: ps) r (n :: ns) = (n.fits c p && kidsFit c ps r ns) := rfl

@[simp] theorem kidsFit_end {r : Rest} : kidsFit c [] r [] = true := by cases r <;> rfl

@[simp] theorem kidsFit_beyond : kidsFit c [] .none (n :: ns) = false := rfl

@[simp] theorem kidsFit_turns :
    kidsFit c [] (.turns p q) (n :: ns) = (n.fits c p && kidsFit c [] (.turns q p) ns) := rfl

theorem kidsFit_each : kidsFit c [] (.each p) ns = true ↔ ∀ n ∈ ns, n.fits c p = true := by
  induction ns with
  | nil => simp
  | cons n ns ih =>
    rw [List.forall_mem_cons, ← ih]
    exact Bool.and_eq_true_iff

theorem fit_first {ps : List Place} {r : Rest} (hn : n.fits c p = true)
    (hns : kidsFit c ps r ns = true) : kidsFit c (p :: ps) r (n :: ns) = true := by
  rw [kidsFit_first, hn, hns]
  rfl

theorem fit_none {r : Rest} : kidsFit c [] r [] = true := kidsFit_end

theorem fit_each (h : ∀ n ∈ ns, n.fits c p = true) : kidsFit c [] (.each p) ns = true :=
  kidsFit_each.2 h

/-! ### What fits -/

@[simp] theorem fits_absent : Node.absent.fits c p = p.isOptional := rfl

/-- A node that fits a place, and is not dropped from it. -/
structure Placed (c : Canon) (p : Place) (n : Node) : Prop where
  /-- It may stand there. -/
  allowed : p.allows c.plain n.kind = true
  /-- Its head is right. -/
  accepted : c.accepts n.head (n.type.isPresent || n.targs.isPresent || n.aux.isPresent) = true
  /-- Its children fit. -/
  kids : kidsFit c (shapeOf p n.kind n.flags).first (shapeOf p n.kind n.flags).rest n.kids = true
  /-- Its decorators fit. -/
  decos : ∀ d ∈ n.decos, d.fits c .decorator = true

/-- A place that may not be empty is not. -/
theorem fits_present_of_needed (hn : n.fits c p = true) (ho : p.isOptional = false) :
    n.isPresent = true := by
  cases n with
  | absent =>
    rw [fits_absent, ho] at hn
    cases hn
  | mk => rfl

theorem fits_present (hn : n.isPresent = true) :
    n.fits c p = true ↔
      (c.plain = false ∧ p.drops n.kind = true) ∧ c.stands n.span = true ∨ Placed c p n := by
  cases n with
  | absent => cases hn
  | mk h ks ds t a x =>
    simp only [Node.fits, Bool.or_eq_true, Bool.and_eq_true, Bool.not_eq_true']
    refine or_congr Iff.rfl
      ⟨fun ⟨⟨⟨ha, hc⟩, hk⟩, hd⟩ => ⟨ha, hc, hk, kidsFit_each.1 hd⟩, fun hp => ?_⟩
    exact ⟨⟨⟨hp.allowed, hp.accepted⟩, hp.kids⟩, kidsFit_each.2 hp.decos⟩

theorem not_allows_invalid (plain : Bool) (p : Place) : p.allows plain .invalid = false := by
  cases plain <;> cases p <;> rfl

theorem Placed.isPresent (hn : Placed c p n) : n.isPresent = true := by
  cases n with
  | absent =>
    have ha := hn.allowed
    rw [show Node.absent.kind = .invalid from rfl, not_allows_invalid] at ha
    cases ha
  | mk h ks ds t a x => rfl

theorem Placed.fits (hn : Placed c p n) : n.fits c p = true :=
    (fits_present hn.isPresent).2 (.inr hn)

theorem isPresent_of_kind {k : NodeKind} (hk : n.kind = k) (hi : k ≠ .invalid) :
    n.isPresent = true := by
  cases n with
  | absent => exact absurd hk.symm hi
  | mk h ks ds t a x => rfl

theorem fits_placed (hn : n.fits c p = true) (hp : n.isPresent = true)
    (hd : p.drops n.kind = false) :
    Placed c p n := by
  rcases (fits_present hp).1 hn with ⟨⟨-, hdrop⟩, -⟩ | hplaced
  · rw [hd] at hdrop
    cases hdrop
  · exact hplaced

theorem placed_of_kind {k : NodeKind} (hn : n.fits c p = true) (hk : n.kind = k)
    (hd : p.drops k = false) (hi : k ≠ .invalid) : Placed c p n :=
  fits_placed hn (isPresent_of_kind hk hi) (by rw [hk]; exact hd)

/-- A place that nothing is dropped from has a node, or may be empty. -/
theorem absent_or_placed (hn : n.fits c p = true) (hd : ∀ k, p.drops k = false) :
    n = .absent ∧ p.isOptional = true ∨ Placed c p n := by
  cases n with
  | absent => exact .inl ⟨rfl, hn⟩
  | mk h ks ds t a x => exact .inr (fits_placed hn rfl (hd _))

theorem Placed.stands (hn : Placed c p n) : c.stands n.span = true := by
  have hacc := hn.accepted
  simp only [Canon.accepts, Bool.and_eq_true] at hacc
  exact hacc.1.1

theorem fits_stands (h0 : c.stands {} = true) (hn : n.fits c p = true) :
    c.stands n.span = true := by
  cases n with
  | absent => exact h0
  | mk h ks ds t a x =>
    rcases (fits_present rfl).1 hn with hdrop | hplaced
    · exact hdrop.2
    · exact hplaced.stands

/-! ### Children -/

theorem kidsFit_get {ps : List Place} {r : Rest} {i : Nat} (h : kidsFit c ps r ns = true)
    (hi : ps[i]? = some q) : (ns.getD i .absent).fits c q = true := by
  induction ps generalizing ns i with
  | nil => simp at hi
  | cons p ps ih =>
    cases ns with
    | nil => cases h
    | cons n ns =>
      rw [kidsFit_first, Bool.and_eq_true] at h
      cases i with
      | zero =>
        obtain rfl : p = q := by simpa using hi
        exact h.1
      | succ j => exact ih h.2 (i := j) (by simpa using hi)

theorem kidsFit_rest {ps : List Place} (h : kidsFit c ps (.each q) ns = true) :
    ∀ n ∈ ns.drop ps.length, n.fits c q = true := by
  induction ps generalizing ns with
  | nil => exact kidsFit_each.1 h
  | cons p ps ih =>
    cases ns with
    | nil => cases h
    | cons n ns =>
      rw [kidsFit_first, Bool.and_eq_true] at h
      exact ih h.2

/-- There are as many children as first places. -/
theorem first_le_length {ps : List Place} {r : Rest}
    (h : kidsFit c ps r ns = true) : ps.length ≤ ns.length := by
  induction ps generalizing ns with
  | nil => exact Nat.zero_le _
  | cons p ps ih =>
    cases ns with
    | nil => cases h
    | cons n ns =>
      rw [kidsFit_first, Bool.and_eq_true] at h
      exact Nat.succ_le_succ (ih h.2)

theorem length_eq_of_fits {ps : List Place} (h : kidsFit c ps .none ns = true) :
    ns.length = ps.length := by
  induction ps generalizing ns with
  | nil =>
    cases ns with
    | nil => rfl
    | cons => cases h
  | cons p ps ih =>
    cases ns with
    | nil => cases h
    | cons n ns =>
      rw [kidsFit_first, Bool.and_eq_true] at h
      exact congrArg (· + 1) (ih h.2)

theorem Placed.kid {k : NodeKind} (hn : Placed c p n) (hk : n.kind = k) (i : Nat)
    (hi : (shapeOf p k n.flags).first[i]? = some q) : (n.kid i).fits c q = true := by
  subst hk
  exact kidsFit_get hn.kids hi

theorem Placed.each {k : NodeKind} (hn : Placed c p n) (hk : n.kind = k)
    (hr : (shapeOf p k n.flags).rest = .each q) :
    ∀ m ∈ n.kids.drop (shapeOf p k n.flags).first.length, m.fits c q = true := by
  subst hk
  refine kidsFit_rest ?_
  rw [← hr]
  exact hn.kids

/-! ### Making nodes -/

theorem accepts_untyped (hs : c.stands h.span = true)
    (hb : h.kind ≠ .binary ∨ h.op.precedence ≠ 0) : c.accepts h false = true := by
  simp [Canon.accepts, hs, hb]

theorem fits_ofHead (ha : p.allows c.plain h.kind = true) (hs : c.stands h.span = true)
    (hb : h.kind ≠ .binary ∨ h.op.precedence ≠ 0)
    (hk : kidsFit c (shapeOf p h.kind h.flags).first (shapeOf p h.kind h.flags).rest ns = true) :
    (Node.ofHead h ns).fits c p = true := by
  exact Placed.fits ⟨ha, accepts_untyped (h := h) hs hb, hk, fun d hd => by cases hd⟩

theorem fits_new {k : NodeKind} {s : Span} (ha : p.allows c.plain k = true) (hb : k ≠ .binary)
    (hs : c.stands s = true)
    (hk : kidsFit c (shapeOf p k {}).first (shapeOf p k {}).rest ns = true) :
    (Node.new k s ns).fits c p = true := fits_ofHead ha hs (.inl hb) hk

/-- Modifiers do not matter but for keys in brackets and the bodies of arrow functions. -/
theorem shapeOf_congr {k : NodeKind} {f g : Flags} (hc : f.computed = g.computed)
    (he : f.exprBody = g.exprBody) : shapeOf p k f = shapeOf p k g := by
  unfold shapeOf
  rw [hc, he]

theorem fits_mapHead {f : Head → Head} (hk : (f n.head).kind = n.kind) (ho : (f n.head).op = n.op)
    (hs : c.stands n.span = true → c.stands (f n.head).span = true)
    (hc : (f n.head).flags.computed = n.flags.computed)
    (he : (f n.head).flags.exprBody = n.flags.exprBody) (hn : n.fits c p = true) :
    (n.mapHead f).fits c p = true := by
  cases n with
  | absent => exact hn
  | mk h ks ds t a x =>
    rcases (fits_present rfl).1 hn with hdrop | hplaced
    · refine (fits_present rfl).2 (.inl ⟨?_, hs hdrop.2⟩)
      rw [show (Node.mapHead f (.mk h ks ds t a x)).kind = h.kind from hk]
      exact hdrop.1
    · have hacc := hplaced.accepted
      refine Placed.fits ⟨?_, ?_, ?_, hplaced.decos⟩
      · rw [show (Node.mapHead f (.mk h ks ds t a x)).kind = h.kind from hk]
        exact hplaced.allowed
      · simp only [Canon.accepts, Bool.and_eq_true] at hacc ⊢
        refine ⟨⟨hs hacc.1.1, ?_⟩, hacc.2⟩
        show ((f h).kind != .binary || (f h).op.precedence != 0) = true
        rw [show (f h).kind = h.kind from hk, show (f h).op = h.op from ho]
        exact hacc.1.2
      · show kidsFit c (shapeOf p (f h).kind (f h).flags).first
          (shapeOf p (f h).kind (f h).flags).rest ks
          = true
        rw [show (f h).kind = h.kind from hk, shapeOf_congr (f := (f h).flags) (g := h.flags) hc he]
        exact hplaced.kids

theorem fits_mapFlags {g : Flags → Flags} (hc : ∀ f, (g f).computed = f.computed)
    (he : ∀ f, (g f).exprBody = f.exprBody) (hn : n.fits c p = true) :
    (n.mapFlags g).fits c p = true := fits_mapHead rfl rfl id (hc _) (he _) hn

theorem fits_addFlags {f : Flags} (hc : f.computed = false) (he : f.exprBody = false)
    (hn : n.fits c p = true) : (n.addFlags f).fits c p = true :=
  fits_mapFlags (fun g => by simp [Flags.or, hc]) (fun g => by simp [Flags.or, he]) hn

theorem fits_withText {s : Bytes} (hn : n.fits c p = true) : (n.withText s).fits c p = true :=
  fits_mapHead rfl rfl id rfl rfl hn

theorem fits_withSpan {s : Span} (hs : c.stands s = true) (hn : n.fits c p = true) :
    (n.withSpan s).fits c p = true := fits_mapHead rfl rfl (fun _ => hs) rfl rfl hn

theorem fits_withDecos (hd : ∀ d ∈ ms, d.fits c .decorator = true) (hn : n.fits c p = true) :
    (n.withDecos ms).fits c p = true := by
  cases n with
  | absent => exact hn
  | mk h ks ds t a x =>
    rcases (fits_present rfl).1 hn with hdrop | hplaced
    · exact (fits_present rfl).2 (.inl hdrop)
    · exact Placed.fits ⟨hplaced.allowed, hplaced.accepted, hplaced.kids, hd⟩

/-- A node that may stand at another place too. -/
theorem Placed.fits_at (hn : Placed c p n) (ha : q.allows c.plain n.kind = true)
    (hs : shapeOf p n.kind n.flags = shapeOf q n.kind n.flags) : n.fits c q = true :=
  Placed.fits ⟨ha, hn.accepted, hs ▸ hn.kids, hn.decos⟩

/-- An expression that may be missing, when it is there. -/
theorem fits_there (hn : n.fits c .optExpr = true) (hp : ¬n.isAbsent = true) :
    n.fits c .expr = true := by
  have hplaced := fits_placed hn (by simpa [Node.isAbsent] using hp) rfl
  exact hplaced.fits_at hplaced.allowed rfl

/-! ### Places that allow more -/

/-- What fits at `p` fits at `q`. -/
structure Place.Le (p q : Place) : Prop where
  /-- What may be missing there may be missing here. -/
  empty : p.isOptional = true → q.isOptional = true
  /-- What is dropped from there is dropped from here. -/
  drops : ∀ k, p.drops k = true → q.drops k = true
  /-- What may stand there may stand here, with the same children. -/
  allows : ∀ plain k f, p.allows plain k = true →
    q.allows plain k = true ∧ shapeOf p k f = shapeOf q k f

theorem fits_le (h : p.Le q) (hn : n.fits c p = true) : n.fits c q = true := by
  cases n with
  | absent => exact h.empty hn
  | mk hd ks ds t a x =>
    rcases (fits_present rfl).1 hn with ⟨⟨hplain, hdrop⟩, hs⟩ | hplaced
    · exact (fits_present rfl).2 (.inl ⟨⟨hplain, h.drops _ hdrop⟩, hs⟩)
    · obtain ⟨ha, hshape⟩ := h.allows _ _ hd.flags hplaced.allowed
      refine Placed.fits ⟨ha, hplaced.accepted, ?_, hplaced.decos⟩
      show kidsFit c (shapeOf q hd.kind hd.flags).first (shapeOf q hd.kind hd.flags).rest ks = true
      rw [← show shapeOf p hd.kind hd.flags = shapeOf q hd.kind hd.flags from hshape]
      exact hplaced.kids

namespace Place

theorem Le.refl (p : Place) : p.Le p := ⟨id, fun _ => id, fun _ _ _ h => ⟨h, rfl⟩⟩

theorem Le.stmt_optStmt : stmt.Le optStmt where
  empty h := by cases h
  drops _ h := h
  allows _ _ _ h := ⟨h, rfl⟩

theorem Le.expr_optExpr : expr.Le optExpr where
  empty h := by cases h
  drops _ h := h
  allows _ _ _ h := ⟨h, rfl⟩

theorem Le.block_optBlock : block.Le optBlock where
  empty h := by cases h
  drops _ h := h
  allows _ _ _ h := ⟨h, rfl⟩

theorem Le.name_expr : name.Le expr where
  empty h := by cases h
  drops _ h := by cases h
  allows plain k _ h := by
    simp only [Place.allows, NodeKind.isName] at h
    split at h
    · exact ⟨rfl, rfl⟩
    · exact ⟨rfl, rfl⟩
    · exact ⟨rfl, rfl⟩
    · cases h

theorem Le.block_stmt : block.Le stmt where
  empty h := by cases h
  drops _ h := by cases h
  allows plain k _ h := by
    obtain rfl : k = .block := by simpa [Place.allows] using h
    exact ⟨rfl, rfl⟩

theorem Le.pattern_optPattern : pattern.Le optPattern where
  empty h := by cases h
  drops _ h := h
  allows _ _ _ h := ⟨h, rfl⟩

theorem Le.pattern_expr : pattern.Le expr where
  empty h := by cases h
  drops _ h := by cases h
  allows plain k _ h := by
    simp only [Place.allows, Bool.or_eq_true, beq_iff_eq] at h
    obtain (rfl | rfl) | rfl := h <;> exact ⟨rfl, rfl⟩

theorem Le.template_expr : template.Le expr where
  empty h := by cases h
  drops _ h := by cases h
  allows plain k _ h := by
    obtain rfl : k = .template := by simpa [Place.allows] using h
    exact ⟨rfl, rfl⟩

theorem Le.of_element (hq : ∀ k f, k = .jsxElement ∨ k = .jsxFragment →
    q.allows false k = true ∧ shapeOf element k f = shapeOf q k f) : element.Le q where
  empty h := by cases h
  drops _ h := by cases h
  allows plain k f h := by
    simp only [Place.allows, Bool.and_eq_true, Bool.not_eq_true', Bool.or_eq_true, beq_iff_eq] at h
    obtain ⟨rfl, hk⟩ := h
    exact hq k f hk

theorem Le.element_expr : element.Le expr :=
    .of_element (by rintro k f (rfl | rfl) <;> exact ⟨rfl, rfl⟩)

theorem Le.element_child : element.Le child :=
    .of_element (by rintro k f (rfl | rfl) <;> exact ⟨rfl, rfl⟩)

theorem Le.element_attributeValue : element.Le attributeValue :=
    .of_element (by rintro k f (rfl | rfl) <;> exact ⟨rfl, rfl⟩)

theorem Le.declaration_stmt : declaration.Le stmt where
  empty h := by cases h
  drops _ h := h
  allows plain k _ h := by
    cases plain with
    | true => exact ⟨by simpa [Place.allows] using h, rfl⟩
    | false =>
      simp only [Place.allows, Bool.false_eq_true, if_false, Bool.or_eq_true, beq_iff_eq] at h
      obtain ((((rfl | rfl) | rfl) | rfl) | rfl) | rfl := h <;> exact ⟨rfl, rfl⟩

theorem Le.namespaceDecl_declaration : namespaceDecl.Le declaration where
  empty h := by cases h
  drops _ h := by cases h
  allows plain k _ h := by
    simp only [Place.allows, Bool.and_eq_true, Bool.not_eq_true', beq_iff_eq] at h
    obtain ⟨rfl, rfl⟩ := h
    exact ⟨rfl, rfl⟩

theorem Le.namespaceDecl_namespaceBody : namespaceDecl.Le namespaceBody where
  empty h := by cases h
  drops _ h := by cases h
  allows plain k _ h := by
    simp only [Place.allows, Bool.and_eq_true, Bool.not_eq_true', beq_iff_eq] at h
    obtain ⟨rfl, rfl⟩ := h
    exact ⟨rfl, rfl⟩

theorem Le.expr_exported : expr.Le exported where
  empty h := by cases h
  drops _ h := by cases h
  allows plain k f h := by
    refine ⟨by rw [Place.allows, Bool.or_assoc, Bool.or_eq_true]; exact .inl h, ?_⟩
    cases k <;> first | rfl | cases plain <;> cases h

theorem Le.optExpr_loopInit : optExpr.Le loopInit where
  empty h := h
  drops _ h := by cases h
  allows _ _ _ h := ⟨by rw [Place.allows, Bool.or_eq_true]; exact .inl h, rfl⟩

theorem Le.expr_loopTarget : expr.Le loopTarget where
  empty h := by cases h
  drops _ h := by cases h
  allows _ _ _ h := ⟨by rw [Place.allows, Bool.or_eq_true]; exact .inl h, rfl⟩

theorem Le.entity_reference : entity.Le reference where
  empty h := by cases h
  drops _ h := by cases h
  allows _ _ _ h := ⟨h, rfl⟩

end Place

end

/-- A program whose statements fit. -/
structure FitsAsProgram (c : Canon) (root : Node) : Prop where
  /-- It is a program. -/
  kind : root.kind = .program
  /-- Its head is right. -/
  accepted :
    c.accepts root.head (root.type.isPresent || root.targs.isPresent || root.aux.isPresent) = true
  /-- Its statements fit. -/
  stmts : ∀ n ∈ root.kids, n.fits c .stmt = true
  /-- It has no decorators. -/
  decos : root.decos = []

/-! ## Trees of a source -/

/-- A tree read from a file fits a place. -/
abbrev Fits (f : SourceFile) (p : Place) (n : Node) : Prop := n.fits (.source f) p = true

/-- Trees read from a file fit places of one sort. -/
abbrev FitAll (f : SourceFile) (p : Place) (ns : List Node) : Prop := ∀ n ∈ ns, Fits f p n

theorem SourceFile.holds_iff {f : SourceFile} {s : Span} : f.holds s = true ↔
    s.isDummy = true ∨ s.file = f.id ∧ f.base ≤ s.start ∧ s.start ≤ f.stop ∧ s.stop ≤ f.stop := by
  simp [SourceFile.holds, and_assoc]

section

variable {f : SourceFile} {p q : Place} {n : Node} {ns : List Node}

@[simp] theorem plain_source : (Canon.source f).plain = false := rfl

@[simp] theorem fits_withType (t : Node) :
    (n.withType t).fits (.source f) p = n.fits (.source f) p := by cases n <;> rfl

@[simp] theorem fits_withTargs (a : Node) :
    (n.withTargs a).fits (.source f) p = n.fits (.source f) p := by cases n <;> rfl

@[simp] theorem fits_withAux (x : Node) :
    (n.withAux x).fits (.source f) p = n.fits (.source f) p := by cases n <;> rfl

theorem Placed.span (hn : Placed (.source f) p n) : f.holds n.span = true := hn.stands

/-- A tree of a source stands in its file. -/
theorem Fits.span (hn : Fits f p n) : f.holds n.span = true := fits_stands rfl hn

/-- What lowering drops may be any node. -/
theorem fits_dropped (hn : n.isPresent = true) (hd : p.drops n.kind = true)
    (hs : f.holds n.span = true) : Fits f p n := (fits_present hn).2 (.inl ⟨⟨rfl, hd⟩, hs⟩)

end

/-! ## Kinds of children -/

/-- The kinds that the grammar allows at a place of a node; none where it does not matter. -/
def kindsAt (h : Head) (i : Nat) : List NodeKind :=
  match h.kind, i with
  | .object, _ => [.objProp, .method, .spread]
  | .objectPattern, _ => [.objProp, .restElement]
  | .params, _ => [.param]
  | .varDecl, _ => [.declarator]
  | .funcDecl, 1 | .funcExpr, 1 | .method, 1 | .arrow, 0 => [.params]
  | .funcDecl, 2 | .funcExpr, 2 | .method, 2 | .staticBlock, 0 => [.block]
  | .arrow, 1 => if h.flags.exprBody then [] else [.block]
  | .classDecl, 2 | .classExpr, 2 => [.classBody]
  | .tryStmt, 1 => [.catchClause]
  | .catchClause, 0 => [.ident, .arrayPattern, .objectPattern]
  | .switchStmt, _ + 1 => [.caseClause]
  | .importDecl, _ + 2 => [.importDefault, .importNamespace, .importSpec]
  | .exportNamed, _ + 2 => [.exportSpec]
  | .enumDecl, 0 | .funcDecl, 0 | .classDecl, 0 => [.ident]
  | .enumDecl, _ + 1 => [.enumMember]
  | .namespaceDecl, 1 => [.block, .namespaceDecl]
  | .jsxElement, 1 => [.jsxAttrs]
  | .jsxElement, 2 | .jsxFragment, 0 => [.jsxChildren]
  | .jsxAttrs, _ => [.jsxAttr, .jsxSpreadAttr]
  | .jsxMemberName, 0 => [.jsxName, .jsxMemberName]
  | _, _ => []

/-- Where the kind of a node is known, so are the kinds at its places. -/
theorem kindsAt_of_kind {h : Head} {k : NodeKind} (hk : h.kind = k) (i : Nat) :
    kindsAt h i = kindsAt { h with kind := k } i := by
  rw [← hk]

mutual

/-- Whether a dotted name begins with a name or `this`. -/
def isEntity : Node → Bool
  | .absent => false
  | .mk h ks _ _ _ _ =>
    match h.kind with
    | .typeQualified => isEntityFirst ks
    | .ident | .thisExpr => true
    | _ => false

/-- Whether the first of some dotted names begins so. -/
def isEntityFirst : List Node → Bool
  | [] => false
  | n :: _ => isEntity n

end

/-- The children and decorators of a node are of the kinds that the grammar allows. An alias stands
for a dotted name or another file. -/
def placed (n : Node) : Bool :=
  ((List.range n.kids.length).all fun i => (n.kid i).isAbsent || (kindsAt n.head i).isEmpty ||
    (kindsAt n.head i).contains (n.kid i).kind) &&
  n.decos.all (·.kind == .decorator) &&
  (n.kind != .importEquals || (n.kid 1).kind == .externalRef || isEntity (n.kid 1))

section

variable {f : SourceFile} {p q : Place} {n : Node} {ks ds : List Node} {h : Head} {i : Nat}

/-- The place of a child, where the places behind the first ones are all of one sort. -/
def Shape.at? (s : Shape) (i : Nat) : Option Place :=
  match s.first[i]?, s.rest with
  | some q, _ => some q
  | none, .each q => some q
  | none, _ => none

theorem kidsFit_at {c : Canon} {s : Shape} (hks : kidsFit c s.first s.rest ks = true)
    (hq : s.at? i = some q) (hi : i < ks.length) : (ks.getD i .absent).fits c q = true := by
  unfold Shape.at? at hq
  split at hq
  · rename_i hfirst
    cases hq
    exact kidsFit_get hks hfirst
  · rename_i hnone hrest
    cases hq
    rw [hrest] at hks
    refine kidsFit_rest hks _ ?_
    rw [List.getD_eq_getElem?_getD, List.getElem?_eq_getElem hi, Option.getD_some]
    have hle : s.first.length ≤ i := List.getElem?_eq_none_iff.1 hnone
    rw [List.mem_iff_getElem]
    exact ⟨i - s.first.length, by simp; omega, by simp [hle]⟩
  · cases hq

/-- Where the kinds of children matter, their place allows no others. -/
theorem kindsAt_of_place (p : Place) (hne : kindsAt h i ≠ []) :
    ∃ q, (shapeOf p h.kind h.flags).at? i = some q ∧ (∀ k, q.drops k = false) ∧
      ∀ k, q.allows false k = true → k ∈ kindsAt h i := by
  have hdeclared : (∀ k, (declaredPlace p).drops k = false) ∧
      ∀ k, (declaredPlace p).allows false k = true → k ∈ [NodeKind.ident] := by
    rcases declaredPlace_eq p with hp | hp <;> rw [hp] <;> simp [Place.drops]
  revert hne
  unfold kindsAt
  split <;> intro hne
  case h_13 hkind =>
    have hbody : h.flags.exprBody = false := by
      cases hb : h.flags.exprBody with
      | false => rfl
      | true => simp [hb] at hne
    have hshape : shapeOf p h.kind h.flags = { first := [.params, .block] } := by
      rw [hkind]
      show ({ first := [.params, if h.flags.exprBody then .expr else .block] } : Shape) = _
      rw [hbody]
      rfl
    exact ⟨.block, by rw [hshape]; rfl, fun _ => rfl, fun k hk => by simpa [hbody] using hk⟩
  case h_19 hkind =>
    refine ⟨.importItem, by rw [hkind]; rfl, fun _ => rfl, fun k hk => ?_⟩
    simp only [Place.allows, Bool.or_eq_true, beq_iff_eq] at hk
    rcases hk with (rfl | rfl) | rfl <;> simp
  case h_22 hkind | h_23 hkind =>
    exact ⟨declaredPlace p, by rw [hkind]; rfl, hdeclared⟩
  case h_31 => exact absurd rfl hne
  -- everywhere else the place allows exactly these kinds
  all_goals
    rename_i hkind
    rw [hkind]
    exact ⟨_, rfl, fun _ => rfl, fun k hk => by simpa [or_assoc] using hk⟩

mutual

/-- A dotted name that fits begins with a name or `this`. -/
theorem isEntity_of_fits : ∀ n, Fits f .entity n → isEntity n = true
  | .absent, h => by cases h
  | .mk h ks ds t a x, hn => by
    have hplaced := fits_placed hn rfl rfl
    have hallowed := hplaced.allowed
    simp only [Place.allows, plain_source, Bool.not_false, Bool.true_and, Bool.or_eq_true,
      beq_iff_eq] at hallowed
    rw [isEntity]
    rcases hallowed with (hk | hk) | hk
    · rw [show h.kind = .ident from hk]
    · rw [show h.kind = .thisExpr from hk]
    · rw [show h.kind = .typeQualified from hk]
      exact isEntityFirst_of_fits ks (hplaced.kid hk 0 rfl)

theorem isEntityFirst_of_fits : ∀ ks : List Node, Fits f .entity (ks.getD 0 .absent) →
    isEntityFirst ks = true
  | [], h => by cases h
  | n :: _, h => isEntity_of_fits n h

end

/-- An alias stands for a dotted name or another file. -/
theorem reference_kinds (hn : Fits f .reference n) :
    n.kind = .externalRef ∨ isEntity n = true := by
  cases n with
  | absent => cases hn
  | mk h ks ds t a x =>
    rcases (fits_present rfl).1 hn with hdrop | hplaced
    · exact .inl (by simpa [Place.drops] using hdrop.1.2)
    · exact .inr (isEntity_of_fits _ (hplaced.fits_at hplaced.allowed rfl))

/-- The kinds of children that fit are those of the grammar. -/
theorem placed_of_kidsFit {t a x : Node} (p : Place)
    (hks : kidsFit (.source f) (shapeOf p h.kind h.flags).first (shapeOf p h.kind h.flags).rest ks
      = true)
    (hds : ∀ d ∈ ds, d.kind = .decorator) : placed (.mk h ks ds t a x) = true := by
  simp only [placed, Bool.and_eq_true, List.all_eq_true, List.mem_range, Bool.or_eq_true,
    beq_iff_eq, bne_iff_ne, List.isEmpty_iff, List.contains_iff_mem]
  refine ⟨⟨fun i hi => ?_, hds⟩, ?_⟩
  · by_cases hne : kindsAt h i = []
    · exact .inl (.inr hne)
    · obtain ⟨q, hq, hdrops, hallows⟩ := kindsAt_of_place p hne
      have hfits := kidsFit_at hks hq hi
      cases hp : (Node.mk h ks ds t a x).kid i with
      | absent => exact .inl (.inl rfl)
      | mk h' ks' ds' t' a' x' =>
        have hfits : Fits f q (.mk h' ks' ds' t' a' x') := hp ▸ hfits
        exact .inr (hallows _ (fits_placed hfits rfl (hdrops _)).allowed)
  · by_cases hk : h.kind = .importEquals
    · have hfits : Fits f .reference (ks.getD 1 .absent) := kidsFit_get hks (by rw [hk]; rfl)
      exact (reference_kinds hfits).elim (fun h => .inl (.inr h)) .inr
    · exact .inl (.inl hk)

end

end ScriptLower
