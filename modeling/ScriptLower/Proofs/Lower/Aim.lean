import ScriptLower.Lower.Program
import ScriptLower.Proofs.Tree.Places

/-!
# Promises about lowered code

What it means that a step of lowering keeps a promise, and which promises are kept.
-/

/-!
## What a step of lowering yields

Lowering reports what it cannot express and goes on, so a promise about its value holds only when
nothing was reported. `Yields` says both at once: reports are never taken back, and without an error
at the end the value is as promised. The first half holds of every step, whatever it is given; the
second rests on an assumption, which grows along a step by what the steps before have yielded.

What a value is made of often depends neither on the state nor on errors. `Always` says so, and of
steps one behind another only the last ones matter to it.
-/

namespace ScriptLower.Lower

open ScriptLower

/-- Under an assumption a step at a place yields a value of which `P` holds, unless it reports an
error. -/
def Yields {α : Type} (c : Context) (given : Prop) (m : LowerM α) (P : α → Prop) : Prop :=
  ∀ s, s.errors ≤ (m c s).2.errors ∧ ((m c s).2.errors = 0 → given → P (m c s).1)

section

variable {α β : Type} {c : Context} {given given' : Prop} {m : LowerM α} {P R : α → Prop}

/-! ## Steps one behind another -/

theorem Yields.pure {a : α} (h : given → P a) : Yields c given (Pure.pure a) P :=
  fun s => ⟨Nat.le_refl s.errors, fun _ => h⟩

theorem Yields.bind {f : α → LowerM β} {Q : β → Prop} (hm : Yields c given m R)
    (hf : ∀ a, Yields c (given ∧ R a) (f a) Q) : Yields c given (m >>= f) Q := by
  intro s
  obtain ⟨hle, hR⟩ := hm s
  obtain ⟨hle', hQ⟩ := hf (m c s).1 (m c s).2
  refine ⟨Nat.le_trans hle hle', fun he hgiven => hQ he ⟨hgiven, hR ?_ hgiven⟩⟩
  exact Nat.le_zero.1 (he ▸ hle')

/-- With more given at least the same is yielded. -/
theorem Yields.under (hm : Yields c given m P) (h : given' → given) : Yields c given' m P :=
  fun s => ⟨(hm s).1, fun he hg => (hm s).2 he (h hg)⟩

theorem Yields.mono (hm : Yields c given m R) (h : ∀ a, given → R a → P a) : Yields c given m P :=
  fun s => ⟨(hm s).1, fun he hg => h _ hg ((hm s).2 he hg)⟩

theorem Yields.map {f : α → β} {Q : β → Prop} (hm : Yields c given m fun a => Q (f a)) :
    Yields c given (f <$> m) Q := hm

theorem Yields.branch {p : Prop} [Decidable p] {m' : LowerM α} (yes : p → Yields c given m P)
    (no : ¬p → Yields c given m' P) : Yields c given (if p then m else m') P := by
  split
  · exact yes ‹_›
  · exact no ‹_›

/-- One of two steps, and then the same in either case. -/
theorem Yields.either {p : Prop} [Decidable p] {m' : LowerM α} {f : α → LowerM β} {Q : β → Prop}
    (yes : p → Yields c given m R) (no : ¬p → Yields c given m' R)
    (hf : ∀ a, Yields c (given ∧ R a) (f a) Q) :
    Yields c given (if p then m >>= f else m' >>= f) Q :=
  .branch (fun hp => .bind (yes hp) hf) fun hp => .bind (no hp) hf

/-- A step that is taken at another place. -/
theorem Yields.elsewhere {f : Context → Context} (hm : Yields (f c) given m P) :
    Yields c given (withReader f m) P := hm

/-! ## Lists -/

theorem Yields.mapM {f : α → LowerM β} {Q : β → Prop} {xs : List α}
    (h : ∀ x ∈ xs, Yields c given (f x) Q) :
    Yields c given (xs.mapM f) fun ys => ∀ y ∈ ys, Q y := by
  induction xs with
  | nil => exact .pure fun _ => by simp
  | cons x xs ih =>
    rw [List.mapM_cons]
    refine .bind (h x List.mem_cons_self) fun y => ?_
    refine .bind ((ih fun x hx => h x (List.mem_cons_of_mem _ hx)).under And.left) fun ys => ?_
    refine .pure fun hys => ?_
    obtain ⟨⟨-, hy⟩, hys⟩ := hys
    exact List.forall_mem_cons.2 ⟨hy, hys⟩

theorem Yields.foldlM {f : β → α → LowerM β} {I : β → Prop} {xs : List α} {init : β}
    (hinit : given → I init) (h : ∀ x ∈ xs, ∀ b, Yields c (given ∧ I b) (f b x) I) :
    Yields c given (xs.foldlM f init) I := by
  induction xs generalizing init given with
  | nil => exact .pure hinit
  | cons x xs ih =>
    rw [List.foldlM_cons]
    refine .bind ((h x List.mem_cons_self init).under fun hg => ⟨hg, hinit hg⟩) fun b => ?_
    have hrest (x : α) (hx : x ∈ xs) (b' : β) : Yields c ((given ∧ I b) ∧ I b') (f b' x) I :=
      (h x (List.mem_cons_of_mem _ hx) b').under fun hg => ⟨hg.1.1, hg.2⟩
    exact ih And.right hrest

/-! ## Context, state and reports -/

theorem yields_read : Yields c given read fun x => x = c :=
  fun s => ⟨Nat.le_refl s.errors, fun _ _ => rfl⟩

theorem yields_get : Yields c given get fun _ => True :=
  fun s => ⟨Nat.le_refl s.errors, fun _ _ => trivial⟩

/-- A change of the state that takes no report back. -/
theorem yields_modify {f : State → State} (h : ∀ s, (f s).reports = s.reports) :
    Yields c given (modify f) fun _ => True := by
  intro s
  have heq : (f s).errors = s.errors := congrArg (List.countP Diagnostic.isError) (h s)
  exact ⟨Nat.le_of_eq heq.symm, fun _ _ => trivial⟩

theorem yields_report (d : Diagnostic) : Yields c given (report d) fun _ => d.isError = false := by
  intro s
  have hcount : (report d c s).2.errors = s.errors + if d.isError = true then 1 else 0 := by
    show (s.reports ++ [d]).countP Diagnostic.isError = _
    rw [List.countP_append, List.countP_singleton]
    rfl
  rw [hcount]
  refine ⟨Nat.le_add_right _ _, fun he _ => ?_⟩
  cases hd : d.isError with
  | false => rfl
  | true =>
    rw [hd, if_pos rfl] at he
    omega

/-- Behind an error anything holds. -/
theorem yields_errorAt (span : Span) (code : Code) (message : Bytes) :
    Yields c given (errorAt span code message) fun _ => False :=
  (yields_report _).mono fun _ _ h => Bool.noConfusion h

theorem yields_warnAt (span : Span) (code : Code) (message : Bytes) :
    Yields c given (warnAt span code message) fun _ => True :=
  (yields_report _).mono fun _ _ _ => trivial

theorem yields_onComments (f : CommentTable → CommentTable) :
    Yields c given (onComments f) fun _ => True := yields_modify fun _ => rfl

theorem yields_collectTemps (hm : Yields c given m P) :
    Yields c given (collectTemps m) fun r => P r.1 := by
  intro s
  obtain ⟨hle, hP⟩ := hm { s with temps := [] }
  exact ⟨hle, hP⟩

/-! ## Values in any state -/

/-- Whatever the state a step begins in, its value is as promised. -/
def Always {α : Type} (c : Context) (m : LowerM α) (P : α → Prop) : Prop := ∀ s, P (m c s).1

theorem Always.pure {a : α} (h : P a) : Always c (Pure.pure a) P := fun _ => h

/-- Only the last of some steps counts. -/
theorem Always.then {f : α → LowerM β} {Q : β → Prop} (h : ∀ a, Always c (f a) Q) :
    Always c (m >>= f) Q :=
  fun s => h (m c s).1 (m c s).2

theorem Always.bind {f : α → LowerM β} {Q : β → Prop} (hm : Always c m R)
    (h : ∀ a, R a → Always c (f a) Q) :
    Always c (m >>= f) Q := fun s => h _ (hm s) (m c s).2

theorem Always.mono (hm : Always c m R) (h : ∀ a, R a → P a) : Always c m P := fun s => h _ (hm s)

theorem Always.branch {p : Prop} [Decidable p] {m' : LowerM α} (yes : p → Always c m P)
    (no : ¬p → Always c m' P) : Always c (if p then m else m') P := by
  split
  · exact yes ‹_›
  · exact no ‹_›

/-- One of two steps, and then the same in either case. -/
theorem Always.either {p : Prop} [Decidable p] {m' : LowerM α} {f : α → LowerM β}
    {Q : β → Prop} (h : ∀ a, Always c (f a) Q) : Always c (if p then m >>= f else m' >>= f) Q :=
  .branch (fun _ => .then h) fun _ => .then h

theorem Always.read : Always c read (· = c) := fun _ => rfl

theorem Always.mapM {f : α → LowerM β} {Q : β → Prop} {xs : List α}
    (h : ∀ x ∈ xs, Always c (f x) Q) :
    Always c (xs.mapM f) fun ys => ∀ y ∈ ys, Q y := by
  induction xs with
  | nil => exact .pure (by simp)
  | cons x xs ih =>
    rw [List.mapM_cons]
    refine .bind (h x List.mem_cons_self) fun y hy => ?_
    refine .bind (ih fun x hx => h x (List.mem_cons_of_mem _ hx)) fun ys hys => ?_
    exact .pure (List.forall_mem_cons.2 ⟨hy, hys⟩)

/-- What a step yields at all it also yields with a value that it has in any state. -/
theorem Yields.always (hm : Yields c given' m R) (h : Always c m P) :
    Yields c given m P := fun s => ⟨(hm s).1, fun _ _ => h s⟩

end

end ScriptLower.Lower

/-!
## What lowered code is like

Two things are asked of lowered code, for every node of it: that the target has what the node is,
and that a name which the node reads is one that the file uses. `Good` asks both of a whole tree.

The trees that are lowered are those of the grammar: `Source` says which kinds of nodes stand where,
that an optional link stands in a chain where lowering looks for it, and that the names used are
among the ones aimed at.
-/

namespace ScriptLower

/-! ## Versions -/

/-- The version that brought an operator of two operands. -/
def TokenKind.since : TokenKind → Target
  | .starStar => .es2016
  | .questionQuestion => .es2020
  | _ => .es2015

/-- The version that brought an operator that assigns. -/
def TokenKind.assignSince : TokenKind → Target
  | .starStarAssign => .es2016
  | .questionQuestionAssign | .orOrAssign | .andAndAssign => .es2021
  | _ => .es2015

/-- The first version of the language that has a node with this head and these children. A node
without children is no operation. -/
def Head.since (h : Head) (ks : List Node) : Target :=
  if ks.isEmpty then .es2015
  else match h.kind with
    | .binary => h.op.since
    | .assign => h.op.assignSince
    | .object => if ks.any (·.kind == .spread) then .es2018 else .es2015
    | .catchClause => if (ks.getD 0 .absent).isPresent then .es2015 else .es2019
    | .member | .index | .call => if h.flags.optional then .es2020 else .es2015
    | _ => .es2015

/-- The first version of the language that has a node like this. -/
def Node.since (n : Node) : Target := n.head.since n.kids

/-! ## Names that are read -/

/-- Whether the child at a place of a node is code, and not a name of a property, a label, a type or
a part of an import or export. -/
def NodeKind.reads (k : NodeKind) (computed : Bool) (i : Nat) : Bool :=
  match k with
  | .ident | .jsxName | .importDecl | .importDefault | .importNamespace | .importSpec
  | .importEquals | .externalRef | .exportNamed | .exportSpec | .exportAll | .breakStmt
  | .continueStmt => false
  | .member | .jsxMemberName => i == 0
  | .labeled | .jsxAttr => i == 1
  | .objProp | .method | .property | .enumMember => computed || i != 0
  | k => !k.isType

attribute [local simp] NodeKind.reads

/-- Whether the child at a place of a node is code that may read names. The name that a variable is
declared under is not read. -/
def Node.readsAt (n : Node) (i : Nat) : Bool :=
  n.kind.reads n.flags.computed i && !(n.kind == .declarator && i == 0 && (n.kid 0).kind == .ident)

/-- A tree of plain code reads a name that is not a generated one. -/
inductive Node.Mentions (x : Bytes) : Node → Prop
  | name {n : Node} : n.kind = .ident → n.mark = 0 → n.text = x → Mentions x n
  | child {n : Node} (i : Nat) : n.readsAt i = true → Mentions x (n.kid i) → Mentions x n
  | decorator {n d : Node} : d ∈ n.decos → Mentions x d → Mentions x n
  | exported {n spec : Node} : n.kind = .exportNamed → (n.kid 0).isAbsent = true →
      spec ∈ n.kids.drop 2 → Mentions x (spec.kid 0) → Mentions x n

/-! ## Chains -/

/-- Whether a kind is a link of a chain. -/
def NodeKind.isLink : NodeKind → Bool
  | .member | .index | .call | .nonNull => true
  | _ => false

mutual

/-- Whether an expression ends with links of which one is optional. -/
def Node.opensChain : Node → Bool
  | .absent => false
  | .mk h ks _ _ _ _ =>
    match h.kind with
    | .member | .index | .call => h.flags.optional || opensChainFirst ks
    | .nonNull => opensChainFirst ks
    | _ => false

/-- Whether the first of some expressions ends with links of which one is optional. -/
def opensChainFirst : List Node → Bool
  | [] => false
  | n :: _ => n.opensChain

end

namespace Lower

/-! ## Aims -/

/-- What lowered code may make use of. -/
structure Aim where
  /-- A version of the language. -/
  version : Target
  /-- There is such a version. -/
  known : 1 ≤ version.level
  /-- Names. -/
  names : Bytes → Prop
  /-- Nothing is read under no name. -/
  nameless : names []
  /-- Powers are calls of a function of this object. -/
  math : names "Math"
  /-- Objects with spreads are calls of a function of this object. -/
  object : names "Object"
  /-- Whether there may be elements. -/
  elements : Prop

/-- A tree that is a name is one that may be read. -/
def Ref (a : Aim) (n : Node) : Prop := n.kind = .ident → n.mark = 0 → a.names n.text

/-- A node is of the version and reads no other names. -/
structure Fit (a : Aim) (n : Node) : Prop where
  since : a.version.before n.since = false
  reads : ∀ i, n.readsAt i = true → Ref a (n.kid i)
  decos : ∀ d ∈ n.decos, Ref a d
  specs : n.kind = .exportNamed → (n.kid 0).isAbsent = true →
    ∀ spec ∈ n.kids.drop 2, Ref a (spec.kid 0)

/-- Every node of a tree fits, and nothing of the type level is left. -/
inductive Good (a : Aim) : Node → Prop
  | absent : Good a .absent
  | mk {h : Head} {ks ds : List Node} : Fit a (.mk h ks ds .absent .absent .absent) →
      (∀ k ∈ ks, Good a k) → (∀ d ∈ ds, Good a d) → Good a (.mk h ks ds .absent .absent .absent)

/-- A good tree that may stand where names are read. -/
structure Fine (a : Aim) (n : Node) : Prop where
  good : Good a n
  ref : Ref a n

/-! ## Sources -/

/-- Whether a kind is an import or an export with attributes. -/
def hasAttributes : NodeKind → Bool
  | .importDecl | .exportNamed | .exportAll => true
  | _ => false

/-- Only the first child of a link or of a whole chain ends with links of which one is optional. -/
def chained (n : Node) : Bool :=
  (List.range n.kids.length).all fun i => !(n.kid i).opensChain ||
    (i == 0 && (n.kind.isLink || n.kind == .optChain))

end Lower

end ScriptLower
