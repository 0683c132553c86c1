import ScriptLower.Proofs.Scope.Count
import ScriptLower.Proofs.Tree.Grown

/-!
# The books of a mark

Lowering issues marks, hands out uses of them, and declares each of them later: a temporary when the
function it belongs to is done, a helper at the end of the program. For one mark the books say where
this stands. What a step holds in its hands are trees with loose uses and with declarations; a loose
use is covered by a declaration still to come, and the mark is declared or will be, but not both and
not twice.

A step leaves alone what it is not given, so its promise is made for any further trees held by
others. What it is given it may use once: a tree with a declaration must not be put in twice.

The books also hold the diagnostics, of which is kept that an error and a warning never share their
code and text.
-/

namespace ScriptLower.Lower

open ScriptLower

/-! ## What is held -/

/-- Trees in someone's hands: how many loose uses and how many declarations of the mark they hold,
and what else is known of them. -/
structure Held where
  /-- What is known. -/
  facts : Prop
  /-- The loose uses. -/
  uses : Nat
  /-- The declarations. -/
  decls : Nat

namespace Held

/-- Nothing. -/
instance : Zero Held := ⟨⟨True, 0, 0⟩⟩

/-- Both together. -/
instance : Add Held := ⟨fun J K => ⟨J.facts ∧ K.facts, J.uses + K.uses, J.decls + K.decls⟩⟩

/-- What is held can be made from something else: no use and no declaration comes from nowhere, and
no declaration is doubled. -/
instance : LE Held :=
  ⟨fun J K => K.facts → J.facts ∧ (0 < J.uses → 0 < K.uses) ∧ J.decls ≤ K.decls⟩

/-- All that is held of the members of a list. -/
def sum {β : Type} (Q : β → Held) : List β → Held
  | [] => 0
  | b :: bs => Q b + sum Q bs

section

variable {J K L : Held}

@[simp] theorem facts_zero : (0 : Held).facts = True := rfl

@[simp] theorem uses_zero : (0 : Held).uses = 0 := rfl

@[simp] theorem decls_zero : (0 : Held).decls = 0 := rfl

@[simp] theorem facts_add : (J + K).facts = (J.facts ∧ K.facts) := rfl

@[simp] theorem uses_add : (J + K).uses = J.uses + K.uses := rfl

@[simp] theorem decls_add : (J + K).decls = J.decls + K.decls := rfl

theorem le_def : J ≤ K ↔
    (K.facts → J.facts ∧ (0 < J.uses → 0 < K.uses) ∧ J.decls ≤ K.decls) := .rfl

@[simp] theorem le_refl (J : Held) : J ≤ J := fun h => ⟨h, id, Nat.le_refl _⟩

theorem le_trans (h : J ≤ K) (h' : K ≤ L) : J ≤ L := by
  intro hL
  obtain ⟨hK, huses, hdecls⟩ := h' hL
  obtain ⟨hJ, huses', hdecls'⟩ := h hK
  exact ⟨hJ, fun hu => huses (huses' hu), Nat.le_trans hdecls' hdecls⟩

theorem add_le_add_left (h : J ≤ K) (L : Held) : L + J ≤ L + K := by
  intro hL
  obtain ⟨hJ, huses, hdecls⟩ := h hL.2
  refine ⟨⟨hL.1, hJ⟩, fun hu => ?_, ?_⟩
  · simp only [uses_add] at hu ⊢
    rcases Nat.eq_zero_or_pos J.uses with hzero | hpos
    · omega
    · have := huses hpos
      omega
  · simp only [decls_add]
    omega

@[simp] theorem add_assoc (J K L : Held) : J + K + L = J + (K + L) := by
  show Held.mk _ _ _ = Held.mk _ _ _
  simp only [facts_add, uses_add, decls_add, and_assoc, Nat.add_assoc]

theorem add_comm (J K : Held) : J + K = K + J := by
  show Held.mk _ _ _ = Held.mk _ _ _
  rw [and_comm, Nat.add_comm J.uses, Nat.add_comm J.decls]

theorem add_le_add {M : Held} (h : J ≤ K) (h' : L ≤ M) : J + L ≤ K + M := by
  refine le_trans (add_le_add_left h' J) ?_
  rw [add_comm J, add_comm K]
  exact add_le_add_left h M

@[simp] theorem add_zero (J : Held) : J + 0 = J := by
  show Held.mk _ _ _ = J
  simp

@[simp] theorem zero_add (J : Held) : 0 + J = J := by
  show Held.mk _ _ _ = J
  simp

@[simp] theorem zero_le (J : Held) : 0 ≤ J :=
  fun _ => ⟨trivial, fun hu => absurd hu (Nat.lt_irrefl 0), Nat.zero_le _⟩

theorem le_add_right (J K : Held) : J ≤ J + K :=
  fun h => ⟨h.1, fun hu => Nat.lt_of_lt_of_le hu (Nat.le_add_right _ _), Nat.le_add_right _ _⟩

theorem le_add_left (J K : Held) : J ≤ K + J := by
  rw [add_comm]
  exact le_add_right J K

end

end Held

/-- A tree that is no generated name itself. -/
def held (x : Nat) (n : Node) : Held := ⟨n.mark = 0, n.loose x, n.declared x⟩

/-- Trees that are no generated names themselves. -/
def heldAll (x : Nat) (ns : List Node) : Held :=
  ⟨∀ n ∈ ns, n.mark = 0, Node.looseAll x ns, Node.declaredAll x ns⟩

/-- A tree that may be a generated name itself. -/
def counted (x : Nat) (n : Node) : Held := ⟨True, n.loose x, n.declared x⟩

/-- Trees that may be generated names themselves. -/
def countedAll (x : Nat) (ns : List Node) : Held :=
    ⟨True, Node.looseAll x ns, Node.declaredAll x ns⟩

/-- A tree that may be put in more than once, since it declares nothing. -/
def reusable (x : Nat) (n : Node) : Held := ⟨n.declared x = 0, n.loose x, 0⟩

/-- The right to use a mark. -/
def useOf (x m : Nat) : Held := ⟨True, if m = x then 1 else 0, 0⟩

/-- What is held inside a function, seen from outside once its temporaries are declared. -/
def Held.behind (J : Held) (x : Nat) (temps : List Nat) : Held :=
  ⟨J.facts, if x ∈ temps then 0 else J.uses, J.decls + temps.count x⟩

/-- The statements of a body, seen from outside. -/
def heldBody (x : Nat) (stmts : List Node) : Held :=
  ⟨∀ n ∈ stmts, n.mark = 0, if stmts.any (Node.introduces x) then 0 else Node.looseAll x stmts,
    Node.declaredAll x stmts⟩

section

variable {x : Nat} {n : Node} {ns ms : List Node}

@[simp] theorem held_facts : (held x n).facts = (n.mark = 0) := rfl

@[simp] theorem held_uses : (held x n).uses = n.loose x := rfl

@[simp] theorem held_decls : (held x n).decls = n.declared x := rfl

@[simp] theorem counted_facts : (counted x n).facts = True := rfl

@[simp] theorem counted_uses : (counted x n).uses = n.loose x := rfl

@[simp] theorem counted_decls : (counted x n).decls = n.declared x := rfl

@[simp] theorem countedAll_facts : (countedAll x ns).facts = True := rfl

@[simp] theorem countedAll_uses : (countedAll x ns).uses = Node.looseAll x ns := rfl

@[simp] theorem countedAll_decls : (countedAll x ns).decls = Node.declaredAll x ns := rfl

theorem counted_le_held : counted x n ≤ held x n := fun _ => ⟨trivial, id, Nat.le_refl _⟩

theorem counted_le_reusable : counted x n ≤ reusable x n := fun h => ⟨trivial, id, Nat.le_of_eq h⟩

@[simp] theorem reusable_facts : (reusable x n).facts = (n.declared x = 0) := rfl

@[simp] theorem reusable_uses : (reusable x n).uses = n.loose x := rfl

@[simp] theorem reusable_decls : (reusable x n).decls = 0 := rfl

@[simp] theorem heldAll_nil : heldAll x [] = 0 := by
  show Held.mk _ _ _ = ⟨True, 0, 0⟩
  simp

@[simp] theorem heldAll_cons : heldAll x (n :: ns) = held x n + heldAll x ns := by
  show Held.mk _ _ _ = Held.mk _ _ _
  simp [held, heldAll]

@[simp] theorem heldAll_append : heldAll x (ns ++ ms) = heldAll x ns + heldAll x ms := by
  induction ns with
  | nil => rw [List.nil_append, heldAll_nil, Held.zero_add]
  | cons n ns ih => rw [List.cons_append, heldAll_cons, heldAll_cons, ih, Held.add_assoc]

theorem sum_held (ns : List Node) : Held.sum (held x) ns = heldAll x ns := by
  induction ns with
  | nil => rw [heldAll_nil, Held.sum]
  | cons n ns ih => rw [heldAll_cons, Held.sum, ih]

theorem sum_heldAll (nss : List (List Node)) :
    Held.sum (heldAll x) nss = heldAll x nss.flatten := by
  induction nss with
  | nil => rw [List.flatten_nil, heldAll_nil, Held.sum]
  | cons ns nss ih => rw [List.flatten_cons, heldAll_append, Held.sum, ih]

theorem held_ofHead (hx : x ≠ 0) {h : Head} (hm : h.mark = 0) (ns : List Node) :
    held x (Node.ofHead h ns) ≤ heldAll x ns := by
  intro hmarks
  refine ⟨hm, fun hu => Nat.lt_of_lt_of_le hu (Node.loose_ofHead_le (hm ▸ Ne.symm hx) ns), ?_⟩
  rw [held_decls, Node.declared_ofHead, Node.declares_of_unmarked hx hmarks, Nat.zero_add]
  exact Nat.le_refl _

theorem held_new (hx : x ≠ 0) (kind : NodeKind) (span : Span) (ns : List Node) :
    held x (Node.new kind span ns) ≤ heldAll x ns := held_ofHead hx rfl ns

theorem held_like (hx : x ≠ 0) (n : Node) (ns : List Node) : held x (like n ns) ≤ heldAll x ns :=
  held_ofHead hx rfl ns

theorem held_leaf (hx : x ≠ 0) (hm : n.mark = 0) : held x (leaf n) ≤ 0 := by
  intro _
  simp [held, hm, loose_leaf hx hm]

theorem held_leaf? (hx : x ≠ 0) (hm : n.mark = 0) : held x (leaf? n) ≤ 0 := by
  intro _
  simp [held, mark_leaf? hm, loose_leaf? hx hm]

theorem heldBody_le (stmts : List Node) : heldBody x stmts ≤ heldAll x stmts := by
  intro h
  refine ⟨h, fun hu => ?_, Nat.le_refl _⟩
  simp only [heldBody] at hu
  split at hu
  · omega
  · exact hu

end

/-! ## Diagnostics -/

/-- How the messages begin that warn of what is left as it is. -/
def warningHeads : List Bytes := ["pa", "as", "cl"]

/-- Whether a diagnostic of a code and a text is a warning. -/
def warns (code : Code) (message : Bytes) : Bool :=
  code == .pragmaIgnored || code == .unsupported && warningHeads.contains (message.take 2)

/-- The severity of a diagnostic can be read off its code and text. -/
def Classed (d : Diagnostic) : Prop := d.isError = !warns d.code d.message

/-! ## The books -/

/-- How often a mark is a helper. -/
def State.asHelper (s : State) (x : Nat) : Nat := (s.helpers.map (·.2)).count x

/-- How often a mark is still to be declared; `outside` counts this for the functions around. -/
def State.owed (s : State) (x outside : Nat) : Nat := outside + s.temps.count x + s.asHelper x

/-- The books of a mark are in order. -/
structure Books (x outside : Nat) (s : State) (J : Held) : Prop where
  /-- What is known of the trees held is true. -/
  facts : J.facts
  /-- A mark that is used is still to be declared. -/
  known : 0 < J.uses → 0 < s.owed x outside
  /-- A mark is declared once at most. -/
  once : s.owed x outside + J.decls ≤ 1
  /-- A mark that was not issued is nowhere. -/
  fresh : s.supply.issued < x → s.owed x outside + J.decls = 0
  /-- Each helper has one mark. -/
  helpers : (s.helpers.map (·.1)).Nodup
  /-- The diagnostics can be told apart. -/
  reports : ∀ d ∈ s.reports, Classed d

/-- A step keeps the books: it is given `J` and gives `Q` of its value. -/
def Issues {α : Type} (x : Nat) (c : Context) (J : Held) (m : LowerM α) (Q : α → Held) : Prop :=
  ∀ outside K s, Books x outside s (K + J) →
    Books x outside (m c s).2 (K + Q (m c s).1) ∧ s.asHelper x ≤ (m c s).2.asHelper x

section

variable {α β : Type} {x outside : Nat} {c : Context} {s t : State} {J K L : Held} {m : LowerM α}
  {Q R : α → Held}

theorem Books.mono (h : Books x outside s K) (hle : J ≤ K) : Books x outside s J := by
  obtain ⟨hfacts, huses, hdecls⟩ := hle h.facts
  have honce := h.once
  refine ⟨hfacts, fun hu => h.known (huses hu), by omega, fun hs => ?_, h.helpers, h.reports⟩
  have hfresh := h.fresh hs
  omega

/-- Books do not depend on the rest of the state. -/
theorem Books.congr (h : Books x outside s J) (hsupply : t.supply = s.supply)
    (htemps : t.temps = s.temps) (hhelpers : t.helpers = s.helpers)
    (hreports : t.reports = s.reports) :
    Books x outside t J := by
  have howed : t.owed x outside = s.owed x outside := by
    rw [State.owed, State.owed, State.asHelper, State.asHelper, htemps, hhelpers]
  exact
    { facts := h.facts
      known := fun hu => howed ▸ h.known hu
      once := howed ▸ h.once
      fresh := fun hs => howed ▸ h.fresh (hsupply ▸ hs)
      helpers := hhelpers ▸ h.helpers
      reports := hreports ▸ h.reports }

/-! ## Steps one behind another -/

theorem Issues.pure {a : α} (h : Q a ≤ J) : Issues x c J (Pure.pure a) Q :=
  fun _ K _ hb => ⟨hb.mono (Held.add_le_add_left h K), Nat.le_refl _⟩

theorem Issues.bind {f : α → LowerM β} {P : β → Held} (hm : Issues x c J m Q)
    (hf : ∀ a, Issues x c (Q a) (f a) P) : Issues x c J (m >>= f) P := by
  intro outside K s hb
  obtain ⟨hb', hle⟩ := hm outside K s hb
  obtain ⟨hb'', hle'⟩ := hf (m c s).1 outside K (m c s).2 hb'
  exact ⟨hb'', Nat.le_trans hle hle'⟩

theorem Issues.mono (hm : Issues x c J m Q) (h : ∀ a, R a ≤ Q a) : Issues x c J m R :=
  fun outside K s hb =>
    ⟨(hm outside K s hb).1.mono (Held.add_le_add_left (h _) K), (hm outside K s hb).2⟩

theorem Issues.given (hm : Issues x c J m Q) (h : J ≤ K) : Issues x c K m Q :=
  fun outside L s hb => hm outside L s (hb.mono (Held.add_le_add_left h L))

/-- What a step is not given stays held. -/
theorem Issues.keep (hm : Issues x c J m Q) (L : Held) : Issues x c (L + J) m fun a => L + Q a := by
  intro outside K s hb
  rw [← Held.add_assoc] at hb
  obtain ⟨hb', hle⟩ := hm outside (K + L) s hb
  rw [Held.add_assoc] at hb'
  exact ⟨hb', hle⟩

/-- A step that is given a part of what is held, and what comes behind it. -/
theorem Issues.using {f : α → LowerM β} {P : β → Held} (hm : Issues x c J m Q) (hle : L + J ≤ K)
    (hf : ∀ a, Issues x c (L + Q a) (f a) P) : Issues x c K (m >>= f) P :=
  .bind ((hm.keep L).given hle) hf

/-- A step that is given nothing, and what comes behind it. -/
theorem Issues.step {f : α → LowerM β} {P : β → Held} (hm : Issues x c 0 m Q)
    (hf : ∀ a, Issues x c (J + Q a) (f a) P) : Issues x c J (m >>= f) P := by
  refine hm.using ?_ hf
  rw [Held.add_zero]
  exact Held.le_refl J

/-- A step that is given nothing and gives nothing, and what comes behind it. -/
theorem Issues.skip {f : α → LowerM β} {P : β → Held} (hm : Issues x c 0 m fun _ => 0)
    (hf : ∀ a, Issues x c J (f a) P) : Issues x c J (m >>= f) P := by
  refine hm.step fun a => ?_
  rw [Held.add_zero]
  exact hf a

theorem Issues.map {f : α → β} {P : β → Held} (hm : Issues x c J m Q) (h : ∀ a, P (f a) ≤ Q a) :
    Issues x c J (f <$> m) P :=
  .bind hm fun a => .pure (h a)

theorem Issues.branch {p : Prop} [Decidable p] {m' : LowerM α} (yes : p → Issues x c J m Q)
    (no : ¬p → Issues x c J m' Q) : Issues x c J (if p then m else m') Q := by
  split
  · exact yes ‹_›
  · exact no ‹_›

/-- One of two steps, and then the same in either case. -/
theorem Issues.choose {p : Prop} [Decidable p] {m' : LowerM α} {f : α → LowerM β} {P : β → Held}
    (yes : p → Issues x c J m Q) (no : ¬p → Issues x c J m' Q)
    (hf : ∀ a, Issues x c (Q a) (f a) P) :
    Issues x c J (if p then m >>= f else m' >>= f) P :=
  .branch (fun hp => .bind (yes hp) hf) fun hp => .bind (no hp) hf

/-- One of two steps that are given nothing, and then the same in either case. -/
theorem Issues.either {p : Prop} [Decidable p] {m' : LowerM α} {f : α → LowerM β} {P : β → Held}
    (yes : p → Issues x c 0 m Q) (no : ¬p → Issues x c 0 m' Q)
    (hf : ∀ a, Issues x c (J + Q a) (f a) P) :
    Issues x c J (if p then m >>= f else m' >>= f) P :=
  .branch (fun hp => .step (yes hp) hf) fun hp => .step (no hp) hf

/-- A step that is taken at another place. -/
theorem Issues.elsewhere {f : Context → Context} (hm : Issues x (f c) J m Q) :
    Issues x c J (withReader f m) Q := hm

/-! ## Lists -/

theorem Issues.mapM_sum {f : α → LowerM β} {P : β → Held} {as : List α}
    (h : ∀ a ∈ as, Issues x c 0 (f a) P) : Issues x c 0 (as.mapM f) (Held.sum P) := by
  induction as with
  | nil => exact .pure (Held.le_refl 0)
  | cons a as ih =>
    rw [List.mapM_cons]
    refine .bind (h a List.mem_cons_self) fun b => ?_
    refine .step (ih fun a ha => h a (List.mem_cons_of_mem _ ha)) fun bs => ?_
    exact .pure (Held.le_refl _)

theorem Issues.mapM {f : α → LowerM Node} {as : List α}
    (h : ∀ a ∈ as, Issues x c 0 (f a) (held x)) : Issues x c 0 (as.mapM f) (heldAll x) := by
  refine (Issues.mapM_sum h).mono fun ns => ?_
  rw [sum_held]
  exact Held.le_refl _

theorem Issues.mapM_flatten {f : α → LowerM (List Node)} {as : List α}
    (h : ∀ a ∈ as, Issues x c 0 (f a) (heldAll x)) :
    Issues x c 0 (as.mapM f) fun nss => heldAll x nss.flatten := by
  refine (Issues.mapM_sum h).mono fun nss => ?_
  rw [sum_heldAll]
  exact Held.le_refl _

theorem Issues.foldlM {f : β → α → LowerM β} {I : β → Held} {as : List α} {init : β}
    (h : ∀ a ∈ as, ∀ b, Issues x c (I b) (f b a) I) : Issues x c (I init) (as.foldlM f init) I := by
  induction as generalizing init with
  | nil => exact .pure (Held.le_refl _)
  | cons a as ih =>
    rw [List.foldlM_cons]
    refine .bind (h a List.mem_cons_self init) fun b => ?_
    exact ih fun a ha => h a (List.mem_cons_of_mem _ ha)

/-! ## Context, state and reports -/

theorem issues_read : Issues x c 0 read fun _ => 0 := fun _ _ _ hb => ⟨hb, Nat.le_refl _⟩

theorem issues_get : Issues x c 0 get fun _ => 0 := fun _ _ _ hb => ⟨hb, Nat.le_refl _⟩

/-- A change of what the books do not show. -/
theorem issues_modify {f : State → State}
    (h : ∀ s, (f s).supply = s.supply ∧ (f s).temps = s.temps ∧ (f s).helpers = s.helpers ∧
      (f s).reports = s.reports) : Issues x c 0 (modify f) fun _ => 0 := by
  intro outside K s hb
  obtain ⟨hsupply, htemps, hhelpers, hreports⟩ := h s
  have hsame : (f s).asHelper x = s.asHelper x := by rw [State.asHelper, State.asHelper, hhelpers]
  exact ⟨hb.congr hsupply htemps hhelpers hreports, Nat.le_of_eq hsame.symm⟩

theorem issues_onComments (f : CommentTable → CommentTable) :
    Issues x c 0 (onComments f) fun _ => 0 := issues_modify fun _ => ⟨rfl, rfl, rfl, rfl⟩

theorem issues_report {d : Diagnostic} (hd : Classed d) : Issues x c 0 (report d) fun _ => 0 := by
  intro outside K s hb
  refine ⟨⟨hb.facts, hb.known, hb.once, hb.fresh, hb.helpers, ?_⟩, Nat.le_refl _⟩
  exact List.forall_mem_append.2 ⟨hb.reports, by simpa using hd⟩

theorem issues_errorAt {span : Span} {code : Code} {message : Bytes}
    (h : warns code message = false) : Issues x c 0 (errorAt span code message) fun _ => 0 :=
  issues_report (by rw [Classed]; exact (congrArg (!·) h).symm)

theorem issues_warnAt {span : Span} {code : Code} {message : Bytes}
    (h : warns code message = true) :
    Issues x c 0 (warnAt span code message) fun _ => 0 :=
  issues_report (by rw [Classed]; exact (congrArg (!·) h).symm)

/-- A text is told by how it begins. -/
theorem warns_append {code : Code} {start rest : Bytes} (h : 2 ≤ start.length) :
    warns code (start ++ rest) = warns code start := by
  rw [warns, warns, List.take_append_of_le_length h]

theorem issues_targetBefore (t : Target) : Issues x c 0 (targetBefore t) fun _ => 0 :=
  fun _ _ _ hb => ⟨hb, Nat.le_refl _⟩

/-! ## Marks -/

/-- A new mark is nowhere, so there is room for one declaration of it. -/
theorem Books.room (h : Books x outside s J) (wish : Bytes) :
    s.owed x outside + J.decls + (if (s.supply.fresh wish).1 = x then 1 else 0) ≤ 1 ∧
      ((s.supply.fresh wish).2.issued < x →
        s.owed x outside + J.decls + (if (s.supply.fresh wish).1 = x then 1 else 0) = 0) := by
  have hmark : (s.supply.fresh wish).1 = s.supply.issued + 1 := rfl
  have hissued : (s.supply.fresh wish).2.issued = s.supply.issued + 1 := by
    simp [NameSupply.fresh, NameSupply.issued]
  have honce := h.once
  have hfresh := h.fresh
  rw [hmark, hissued]
  split <;> omega

/-- A mark that is declared at once. -/
theorem issues_fresh (wish : Bytes) :
    Issues x c 0 (fresh wish) fun m => ⟨True, 0, if m = x then 1 else 0⟩ := by
  intro outside K s hb
  obtain ⟨honce, hfresh⟩ := hb.room wish
  simp only [Held.decls_add, Held.decls_zero, Nat.add_zero] at honce hfresh
  refine ⟨⟨hb.facts, hb.known, ?_, ?_, hb.helpers, hb.reports⟩, Nat.le_refl _⟩
  · simp only [Held.decls_add, ← Nat.add_assoc]
    exact honce
  · simp only [Held.decls_add, ← Nat.add_assoc]
    exact hfresh

/-- A use of a mark. -/
theorem issues_ref (m : Nat) : Issues x c (useOf x m) (ref m) (reusable x) := by
  refine fun outside K s hb => ⟨hb.mono (Held.add_le_add_left (fun _ => ?_) K), Nat.le_refl _⟩
  have hvalue : (ref m c s).1 = Node.marked (s.supply.wish m) m := rfl
  rw [hvalue]
  refine ⟨Node.declared_marked, fun hu => ?_, Nat.le_refl _⟩
  rwa [reusable, Node.loose_marked] at hu

/-- A temporary is declared by the function around it. -/
theorem issues_temp : Issues x c 0 temp (useOf x) := by
  intro outside K s hb
  obtain ⟨honce, hfresh⟩ := hb.room (tempName s.tempCount)
  have howed : (temp c s).2.owed x outside =
      s.owed x outside + if (s.supply.fresh (tempName s.tempCount)).1 = x then 1 else 0 := by
    show outside + (s.temps ++ [(s.supply.fresh (tempName s.tempCount)).1]).count x +
      s.asHelper x = _
    rw [State.owed, List.count_append, List.count_singleton]
    simp only [beq_iff_eq]
    omega
  have hsupply : (temp c s).2.supply = (s.supply.fresh (tempName s.tempCount)).2 := rfl
  simp only [Held.decls_add, Held.decls_zero, Nat.add_zero] at honce hfresh
  refine ⟨⟨⟨hb.facts.1, trivial⟩, fun hu => ?_, ?_, fun hx => ?_, hb.helpers, hb.reports⟩,
    Nat.le_refl _⟩
  · have hknown := hb.known
    rw [howed]
    simp only [Held.uses_add, Held.uses_zero, useOf] at hu hknown
    change 0 < K.uses + (if (s.supply.fresh (tempName s.tempCount)).1 = x then 1 else 0) at hu
    omega
  · rw [howed]
    simp only [Held.decls_add, useOf]
    omega
  · rw [howed]
    simp only [Held.decls_add, useOf]
    have := hfresh hx
    omega

/-! ## Functions -/

theorem collectTemps_run (m : LowerM α) (c : Context) (s : State) :
    collectTemps m c s =
      (((m c { s with temps := [] }).1, (m c { s with temps := [] }).2.temps),
        { (m c { s with temps := [] }).2 with temps := s.temps }) := rfl

/-- Inside a function the temporaries of the function around it are still to be declared, outside of
it. Those of the function itself are declared once it is done, and cover its uses. -/
theorem issues_collectTemps (hm : Issues x c J m Q) :
    Issues x c J (collectTemps m) fun r => (Q r.1).behind x r.2 := by
  intro outside K s hb
  have hinside : ({ s with temps := [] } : State).owed x (outside + s.temps.count x) =
      s.owed x outside := rfl
  have hstart : Books x (outside + s.temps.count x) { s with temps := [] } (K + J) :=
    ⟨hb.facts, hinside ▸ hb.known, hinside ▸ hb.once, hinside ▸ hb.fresh, hb.helpers, hb.reports⟩
  obtain ⟨hend, hhelpers⟩ := hm _ K _ hstart
  rw [collectTemps_run]
  generalize m c { s with temps := [] } = run at hend hhelpers
  obtain ⟨a, t⟩ := run
  have hleave : t.owed x (outside + s.temps.count x) =
      State.owed { t with temps := s.temps } x outside + t.temps.count x := by
    have hhelper : State.asHelper { t with temps := s.temps } x = t.asHelper x := rfl
    simp only [State.owed, hhelper]
    omega
  have hgrown : s.owed x outside ≤ State.owed { t with temps := s.temps } x outside :=
    Nat.add_le_add_left hhelpers _
  have hknown := hend.known
  have hbefore := hb.known
  have honce := hend.once
  have hfresh := hend.fresh
  simp only [hleave, Held.uses_add, Held.decls_add] at hknown hbefore honce hfresh
  refine ⟨⟨hend.facts, fun hu => ?_, ?_, fun hx => ?_, hend.helpers, hend.reports⟩, hhelpers⟩
  · show 0 < State.owed { t with temps := s.temps } x outside
    simp only [Held.uses_add, Held.behind] at hu
    rcases Nat.eq_zero_or_pos K.uses with hzero | hpos
    · split at hu
      · omega
      · rename_i hnone
        rw [List.count_eq_zero.2 hnone] at hknown
        omega
    · have := hbefore (by omega)
      omega
  · show State.owed { t with temps := s.temps } x outside +
      (K.decls + ((Q a).decls + t.temps.count x)) ≤ 1
    omega
  · have := hfresh hx
    show State.owed { t with temps := s.temps } x outside +
      (K.decls + ((Q a).decls + t.temps.count x)) = 0
    omega

/-- The declaration of some temporaries declares each of them. -/
theorem introduces_varDecl {decls : List Node} {d : Node} (hd : d ∈ decls)
    (hk : d.kind = .declarator)
    (hm : (d.kid 0).isUse x = true) : (varDecl "var" {} decls).introduces x = true := by
  have hany : decls.any (fun d => d.kind == .declarator && (d.kid 0).isUse x) = true :=
    List.any_eq_true.2 ⟨d, hd, by simp [hk, hm]⟩
  unfold Node.introduces
  split
  · exact Bool.and_eq_true_iff.2 ⟨beq_self_eq_true _, hany⟩
  · cases ‹_ = NodeKind.importDecl›
  · exact absurd rfl ‹_ = NodeKind.varDecl → False›

/-- The declarator of a temporary. -/
def tempDeclarator (s : State) (m : Nat) : Node := declarator {} (Node.marked (s.supply.wish m) m)

theorem tempDeclarators_run (temps : List Nat) (c : Context) (s : State) :
    (temps.mapM fun m => (return declarator {} (← ref m) : LowerM Node)) c s =
      (temps.map (tempDeclarator s), s) := by
  induction temps with
  | nil => rfl
  | cons m ms ih =>
    have hstep : ((m :: ms).mapM fun m => (return declarator {} (← ref m) : LowerM Node)) c s =
        (tempDeclarator s m ::
            ((ms.mapM fun m => (return declarator {} (← ref m) : LowerM Node)) c s).1,
          ((ms.mapM fun m => (return declarator {} (← ref m) : LowerM Node)) c s).2) := by
      rw [List.mapM_cons]
      rfl
    rw [hstep, ih]
    rfl

theorem withTemps_run (stmts : List Node) (temps : List Nat) (c : Context) (s : State) :
    withTemps stmts temps c s =
      (if temps.isEmpty then stmts
        else insertAfterDirectives stmts [varDecl "var" {} (temps.map (tempDeclarator s))], s) := by
  unfold withTemps
  split
  · rfl
  · refine Eq.trans ?_ (congrArg (fun r : List Node × State =>
      (insertAfterDirectives stmts [varDecl "var" {} r.1], r.2)) (tempDeclarators_run temps c s))
    rfl

theorem isUse_marked {name : Bytes} {m : Nat} : (Node.marked name m).isUse x = (m == x) := by
  simp [Node.isUse, Node.marked, Node.ofHead, Node.kind, Node.mark, Node.head]

/-- The declarations of temporaries hold a use and a declaration of each. -/
theorem tempDeclarators_count (s : State) (temps : List Nat) :
    Node.looseAll x (temps.map (tempDeclarator s)) = temps.count x ∧
      Node.declaredAll x (temps.map (tempDeclarator s)) = temps.count x := by
  induction temps with
  | nil => exact ⟨rfl, rfl⟩
  | cons m ms ih =>
    simp only [List.map_cons, Node.looseAll_cons, Node.declaredAll_cons, ih, tempDeclarator,
      loose_declarator, declared_declarator, Node.loose_marked, Node.declared_marked, isUse_marked,
      List.count_cons, beq_iff_eq]
    omega

/-- The temporaries of a body are declared in it. -/
theorem issues_withTemps (stmts : List Node) (temps : List Nat) :
    Issues x c ((heldAll x stmts).behind x temps) (withTemps stmts temps) (heldBody x) := by
  intro outside K s hb
  rw [withTemps_run]
  refine ⟨hb.mono (Held.add_le_add_left (fun hmarks => ?_) K), Nat.le_refl _⟩
  obtain ⟨hloose, hdecl⟩ := tempDeclarators_count (x := x) s temps
  dsimp only
  split
  · rename_i hempty
    obtain rfl := List.isEmpty_iff.1 hempty
    exact heldBody_le stmts hmarks
  · refine ⟨fun n hn => ?_, fun hu => ?_, ?_⟩
    · rcases mem_insertAfterDirectives.1 hn with hn | hn
      · exact hmarks n hn
      · rw [List.mem_singleton.1 hn]
        rfl
    · simp only [heldBody, Held.behind] at hu ⊢
      split at hu
      · omega
      · rename_i hnone
        by_cases hmem : x ∈ temps
        · -- a temporary is declared among the statements
          refine absurd
            (List.any_eq_true.2 ⟨_, mem_insertAfterDirectives.2 (.inr List.mem_cons_self),
            introduces_varDecl (List.mem_map_of_mem hmem) rfl ?_⟩) hnone
          exact isUse_marked.trans (beq_self_eq_true x)
        · rw [List.count_eq_zero.2 hmem] at hloose
          rw [if_neg hmem]
          simpa [hloose, heldAll] using hu
    · simp only [heldBody, Held.behind, heldAll, declaredAll_insertAfterDirectives,
        Node.declaredAll_cons, declared_varDecl, hdecl, Node.declaredAll_nil]
      omega

end

/-! ## Rules -/

/-- Rules that keep the books of a mark on the trees of a source. -/
structure Keeps (x : Nat) (g : Rules) : Prop where
  /-- Expressions. -/
  expr : ∀ c n, Tidy n → Issues x c 0 (g.expr n) (held x)
  /-- Patterns. -/
  pattern : ∀ c b n, Tidy n → Issues x c 0 (g.pattern b n) (held x)
  /-- Statements. -/
  stmt : ∀ c n, Tidy n → Issues x c 0 (g.stmt n) (heldAll x)
  /-- Namespaces. -/
  namespaceDecl : ∀ c n e, Tidy n → Issues x c 0 (g.namespaceDecl n e) (heldAll x)

theorem Keeps.counted {x : Nat} {g : Rules} (hg : Keeps x g) (c : Context) {n : Node}
    (hn : Tidy n) :
    Issues x c 0 (g.expr n) (Lower.counted x) :=
  (hg.expr c n hn).mono fun _ => counted_le_held

theorem Keeps.exprs {x : Nat} {g : Rules} (hg : Keeps x g) (c : Context) {ns : List Node}
    (hns : ∀ n ∈ ns, Tidy n) : Issues x c 0 (ns.mapM g.expr) (heldAll x) :=
  .mapM fun n hn => hg.expr c n (hns n hn)

end ScriptLower.Lower
