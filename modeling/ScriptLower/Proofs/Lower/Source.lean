import ScriptLower.Proofs.Lower.Aim
import ScriptLower.Proofs.Tree.Places

/-!
# Code that can be lowered

A tree can be lowered towards an aim when each of its nodes stands where the grammar wants it and
the names it uses are aimed at. Such a tree hands this on to the children that lowering goes into.
-/

namespace ScriptLower.Lower

open ScriptLower

section

variable {a : Aim} {n : Node}

/-! ## What is used -/

/-- The names of some uses are aimed at, and elements are if there are any. -/
def Covers (a : Aim) (u : Uses) : Prop :=
  (∀ x ∈ u.names, a.names x) ∧ (u.elements = true → a.elements)

theorem covers_append {u v : Uses} : Covers a (u ++ v) ↔ Covers a u ∧ Covers a v := by
  show Covers a (u.append v) ↔ _
  simp only [Covers, Uses.append, List.mem_append, Bool.or_eq_true]
  grind

theorem covers_empty : Covers a {} := ⟨by simp, by simp⟩

theorem covers_ofName {x : Bytes} : Covers a (.ofName x) ↔ a.names x := by
  simp [Covers, Uses.ofName]

theorem Covers.usesAll_mem {ks : List Node} (h : Covers a (usesAll ks)) :
    ∀ k ∈ ks, Covers a (uses k) := by
  induction ks with
  | nil => simp
  | cons k ks ih =>
    rw [usesAll, covers_append] at h
    exact List.forall_mem_cons.2 ⟨h.1, ih h.2⟩

theorem Covers.usesAll_getD {ks : List Node} (h : Covers a (usesAll ks)) (i : Nat) :
    Covers a (uses (ks.getD i .absent)) := by
  rw [List.getD_eq_getElem?_getD]
  cases hi : ks[i]? with
  | none => exact covers_empty
  | some k => exact h.usesAll_mem k (List.mem_of_getElem? hi)

theorem Covers.usesAt_getD {ks : List Node} {i : Nat} (h : Covers a (usesAt i ks)) :
    Covers a (uses (ks.getD i .absent)) := by
  induction ks generalizing i with
  | nil => exact covers_empty
  | cons k ks ih =>
    cases i with
    | zero => exact h
    | succ i => exact ih h

theorem Covers.usesFrom_getD {ks : List Node} {j i : Nat} (h : Covers a (usesFrom j ks))
    (hj : j ≤ i) : Covers a (uses (ks.getD i .absent)) := by
  induction ks generalizing i j with
  | nil => exact covers_empty
  | cons k ks ih =>
    cases j with
    | zero =>
      rw [usesFrom, covers_append] at h
      cases i with
      | zero => exact h.1
      | succ i => exact ih h.2 (Nat.zero_le i)
    | succ j =>
      cases i with
      | zero => omega
      | succ i => exact ih h (Nat.le_of_succ_le_succ hj)

/-- What a node with a key uses it uses in the value or, when the key is computed, in the key. -/
theorem Covers.keyed {ks : List Node} {computed : Bool} {i : Nat}
    (h : Covers a ((if computed = true then usesAt 0 ks else {}) ++ usesFrom 1 ks))
    (hi : (computed || i != 0) = true) : Covers a (uses (ks.getD i .absent)) := by
  rw [covers_append] at h
  cases i with
  | zero =>
    have hc : computed = true := by simpa using hi
    rw [if_pos hc] at h
    exact h.1.usesAt_getD
  | succ i => exact h.2.usesFrom_getD (Nat.succ_pos i)

theorem not_reads_of_isType {k : NodeKind} (h : k.isType = true) (computed : Bool) (i : Nat) :
    k.reads computed i = false := by
  unfold NodeKind.reads
  split <;> simp_all [NodeKind.isType, NodeKind.typeLevel]

theorem Covers.kid (h : Covers a (uses n)) {i : Nat}
    (hi : n.kind.reads n.flags.computed i = true) : Covers a (uses (n.kid i)) := by
  cases n with
  | absent => exact covers_empty
  | mk head ks ds t x y =>
    change Covers a (uses (ks.getD i .absent))
    change head.kind.reads head.flags.computed i = true at hi
    unfold uses at h
    split at h
    · rw [not_reads_of_isType ‹_›] at hi
      contradiction
    · rw [covers_append] at h
      replace h := h.2
      split at h <;> rename_i hk <;> try simp only [NodeKind.reads, hk, Bool.false_eq_true] at hi
      -- one child
      case h_9 | h_10 | h_11 | h_12 =>
        obtain rfl := beq_iff_eq.1 hi
        exact h.usesAt_getD
      case h_13 | h_14 | h_15 | h_16 => exact h.keyed hi
      case h_17 | h_18 =>
        rw [covers_append] at h
        exact h.2.usesAll_getD i
      case h_20 => exact h.usesAll_getD i

theorem Covers.deco (h : Covers a (uses n)) (hn : n.kind.isType = false) {d : Node}
    (hd : d ∈ n.decos) : Covers a (uses d) := by
  cases n with
  | absent => cases hd
  | mk head ks ds t x y =>
    unfold uses at h
    rw [if_neg (by rw [show head.kind.isType = false from hn]; exact Bool.false_ne_true),
      covers_append] at h
    exact h.1.usesAll_mem d hd

theorem Covers.ident (h : Covers a (uses n)) (hn : n.kind = .ident) : a.names n.text := by
  cases n with
  | absent => cases hn
  | mk head ks ds t x y =>
    change head.kind = .ident at hn
    simp only [uses, hn, show NodeKind.isType .ident = false from rfl, Bool.false_eq_true, if_false,
      covers_append, covers_ofName] at h
    exact h.2

/-! ## Where nodes stand -/

/-- A node stands where the grammar wants it, and the object of a dotted tag and the attributes of
an import, which are not counted among the uses, are aimed at too. -/
structure Shape (a : Aim) (n : Node) : Prop where
  placed : placed n = true
  chained : a.version.before .es2020 = true → chained n = true
  tag : n.kind = .jsxMemberName → (n.kid 0).kind = .jsxName → a.names (n.kid 0).text
  attributes : hasAttributes n.kind = true → Covers a (uses (n.kid 1))

/-- Code of the source, or the links of a chain that is not closed yet. -/
structure Spine (a : Aim) (n : Node) : Prop where
  shape : ∀ m ∈ n.walk, Shape a m
  covers : Covers a (uses n)

/-- Code of the source that can be lowered. -/
structure Source (a : Aim) (n : Node) : Prop extends Spine a n where
  closed : a.version.before .es2020 = true → n.opensChain = false

theorem walkAll_of_mem {ks : List Node} {k m : Node} (hk : k ∈ ks) (hm : m ∈ k.walk) :
    m ∈ Node.walkAll ks := by
  induction ks with
  | nil => cases hk
  | cons k' ks ih =>
    rw [Node.walkAll, List.mem_append]
    rcases List.mem_cons.1 hk with rfl | hk
    · exact .inl hm
    · exact .inr (ih hk)

theorem walk_of_kid {k m : Node} (hk : k ∈ n.kids) (hm : m ∈ k.walk) : m ∈ n.walk := by
  cases n with
  | absent => cases hk
  | mk head ks ds t x y =>
    simp only [Node.walk, List.mem_cons, List.mem_append]
    exact .inr (.inl (.inl (.inl (.inl (walkAll_of_mem hk hm)))))

theorem walk_of_deco {d m : Node} (hd : d ∈ n.decos) (hm : m ∈ d.walk) : m ∈ n.walk := by
  cases n with
  | absent => cases hd
  | mk head ks ds t x y =>
    simp only [Node.walk, List.mem_cons, List.mem_append]
    exact .inr (.inl (.inl (.inl (.inr (walkAll_of_mem hd hm)))))

theorem walk_self (hn : n.isPresent = true) : n ∈ n.walk := by
  cases n with
  | absent => contradiction
  | mk head ks ds t x y => exact List.mem_cons_self

/-- A child is absent or one of the children. -/
theorem kid_cases (n : Node) (i : Nat) :
    n.kid i = .absent ∨ i < n.kids.length ∧ n.kid i ∈ n.kids := by
  unfold Node.kid
  rw [List.getD_eq_getElem?_getD]
  cases hi : n.kids[i]? with
  | none => exact .inl rfl
  | some k =>
    obtain ⟨hlt, -⟩ := List.getElem?_eq_some_iff.1 hi
    exact .inr ⟨hlt, List.mem_of_getElem? hi⟩

theorem exists_kid {k : Node} (hk : k ∈ n.kids) : ∃ i, n.kid i = k := by
  obtain ⟨i, hi, rfl⟩ := List.getElem_of_mem hk
  exact ⟨i, by simp [Node.kid, List.getD_eq_getElem?_getD, hi]⟩

theorem kindAt_of_placed (hp : placed n = true) (i : Nat) (hi : (n.kid i).isPresent = true)
    (hne : kindsAt n.head i ≠ []) : (n.kid i).kind ∈ kindsAt n.head i := by
  rcases kid_cases n i with hk | ⟨hlt, -⟩
  · rw [hk] at hi
    contradiction
  · simp only [placed, Bool.and_eq_true, List.all_eq_true, List.mem_range,
      Bool.or_eq_true, Node.isAbsent, Bool.not_eq_true', List.isEmpty_iff,
      List.contains_iff_mem] at hp
    rcases hp.1.1 i hlt with (hp | hp) | hp
    · rw [hi] at hp
      contradiction
    · exact absurd hp hne
    · exact hp

theorem Shape.kindAt (h : Shape a n) (i : Nat) (hi : (n.kid i).isPresent = true)
    (hne : kindsAt n.head i ≠ []) : (n.kid i).kind ∈ kindsAt n.head i :=
  kindAt_of_placed h.placed i hi hne

theorem Shape.deco (h : Shape a n) {d : Node} (hd : d ∈ n.decos) : d.kind = .decorator := by
  have hp := h.placed
  simp only [ScriptLower.placed, Bool.and_eq_true, List.all_eq_true, beq_iff_eq] at hp
  exact hp.1.2 d hd

theorem Shape.alias (h : Shape a n) (hn : n.kind = .importEquals)
    (hx : (n.kid 1).kind ≠ .externalRef) : isEntity (n.kid 1) = true := by
  have hp := h.placed
  simp only [ScriptLower.placed, Bool.and_eq_true, Bool.or_eq_true, bne_iff_ne, beq_iff_eq] at hp
  rcases hp.2 with (hp | hp) | hp
  · exact absurd hn hp
  · exact absurd hp hx
  · exact hp

/-! ## Going into code -/

theorem Source.absent : Source a .absent := ⟨⟨by simp [Node.walk], covers_empty⟩, fun _ => rfl⟩

theorem Spine.self (h : Spine a n) (hn : n.isPresent = true) : Shape a n := h.shape n (walk_self hn)

theorem Spine.kid (h : Spine a n) (i : Nat) (hi : n.kind.reads n.flags.computed i = true) :
    Spine a (n.kid i) := by
  refine ⟨fun m hm => ?_, h.covers.kid hi⟩
  rcases kid_cases n i with hk | ⟨-, hk⟩
  · rw [hk] at hm
    cases hm
  · exact h.shape m (walk_of_kid hk hm)

/-- A child that opens a chain stands first, in a link or in the node that closes the chain. -/
theorem Spine.kid_closed (h : Spine a n) (i : Nat) (hv : a.version.before .es2020 = true) :
    (n.kid i).opensChain = false ∨ i = 0 ∧ (n.kind.isLink = true ∨ n.kind = .optChain) := by
  rcases kid_cases n i with hk | ⟨hlt, -⟩
  · exact .inl (by rw [hk]; rfl)
  · have hp : n.isPresent = true := by
      cases n with
      | absent => cases hlt
      | mk head ks ds t x y => rfl
    have hc := (h.self hp).chained hv
    simp only [chained, List.all_eq_true, List.mem_range, Bool.or_eq_true, Bool.not_eq_true',
      Bool.and_eq_true, beq_iff_eq] at hc
    exact hc i hlt

/-- Whether a child is lowered on its own: it is code, and not the chain that a node closes. -/
def enters (k : NodeKind) (computed : Bool) (i : Nat) : Bool :=
  k.reads computed i && (k != .optChain || i != 0)

theorem opensChainFirst_eq (ks : List Node) :
    opensChainFirst ks = (ks.getD 0 .absent).opensChain := by
  cases ks with
  | nil => rfl
  | cons k ks => rfl

/-- Behind a link that opens no chain stands none that does. -/
theorem link_closed (hn : n.kind.isLink = true) (hc : n.opensChain = false) :
    (n.kid 0).opensChain = false := by
  cases n with
  | absent => rfl
  | mk head ks ds t x y =>
    change head.kind.isLink = true at hn
    change (ks.getD 0 .absent).opensChain = false
    rw [← opensChainFirst_eq]
    unfold NodeKind.isLink at hn
    unfold Node.opensChain at hc
    split at hn
    all_goals simp_all

theorem Source.kid {k : NodeKind} (h : Source a n) (hn : n.kind = k) (i : Nat)
    (hi : enters k n.flags.computed i = true) : Source a (n.kid i) := by
  subst hn
  simp only [enters, Bool.and_eq_true, Bool.or_eq_true, bne_iff_ne] at hi
  refine ⟨h.toSpine.kid i hi.1, fun hv => ?_⟩
  rcases h.kid_closed i hv with hc | ⟨rfl, hlink | hclose⟩
  · exact hc
  · exact link_closed hlink (h.closed hv)
  · rcases hi.2 with hne | hne
    · exact absurd hclose hne
    · exact absurd rfl hne

theorem Source.attributes (h : Source a n) (hn : hasAttributes n.kind = true) :
    Source a (n.kid 1) := by
  have hp : n.isPresent = true := by
    cases n with
    | absent => cases hn
    | mk head ks ds t x y => rfl
  refine ⟨⟨fun m hm => ?_, (h.self hp).attributes hn⟩, fun hv => ?_⟩
  · rcases kid_cases n 1 with hk | ⟨-, hk⟩
    · rw [hk] at hm
      cases hm
    · exact h.shape m (walk_of_kid hk hm)
  · rcases h.kid_closed 1 hv with hc | ⟨hone, -⟩
    · exact hc
    · cases hone

/-- An argument or a key of a link. -/
theorem Spine.rest (h : Spine a n) (i : Nat) (hi : n.kind.reads n.flags.computed (i + 1) = true) :
    Source a (n.kid (i + 1)) := by
  refine ⟨h.kid (i + 1) hi, fun hv => ?_⟩
  rcases h.kid_closed (i + 1) hv with hc | ⟨hzero, -⟩
  · exact hc
  · cases hzero

theorem Source.kids {k : NodeKind} (h : Source a n) (hn : n.kind = k)
    (hi : ∀ i, enters k n.flags.computed i = true) : ∀ x ∈ n.kids, Source a x := by
  intro x hx
  obtain ⟨i, rfl⟩ := exists_kid hx
  exact h.kid hn i (hi i)

theorem exists_kid_drop {x : Node} {j : Nat} (hx : x ∈ n.kids.drop j) : ∃ i, n.kid (i + j) = x := by
  obtain ⟨i, hx⟩ := List.getElem?_of_mem hx
  rw [List.getElem?_drop, Nat.add_comm] at hx
  exact ⟨i, by rw [Node.kid, List.getD_eq_getElem?_getD, hx, Option.getD_some]⟩

theorem Source.kids_drop {k : NodeKind} (h : Source a n) (hn : n.kind = k) (j : Nat)
    (hi : ∀ i, enters k n.flags.computed (i + j) = true) : ∀ x ∈ n.kids.drop j, Source a x := by
  intro x hx
  obtain ⟨i, rfl⟩ := exists_kid_drop hx
  exact h.kid hn (i + j) (hi i)

/-- A child with the kind that the grammar wants. -/
theorem Spine.kind_at (h : Spine a n) (i : Nat) (hi : (n.kid i).isPresent = true)
    (hne : kindsAt n.head i ≠ []) : (n.kid i).kind ∈ kindsAt n.head i := by
  refine (h.self ?_).kindAt i hi hne
  cases n with
  | absent => simp [Node.kid, Node.kids, Node.isPresent] at hi
  | mk head ks ds t x y => rfl

/-- A node that is absent or of a kind. -/
def IsA (k : NodeKind) (n : Node) : Prop := n = .absent ∨ n.kind = k

theorem Spine.kid_isA {k : NodeKind} (h : Spine a n) (i : Nat) (hk : kindsAt n.head i = [k]) :
    IsA k (n.kid i) := by
  cases hi : n.kid i with
  | absent => exact .inl rfl
  | mk head ks ds t x y =>
    have hmem := h.kind_at i (by rw [hi]; rfl) (by rw [hk]; simp)
    rw [hk, List.mem_singleton, hi] at hmem
    exact .inr hmem

/-- The children from a place on are of the kinds that the grammar wants there. -/
theorem Spine.kind_mem {x : Node} (h : Spine a n) {j : Nat} {kinds : List NodeKind}
    (hx : x ∈ n.kids.drop j) (hk : ∀ i, kindsAt n.head (i + j) = kinds) (hne : kinds ≠ []) :
    x = .absent ∨ x.kind ∈ kinds := by
  obtain ⟨i, rfl⟩ := exists_kid_drop hx
  cases hi : n.kid (i + j) with
  | absent => exact .inl rfl
  | mk head ks ds t x y =>
    have hmem := h.kind_at (i + j) (by rw [hi]; rfl) (by rw [hk]; exact hne)
    rw [hk, hi] at hmem
    exact .inr hmem

theorem Spine.mem_isA {k : NodeKind} {x : Node} (h : Spine a n) {j : Nat}
    (hx : x ∈ n.kids.drop j) (hk : ∀ i, kindsAt n.head (i + j) = [k]) : IsA k x := by
  rcases h.kind_mem hx hk (by simp) with hx | hx
  · exact .inl hx
  · exact .inr (List.mem_singleton.1 hx)

theorem Source.part {k : NodeKind} (h : Source a n) (hn : IsA k n) (i : Nat)
    (hi : enters k n.flags.computed i = true) : Source a (n.kid i) := by
  rcases hn with rfl | hn
  · exact .absent
  · exact h.kid hn i hi

theorem Source.parts {k : NodeKind} (h : Source a n) (hn : IsA k n)
    (hi : ∀ i, enters k n.flags.computed i = true) : ∀ x ∈ n.kids, Source a x := by
  rcases hn with rfl | hn
  · simp [Node.kids]
  · exact h.kids hn hi

theorem Source.deco (h : Source a n) (hn : n.kind.isType = false) {d : Node} (hd : d ∈ n.decos) :
    Source a d ∧ d.kind = .decorator := by
  have hkind : d.kind = .decorator := by
    refine (h.self ?_).deco hd
    cases n with
    | absent => cases hd
    | mk head ks ds t x y => rfl
  refine ⟨⟨⟨fun m hm => h.shape m (walk_of_deco hd hm), h.covers.deco hn hd⟩, fun _ => ?_⟩, hkind⟩
  cases d with
  | absent => rfl
  | mk head ks ds t x y =>
    unfold Node.opensChain
    rw [show head.kind = .decorator from hkind]

end

end ScriptLower.Lower
