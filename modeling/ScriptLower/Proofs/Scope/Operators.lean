import ScriptLower.Proofs.Scope.Books

/-!
# Marks in operators and elements

The first use of a captured operand stores it in a temporary, and later uses read the temporary. So
the first use goes into the tree once, like the operand, while later uses declare nothing and may go
in as often as needed. Elements use helpers, which all have their declaration at the end of the
file.
-/

namespace ScriptLower.Lower

open ScriptLower Node

section

variable {x : Nat} {c : Context} {g : Rules} {n : Node} {J : Held}

/-! ## Names -/

/-- A step that only looks. -/
theorem issues_look {α : Type} {m : LowerM α} (h : ∀ s, (m c s).2 = s) :
    Issues x c 0 m fun _ => 0 := by
  intro outside K s hb
  rw [h s]
  exact ⟨hb, Nat.le_refl _⟩

theorem held_replacement (hx : x ≠ 0) (d : Define) (span : Span) :
    held x (Define.replacement d span) ≤ 0 := by
  intro _
  unfold Define.replacement
  split
  · simp [held, loose_newText hx]
  · simp [held, loose_newText hx]

theorem issues_nameRef (hx : x ≠ 0) (hm : n.mark = 0) : Issues x c 0 (nameRef n) (held x) := by
  refine .skip (issues_look fun _ => rfl) fun o => ?_
  split
  · exact .pure fun _ => by simp [held, loose_qualified hx]
  · refine .skip (issues_look fun _ => rfl) fun d => ?_
    split
    · rw [if_pos hm]
      exact .pure (held_replacement hx _ _)
    · exact .pure (held_leaf hx hm)

/-! ## Captured operands -/

/-- Both uses of a captured operand. -/
def heldTwice (x : Nat) (k : Captured) : Held := counted x k.first + reusable x k.again

theorem issues_capture (hx : x ≠ 0) : Issues x c (counted x n) (capture n) (heldTwice x) := by
  refine .branch (fun _ => .pure fun _ => ?_) fun _ => ?_
  · have hagain : (ofHead { kind := n.kind, text := n.text, span := n.span } []).loose x = 0 :=
      loose_ofHead_nil (Ne.symm hx)
    simp [heldTwice, hagain, declared_ofHead_nil]
  · refine .step issues_temp fun m => .using (issues_ref m) (Held.le_refl _) fun stored => .pure ?_
    intro h
    have hzero : stored.declared x = 0 := h.2
    simp [heldTwice, hzero]
    omega

theorem nullTest_count {span : Span} {join compare : TokenKind} {k : Captured} :
    (nullTest span join compare k).loose x = k.first.loose x + k.again.loose x ∧
      (nullTest span join compare k).declared x = k.first.declared x + k.again.declared x := by
  simp [nullTest]

theorem issues_lowerNullish (hx : x ≠ 0) {span : Span} {left : Node} {right : LowerM Node}
    (hr : Issues x c J right (held x)) :
    Issues x c (J + counted x left) (lowerNullish span left right) (held x) := by
  refine .using (issues_capture hx) (Held.le_refl _) fun k => ?_
  rw [Held.add_comm]
  refine .using hr (Held.le_refl _) fun r => .pure fun h => ?_
  obtain ⟨⟨-, hagain⟩, -⟩ := h
  have hzero : k.again.declared x = 0 := hagain
  simp [heldTwice, nullTest_count, hzero]
  omega

/-! ## Assignment targets -/

theorem heldTwice_memberAccess (hx : x ≠ 0) (span : Span) (k : Captured) (prop : Bytes) :
    heldTwice x (memberAccess span k prop) ≤ heldTwice x k := by
  intro h
  obtain ⟨-, hagain⟩ := h
  have hzero : k.again.declared x = 0 := hagain
  simp [heldTwice, memberAccess, loose_member hx, hzero]

theorem heldTwice_indexAccess (span : Span) (obj key : Captured) :
    heldTwice x (indexAccess span obj key) ≤ heldTwice x obj + heldTwice x key := by
  intro h
  obtain ⟨⟨-, hobj⟩, -, hkey⟩ := h
  have hobj : obj.again.declared x = 0 := hobj
  have hkey : key.again.declared x = 0 := hkey
  simp [heldTwice, indexAccess, hobj, hkey]
  omega

/-- Both uses of a target that could be split. -/
def heldSplit (x : Nat) : Option Captured → Held
  | some k => heldTwice x k
  | none => 0

mutual

theorem issues_access? (hx : x ≠ 0) (hg : Keeps x g) :
    ∀ n, Tidy n → Issues x c 0 (access? g n) (heldSplit x)
  | .absent, _ => .pure (Held.le_refl 0)
  | .mk h ks ds t a y, hn => by
    unfold access?
    have hfirst : Issues x c 0 (accessFirst? g ks) (heldSplit x) :=
      issues_accessFirst? hx hg ks fun k hk => hn.mem hk
    split
    case h_1 | h_2 | h_3 | h_4 | h_5 => exact hfirst
    case h_6 =>
      refine .skip (issues_look fun _ => rfl) fun o => ?_
      split
      · refine .using (issues_capture hx) (L := 0) ?_ fun k => .pure ?_
        · intro _
          simp [loose_ident hx]
        · rw [Held.zero_add]
          exact heldTwice_memberAccess hx _ k _
      · refine .pure fun _ => ?_
        have hm : (Node.mk h ks ds t a y).mark = 0 := hn.mark
        simp [heldSplit, heldTwice, loose_leaf hx hm]
    case h_7 =>
      extract_lets n prop
      refine .branch (fun _ => .pure (Held.le_refl 0)) fun _ => ?_
      refine .bind (hg.counted c (hn.kid 0)) fun obj => .bind (issues_capture hx) fun k => .pure ?_
      exact heldTwice_memberAccess hx _ k _
    case h_8 =>
      refine .bind (hg.counted c (hn.kid 0)) fun obj => .bind (issues_capture hx) fun k => ?_
      refine .step (hg.counted c (hn.kid 1)) fun key => ?_
      refine .using (issues_capture hx) (Held.le_refl _) fun l => .pure ?_
      exact heldTwice_indexAccess _ k l
    case h_9 => exact .pure (Held.le_refl 0)

theorem issues_accessFirst? (hx : x ≠ 0) (hg : Keeps x g) :
    ∀ ks : List Node, (∀ k ∈ ks, Tidy k) → Issues x c 0 (accessFirst? g ks) (heldSplit x)
  | [], _ => .pure (Held.le_refl 0)
  | n :: _, hn => issues_access? hx hg n (hn n List.mem_cons_self)

end

theorem issues_keepAssignment (hx : x ≠ 0) (hg : Keeps x g) (hn : Tidy n) :
    Issues x c 0 (keepAssignment g n) (held x) := by
  refine .skip (issues_errorAt ?_) fun _ => ?_
  · rw [List.append_assoc, warns_append (by decide)]
    decide
  refine .bind (hg.pattern c true _ (hn.kid 0)) fun target => ?_
  refine .step (hg.expr c _ (hn.kid 1)) fun value => .pure ?_
  refine Held.le_trans (held_like hx n _) ?_
  simp

theorem issues_lowerPowerAssign (hx : x ≠ 0) (hg : Keeps x g) (hn : Tidy n) :
    Issues x c 0 (lowerPowerAssign g n) (held x) := by
  refine .bind (issues_access? hx hg _ (hn.kid 0)) fun acc => ?_
  split
  · exact issues_keepAssignment hx hg hn
  · rename_i k
    refine .step (hg.expr c _ (hn.kid 1)) fun value => .pure fun h => ?_
    obtain ⟨⟨-, hagain⟩, -⟩ := h
    have hzero : k.again.declared x = 0 := hagain
    simp [heldSplit, heldTwice, mathPow, dotted_plain hx, hzero]

theorem issues_lowerLogicalAssign (hx : x ≠ 0) (hg : Keeps x g) (hn : Tidy n) :
    Issues x c 0 (lowerLogicalAssign g n) (held x) := by
  refine .bind (issues_access? hx hg _ (hn.kid 0)) fun acc => ?_
  split
  · exact issues_keepAssignment hx hg hn
  · rename_i k
    extract_lets set
    have hset : Issues x c (reusable x k.again) set (held x) := by
      refine .step (hg.expr c _ (hn.kid 1)) fun value => .pure fun h => ?_
      have hzero : k.again.declared x = 0 := h.1
      simp [hzero]
    have hjoin (op : TokenKind) : Issues x c (heldTwice x k)
        (do return bin n.span op k.first (← set)) (held x) := by
      refine .using hset (Held.le_refl _) fun value => .pure ?_
      simp [Held.le_def]
    split
    · exact hjoin _
    · exact hjoin _
    · refine .skip (issues_targetBefore _) fun old => .branch (fun _ => ?_) fun _ => hjoin _
      refine (issues_lowerNullish hx hset).given ?_
      rw [Held.add_comm]
      exact Held.le_refl _

/-! ## Chains -/

mutual

/-- The links of a chain are accesses and calls of the source. -/
theorem tidy_chainOf : ∀ n, Tidy n → Tidy (chainOf n).1 ∧ ∀ link ∈ (chainOf n).2, Tidy link ∧
    (link.kind = .member ∨ link.kind = .index ∨ link.kind = .call)
  | .absent, _ => ⟨.absent, by simp [chainOf]⟩
  | .mk h ks ds t a y, hn => by
    obtain ⟨hbase, hlinks⟩ := tidy_chainOfFirst ks fun k hk => hn.mem hk
    unfold chainOf
    split
    case h_1 hk | h_2 hk | h_3 hk =>
      exact ⟨hbase, List.forall_mem_append.2 ⟨hlinks, List.forall_mem_singleton.2
        ⟨hn, by simp [Node.kind, Node.head, hk]⟩⟩⟩
    case h_4 => exact ⟨hbase, hlinks⟩
    case h_5 => exact ⟨hn, by simp⟩

theorem tidy_chainOfFirst : ∀ ks : List Node, (∀ k ∈ ks, Tidy k) → Tidy (chainOfFirst ks).1 ∧
    ∀ link ∈ (chainOfFirst ks).2, Tidy link ∧
      (link.kind = .member ∨ link.kind = .index ∨ link.kind = .call)
  | [], _ => ⟨.absent, by simp [chainOfFirst]⟩
  | n :: _, hn => tidy_chainOf n (hn n List.mem_cons_self)

end

/-- What a chain in the making holds apart from its value. -/
def heldTests (x : Nat) (k : Chain) : Held :=
  ⟨∀ r ∈ k.receiver, r.declared x = 0, looseAll x k.tests + (k.receiver.getD .absent).loose x,
    declaredAll x k.tests⟩

/-- A chain whose value may be a temporary. -/
def heldGuarded (x : Nat) (k : Chain) : Held := heldTests x k + counted x k.value

/-- A chain between two links. -/
def heldLinked (x : Nat) (k : Chain) : Held := heldTests x k + held x k.value

theorem heldGuarded_le_heldLinked {k : Chain} : heldGuarded x k ≤ heldLinked x k :=
  Held.add_le_add_left counted_le_held _

theorem issues_guard (hx : x ≠ 0) {k : Chain} {span : Span} :
    Issues x c (heldGuarded x k) (k.guard span) (heldGuarded x) := by
  refine .using (issues_capture hx) (Held.le_refl _) fun v => .pure fun h => ?_
  obtain ⟨hreceiver, -, hagain⟩ := h
  have hzero : v.again.declared x = 0 := hagain
  refine ⟨⟨hreceiver, trivial⟩, fun hu => ?_, ?_⟩
  · simp [heldGuarded, heldTests, heldTwice, nullTest_count] at hu ⊢
    omega
  · simp [heldGuarded, heldTests, heldTwice, nullTest_count, hzero]

/-- The object that a link reads from, which is captured for a call. -/
def heldObject (x : Nat) (k : Chain) : Option Captured → Held
  | some o => heldTwice x o
  | none => counted x k.value

theorem issues_chainRead (hx : x ≠ 0) (hg : Keeps x g) {k : Chain} {link : Node}
    {callFollows : Bool}
    (hlink : Tidy link) (hkind : link.kind = .member ∨ link.kind = .index) :
    Issues x c (heldGuarded x k) (k.read g link callFollows) (heldLinked x) := by
  refine .choose (Q := fun o => heldTests x k + heldObject x k o) (fun _ => ?_) (fun _ => ?_)
    fun o => ?_
  · exact (Issues.map (issues_capture hx) fun o => Held.le_refl _).keep _
  · exact .pure (Held.le_refl _)
  refine .either (Q := counted x) (fun _ => .pure fun _ => ?_) (fun _ => hg.counted c (hlink.kid 1))
    fun prop => ?_
  · simp [loose_leaf hx (hlink.kid 1).mark]
  have hopen : link.kind.isOpen = true := by
    rcases hkind with hl | hl <;> simp [hl]
  split
  · rename_i o
    refine .pure fun h => ?_
    obtain ⟨⟨-, -, hagain⟩, -⟩ := h
    have hzero : o.again.declared x = 0 := hagain
    refine ⟨⟨by simpa [heldTests] using hzero, mark_new⟩, fun hu => ?_, ?_⟩
    · simp [heldLinked, heldTests, heldObject, heldTwice, loose_new hopen] at hu ⊢
      omega
    · simp [heldLinked, heldTests, heldObject, heldTwice, declared_new hopen]
  · refine .pure fun h => ⟨⟨h.1.1, mark_new⟩, fun hu => ?_, ?_⟩
    · simp [heldLinked, heldTests, heldObject, loose_new hopen] at hu ⊢
      omega
    · simp [heldLinked, heldTests, heldObject, declared_new hopen]

theorem issues_chainCall (hx : x ≠ 0) (hg : Keeps x g) {k : Chain} {link : Node}
    (hlink : Tidy link) :
    Issues x c (heldGuarded x k) (k.call g link) (heldLinked x) := by
  refine .step (hg.exprs c fun a ha => hlink.drop ha) fun args => ?_
  split
  · rename_i this _ hthis
    refine .pure fun h => ?_
    have hzero : this.declared x = 0 := h.1.1 this hthis
    refine ⟨⟨by simp [heldTests], mark_call⟩, fun hu => ?_, ?_⟩
    · simp [heldLinked, heldTests, heldGuarded, heldAll, loose_member hx, hthis] at hu ⊢
      omega
    · simp [heldLinked, heldTests, heldGuarded, heldAll, hzero]
  · refine .pure fun h => ⟨⟨h.1.1, mark_call⟩, fun hu => ?_, ?_⟩
    · simp [heldLinked, heldTests, heldGuarded, heldAll] at hu ⊢
      omega
    · simp [heldLinked, heldTests, heldGuarded, heldAll]

theorem issues_follow (hx : x ≠ 0) (hg : Keeps x g) {links : List Node} (span : Span)
    (hlinks : ∀ link ∈ links, Tidy link ∧
      (link.kind = .member ∨ link.kind = .index ∨ link.kind = .call)) {k : Chain} :
    Issues x c (heldLinked x k) (Chain.follow g span k links) (heldLinked x) := by
  induction links generalizing k with
  | nil => exact .pure (Held.le_refl _)
  | cons link rest ih =>
    obtain ⟨hlink, hkind⟩ := hlinks link List.mem_cons_self
    refine .choose (Q := heldGuarded x) (fun _ => ?_) (fun _ => ?_) fun k' => ?_
    · exact (issues_guard hx).given heldGuarded_le_heldLinked
    · exact .pure heldGuarded_le_heldLinked
    refine .choose (Q := heldLinked x) (fun _ => issues_chainCall hx hg hlink) (fun hcall => ?_) ?_
    · refine issues_chainRead hx hg hlink ?_
      rcases hkind with hl | hl | hl
      · exact .inl hl
      · exact .inr hl
      · exact absurd (beq_iff_eq.2 hl) hcall
    · exact fun k'' => ih fun l hl => hlinks l (List.mem_cons_of_mem _ hl)

/-- The tests of a chain stand around its value. -/
theorem held_tests {span : Span} {short value : Node} (hs : short.loose x = 0)
    (hd : short.declared x = 0) (tests : List Node) :
    held x (tests.foldr (fun test rest => .new .conditional span [test, short, rest]) value) ≤
      ⟨value.mark = 0, value.loose x + looseAll x tests, value.declared x +
          declaredAll x tests⟩ := by
  induction tests with
  | nil => exact Held.le_refl _
  | cons test rest ih =>
    intro hvalue
    obtain ⟨-, huses, hdecls⟩ := ih hvalue
    refine ⟨mark_new, fun hu => ?_, ?_⟩
    · simp [hs] at hu huses ⊢
      omega
    · simp [hd] at hdecls ⊢
      omega

theorem issues_lowerChain (hx : x ≠ 0) (hg : Keeps x g) (hn : Tidy n) (deletes : Bool) :
    Issues x c 0 (lowerChain g n deletes) (held x) := by
  obtain ⟨hbase, hlinks⟩ := tidy_chainOf _ (hn.kid 0)
  refine .bind (hg.expr c _ hbase) fun base => ?_
  refine .bind ((issues_follow hx hg n.span hlinks).given ?_) fun k => .pure ?_
  · intro h
    simpa [heldLinked, heldTests] using h
  · refine Held.le_trans (held_tests ?_ ?_ k.tests) fun h => ?_
    · split <;> simp
    · split <;> simp
    · obtain ⟨-, hmark⟩ := h
      split
      · refine ⟨mark_newOp, fun hu => ?_, ?_⟩
        · simp [heldLinked, heldTests] at hu ⊢
          omega
        · simp [heldLinked, heldTests]
          omega
      · refine ⟨hmark, fun hu => ?_, ?_⟩
        · simp [heldLinked, heldTests] at hu ⊢
          omega
        · simp [heldLinked, heldTests]
          omega

/-! ## Spreads in objects -/

/-- Taking the members apart at the spreads adds nothing. -/
theorem spreadGroups_le (span : Span) (props : List Node) :
    looseAll x (spreadGroups span props).1 + looseAll x (spreadGroups span props).2 ≤
    looseAll x props ∧
      declaredAll x (spreadGroups span props).1 + declaredAll x (spreadGroups span props).2 ≤
        declaredAll x props := by
  induction props with
  | nil => exact ⟨Nat.le_refl _, Nat.le_refl _⟩
  | cons p r ih =>
    obtain ⟨hloose, hdecl⟩ := ih
    rw [spreadGroups]
    dsimp only
    split
    · rename_i hs
      have hopen : p.kind.isOpen = true := by simp [beq_iff_eq.1 hs]
      have hl := loose_kid_le hopen (x := x) 0
      have hd := declared_kid_le (x := x) (n := p) 0
      split <;> simp <;> omega
    · simp
      omega

theorem held_lowerObjectSpread (hx : x ≠ 0) (span : Span) (props : List Node) :
    held x (lowerObjectSpread span props) ≤ countedAll x props := by
  intro _
  obtain ⟨hloose, hdecl⟩ := spreadGroups_le (x := x) span props
  unfold lowerObjectSpread
  refine ⟨mark_call, fun hu => ?_, ?_⟩
  · dsimp only at hu
    split at hu <;> simp [dotted_plain hx] at hu ⊢ <;> omega
  · dsimp only
    split <;> simp [dotted_plain hx] <;> omega

/-! ## What is left as it is -/

theorem issues_noteUnlowered : Issues x c 0 (noteUnlowered n) fun _ => 0 := by
  unfold noteUnlowered
  split
  · exact .pure (Held.le_refl 0)
  · rename_i feature since hfeature
    have hwarns (rest : Bytes) : warns .unsupported (Bytes.ofString feature ++ rest) = true := by
      have hnames : feature ∈ ["async generators", "async functions", "class fields",
          "class static blocks"] := by
        unfold newerFeature? at hfeature
        grind
      have hlong : ∀ f ∈ ["async generators", "async functions", "class fields",
          "class static blocks"], 2 ≤ (Bytes.ofString f).length ∧
            warns .unsupported (Bytes.ofString f) = true := by decide
      rw [warns_append (hlong feature hnames).1]
      exact (hlong feature hnames).2
    refine .skip issues_read fun x => .skip issues_get fun s => .branch (fun _ => ?_) fun _ => ?_
    · refine .skip (issues_modify fun _ => ⟨rfl, rfl, rfl, rfl⟩) fun _ => issues_warnAt ?_
      rw [List.append_assoc, List.append_assoc]
      exact hwarns _
    · exact .pure (Held.le_refl 0)

end

end ScriptLower.Lower
