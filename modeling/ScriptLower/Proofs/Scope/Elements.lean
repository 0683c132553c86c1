import ScriptLower.Proofs.Scope.Operators

/-!
# Marks in elements

Elements call helpers, which are imported at the end of the program and so may be used from
anywhere. Each helper has one mark, however often it is used.
-/

namespace ScriptLower.Lower

open ScriptLower Node

section

variable {x outside : Nat} {c : Context} {g : Rules} {n : Node} {s : State} {J : Held}

/-! ## Helpers -/

/-- A helper that was used before is still to be declared. -/
theorem owed_of_helper {h : Helper} (hm : (h, x) ∈ s.helpers) : 0 < s.owed x outside := by
  have hcount : 0 < s.asHelper x := List.count_pos_iff.2 (List.mem_map_of_mem hm)
  rw [State.owed]
  omega

/-- The state in which a helper has a new mark. -/
def State.withHelper (s : State) (h : Helper) : State :=
  { s with
    supply := (s.supply.fresh ("_" ++ h.name)).2
    helpers := s.helpers ++ [(h, (s.supply.fresh ("_" ++ h.name)).1)] }

theorem useHelper_run (h : Helper) (c : Context) (s : State) :
    useHelper h c s =
      match s.helpers.find? (·.1 == h) with
      | some (_, m) => ref m c s
      | none => ref (s.supply.fresh ("_" ++ h.name)).1 c (s.withHelper h) := by
  have hrun : useHelper h c s =
      (match s.helpers.find? (·.1 == h) with
        | some (_, m) => ref m
        | none => fresh ("_" ++ h.name) >>= fun m =>
          modify (fun s => { s with helpers := s.helpers ++ [(h, m)] }) >>= fun _ => ref m :
        LowerM Node) c s := rfl
  rw [hrun]
  cases s.helpers.find? (·.1 == h) with
  | none => rfl
  | some p => rfl

/-- A helper was used before, or it is new. -/
theorem useHelper_cases (h : Helper) (c : Context) (s : State) :
    (∃ m, (h, m) ∈ s.helpers ∧ useHelper h c s = ref m c s) ∨
      h ∉ s.helpers.map (·.1) ∧
        useHelper h c s = ref (s.supply.fresh ("_" ++ h.name)).1 c (s.withHelper h) := by
  rw [useHelper_run]
  split
  · rename_i h' m hfind
    have hkey := List.find?_some hfind
    obtain rfl : h' = h := beq_iff_eq.1 hkey
    exact .inl ⟨m, List.mem_of_find?_eq_some hfind, rfl⟩
  · rename_i hnone
    refine .inr ⟨fun hmem => ?_, rfl⟩
    obtain ⟨⟨h', m⟩, hmem', rfl⟩ := List.mem_map.1 hmem
    exact List.find?_eq_none.1 hnone (h', m) hmem' (beq_self_eq_true h')

/-- A new helper has a mark of its own. -/
theorem Books.withHelper {h : Helper} (hb : Books x outside s J) (hh : h ∉ s.helpers.map (·.1)) :
    Books x outside (s.withHelper h) (J + useOf x (s.supply.fresh ("_" ++ h.name)).1) := by
  obtain ⟨honce, hfresh⟩ := hb.room ("_" ++ h.name)
  have howed : (s.withHelper h).owed x outside =
      s.owed x outside + if (s.supply.fresh ("_" ++ h.name)).1 = x then 1 else 0 := by
    simp only [State.owed, State.asHelper, State.withHelper, List.map_append, List.map_cons,
      List.map_nil, List.count_append, List.count_singleton, beq_iff_eq]
    omega
  refine ⟨⟨hb.facts, trivial⟩, fun hu => ?_, ?_, fun hx => ?_, ?_, hb.reports⟩
  · have hknown := hb.known
    rw [howed]
    simp only [Held.uses_add, useOf] at hu
    omega
  · rw [howed]
    simp only [Held.decls_add, useOf]
    omega
  · have := hfresh hx
    rw [howed]
    simp only [Held.decls_add, useOf]
    omega
  · simp only [State.withHelper, List.map_append, List.map_cons, List.map_nil]
    refine List.nodup_append.2 ⟨hb.helpers, by simp, fun a ha b hbm hab => hh ?_⟩
    rw [← List.mem_singleton.1 hbm, ← hab]
    exact ha

theorem issues_useHelper (h : Helper) : Issues x c 0 (useHelper h) (counted x) := by
  intro outside K s hb
  have href (m : Nat) (t : State) (ht : Books x outside t (K + useOf x m)) :
      Books x outside (ref m c t).2 (K + counted x (ref m c t).1) :=
    (issues_ref m outside K t ht).1.mono (Held.add_le_add_left counted_le_reusable K)
  rcases useHelper_cases h c s with ⟨m, hm, hrun⟩ | ⟨hnew, hrun⟩
  · rw [hrun]
    refine ⟨href m s
      ⟨⟨hb.facts.1, trivial⟩, fun hu => ?_, hb.once, hb.fresh, hb.helpers, hb.reports⟩,
      Nat.le_refl _⟩
    by_cases hmx : m = x
    · exact owed_of_helper (hmx ▸ hm)
    · refine hb.known ?_
      simpa [useOf, hmx] using hu
  · rw [hrun]
    rw [Held.add_zero] at hb
    refine ⟨href _ _ (hb.withHelper hnew), ?_⟩
    show s.asHelper x ≤ (s.withHelper h).asHelper x
    simp only [State.asHelper, State.withHelper, List.map_append, List.count_append]
    exact Nat.le_add_right _ _

/-! ## Tags -/

theorem issues_lowerTagName (hx : x ≠ 0) : Issues x c 0 (lowerTagName n) (held x) := by
  refine .branch (fun _ => .pure fun _ => ?_) fun _ => issues_nameRef hx mark_ident
  simp [held]

mutual

theorem issues_lowerComponent (hx : x ≠ 0) : ∀ n, Issues x c 0 (lowerComponent g n) (held x)
  | .absent => .pure fun _ => by simp [held]
  | .mk h ks ds t a y => by
    unfold lowerComponent
    refine .branch (fun _ => ?_) fun _ => issues_lowerTagName hx
    refine .bind (issues_lowerComponentFirst hx ks) fun obj => .pure fun _ => ?_
    simp [held, loose_ident hx]

theorem issues_lowerComponentFirst (hx : x ≠ 0) :
    ∀ ks : List Node, Issues x c 0 (lowerComponentFirst g ks) (held x)
  | [] => .pure fun _ => by simp [held]
  | n :: _ => issues_lowerComponent hx n

end

theorem issues_lowerTag (hx : x ≠ 0) (hg : Keeps x g) (hn : Tidy n) :
    Issues x c 0 (lowerTag g n) (held x) := by
  unfold lowerTag
  split
  · exact issues_lowerComponent hx n
  · refine .branch (fun _ => .pure fun _ => ?_) fun _ => issues_lowerComponent hx n
    simp [held]
  · exact hg.expr c n hn

/-! ## Children -/

/-- The values of some children. -/
def heldKids (x : Nat) (kids : List Child) : Held := countedAll x (kids.map (·.value))

theorem sum_heldKids (kids : List (List Child)) :
    heldKids x kids.flatten ≤ Held.sum (heldKids x) kids := by
  induction kids with
  | nil => exact fun _ => by simp [heldKids]
  | cons k kids ih =>
    intro h
    obtain ⟨-, huses, hdecls⟩ := ih h.2
    simp only [heldKids, countedAll_uses, countedAll_decls] at huses hdecls
    refine ⟨trivial, fun hu => ?_, ?_⟩
    · simp [heldKids, Held.sum] at hu huses ⊢
      omega
    · simp [heldKids, Held.sum] at hdecls ⊢
      omega

theorem issues_lowerChild (hg : Keeps x g) (hn : Tidy n) :
    Issues x c 0 (lowerChild g n) (heldKids x) := by
  have hone (m : Node) (spread : Bool) (hm : Tidy m) :
      Issues x c 0 (do return [{ value := ← g.expr m, spread := spread }]) (heldKids x) :=
    .bind (hg.expr c m hm) fun value => .pure fun _ => by simp [heldKids]
  unfold lowerChild
  split
  · refine .pure fun _ => ?_
    split <;> simp [heldKids]
  · refine .branch (fun _ => .pure fun _ => ?_) fun _ => hone _ false (hn.kid 0)
    simp [heldKids]
  · exact hone _ true (hn.kid 0)
  · exact hone _ false hn

theorem argument_count (kids : List Child) :
    looseAll x (kids.map Child.argument) = looseAll x (kids.map (·.value)) ∧
      declaredAll x (kids.map Child.argument) = declaredAll x (kids.map (·.value)) := by
  induction kids with
  | nil => exact ⟨rfl, rfl⟩
  | cons k kids ih =>
    simp only [List.map_cons, looseAll_cons, declaredAll_cons, ih, Child.argument]
    split <;> simp

/-! ## Properties -/

theorem issues_lowerAttrValue (hg : Keeps x g) (hn : Tidy n) (span : Span) :
    Issues x c 0 (lowerAttrValue g n span) (held x) := by
  refine .branch (fun _ => .pure fun _ => by simp [held]) fun _ => ?_
  refine .branch (fun _ => .pure fun _ => by simp [held]) fun _ => ?_
  exact .branch (fun _ => hg.expr c _ (hn.kid 0)) fun _ => hg.expr c n hn

/-- What the properties of an element in the making hold. -/
def heldProps (x : Nat) (p : Props) : Held := countedAll x p.members + counted x p.key

theorem issues_addProp (hx : x ≠ 0) (hg : Keeps x g) (hn : Tidy n) {p : Props} {splitKey : Bool} :
    Issues x c (heldProps x p) (Props.add g splitKey p n) (heldProps x) := by
  refine .branch (fun _ => ?_) fun _ => ?_
  · refine .step (hg.expr c _ (hn.kid 0)) fun value => .pure fun _ => ?_
    simp [heldProps]
    omega
  · refine .step (issues_lowerAttrValue hg (hn.kid 1) n.span) fun value => ?_
    extract_lets isKey key
    have hkey : key.loose x = 0 ∧ key.declared x = 0 := by
      unfold key
      split <;> simp [loose_ident hx]
    refine .branch (fun _ => .pure fun _ => ?_) fun _ => .pure fun _ => ?_
    · simp [heldProps]
      omega
    · simp [heldProps, hkey]
      omega

theorem issues_lowerProps (hx : x ≠ 0) (hg : Keeps x g) {attrs : List Node} {splitKey : Bool}
    (hattrs : ∀ a ∈ attrs, Tidy a) : Issues x c 0 (lowerProps g attrs splitKey) (heldProps x) := by
  have hempty : heldProps x {} ≤ 0 := fun _ => by simp [heldProps]
  exact (Issues.foldlM fun a ha p => issues_addProp hx hg (hattrs a ha)).given hempty

theorem issues_propsObject (hx : x ≠ 0) {members : List Node} (span : Span) :
    Issues x c (countedAll x members) (propsObject span members) (held x) := by
  refine .skip (issues_targetBefore _) fun old => .branch (fun _ => .pure ?_) fun _ =>
    .pure fun _ => ?_
  · exact held_lowerObjectSpread hx span members
  · simp

theorem generatedProp_count (hx : x ≠ 0) (span : Span) (name : String) (value : Node) :
    (generatedProp span name value).loose x = value.loose x ∧
      (generatedProp span name value).declared x = value.declared x := by
  simp [generatedProp, loose_ident hx]

theorem issues_sourceObject (hx : x ≠ 0) (span : Span) :
    Issues x c 0 (sourceObject span) (held x) := by
  refine .skip issues_read fun _ => .pure fun _ => ?_
  simp [held, generatedProp_count hx]

theorem childrenProp_le (hx : x ≠ 0) (span : Span) (several : Bool) (kids : List Child) :
    countedAll x (childrenProp span several kids) ≤ heldKids x kids := by
  intro _
  unfold childrenProp
  split
  · simp [heldKids, generatedProp_count hx, argument_count]
  · split
    · simp
    · simp [heldKids, generatedProp_count hx]
      omega

/-! ## Calls -/

variable {tag : Node} {attrs : List Node} {kids : List Child}

theorem issues_automaticCall (hx : x ≠ 0) (hg : Keeps x g) (span : Span)
    (hattrs : ∀ a ∈ attrs, Tidy a) :
    Issues x c (heldKids x kids + counted x tag) (automaticCall g span tag attrs kids)
    (held x) := by
  refine .step (issues_lowerProps hx hg hattrs) fun props => ?_
  refine .choose (Q := fun tag' => heldProps x props + heldKids x kids + counted x tag')
    (fun _ => ?_)
    (fun _ => .pure fun _ => ?_) fun tag' => ?_
  · refine ((issues_useHelper _).keep _).given fun _ => ?_
    simp [heldProps, heldKids]
    omega
  · simp [heldProps, heldKids]
    omega
  refine .branch (fun _ => ?_) fun _ => ?_
  · refine .using (issues_propsObject hx span) (L := heldKids x kids + counted x tag') (fun _ => ?_)
      fun obj => .step (issues_useHelper _) fun create => .pure fun _ => ?_
    · simp [heldProps, heldKids]
      omega
    · simp [heldKids, argument_count]
      omega
  · extract_lets several key isStatic key'
    refine .using (issues_propsObject hx span) (L := counted x props.key + counted x tag')
      (fun h => ?_)
      fun obj => .skip issues_read fun context => ?_
    · obtain ⟨-, huses, hdecls⟩ := childrenProp_le hx span several kids trivial
      simp [heldProps, heldKids] at huses hdecls ⊢
      omega
    refine .branch (fun _ => ?_) fun _ => ?_
    · have hkey : counted x key ≤ counted x props.key := by
        intro _
        unfold key
        split <;> simp
      refine .step (issues_sourceObject hx span) fun source => ?_
      extract_lets self
      have hself : self.loose x = 0 ∧ self.declared x = 0 := by
        unfold self
        split <;> simp
      refine .step (issues_useHelper _) fun create => .pure fun _ => ?_
      obtain ⟨-, huses, hdecls⟩ := hkey trivial
      simp [isStatic, hself] at huses hdecls ⊢
      omega
    · have hkey : countedAll x key' ≤ counted x props.key := by
        intro _
        unfold key'
        split <;> simp
      refine .step (issues_useHelper _) fun create => .pure fun _ => ?_
      obtain ⟨-, huses, hdecls⟩ := hkey trivial
      simp at huses hdecls ⊢
      omega

theorem issues_classicCall (hx : x ≠ 0) (hg : Keeps x g) (span : Span)
    (hattrs : ∀ a ∈ attrs, Tidy a) :
    Issues x c (heldKids x kids + counted x tag) (classicCall g span tag attrs kids) (held x) := by
  refine .skip issues_read fun context => ?_
  extract_lets o tag' build
  have htag : counted x tag' ≤ counted x tag := by
    intro _
    unfold tag'
    split <;> simp [dotted_plain hx]
  have hbuild (props : Node) :
      Issues x c (heldKids x kids + counted x tag + counted x props) (build props) (held x) := by
    refine .pure fun _ => ?_
    obtain ⟨-, huses, hdecls⟩ := htag trivial
    simp [heldKids, argument_count, dotted_plain hx] at huses hdecls ⊢
    omega
  refine .branch (fun _ => .step (Q := counted x) (.pure fun _ => by simp) hbuild) fun _ => ?_
  refine .step (issues_lowerProps hx hg hattrs) fun p => ?_
  refine .using (issues_propsObject hx span) (L := heldKids x kids + counted x tag) (fun _ => ?_)
    fun props => (hbuild props).given (Held.add_le_add_left counted_le_held _)
  simp [heldProps, heldKids]
  omega

theorem issues_lowerElement (hx : x ≠ 0) (hg : Keeps x g) (hn : Tidy n) :
    Issues x c 0 (lowerElement g n) (held x) := by
  unfold lowerElement
  extract_lets isFragment attrs children
  refine .either (Q := held x) (fun _ => .pure fun _ => by simp [held])
    (fun _ => issues_lowerTag hx hg (hn.kid 0)) fun tag => ?_
  have hattrs : ∀ a ∈ attrs, Tidy a := by
    intro a ha
    unfold attrs at ha
    split at ha
    · cases ha
    · exact (hn.kid 1).mem ha
  have hchildren : Tidy children := by
    unfold children
    split <;> exact hn.kid _
  refine .step (.mapM_sum fun k hk => issues_lowerChild hg (hchildren.mem hk)) fun kids => ?_
  refine .skip issues_read fun _ => ?_
  have hpieces :
      heldKids x kids.flatten + counted x tag ≤ 0 + held x tag + Held.sum (heldKids x) kids := by
    rw [Held.zero_add, Held.add_comm]
    exact Held.add_le_add (counted_le_held) (sum_heldKids kids)
  exact .branch (fun _ => (issues_classicCall hx hg _ hattrs).given hpieces)
    fun _ => (issues_automaticCall hx hg _ hattrs).given hpieces

end

end ScriptLower.Lower
