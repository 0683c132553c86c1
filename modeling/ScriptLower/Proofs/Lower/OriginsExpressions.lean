import ScriptLower.Proofs.Lower.OriginsFunctions

/-!
# Origins of expressions and patterns

An element becomes a call of new code, in which the names of tags are replaced like other names. An
expression that lowering spells out is new code too, and every other one is copied.
-/

namespace ScriptLower.Lower

open ScriptLower

section

variable {p : Origin} {c : Context} {n : Node} {g : Rules} {given : Prop} {span : Span}

/-! ## Tags -/

theorem yields_useHelper_made (p : Origin) (h : Helper) :
    Yields c given (useHelper h) (Made p) := by
  refine .bind yields_get fun s => ?_
  split
  · exact yields_ref_made p _
  · refine .bind (yields_fresh _) fun m => .bind (yields_modify fun _ => rfl) fun _ => ?_
    exact yields_ref_made p m

mutual

theorem yields_lowerComponent_made (hc : c.defines = p.defines) :
    ∀ n, From p n → n.kind.isTagName = true → Yields c given (lowerComponent g n) (Made p)
  | .absent, _, _ => .pure fun _ => .absent
  | .mk h ks ds t x y, hn, hk => by
    refine .branch (fun hm => ?_) fun hm => ?_
    · have hm : (Node.mk h ks ds t x y).kind = .jsxMemberName := beq_iff_eq.1 hm
      refine .bind (yields_lowerComponentFirst_made hc ks ?_ ?_) fun obj => .pure fun h => ?_
      · exact kid_zero h ks ds t x y ▸ hn.kid 0
      · exact kid_zero h ks ds t x y ▸ hn.tagged hm
      · exact .new rfl (by simp [h.2])
    · have hname : h.kind = .jsxName := by
        simp only [NodeKind.isTagName, Bool.or_eq_true, beq_iff_eq] at hk
        rcases hk with hk | hk
        · exact hk
        · exact absurd (beq_iff_eq.2 hk) hm
      refine .branch (fun _ => .pure fun _ => made_this) fun _ => ?_
      refine yields_nameRef_made hc (hn.source hname (by simp)) (.inr hname) ?_
      exact made_ofHead.2 ⟨p.made rfl, by simp⟩

theorem yields_lowerComponentFirst_made (hc : c.defines = p.defines) :
    ∀ ks : List Node, From p (ks.headD .absent) → (ks.headD .absent).kind.isTagName = true →
      Yields c given (lowerComponentFirst g ks) (Made p)
  | [], _, _ => .pure fun _ => .absent
  | n :: _, hn, hk => yields_lowerComponent_made hc n hn hk

end

theorem yields_lowerTag_made (hg : Emits p g) (hc : c.defines = p.defines) (hn : From p n) :
    Yields c given (lowerTag g n) (Made p) := by
  unfold lowerTag
  split
  · rename_i hk
    exact yields_lowerComponent_made hc n hn (by rw [hk]; rfl)
  · rename_i hk
    refine .branch (fun _ => .pure fun _ => made_string) fun _ => ?_
    exact yields_lowerComponent_made hc n hn (by rw [hk]; rfl)
  · exact hg.expr hc hn

/-! ## Children and properties -/

theorem yields_lowerChild_made (hg : Emits p g) (hc : c.defines = p.defines) (hn : From p n) :
    Yields c given (lowerChild g n) fun kids => ∀ k ∈ kids, Made p k.value := by
  unfold lowerChild
  split
  · refine .pure fun _ => ?_
    split
    · simp
    · simp
  · refine .branch (fun _ => .pure fun _ => by simp) fun _ => ?_
    exact .bind (hg.expr hc (hn.kid 0)) fun r => .pure fun h => by simpa using h.2
  · exact .bind (hg.expr hc (hn.kid 0)) fun r => .pure fun h => by simpa using h.2
  · exact .bind (hg.expr hc hn) fun r => .pure fun h => by simpa using h.2

theorem made_arguments {kids : List Child} (h : ∀ k ∈ kids, Made p k.value) :
    ∀ x ∈ kids.map Child.argument, Made p x := by
  intro x hx
  obtain ⟨k, hk, rfl⟩ := List.mem_map.1 hx
  unfold Child.argument
  split
  · exact .new rfl (by simpa using h k hk)
  · exact h k hk

theorem yields_lowerAttrValue_made (hg : Emits p g) (hc : c.defines = p.defines) (hn : From p n) :
    Yields c given (lowerAttrValue g n span) (Made p) := by
  refine .branch (fun _ => .pure fun _ => made_keyword) fun _ => ?_
  refine .branch (fun _ => .pure fun _ => made_string) fun _ => ?_
  exact .branch (fun _ => hg.expr hc (hn.kid 0)) fun _ => hg.expr hc hn

/-- The properties so far are lowered code. -/
structure Props.Made (p : Origin) (x : Props) : Prop where
  members : ∀ m ∈ x.members, Lower.Made p m
  key : Lower.Made p x.key

theorem Props.Made.snoc {x : Props} {m : Node} (hx : x.Made p) (hm : Lower.Made p m) :
    ∀ y ∈ x.members ++ [m], Lower.Made p y :=
  List.forall_mem_append.2 ⟨hx.members, List.forall_mem_singleton.2 hm⟩

theorem yields_addProp_made {x : Props} {splitKey : Bool} (hg : Emits p g)
    (hc : c.defines = p.defines)
    (hn : From p n) (hx : given → x.Made p) :
    Yields c given (Props.add g splitKey x n) (Props.Made p) := by
  refine .branch (fun _ => ?_) fun _ => ?_
  · refine .bind (hg.expr hc (hn.kid 0)) fun value => .pure fun h => ?_
    exact ⟨(hx h.1).snoc (.new rfl (by simpa using h.2)), (hx h.1).key⟩
  · refine .bind (yields_lowerAttrValue_made hg hc (hn.kid 1)) fun value => ?_
    refine .branch (fun _ => .pure fun h => ⟨(hx h.1).members, h.2⟩) fun _ => .pure fun h => ?_
    refine ⟨(hx h.1).snoc (.new rfl (List.forall_mem_cons.2 ⟨?_, by simpa using h.2⟩)),
      (hx h.1).key⟩
    split
    · exact made_ident
    · exact made_string

theorem yields_lowerProps_made {attrs : List Node} {splitKey : Bool} (hg : Emits p g)
    (hc : c.defines = p.defines) (hn : ∀ x ∈ attrs, From p x) :
    Yields c given (lowerProps g attrs splitKey) (Props.Made p) :=
  .foldlM (fun _ => ⟨by simp, .absent⟩) fun x hx _ => yields_addProp_made hg hc (hn x hx) And.right

theorem yields_propsObject_made {members : List Node} (hm : given → ∀ m ∈ members, Made p m) :
    Yields c given (propsObject span members) (Made p) := by
  refine .target_then (.branch (fun _ => .pure fun h => ?_) fun _ => .pure fun h => .new rfl (hm h))
  exact made_lowerObjectSpread (hm h)

theorem made_generatedProp {name : String} {value : Node} (hv : Made p value) :
    Made p (generatedProp span name value) := .new rfl (by simpa using hv)

theorem yields_sourceObject_made (p : Origin) : Yields c given (sourceObject span) (Made p) := by
  refine .bind yields_read fun x => .pure fun _ => .new rfl ?_
  simp [made_generatedProp]

theorem made_childrenProp {several : Bool} {kids : List Child} (h : ∀ k ∈ kids, Made p k.value) :
    ∀ x ∈ childrenProp span several kids, Made p x := by
  unfold childrenProp
  split
  · have hlist : Made p (.new .array span (kids.map Child.argument)) := .new rfl (made_arguments h)
    simpa using made_generatedProp hlist
  · split
    · simp
    · simpa using made_generatedProp (h _ List.mem_cons_self)

/-! ## Calls -/

section

variable {tag : Node} {attrs : List Node} {kids : List Child}

theorem yields_automaticCall_made (hg : Emits p g) (hc : c.defines = p.defines)
    (htag : given → Made p tag) (hattrs : ∀ x ∈ attrs, From p x)
    (hkids : given → ∀ k ∈ kids, Made p k.value) :
    Yields c given (automaticCall g span tag attrs kids) (Made p) := by
  refine .bind (yields_lowerProps_made hg hc hattrs) fun props => ?_
  refine .either (R := Made p) (fun _ => yields_useHelper_made p _)
    (fun _ => .pure fun h => htag h.1) ?_
  intro tag'
  refine .branch (fun _ => ?_) fun _ => ?_
  · refine .bind (yields_propsObject_made (p := p) fun h => h.1.2.members) fun obj => ?_
    refine .bind (yields_useHelper_made p _) fun create => .pure fun h => .call _ h.2 ?_
    refine List.forall_mem_cons.2 ⟨h.1.1.2, List.forall_mem_cons.2 ⟨h.1.2, ?_⟩⟩
    exact made_arguments (hkids h.1.1.1.1)
  · refine .bind (yields_propsObject_made (p := p) fun h => ?_) fun obj => ?_
    · exact List.forall_mem_append.2 ⟨h.1.2.members, made_childrenProp (hkids h.1.1)⟩
    refine .bind yields_read fun context => .branch (fun _ => ?_) fun _ => ?_
    · refine .bind (yields_sourceObject_made p) fun source => ?_
      refine .bind (yields_useHelper_made p _) fun create => .pure fun h => .call _ h.2 ?_
      have hkey : Made p (if props.key.isAbsent then void0 span else props.key) := by
        split
        · exact made_void0
        · exact h.1.1.1.1.1.2.key
      have hself :
          Made p (if context.inDerivedConstructor then void0 span else .new .thisExpr span []) := by
        split
        · exact made_void0
        · exact made_this
      simp only [List.mem_cons, List.not_mem_nil, or_false, forall_eq_or_imp, forall_eq]
      exact ⟨h.1.1.1.1.2, h.1.1.1.2, hkey, made_keyword, h.1.2, hself⟩
    · refine .bind (yields_useHelper_made p _) fun create => .pure fun h => .call _ h.2 ?_
      have hkey : ∀ x ∈ (if props.key.isAbsent then [] else [props.key]), Made p x := by
        split
        · simp
        · simpa using h.1.1.1.1.2.key
      exact List.forall_mem_append.2 ⟨by simp [h.1.1.1.2, h.1.1.2], hkey⟩

theorem yields_classicCall_made (hg : Emits p g) (hc : c.defines = p.defines)
    (htag : given → Made p tag) (hattrs : ∀ x ∈ attrs, From p x)
    (hkids : given → ∀ k ∈ kids, Made p k.value) :
    Yields c given (classicCall g span tag attrs kids) (Made p) := by
  refine .bind yields_read fun x => ?_
  extract_lets o tag' build
  have hbuild (props : Node) :
      Yields c ((given ∧ x = c) ∧ Made p props) (build props) (Made p) := by
    refine .pure fun h => .call _ made_dotted ?_
    refine List.forall_mem_cons.2 ⟨?_, List.forall_mem_cons.2 ⟨h.2, made_arguments (hkids h.1.1)⟩⟩
    show Made p (if tag.isAbsent then dotted x.elements.fragment span else tag)
    split
    · exact made_dotted
    · exact htag h.1.1
  refine .branch (fun _ => .bind (.pure fun _ => made_keyword) hbuild) fun _ => ?_
  refine .bind (yields_lowerProps_made hg hc hattrs) fun props => ?_
  refine .bind (yields_propsObject_made fun h => h.2.members) fun obj => ?_
  exact (hbuild obj).under fun h => ⟨h.1.1, h.2⟩

end

theorem yields_lowerElement_made (hg : Emits p g) (hc : c.defines = p.defines) (hn : From p n) :
    Yields c given (lowerElement g n) (Made p) := by
  unfold lowerElement
  extract_lets isFragment attrs children
  refine .either (R := Made p) (fun _ => .pure fun _ => .absent)
    (fun _ => yields_lowerTag_made hg hc (hn.kid 0)) fun tag => ?_
  have hattrs : ∀ x ∈ attrs, From p x := by
    intro x hx
    simp only [attrs] at hx
    split at hx
    · cases hx
    · exact (hn.kid 1).mem hx
  have hchildren : From p children := by
    simp only [children]
    split
    · exact hn.kid 0
    · exact hn.kid 2
  refine .bind (.mapM fun x hx => yields_lowerChild_made hg hc (hchildren.mem hx)) fun kids => ?_
  have hkids (h : (given ∧ Made p tag) ∧ ∀ ks ∈ kids, ∀ k ∈ ks, Made p k.value) :
      ∀ k ∈ kids.flatten, Made p k.value := by
    intro k hk
    obtain ⟨ks, hks, hk⟩ := List.mem_flatten.1 hk
    exact h.2 ks hks k hk
  refine .bind yields_read fun x => .branch (fun _ => ?_) fun _ => ?_
  · exact yields_classicCall_made hg hc (fun h => h.1.1.2) hattrs fun h => hkids h.1
  · exact yields_automaticCall_made hg hc (fun h => h.1.1.2) hattrs fun h => hkids h.1

/-! ## Members of objects -/

theorem yields_lowerLiteral_made (p : Origin) (hk : n.kind = .literal) :
    Yields c given (lowerLiteral n) (Made p) := by
  have hmade : isMade n.kind = true := by rw [hk]; rfl
  have hleaf : Made p (leaf n) := made_ofHead.2 ⟨p.made hmade, by simp⟩
  refine .target_then (.branch (fun _ => ?_) fun _ => .pure fun _ => hleaf)
  dsimp only
  refine .pure fun _ => ?_
  split
  · show Made p (.ofHead _ [])
    exact made_ofHead.2 ⟨p.made hmade, by simp⟩
  · exact hleaf

/-- A member of an object or a pattern. -/
theorem yields_lowerProp_made {value : Node → LowerM Node} (hg : Emits p g)
    (hc : c.defines = p.defines)
    (hn : From p n) (ho : n.kind = .exportDecl → p.exports) (hk : Closed p n)
    (hv : ∀ given, Yields c given (value (n.kid 1)) (Made p)) :
    Yields c given (lowerProp g value n) (Made p) := by
  refine .bind (yields_lowerKey_made hg hc hn hk) fun key => .bind (hv _) fun v => ?_
  have hout (h : (given ∧ Made p key) ∧ Made p v) : Made p (like n [key, v]) :=
    hn.like ho (by simp [h.1.2, h.2])
  exact .branch (fun _ => .pure fun h => (hout h).mapFlags) fun _ => .pure hout

theorem yields_lowerObjectMember_made (hg : Emits p g) (hc : c.defines = p.defines)
    (hn : From p n) :
    Yields c given (lowerObjectMember g n) (Made p) := by
  unfold lowerObjectMember
  split
  · rename_i hk
    exact yields_lowerProp_made hg hc hn (by simp [hk]) (hn.closed (by simp [hk]))
      fun _ => hg.expr hc (hn.kid 1)
  · rename_i hk
    exact yields_lowerMethod_made hg hc hn (by rw [hk]; rfl)
  · rename_i hk
    refine .bind (hg.expr hc (hn.kid 0)) fun r => .pure fun h => ?_
    exact hn.likeOf hk (by simp) (by simpa using h.2)
  · exact hg.expr hc hn

theorem yields_lowerObject_made (hg : Emits p g) (hc : c.defines = p.defines) (hn : From p n)
    (hk : n.kind = .object) : Yields c given (lowerObject g n) (Made p) := by
  refine .bind (.mapM fun x hx => yields_lowerObjectMember_made hg hc (hn.mem hx)) fun kids => ?_
  refine .target_then (.branch (fun _ => .pure fun h => ?_) fun _ => .pure fun h => ?_)
  · exact made_lowerObjectSpread h.2
  · exact hn.likeOf hk (by simp) h.2

/-! ## Operators -/

theorem yields_lowerBinary_made (hg : Emits p g) (hc : c.defines = p.defines) (hn : From p n)
    (hk : n.kind = .binary) : Yields c given (lowerBinary g n) (Made p) := by
  refine .bind (hg.expr hc (hn.kid 0)) fun left => .target_then (.branch (fun _ => ?_) fun _ => ?_)
  · exact yields_lowerNullish_made And.right (hg.expr hc (hn.kid 1))
  · refine .bind (hg.expr hc (hn.kid 1)) fun right => .target_then ?_
    refine .branch (fun _ => .pure fun h => made_mathPow h.1.2 h.2) fun _ => .pure fun h => ?_
    exact hn.likeOf hk (by simp) (by simp [h.1.2, h.2])

theorem yields_lowerAssignment_made (hg : Emits p g) (hc : c.defines = p.defines) (hn : From p n)
    (hk : n.kind = .assign) : Yields c given (lowerAssignment g n) (Made p) := by
  refine .target_then (.branch (fun _ => yields_lowerPowerAssign_made hg hc hn) fun _ => ?_)
  refine .target_then (.branch (fun _ => yields_lowerLogicalAssign_made hg hc hn) fun _ => ?_)
  refine .bind (hg.pattern true hc (hn.kid 0)) fun target => ?_
  refine .bind (hg.expr hc (hn.kid 1)) fun value => .pure fun h => ?_
  exact hn.likeOf hk (by simp) (by simp [h.1.2, h.2])

mutual

theorem From.unparen : ∀ n, From p n → From p n.unparen
  | .absent, h => h
  | .mk head ks ds t x y, h => by
    unfold Node.unparen
    split
    · exact From.unparenFirst ks (kid_zero head ks ds t x y ▸ h.kid 0)
    · exact h

theorem From.unparenFirst :
    ∀ ks : List Node, From p (ks.headD .absent) → From p (Node.unparenFirst ks)
  | [], h => h
  | n :: _, h => From.unparen n h

end

theorem yields_lowerUnary_made (hg : Emits p g) (hc : c.defines = p.defines) (hn : From p n)
    (hk : n.kind = .unary) : Yields c given (lowerUnary g n) (Made p) := by
  refine .target_then (.branch (fun _ => ?_) fun _ => ?_)
  · exact yields_lowerChain_made hg hc (From.unparen _ (hn.kid 0)) true
  · refine .bind (hg.expr hc (hn.kid 0)) fun r => .pure fun h => ?_
    exact hn.likeOf hk (by simp) (by simpa using h.2)

/-! ## Expressions -/

theorem yields_lowerExpr_made (hg : Emits p g) (hc : c.defines = p.defines) (hn : From p n) :
    Yields c given (lowerExpr g n) (Made p) := by
  have hplain {k : NodeKind} (hk : n.kind = k) (hne : k ≠ .exportDecl) :
      Yields c given (do return like n (← n.kids.mapM g.expr)) (Made p) :=
    .bind (hg.exprs hc fun x hx => hn.mem hx) fun rs => .pure fun h => hn.likeOf hk hne h.2
  have hsingle {k : NodeKind} (hk : n.kind = k) (hne : k ≠ .exportDecl) {m : LowerM Node}
      (hm : Yields c given m (Made p)) : Yields c given (do return like n [← m]) (Made p) :=
    .bind hm fun r => .pure fun h => hn.likeOf hk hne (by simpa using h.2)
  unfold lowerExpr
  refine .branch (fun _ => .pure fun _ => .absent) fun _ => ?_
  split
  case h_1 hk =>
    exact yields_nameRef_made hc (hn.source hk (by simp)) (.inl hk) (hn.leafOf hk (by simp))
  case h_2 hk => exact yields_lowerLiteral_made p hk
  case h_3 hk | h_4 hk | h_5 hk | h_6 hk | h_7 hk | h_8 hk | h_9 hk =>
    exact .pure fun _ => hn.leafOf hk (by simp)
  case h_10 | h_11 | h_12 | h_13 | h_14 => exact hg.expr hc (hn.kid 0)
  case h_15 hk | h_16 hk | h_17 hk | h_18 hk | h_19 hk | h_20 hk | h_21 hk | h_22 hk | h_23 hk
      | h_24 hk | h_25 hk | h_26 hk | h_27 hk => exact hplain hk (by simp)
  case h_28 hk =>
    refine .bind (hg.expr hc (hn.kid 0)) fun obj => .pure fun h => ?_
    have hname : Made p (leaf (n.kid 1)) := (hn.part (by rw [hk]; rfl) 1).leaf
    exact hn.likeOf hk (by simp) (by simp [h.2, hname])
  case h_29 hk => exact yields_lowerObject_made hg hc hn hk
  case h_30 hk => exact yields_lowerFunction_made hg hc hn (by rw [hk]; rfl)
  case h_31 hk => exact yields_lowerArrow_made hg hc hn (by rw [hk]; rfl)
  case h_32 hk => exact yields_lowerClass_made hg hc hn (by rw [hk]; rfl)
  case h_33 hk => exact yields_lowerUnary_made hg hc hn hk
  case h_34 hk => exact hsingle hk (by simp) (hg.pattern true hc (hn.kid 0))
  case h_35 hk => exact yields_lowerBinary_made hg hc hn hk
  case h_36 hk => exact yields_lowerAssignment_made hg hc hn hk
  case h_37 hk =>
    refine .target_then (.branch (fun _ => yields_lowerChain_made hg hc hn false) fun _ => ?_)
    exact hsingle hk (by simp) (hg.expr hc (hn.kid 0))
  case h_38 | h_39 => exact yields_lowerElement_made hg hc hn
  case h_40 | h_41 | h_42 | h_43 => exact hg.pattern true hc hn
  case h_44 => exact .error_then (.pure False.elim)

/-! ## Patterns -/

theorem yields_lowerPatternMember_made {assigns : Bool} (hg : Emits p g)
    (hc : c.defines = p.defines)
    (hn : Part p n) : Yields c given (lowerPatternMember g assigns n) (Made p) := by
  have hrest (given : Prop) :
      Yields c given (do return like n [← g.pattern assigns (n.kid 0)]) (Made p) :=
    .bind (hg.pattern assigns hc (hn.code.kid 0)) fun r => .pure fun h =>
      hn.like (by simpa using h.2)
  refine .branch (fun _ => .target_then ?_) fun _ => ?_
  · exact .branch (fun _ => .error_then (hrest False)) fun _ => hrest given
  · exact yields_lowerProp_made hg hc hn.code hn.plain hn.closed
      fun _ => hg.pattern assigns hc (hn.code.kid 1)

theorem yields_lowerPattern_made {assigns : Bool} (hg : Emits p g) (hc : c.defines = p.defines)
    (hn : From p n) : Yields c given (lowerPattern g assigns n) (Made p) := by
  have hsingle {k : NodeKind} (hk : n.kind = k) (hne : k ≠ .exportDecl) :
      Yields c given (do return like n [← g.pattern assigns (n.kid 0)]) (Made p) :=
    .bind (hg.pattern assigns hc (hn.kid 0)) fun r => .pure fun h =>
      hn.likeOf hk hne (by simpa using h.2)
  unfold lowerPattern
  refine .branch (fun _ => .pure fun _ => .absent) fun _ => ?_
  split
  case h_1 hk =>
    have hleaf : Made p (leaf n) := hn.leafOf hk (by simp)
    refine .bind (R := fun _ => True) (fun s => ⟨Nat.le_refl s.errors, fun _ _ => trivial⟩)
      fun o => ?_
    split
    · refine .pure fun _ => ?_
      split
      · exact made_qualified
      · exact hleaf
    · exact .pure fun _ => hleaf
  case h_2 hk => exact .pure fun _ => hn.leafOf hk (by simp)
  case h_3 hk =>
    refine .bind (.mapM fun x hx => hg.pattern assigns hc (hn.mem hx)) fun rs => .pure fun h => ?_
    exact hn.likeOf hk (by simp) h.2
  case h_4 hk =>
    refine .bind (.mapM fun x hx => yields_lowerPatternMember_made hg hc ?_) fun rs =>
      .pure fun h => ?_
    · exact hn.part_mem (by rw [hk]; rfl) hx
    · exact hn.likeOf hk (by simp) h.2
  case h_5 hk =>
    refine .bind (hg.pattern assigns hc (hn.kid 0)) fun target => ?_
    refine .bind (hg.expr hc (hn.kid 1)) fun init => .pure fun h => ?_
    exact hn.likeOf hk (by simp) (by simp [h.1.2, h.2])
  case h_6 hk | h_7 hk => exact hsingle hk (by simp)
  case h_8 | h_9 | h_10 | h_11 => exact hg.pattern assigns hc (hn.kid 0)
  case h_12 => exact hg.expr hc hn

end

end ScriptLower.Lower
