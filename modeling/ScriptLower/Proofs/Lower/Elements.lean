import ScriptLower.Proofs.Lower.Captures

/-!
# Lowering elements

The calls that take the place of elements read the names of tags, the names that the classic runtime
is called by, and generated names.
-/

namespace ScriptLower.Lower

open ScriptLower

section

variable {a : Aim} {c : Context} {n : Node} {g : Rules} {given : Prop}

theorem yields_useHelper (a : Aim) (h : Helper) : Yields c given (useHelper h) (Fine a) := by
  refine .bind yields_get fun s => ?_
  split
  · exact (yields_ref a _).mono fun _ _ hr => hr.1
  · refine .bind (yields_fresh _) fun m => .bind (yields_modify fun _ => rfl) fun _ => ?_
    exact (yields_ref a m).mono fun _ _ hr => hr.1

/-! ## Tags -/

theorem yields_lowerTagName (hn : given → Ctx a c ∧ a.names n.text) :
    Yields c given (lowerTagName n) (Fine a) := by
  refine .branch (fun _ => .pure fun _ => .new rfl _ (by simp)) fun _ => ?_
  exact yields_nameRef fun h => ⟨(hn h).1, fun _ => (hn h).2⟩

/-- The parts of a dotted tag, and the name at its root. -/
structure Tag (a : Aim) (n : Node) : Prop where
  shape : ∀ m ∈ n.walk, Shape a m
  root : n.kind ≠ .jsxMemberName → a.names n.text

theorem Tag.kid (h : Tag a n) (hn : n.kind = .jsxMemberName) : Tag a (n.kid 0) := by
  have hself : Shape a n := h.shape n (walk_self (isPresent_of_kind hn (by decide)))
  refine ⟨fun m hm => ?_, fun hk => ?_⟩
  · rcases kid_cases n 0 with h0 | ⟨-, h0⟩
    · rw [h0] at hm
      cases hm
    · exact h.shape m (walk_of_kid h0 hm)
  · cases h0 : n.kid 0 with
    | absent => exact a.nameless
    | mk head ks ds t x y =>
      have hhead : n.head.kind = .jsxMemberName := hn
      have hkinds : kindsAt n.head 0 = [.jsxName, .jsxMemberName] := kindsAt_of_kind hhead 0
      have hmem := hself.kindAt 0 (by rw [h0]; rfl) (by rw [hkinds]; exact List.cons_ne_nil _ _)
      simp only [hkinds, List.mem_cons, List.not_mem_nil, or_false] at hmem
      rcases hmem with hname | hname
      · rw [← h0]
        exact hself.tag hn hname
      · exact absurd hname hk

mutual

theorem yields_lowerComponent :
    ∀ n, Yields c (Ctx a c ∧ Tag a n) (lowerComponent g n) (Fine a)
  | .absent => .pure fun _ => .absent
  | .mk h ks ds t x y => by
    refine .branch (fun hk => ?_) fun hk => ?_
    · have hk : (Node.mk h ks ds t x y).kind = .jsxMemberName := beq_iff_eq.1 hk
      refine .bind ((yields_lowerComponentFirst ks).under fun h => ⟨h.1, ?_⟩) fun obj => ?_
      · rw [← kid_zero]
        exact h.2.kid hk
      · exact .pure fun h => .memberOf rfl (by simp) h.2 (.leaf _)
    · refine yields_lowerTagName fun h => ⟨h.1, h.2.root fun e => hk (beq_iff_eq.2 e)⟩

theorem yields_lowerComponentFirst :
    ∀ ks : List Node, Yields c (Ctx a c ∧ Tag a (ks.headD .absent)) (lowerComponentFirst g ks)
    (Fine a)
  | [] => .pure fun _ => .absent
  | n :: _ => yields_lowerComponent n

end

theorem covers_tagName (hn : n.kind = .jsxName) (h : Covers a (uses n))
    (hi : isIntrinsicTag n.text = false) : a.names n.text := by
  cases n with
  | absent => cases hn
  | mk head ks ds t x y =>
    change head.kind = .jsxName at hn
    simp only [uses, hn, show NodeKind.isType .jsxName = false from rfl,
      Bool.false_eq_true, if_false,
      covers_append, show isIntrinsicTag head.text = false from hi, covers_ofName] at h
    exact h.2

theorem yields_lowerTag (hg : Lowers a g) : Yields c (At a c n) (lowerTag g n) (Fine a) := by
  unfold lowerTag
  split
  · rename_i hk
    refine (yields_lowerComponent n).under fun h => ⟨h.ctx, h.source.shape, fun e => absurd hk e⟩
  · rename_i hk
    refine .branch (fun _ => .pure fun _ => fine_string _ _) fun hi => ?_
    refine (yields_lowerComponent n).under fun h => ⟨h.ctx, h.source.shape, fun _ => ?_⟩
    exact covers_tagName hk h.source.covers (by simpa using hi)
  · exact hg.exprOf id

/-! ## Children and properties -/

theorem yields_lowerChild (hg : Lowers a g) :
    Yields c (At a c n) (lowerChild g n) fun kids => ∀ k ∈ kids, Fine a k.value := by
  unfold lowerChild
  split
  · refine .pure fun _ => ?_
    split
    · simp
    · simpa using fine_string _ _
  · rename_i hk
    refine .branch (fun _ => .pure fun _ => by simp) fun _ => ?_
    exact hg.expr_then (fun h => h.kid hk 0 rfl) fun r => .pure fun h => by simpa using h.2
  · rename_i hk
    exact hg.expr_then (fun h => h.kid hk 0 rfl) fun r => .pure fun h => by simpa using h.2
  · exact hg.expr_then id fun r => .pure fun h => by simpa using h.2

theorem fine_argument {k : Child} (hk : Fine a k.value) : Fine a k.argument := by
  unfold Child.argument
  split
  · exact .new rfl _ (by simpa using hk)
  · exact hk

theorem fine_arguments {kids : List Child} (h : ∀ k ∈ kids, Fine a k.value) :
    ∀ x ∈ kids.map Child.argument, Fine a x := by
  intro x hx
  obtain ⟨k, hk, rfl⟩ := List.mem_map.1 hx
  exact fine_argument (h k hk)

theorem yields_lowerAttrValue (hg : Lowers a g) (span : Span) (hn : given → At a c n) :
    Yields c given (lowerAttrValue g n span) (Fine a) := by
  refine .branch (fun _ => .pure fun _ => fine_keyword _ _) fun _ => ?_
  refine .branch (fun _ => .pure fun _ => fine_string _ _) fun _ => ?_
  refine .branch (fun hk => hg.exprOf fun h => ?_) fun _ => hg.exprOf hn
  exact (hn h).kid (beq_iff_eq.1 hk) 0 rfl

/-- The properties so far are good code. -/
structure Props.Fine (a : Aim) (p : Props) : Prop where
  members : ∀ m ∈ p.members, Lower.Fine a m
  key : Lower.Fine a p.key

theorem Fine.prop {key value : Node} (span : Span) (hk : Good a key) (hv : Fine a value) :
    Fine a (.new .objProp span [key, value]) :=
  .keyed rfl (.inl rfl) hk (by simp) (by simpa using hv)

theorem yields_addProp {p : Props} {splitKey : Bool} (hg : Lowers a g)
    (hn : given → At a c n ∧ (n = .absent ∨ n.kind ∈ [.jsxAttr, .jsxSpreadAttr]))
    (hp : given → p.Fine a) : Yields c given (Props.add g splitKey p n) (Props.Fine a) := by
  refine .branch (fun hs => ?_) fun hs => ?_
  · refine hg.expr_then (fun h => (hn h).1.kid (beq_iff_eq.1 hs) 0 rfl) fun value =>
      .pure fun h => ?_
    have hvalue : Fine a (.new .spread n.span [value]) := .new rfl _ (by simpa using h.2)
    exact ⟨List.forall_mem_append.2 ⟨(hp h.1).members, List.forall_mem_singleton.2 hvalue⟩,
      (hp h.1).key⟩
  · refine .bind (yields_lowerAttrValue hg n.span fun h => ?_) fun value => ?_
    · have hk : IsA .jsxAttr n := by
        rcases (hn h).2 with e | e
        · exact .inl e
        · rcases List.mem_cons.1 e with e | e
          · exact .inr e
          · exact absurd (beq_iff_eq.2 (List.mem_singleton.1 e)) hs
      exact (hn h).1.part hk 1 rfl
    · refine .branch (fun _ => .pure fun h => ⟨(hp h.1).members, h.2⟩) fun _ => .pure fun h => ?_
      refine ⟨List.forall_mem_append.2 ⟨(hp h.1).members, List.forall_mem_singleton.2 ?_⟩,
        (hp h.1).key⟩
      refine .prop _ ?_ h.2
      split
      · exact .leaf _
      · exact (fine_string _ _).good

theorem yields_lowerProps {attrs : List Node} {splitKey : Bool} (hg : Lowers a g)
    (hn : given → ∀ x ∈ attrs, At a c x ∧ (x = .absent ∨ x.kind ∈ [.jsxAttr, .jsxSpreadAttr])) :
    Yields c given (lowerProps g attrs splitKey) (Props.Fine a) :=
  .foldlM (fun _ => ⟨by simp, .absent⟩) fun x hx p =>
    yields_addProp hg (fun h => hn h.1 x hx) And.right

theorem yields_propsObject {members : List Node} (span : Span)
    (hm : given → Ctx a c ∧ ∀ m ∈ members, Fine a m) :
    Yields c given (propsObject span members) (Fine a) := by
  refine .target_then (.branch (fun _ => .pure fun h => ?_) fun hno => .pure fun h => ?_)
  · exact fine_lowerObjectSpread span (hm h).2
  · refine .objectOf rfl (hm h).2 fun hv m hmem hk => ?_
    cases ht : c.target.before .es2018 with
    | false => rw [(hm h).1.before ht] at hv; cases hv
    | true =>
      refine hno ?_
      rw [ht, Bool.true_and, List.any_eq_true]
      exact ⟨m, hmem, beq_iff_eq.2 hk⟩

theorem fine_generatedProp {value : Node} (span : Span) (name : String) (hv : Fine a value) :
    Fine a (generatedProp span name value) := .prop span (.leaf _) hv

theorem yields_sourceObject (a : Aim) (span : Span) :
    Yields c given (sourceObject span) (Fine a) := by
  refine .bind yields_read fun x => .pure fun _ => ?_
  have hprop (name : String) (value : Node) (hv : Fine a value) := fine_generatedProp span name hv
  refine .objectOf rfl ?_ fun _ => ?_
  · simp [hprop, fine_string, fine_number]
  · simp [generatedProp, Node.new, Node.ofHead, Node.kind, Node.head]

theorem fine_childrenProp {kids : List Child} (span : Span) (several : Bool)
    (h : ∀ k ∈ kids, Fine a k.value) : ∀ x ∈ childrenProp span several kids, Fine a x := by
  unfold childrenProp
  split
  · have hlist : Fine a (.new .array span (kids.map Child.argument)) :=
      .new rfl span (fine_arguments h)
    simpa using fine_generatedProp span "children" hlist
  · split
    · simp
    · simpa using fine_generatedProp span "children" (h _ List.mem_cons_self)

/-! ## Calls -/

/-- What an element is made of: its tag, its attributes and its children. -/
structure Pieces (a : Aim) (c : Context) (tag : Node) (attrs : List Node) (kids : List Child) :
    Prop where
  ctx : Ctx a c
  elements : a.elements
  tag : Fine a tag
  attrs : ∀ x ∈ attrs, At a c x ∧ (x = .absent ∨ x.kind ∈ [.jsxAttr, .jsxSpreadAttr])
  kids : ∀ k ∈ kids, Fine a k.value

variable {tag : Node} {attrs : List Node} {kids : List Child}

theorem yields_automaticCall (hg : Lowers a g) (span : Span) :
    Yields c (Pieces a c tag attrs kids) (automaticCall g span tag attrs kids) (Fine a) := by
  refine .bind (yields_lowerProps hg Pieces.attrs) fun props => ?_
  refine .either (R := Fine a) (fun _ => yields_useHelper a _) (fun _ => .pure fun h => h.1.tag) ?_
  intro tag'
  refine .branch (fun _ => ?_) fun _ => ?_
  · refine .bind (yields_propsObject span fun h => ⟨h.1.1.ctx, h.1.2.members⟩) fun obj => ?_
    refine .bind (yields_useHelper a _) fun create => .pure fun h => ?_
    refine .call span h.2 (List.forall_mem_cons.2 ⟨h.1.1.2, List.forall_mem_cons.2 ⟨h.1.2, ?_⟩⟩)
    exact fine_arguments h.1.1.1.1.kids
  · refine .bind (yields_propsObject span fun h => ⟨h.1.1.ctx, fun m hm => ?_⟩) fun obj => ?_
    · rcases List.mem_append.1 hm with hm | hm
      · exact h.1.2.members m hm
      · exact fine_childrenProp span _ h.1.1.kids m hm
    refine .bind yields_read fun context => .branch (fun _ => ?_) fun _ => ?_
    · refine .bind (yields_sourceObject a span) fun source => ?_
      refine .bind (yields_useHelper a _) fun create => .pure fun h => .call span h.2 ?_
      have hkey : Fine a (if props.key.isAbsent then void0 span else props.key) := by
        split
        · exact fine_void0 span
        · exact h.1.1.1.1.1.2.key
      have hself :
          Fine a (if context.inDerivedConstructor then void0 span else .new .thisExpr span []) := by
        split
        · exact fine_void0 span
        · exact .new rfl span (by simp)
      simp only [List.mem_cons, List.not_mem_nil, or_false, forall_eq_or_imp, forall_eq]
      exact ⟨h.1.1.1.1.2, h.1.1.1.2, hkey, fine_keyword _ _, h.1.2, hself⟩
    · refine .bind (yields_useHelper a _) fun create => .pure fun h => .call span h.2 ?_
      intro x hx
      simp only [List.cons_append, List.nil_append, List.mem_cons] at hx
      rcases hx with rfl | rfl | hx
      · exact h.1.1.1.2
      · exact h.1.1.2
      · split at hx
        · cases hx
        · obtain rfl := List.mem_singleton.1 hx
          exact h.1.1.1.1.2.key

theorem yields_classicCall (hg : Lowers a g) (span : Span) :
    Yields c (Pieces a c tag attrs kids ∧ c.elements.runtime = .classic)
      (classicCall g span tag attrs kids) (Fine a) := by
  refine .bind yields_read fun x => ?_
  extract_lets o tag' build
  have hbuild (props : Node) : Yields c
      (((Pieces a c tag attrs kids ∧ c.elements.runtime = .classic) ∧ x = c) ∧ Fine a props)
      (build props) (Fine a) := by
    refine .pure fun h => ?_
    obtain ⟨⟨⟨hp, hclassic⟩, rfl⟩, hprops⟩ := h
    obtain ⟨hfactory, hfragment⟩ := hp.ctx.classic hp.elements hclassic
    refine .call span (fine_dotted hfactory span) ?_
    refine List.forall_mem_cons.2 ⟨?_, List.forall_mem_cons.2 ⟨hprops, fine_arguments hp.kids⟩⟩
    show Fine a (if tag.isAbsent then dotted x.elements.fragment span else tag)
    split
    · exact fine_dotted hfragment span
    · exact hp.tag
  refine .branch (fun _ => .bind (.pure fun _ => fine_keyword _ _) hbuild) fun _ => ?_
  refine .bind (yields_lowerProps hg fun h => h.1.1.attrs) fun p => ?_
  refine .bind (yields_propsObject span fun h => ⟨h.1.1.1.ctx, h.2.members⟩) fun props => ?_
  exact (hbuild props).under fun h => ⟨h.1.1, h.2⟩

/-! ## Elements -/

theorem covers_elements (hn : n.kind = .jsxElement ∨ n.kind = .jsxFragment)
    (h : Covers a (uses n)) : a.elements := by
  cases n with
  | absent => rcases hn with hn | hn <;> cases hn
  | mk head ks ds t x y =>
    rcases hn with hn | hn <;> change head.kind = _ at hn <;>
      simp only [uses, hn, show NodeKind.isType .jsxElement = false from rfl,
        show NodeKind.isType .jsxFragment = false from rfl, Bool.false_eq_true, if_false,
        covers_append] at h <;> exact h.2.1.2 rfl

/-- The children of the child at a place, which is of a kind that holds code only. -/
theorem At.grandkids (k : NodeKind) (h : At a c n) (i : Nat) (hn : At a c (n.kid i))
    (hk : kindsAt n.head i = [k]) (hi : ∀ computed j, enters k computed j = true) {x : Node}
    (hx : x ∈ (n.kid i).kids) : At a c x :=
  hn.parts (h.source.toSpine.kid_isA i hk) (hi _) hx

theorem yields_lowerElement (hg : Lowers a g) (hn : n.kind = .jsxElement ∨ n.kind = .jsxFragment) :
    Yields c (At a c n) (lowerElement g n) (Fine a) := by
  unfold lowerElement
  extract_lets isFragment attrs children
  refine .either (R := Fine a) (fun _ => .pure fun _ => .absent) (fun hf => ?_) fun tag => ?_
  · refine (yields_lowerTag hg).under fun h => ?_
    have hk : n.kind = .jsxElement := by
      rcases hn with hn | hn
      · exact hn
      · exact absurd (beq_iff_eq.2 hn) hf
    exact h.kid hk 0 rfl
  have hattrs (h : At a c n) :
      ∀ x ∈ attrs, At a c x ∧ (x = .absent ∨ x.kind ∈ [.jsxAttr, .jsxSpreadAttr]) := by
    intro x hx
    rcases hn with hn | hn
    · have hhead : n.head.kind = .jsxElement := hn
      have hx : x ∈ (n.kid 1).kids := by simpa [attrs, isFragment, hn] using hx
      have hkid := h.kid hn 1 rfl
      refine ⟨h.grandkids .jsxAttrs 1 hkid (kindsAt_of_kind hhead _) (fun _ _ => rfl) hx, ?_⟩
      rcases h.source.toSpine.kid_isA (k := .jsxAttrs) 1 (kindsAt_of_kind hhead _) with e | e
      · rw [e] at hx
        cases hx
      · refine hkid.source.toSpine.kind_mem (j := 0) hx (fun i => ?_) (by simp)
        exact kindsAt_of_kind (show (n.kid 1).head.kind = .jsxAttrs from e) _
    · simp [attrs, isFragment, hn] at hx
  refine .bind (.mapM fun x hx => (yields_lowerChild hg).under fun h => ?_) fun kids => ?_
  · rcases hn with hn | hn
    · have hhead : n.head.kind = .jsxElement := hn
      have hx : x ∈ (n.kid 2).kids := by simpa [children, isFragment, hn] using hx
      exact h.1.grandkids .jsxChildren 2 (h.1.kid hn 2 rfl) (kindsAt_of_kind hhead _)
        (fun _ _ => rfl) hx
    · have hhead : n.head.kind = .jsxFragment := hn
      have hx : x ∈ (n.kid 0).kids := by simpa [children, isFragment, hn] using hx
      exact h.1.grandkids .jsxChildren 0 (h.1.kid hn 0 rfl) (kindsAt_of_kind hhead _)
        (fun _ _ => rfl) hx
  have hpieces (h : (At a c n ∧ Fine a tag) ∧ ∀ ks ∈ kids, ∀ k ∈ ks, Fine a k.value) :
      Pieces a c tag attrs kids.flatten := by
    refine ⟨h.1.1.ctx, covers_elements hn h.1.1.source.covers, h.1.2, hattrs h.1.1, fun k hk => ?_⟩
    obtain ⟨ks, hks, hk⟩ := List.mem_flatten.1 hk
    exact h.2 ks hks k hk
  refine .bind yields_read fun x => .branch (fun hr => ?_) fun _ => ?_
  · refine (yields_classicCall hg _).under fun h => ⟨hpieces h.1, ?_⟩
    rw [← h.2]
    exact beq_iff_eq.1 hr
  · exact (yields_automaticCall hg _).under fun h => hpieces h.1

end

end ScriptLower.Lower
