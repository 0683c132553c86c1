import ScriptLower.Proofs.Lower.FittingFunctions

/-!
# Lowered expressions and patterns fit

One case for each kind of expression and of pattern. The two rules hand a node on to each other, but
never back: the rule for expressions hands on patterns, and the rule for patterns what is none.
-/

/-!
## Lowered elements fit

The call that an element becomes is made of its tag, of the object of its properties and of its
children, and each part of an element is of a kind that lowering knows.
-/

namespace ScriptLower.Lower

open ScriptLower

section

variable {f : SourceFile} {d : Nat} {g : Rules} {n : Node} {s : Span} {ns : List Node}

theorem gives_useHelper (h : Helper) : Gives (useHelper h) (Low f .expr) := by
  refine .skip fun s => ?_
  split
  · exact gives_ref _ rfl
  · exact .skip fun mark => .modify_then (fun _ => rfl) fun _ => gives_ref mark rfl

/-! ## Tags -/

theorem gives_lowerTagName (hs : f.holds n.span = true) : Gives (lowerTagName n) (Low f .expr) := by
  refine .branch (fun _ => .pure (low_new rfl (by simp) hs fit_none)) fun _ => ?_
  exact gives_nameRef hs
    (fits_ofHead rfl hs (.inl (show NodeKind.ident ≠ .binary by decide)) fit_none)

theorem Due.tag (hn : Due f d .tag n) :
    Turn f d .tag n ∧ (n.kind = .jsxName ∨ n.kind = .jsxMemberName) := by
  have hturn := hn.present rfl fun _ => rfl
  exact ⟨hturn, by simpa [Place.allows] using hturn.placed.allowed⟩

mutual

theorem gives_lowerComponent :
    ∀ n, Due f d .tag n → Gives (lowerComponent g n) (Low f .expr)
  | .absent, hn => by cases hn.fits
  | .mk h ks ds t a x, hn => by
    have hturn := hn.tag.1
    have hs : f.holds h.span = true := hturn.placed.span
    refine .branch (fun hk => ?_) fun _ => gives_lowerTagName hs
    have hk : (Node.mk h ks ds t a x).kind = .jsxMemberName := beq_iff_eq.1 hk
    have hobj : Due f d .tag (ks.headD .absent) := by
      rw [← kid_first h ks ds t a x]
      exact hturn.kid hk 0 rfl
    have hname : f.holds ((Node.mk h ks ds t a x).kid 1).span = true :=
      (hturn.kid hk 1 rfl).fits.span
    refine .bind (gives_lowerComponentFirst ks hobj) fun obj hobj => .pure ?_
    exact low_new rfl (by simp) hs (fit_first hobj (fit_first (low_ident rfl hname) fit_none))

theorem gives_lowerComponentFirst : ∀ ks : List Node, Due f d .tag (ks.headD .absent) →
    Gives (lowerComponentFirst g ks) (Low f .expr)
  | [], hn => by cases hn.fits
  | n :: _, hn => gives_lowerComponent n hn

end

theorem gives_lowerTag (hn : Due f d .tag n) : Gives (lowerTag g n) (Low f .expr) := by
  unfold lowerTag
  split
  · exact gives_lowerComponent n hn
  · refine .branch (fun _ => .pure ?_) fun _ => gives_lowerComponent n hn
    exact low_string rfl hn.tag.1.placed.span
  · rename_i hmember hname
    rcases hn.tag.2 with hk | hk
    · exact absurd hk hname
    · exact absurd hk hmember

/-! ## Children and properties -/

/-- An element among the parts of another is an expression. -/
theorem Due.element {p : Place} (hn : Due f d p n) (hd : p.drops n.kind = false)
    (hk : n.kind = .jsxElement ∨ n.kind = .jsxFragment) : Due f d .expr n := by
  have hp : n.isPresent = true := by
    rcases hk with hk | hk <;> exact isPresent_of_kind hk (by decide)
  refine ⟨(fits_placed hn.fits hp hd).fits_at ?_ ?_, hn.depth_le⟩
  · rcases hk with hk | hk <;> rw [hk] <;> rfl
  · rcases hk with hk | hk <;> rw [hk] <;> rfl

theorem gives_lowerChild (hg : Handles f d g) (hn : Due f d .child n) :
    Gives (lowerChild g n) fun kids => ∀ k ∈ kids, Low f .expr k.value := by
  have hturn := hn.present rfl fun _ => rfl
  have hone (v : Node) (spread : Bool) (hv : Low f .expr v) :
      ∀ k ∈ [{ value := v, spread := spread : Child }], Low f .expr k.value :=
    List.forall_mem_singleton.2 hv
  have hnone : ∀ k ∈ ([] : List Child), Low f .expr k.value := fun _ h => by cases h
  unfold lowerChild
  split
  · refine .pure ?_
    split
    · exact hnone
    · exact hone _ false (low_string rfl hturn.placed.span)
  · rename_i hk
    have hkid : Due f d .optExpr (n.kid 0) := hturn.kid hk 0 rfl
    refine .branch (fun _ => .pure hnone) fun ha => ?_
    exact .bind (hg.exprOf ⟨fits_there hkid.fits ha, hkid.depth_le⟩) fun v hv =>
      .pure (hone v false hv)
  · rename_i hk
    exact .bind (hg.exprOf (hturn.kid hk 0 rfl)) fun v hv => .pure (hone v true hv)
  · rename_i htext hbraces hspread
    refine .bind (hg.exprOf (hn.element rfl ?_)) fun v hv => .pure (hone v false hv)
    have hallowed := hturn.placed.allowed
    simp only [Place.allows, plain_source, Bool.not_false, Bool.true_and, Bool.or_eq_true,
      beq_iff_eq] at hallowed
    rcases hallowed with (((hk | hk) | hk) | hk) | hk
    · exact absurd hk htext
    · exact absurd hk hbraces
    · exact absurd hk hspread
    · exact .inl hk
    · exact .inr hk

theorem low_argument {k : Child} (hk : Low f .expr k.value) : Low f .expr k.argument := by
  unfold Child.argument
  split
  · exact low_new rfl (by simp) hk.span (fit_first hk fit_none)
  · exact hk

theorem low_arguments {kids : List Child} (h : ∀ k ∈ kids, Low f .expr k.value) :
    LowAll f .expr (kids.map Child.argument) := by
  intro x hx
  obtain ⟨k, hk, rfl⟩ := List.mem_map.1 hx
  exact low_argument (h k hk)

theorem gives_lowerAttrValue (hg : Handles f d g) (hs : f.holds s = true)
    (hn : Due f d .attributeValue n) : Gives (lowerAttrValue g n s) (Low f .expr) := by
  refine .branch (fun _ => .pure (low_literal rfl hs)) fun ha => ?_
  have hturn := hn.turn (by simpa [Node.isAbsent] using ha) rfl
  refine .branch (fun _ => .pure (low_string rfl hturn.placed.span)) fun _ => ?_
  refine .branch (fun hk => hg.exprOf (hturn.kid (beq_iff_eq.1 hk) 0 rfl)) fun hbraces => ?_
  refine hg.exprOf ⟨?_, hn.depth_le⟩
  have hallowed := hturn.placed.allowed
  simp only [Place.allows, plain_source, Bool.not_false, Bool.true_and, Bool.or_eq_true,
    beq_iff_eq] at hallowed
  rcases hallowed with ((hk | hk) | hk) | hk
  · exact hturn.placed.fits_at (by rw [hk]; rfl) (by rw [hk]; rfl)
  · exact absurd (beq_iff_eq.2 hk) hbraces
  · exact (hn.element rfl (.inl hk)).fits
  · exact (hn.element rfl (.inr hk)).fits

/-- The properties so far. -/
structure Props.Low (f : SourceFile) (p : Props) : Prop where
  members : LowAll f .objectMember p.members
  key : Lower.Low f .optExpr p.key

theorem low_prop {key value : Node} (hs : f.holds s = true) (hk : Low f .name key)
    (hv : Low f .expr value) : Low f .objectMember (.new .objProp s [key, value]) :=
  low_new rfl (by simp) hs (fit_first hk (fit_first hv fit_none))

theorem gives_addProp {p : Props} {splitKey : Bool} (hg : Handles f d g) (hn : Due f d .attr n)
    (hp : p.Low f) : Gives (Props.add g splitKey p n) (Props.Low f) := by
  have hturn := hn.present rfl fun _ => rfl
  have hs := hturn.placed.span
  refine .branch (fun hk => ?_) fun hspread => ?_
  · refine .bind (hg.exprOf (hturn.kid (beq_iff_eq.1 hk) 0 rfl)) fun value hvalue =>
      .pure ⟨?_, hp.key⟩
    exact hp.members.append (.one (low_new rfl (by simp) hs (fit_first hvalue fit_none)))
  · have hk : n.kind = .jsxAttr := by
      have hallowed := hturn.placed.allowed
      simp only [Place.allows, plain_source, Bool.not_false, Bool.true_and, Bool.or_eq_true,
        beq_iff_eq] at hallowed
      exact hallowed.resolve_right fun h => hspread (beq_iff_eq.2 h)
    have hname := (hturn.kid hk 0 rfl).tag.1.placed.span
    refine .bind (gives_lowerAttrValue hg hs (hturn.kid hk 1 rfl)) fun value hvalue => ?_
    refine .branch (fun _ => .pure ⟨hp.members, fits_le .expr_optExpr hvalue⟩) fun _ =>
      .pure ⟨?_, hp.key⟩
    refine hp.members.append (.one (low_prop hs ?_ hvalue))
    split
    · exact low_ident rfl hname
    · exact low_string rfl hname

theorem gives_lowerProps {splitKey : Bool} (hg : Handles f d g) (hns : ∀ n ∈ ns, Due f d .attr n) :
    Gives (lowerProps g ns splitKey) (Props.Low f) :=
  .foldlM ⟨.nil, rfl⟩ fun n hn _ hp => gives_addProp hg (hns n hn) hp

theorem gives_propsObject (hs : f.holds s = true) (hns : LowAll f .objectMember ns) :
    Gives (propsObject s ns) (Low f .expr) :=
  .skip fun _ => .branch (fun _ => .pure (low_lowerObjectSpread hs hns)) fun _ =>
    .pure (low_object hs hns)

theorem low_generatedProp (name : String) {value : Node} (hs : f.holds s = true)
    (hv : Low f .expr value) : Low f .objectMember (generatedProp s name value) :=
  low_prop hs (low_ident rfl hs) hv

theorem gives_sourceObject (hs : f.holds s = true) : Gives (sourceObject s) (Low f .expr) := by
  refine .skip fun c => .pure (low_object hs ?_)
  have hprop (name : String) (value : Node) (hv : Low f .expr value) :=
    low_generatedProp name hs hv
  exact .cons (hprop _ _ (low_string rfl hs)) (.cons (hprop _ _ (low_literal rfl hs))
    (.one (hprop _ _ (low_literal rfl hs))))

theorem low_childrenProp (several : Bool) {kids : List Child} (hs : f.holds s = true)
    (h : ∀ k ∈ kids, Low f .expr k.value) :
    LowAll f .objectMember (childrenProp s several kids) := by
  unfold childrenProp
  split
  · refine .one
      (low_generatedProp "children" hs (low_new rfl (by simp) hs (fit_each (low_arguments h))))
  · split
    · exact .nil
    · exact .one (low_generatedProp "children" hs (h _ List.mem_cons_self))

/-! ## Calls -/

variable {tag : Node} {attrs : List Node} {kids : List Child}

theorem gives_automaticCall (hg : Handles f d g) (hs : f.holds s = true) (htag : Low f .optExpr tag)
    (hattrs : ∀ n ∈ attrs, Due f d .attr n) (hkids : ∀ k ∈ kids, Low f .expr k.value) :
    Gives (automaticCall g s tag attrs kids) (Low f .expr) := by
  refine .bind (gives_lowerProps hg hattrs) fun props hprops => ?_
  refine .either (R := Low f .expr) (fun _ => gives_useHelper _)
    (fun ha => .pure (fits_there htag ha)) fun tag' htag' => ?_
  refine .branch (fun _ => ?_) fun _ => ?_
  · refine .bind (gives_propsObject hs hprops.members) fun obj hobj => ?_
    refine .bind (gives_useHelper _) fun create hcreate => .pure (low_call hs hcreate ?_)
    exact .cons htag' (.cons hobj (low_arguments hkids))
  · have hmembers := hprops.members.append (low_childrenProp
      (decide (1 < kids.length) || kids.any (·.spread)) hs hkids)
    refine .bind (gives_propsObject hs hmembers) fun obj hobj => .skip fun context => ?_
    refine .branch (fun _ => ?_) fun _ => ?_
    · have hkey : Low f .expr (if props.key.isAbsent then void0 s else props.key) := by
        split
        · exact low_void0 hs
        · exact fits_there hprops.key ‹_›
      have hself : Low f .expr
          (if context.inDerivedConstructor then void0 s else .new .thisExpr s []) := by
        split
        · exact low_void0 hs
        · exact low_new rfl (by simp) hs fit_none
      refine .bind (gives_sourceObject hs) fun source hsource => ?_
      refine .bind (gives_useHelper _) fun create hcreate => .pure (low_call hs hcreate ?_)
      exact .cons htag'
        (.cons hobj (.cons hkey (.cons (low_literal rfl hs) (.cons hsource (.one hself)))))
    · refine .bind (gives_useHelper _) fun create hcreate => .pure (low_call hs hcreate ?_)
      refine .cons htag' (.cons hobj ?_)
      split
      · exact .nil
      · exact .one (fits_there hprops.key ‹_›)

theorem gives_classicCall (hg : Handles f d g) (hs : f.holds s = true) (htag : Low f .optExpr tag)
    (hattrs : ∀ n ∈ attrs, Due f d .attr n) (hkids : ∀ k ∈ kids, Low f .expr k.value) :
    Gives (classicCall g s tag attrs kids) (Low f .expr) := by
  refine .skip fun c => ?_
  extract_lets o tag' build
  have hbuild (props : Node) (hprops : Low f .expr props) : Gives (build props) (Low f .expr) := by
    refine .pure (low_call hs (low_dotted _ hs) (.cons ?_ (.cons hprops (low_arguments hkids))))
    show Low f .expr (if tag.isAbsent then dotted c.elements.fragment s else tag)
    split
    · exact low_dotted _ hs
    · exact fits_there htag ‹_›
  refine .branch (fun _ => .bind (.pure (low_literal rfl hs)) hbuild) fun _ => ?_
  refine .bind (gives_lowerProps hg hattrs) fun props hprops => ?_
  exact .bind (gives_propsObject hs hprops.members) hbuild

/-! ## Elements -/

theorem gives_lowerElement (hg : Handles f d g) (hn : Turn f d .expr n)
    (hk : n.kind = .jsxElement ∨ n.kind = .jsxFragment) :
    Gives (lowerElement g n) (Low f .expr) := by
  have hs := hn.placed.span
  unfold lowerElement
  extract_lets isFragment attrs children
  have hattrs : ∀ x ∈ attrs, Due f d .attr x := by
    intro x hx
    rcases hk with hk | hk
    · have hlist := (hn.kid hk 1 rfl).present rfl fun _ => rfl
      have hlistKind : (n.kid 1).kind = .jsxAttrs := by
        simpa [Place.allows] using hlist.placed.allowed
      have hx : x ∈ (n.kid 1).kids := by simpa [attrs, isFragment, hk] using hx
      exact hlist.each hlistKind rfl x hx
    · simp [attrs, isFragment, hk] at hx
  have hchildren : Due f d .children children := by
    rcases hk with hk | hk
    · simpa [children, isFragment, hk] using hn.kid hk 2 rfl
    · simpa [children, isFragment, hk] using hn.kid hk 0 rfl
  have hlist := hchildren.present rfl fun _ => rfl
  have hlistKind : children.kind = .jsxChildren := by
    simpa [Place.allows] using hlist.placed.allowed
  refine .either (R := Low f .optExpr) (fun _ => .pure rfl) (fun hf => ?_) fun tag htag => ?_
  · have hk : n.kind = .jsxElement := hk.resolve_right fun h => hf (beq_iff_eq.2 h)
    exact (gives_lowerTag (hn.kid hk 0 rfl)).mono fun r hr => fits_le .expr_optExpr hr
  refine .bind (.mapM fun x hx => gives_lowerChild hg (hlist.each hlistKind rfl x hx))
    fun kids hkids => ?_
  have hkids : ∀ k ∈ kids.flatten, Low f .expr k.value := by
    intro k hk
    obtain ⟨ks, hks, hk⟩ := List.mem_flatten.1 hk
    exact hkids ks hks k hk
  refine .skip fun c => .branch (fun _ => ?_) fun _ => ?_
  · exact gives_classicCall hg hs htag hattrs hkids
  · exact gives_automaticCall hg hs htag hattrs hkids

end

end ScriptLower.Lower

namespace ScriptLower.Lower

open ScriptLower

section

variable {f : SourceFile} {d : Nat} {g : Rules} {p : Place} {n : Node} {ns : List Node}

/-! ## Children that are all expressions -/

/-- The places behind the first ones. -/
def restPlaces : Rest → List Place
  | .none => []
  | .each p => [p]
  | .turns p q => [p, q]

/-- Children at places of expressions stay at their places. -/
theorem gives_kids (hg : Handles f d g) {ps : List Place} {r : Rest}
    (hps : ∀ p ∈ ps, isExprPlace p = true) (hr : ∀ p ∈ restPlaces r, isExprPlace p = true)
    (hns : kidsFit (.source f) ps r ns = true) (hd : ∀ n ∈ ns, 2 * n.count + 2 ≤ d) :
    Gives (ns.mapM g.expr) fun ms => kidsFit (.lowered f) ps r ms = true := by
  induction ns generalizing ps r with
  | nil =>
    cases ps with
    | nil => exact .pure fit_none
    | cons p ps => cases hns
  | cons n ns ih =>
    -- the place of the child, and those of the children behind it
    obtain ⟨q, qs, r', hq, hqs, hr', hn, hrest, hback⟩ : ∃ q qs r', isExprPlace q = true ∧
        (∀ p ∈ qs, isExprPlace p = true) ∧ (∀ p ∈ restPlaces r', isExprPlace p = true) ∧
        Fits f q n ∧ kidsFit (.source f) qs r' ns = true ∧
        ∀ m ms, Low f q m → kidsFit (.lowered f) qs r' ms = true →
          kidsFit (.lowered f) ps r (m :: ms) = true := by
      have hsplit {x y : Bool} (h : (x && y) = true) : x = true ∧ y = true :=
        Bool.and_eq_true_iff.1 h
      cases ps with
      | cons q qs =>
        rw [List.forall_mem_cons] at hps
        obtain ⟨hn, hrest⟩ := hsplit hns
        exact ⟨q, qs, r, hps.1, hps.2, hr, hn, hrest, fun m ms => fit_first⟩
      | nil =>
        cases r with
        | none => cases hns
        | each q =>
          obtain ⟨hn, hrest⟩ := hsplit hns
          refine ⟨q, [], .each q, hr q List.mem_cons_self, hps, hr, hn, hrest,
            fun m ms hm hms => ?_⟩
          exact Bool.and_eq_true_iff.2 ⟨hm, hms⟩
        | turns q q' =>
          obtain ⟨hn, hrest⟩ := hsplit hns
          have hturn : ∀ p ∈ restPlaces (.turns q' q), isExprPlace p = true := fun p hp =>
            hr p (by simpa [restPlaces, or_comm] using hp)
          refine ⟨q, [], .turns q' q, hr q List.mem_cons_self, hps, hturn, hn,
            hrest, fun m ms hm hms => ?_⟩
          exact Bool.and_eq_true_iff.2 ⟨hm, hms⟩
    rw [List.forall_mem_cons] at hd
    rw [List.mapM_cons]
    refine .bind (hg.exprAt hq ⟨hn, hd.1⟩) fun m hm => ?_
    exact .bind (ih hqs hr' hrest hd.2) fun ms hms => .pure (hback m ms hm hms)

/-- A node all children of which are expressions. -/
theorem gives_likeKids {k : NodeKind} (hg : Handles f d g) (hn : Turn f d p n) (hk : n.kind = k)
    (ha : p.allows true k = true) (hfirst : (shapeOf p k n.flags).first.all isExprPlace = true)
    (hrest : (restPlaces (shapeOf p k n.flags).rest).all isExprPlace = true) :
    Gives (do return like n (← n.kids.mapM g.expr)) (Low f p) := by
  subst hk
  rw [List.all_eq_true] at hfirst hrest
  refine .bind (gives_kids hg hfirst hrest hn.placed.kids fun m hm => ?_) fun ms hms => ?_
  · have := count_mem hm
    have := hn.countAll_lt.1
    omega
  · exact .pure (low_like hn.placed rfl ha hms)

/-! ## Literals and members -/

theorem low_leafOf {k : NodeKind} (hn : Turn f d p n) (hk : n.kind = k)
    (ha : p.allows true k = true)
    (hshape : (shapeOf p k n.flags).first = []) : Low f p (leaf n) := by
  subst hk
  exact low_leaf hn.placed ha hshape

theorem gives_lowerLiteral (hn : Turn f d .expr n) (hk : n.kind = .literal) :
    Gives (lowerLiteral n) (Low f .expr) := by
  have hleaf : Low f .expr (leaf n) := low_leafOf hn hk rfl rfl
  refine .skip fun old => .branch (fun _ => ?_) fun _ => .pure hleaf
  dsimp only
  refine .pure ?_
  split
  · exact fits_withText hleaf
  · exact hleaf

theorem gives_lowerProp {value : Node → LowerM Node} (hg : Handles f d g) (hn : Turn f d p n)
    (hk : n.kind = .objProp) (ha : p.allows true .objProp = true)
    (hv : Gives (value (n.kid 1)) (Low f .expr)) : Gives (lowerProp g value n) (Low f p) := by
  refine .bind (gives_lowerKey hg (hn.kid hk 0 rfl)) fun key hkey => .bind hv fun v hv => ?_
  have hout : Low f p (like n [key, v]) :=
    low_like hn.placed hk ha (fit_first hkey (fit_first hv fit_none))
  refine .branch (fun _ => .pure ?_) fun _ => .pure hout
  exact fits_mapFlags (fun _ => rfl) (fun _ => rfl) hout

theorem gives_lowerObjectMember (hg : Handles f d g) (hn : Due f d .objectMember n) :
    Gives (lowerObjectMember g n) (Low f .objectMember) := by
  have hturn := hn.present rfl fun _ => rfl
  unfold lowerObjectMember
  split
  · rename_i hk
    exact gives_lowerProp hg hturn hk rfl (hg.exprOf (hturn.kid hk 1 rfl))
  · rename_i hk
    exact gives_lowerMethod hg hturn hk rfl
  · rename_i hk
    refine .bind (hg.exprOf (hturn.kid hk 0 rfl)) fun r hr => .pure ?_
    exact low_like hturn.placed hk rfl (fit_first hr fit_none)
  · rename_i hprop hmethod hspread
    have hallowed := hturn.placed.allowed
    simp only [Place.allows, Bool.or_eq_true, beq_iff_eq] at hallowed
    rcases hallowed with (hk | hk) | hk
    · exact absurd hk hprop
    · exact absurd hk hmethod
    · exact absurd hk hspread

theorem gives_lowerObject (hg : Handles f d g) (hn : Turn f d .expr n) (hk : n.kind = .object) :
    Gives (lowerObject g n) (Low f .expr) := by
  refine .bind (.mapM fun m hm => gives_lowerObjectMember hg (hn.each hk rfl m hm))
    fun kids hkids => ?_
  refine .skip fun old => .branch (fun _ => .pure ?_) fun _ => .pure ?_
  · exact low_lowerObjectSpread hn.placed.span hkids
  · exact low_like hn.placed hk rfl (fit_each hkids)

/-! ## Operators -/

theorem gives_lowerBinary (hg : Handles f d g) (hn : Turn f d .expr n) (hk : n.kind = .binary) :
    Gives (lowerBinary g n) (Low f .expr) := by
  have hs := hn.placed.span
  have hright := hg.exprOf (hn.kid hk 1 rfl)
  refine .bind (hg.exprOf (hn.kid hk 0 rfl)) fun left hleft => .skip fun old => ?_
  refine .branch (fun _ => gives_lowerNullish hs hleft hright) fun _ => ?_
  refine .bind hright fun right hright => .skip fun older => .branch (fun _ => .pure ?_) fun _ =>
    .pure ?_
  · exact low_mathPow hs hleft hright
  · exact low_like hn.placed hk rfl (fit_first hleft (fit_first hright fit_none))

theorem gives_lowerAssignment (hg : Handles f d g) (hn : Turn f d .expr n) (hk : n.kind = .assign) :
    Gives (lowerAssignment g n) (Low f .expr) := by
  refine .skip fun older => .branch (fun _ => gives_lowerPowerAssign hg hn hk) fun _ => ?_
  refine .skip fun old => .branch (fun _ => gives_lowerLogicalAssign hg hn hk) fun _ => ?_
  refine .bind (hg.patternOf (hn.kid hk 0 rfl)) fun target htarget => ?_
  refine .bind (hg.exprOf (hn.kid hk 1 rfl)) fun value hvalue => .pure ?_
  exact low_like hn.placed hk rfl (fit_first htarget (fit_first hvalue fit_none))

mutual

theorem Due.unparen : ∀ n, Due f d .expr n → Due f d .expr n.unparen
  | .absent, hn => hn
  | .mk h ks ds t a x, hn => by
    unfold Node.unparen
    split
    · rename_i hk
      refine Due.unparenFirst ks ?_
      rw [← kid_first h ks ds t a x]
      exact (hn.turn rfl rfl).kid (beq_iff_eq.1 hk) 0 rfl
    · exact hn

theorem Due.unparenFirst :
    ∀ ks : List Node, Due f d .expr (ks.headD .absent) → Due f d .expr (Node.unparenFirst ks)
  | [], hn => hn
  | n :: _, hn => Due.unparen n hn

end

theorem gives_lowerUnary (hg : Handles f d g) (hn : Turn f d .expr n) (hk : n.kind = .unary) :
    Gives (lowerUnary g n) (Low f .expr) := by
  refine .skip fun old => .branch (fun hdelete => ?_) fun _ => ?_
  · have hchain : (n.kid 0).unparen.kind = .optChain := by
      simp only [Bool.and_eq_true, beq_iff_eq] at hdelete
      exact hdelete.1.2
    have hoperand := (hn.kid hk 0 rfl).unparen
    exact gives_lowerChain hg (hoperand.turn (isPresent_of_kind hchain (by decide)) rfl) hchain true
  · refine .bind (hg.exprOf (hn.kid hk 0 rfl)) fun r hr => .pure ?_
    exact low_like hn.placed hk rfl (fit_first hr fit_none)

/-! ## Expressions -/

theorem exprDepth_turn (hn : Fits f .expr n) (hd : exprDepth n ≤ d + 1) : Turn f d .expr n := by
  rcases absent_or_placed hn fun _ => rfl with ⟨-, hopt⟩ | hplaced
  · cases hopt
  · refine ⟨hplaced, ?_⟩
    unfold exprDepth at hd
    split at hd <;> omega

theorem patternDepth_turn (hn : Fits f .expr n) (hd : patternDepth n ≤ d + 1) :
    Turn f d .expr n := by
  rcases absent_or_placed hn fun _ => rfl with ⟨-, hopt⟩ | hplaced
  · cases hopt
  · refine ⟨hplaced, ?_⟩
    unfold patternDepth at hd
    split at hd <;> omega

theorem gives_lowerExpr (hg : Handles f d g) (hn : Fits f .expr n) (hd : exprDepth n ≤ d + 1) :
    Gives (lowerExpr g n) (Low f .expr) := by
  have hturn := exprDepth_turn hn hd
  have hkids {k : NodeKind} (hk : n.kind = k) (ha : Place.allows true .expr k = true)
      (hfirst : (shapeOf .expr k n.flags).first.all isExprPlace = true)
      (hrest : (restPlaces (shapeOf .expr k n.flags).rest).all isExprPlace = true) :=
    gives_likeKids hg hturn hk ha hfirst hrest
  have hallowed := hturn.placed.allowed
  unfold lowerExpr
  refine .branch (fun ha => ?_) fun _ => ?_
  · rw [Node.isAbsent, hturn.placed.isPresent] at ha
    cases ha
  split
  case h_1 hk => exact gives_nameRef hturn.placed.span (low_leafOf hturn hk rfl rfl)
  case h_2 hk => exact gives_lowerLiteral hturn hk
  case h_4 hk =>
    rw [hk] at hallowed
    cases hallowed
  case h_3 hk | h_5 hk | h_6 hk | h_7 hk | h_8 hk | h_9 hk =>
    exact .pure (low_leafOf hturn hk rfl rfl)
  case h_10 hk | h_11 hk | h_12 hk | h_13 hk | h_14 hk => exact hg.exprOf (hturn.kid hk 0 rfl)
  case h_15 hk | h_16 hk | h_17 hk | h_18 hk | h_19 hk | h_20 hk | h_21 hk | h_22 hk | h_23 hk
      | h_24 hk | h_25 hk | h_26 hk | h_27 hk =>
    exact hkids hk rfl rfl rfl
  case h_28 hk =>
    refine .bind (hg.exprOf (hturn.kid hk 0 rfl)) fun obj hobj => .pure ?_
    exact low_like hturn.placed hk rfl
      (fit_first hobj (fit_first (low_name (hturn.kid hk 1 rfl).fits) fit_none))
  case h_29 hk => exact gives_lowerObject hg hturn hk
  case h_30 hk => exact gives_lowerFunction hg hturn (.inr hk) (by rw [hk]; rfl)
  case h_31 hk => exact gives_lowerArrow hg hturn hk
  case h_32 hk => exact gives_lowerClass hg hturn (.inr hk) (by rw [hk]; rfl)
  case h_33 hk => exact gives_lowerUnary hg hturn hk
  case h_34 hk =>
    refine .bind (hg.patternOf (hturn.kid hk 0 rfl)) fun r hr => .pure ?_
    exact low_like hturn.placed hk rfl (fit_first hr fit_none)
  case h_35 hk => exact gives_lowerBinary hg hturn hk
  case h_36 hk => exact gives_lowerAssignment hg hturn hk
  case h_37 hk =>
    refine .skip fun old => .branch (fun _ => gives_lowerChain hg hturn hk false) fun _ => ?_
    refine .bind (hg.exprOf (hturn.kid hk 0 rfl)) fun r hr => .pure ?_
    exact low_like hturn.placed hk rfl (fit_first hr fit_none)
  case h_38 hk => exact gives_lowerElement hg hturn (.inl hk)
  case h_39 hk => exact gives_lowerElement hg hturn (.inr hk)
  case h_40 hk | h_41 hk | h_42 hk | h_43 hk =>
    refine hg.pattern true n hn ?_
    simp only [exprDepth, hk] at hd
    simp only [patternDepth, hk]
    omega
  case h_44 =>
    -- no other kind stands at the place of an expression
    simp only [Place.allows, plain_source, Bool.not_false, Bool.true_and,
      Bool.or_eq_true] at hallowed
    rcases hallowed with hallowed | hallowed
    · unfold NodeKind.isExpression at hallowed
      split at hallowed <;> contradiction
    · unfold NodeKind.isLowered at hallowed
      split at hallowed <;> contradiction

/-- The rule for expressions serves the texts of templates and templates behind a tag as well. -/
theorem gives_lowerExprAt (hg : Handles f d g) (hp : isExprPlace p = true) (hn : Fits f p n)
    (hd : exprDepth n ≤ d + 1) : Gives (lowerExpr g n) (Low f p) := by
  unfold isExprPlace at hp
  split at hp
  · exact gives_lowerExpr hg hn hd
  · cases ha : n.isAbsent with
    | true => exact .branch (fun _ => .pure rfl) fun hne => absurd ha hne
    | false =>
      refine (gives_lowerExpr hg (fits_there hn ?_) hd).mono fun r hr => fits_le .expr_optExpr hr
      rw [ha]
      decide
  · have hplaced := (absent_or_placed hn fun _ => rfl).resolve_left fun h => Bool.noConfusion h.2
    have hk : n.kind = .templateElem := by simpa [Place.allows] using hplaced.allowed
    unfold lowerExpr
    refine .branch (fun ha => ?_) fun _ => ?_
    · rw [Node.isAbsent, hplaced.isPresent] at ha
      cases ha
    · rw [hk]
      refine .pure (low_leaf hplaced ?_ ?_) <;> rw [hk] <;> rfl
  · have hplaced := (absent_or_placed hn fun _ => rfl).resolve_left fun h => Bool.noConfusion h.2
    have hk : n.kind = .template := by simpa [Place.allows] using hplaced.allowed
    have hturn : Turn f d .template n := ⟨hplaced, by simp only [exprDepth, hk] at hd; omega⟩
    unfold lowerExpr
    refine .branch (fun ha => ?_) fun _ => ?_
    · rw [Node.isAbsent, hplaced.isPresent] at ha
      cases ha
    · rw [hk]
      exact gives_likeKids hg hturn hk rfl rfl rfl
  · cases hp

/-! ## Patterns -/

theorem gives_lowerPatternMember {assigns : Bool} (hg : Handles f d g)
    (hn : Due f d .patternMember n) :
    Gives (lowerPatternMember g assigns n) (Low f .patternMember) := by
  have hturn := hn.present rfl fun _ => rfl
  refine .branch (fun hrest => .skip fun old => ?_) fun hrest => ?_
  · have hk : n.kind = .restElement := beq_iff_eq.1 hrest
    have htail : Gives (do return like n [← g.pattern assigns (n.kid 0)]) (Low f .patternMember) :=
      .bind (hg.patternOf (hturn.kid hk 0 rfl)) fun r hr =>
        .pure (low_like hturn.placed hk rfl (fit_first hr fit_none))
    exact .branch (fun _ => .skip fun _ => htail) fun _ => htail
  · have hk : n.kind = .objProp := by
      have hallowed := hturn.placed.allowed
      simp only [Place.allows, Bool.or_eq_true, beq_iff_eq] at hallowed
      exact hallowed.resolve_right fun h => hrest (beq_iff_eq.2 h)
    exact gives_lowerProp hg hturn hk rfl (hg.patternOf (hturn.kid hk 1 rfl))

theorem gives_lowerPattern {assigns : Bool} (hg : Handles f d g) (hn : Fits f .expr n)
    (hd : patternDepth n ≤ d + 1) : Gives (lowerPattern g assigns n) (Low f .expr) := by
  have hturn := patternDepth_turn hn hd
  unfold lowerPattern
  refine .branch (fun ha => ?_) fun _ => ?_
  · rw [Node.isAbsent, hturn.placed.isPresent] at ha
    cases ha
  split
  case h_1 hk =>
    have hleaf : Low f .expr (leaf n) := low_leafOf hturn hk rfl rfl
    refine .skip fun scope => ?_
    split
    · refine .pure ?_
      split
      · exact low_qualified hturn.placed.span
      · exact hleaf
    · exact .pure hleaf
  case h_2 hk => exact .pure (low_leafOf hturn hk rfl rfl)
  case h_3 hk =>
    refine .bind (.mapM fun m hm => hg.patternOf (hturn.each hk rfl m hm)) fun rs hrs => .pure ?_
    exact low_like hturn.placed hk rfl (fit_each hrs)
  case h_4 hk =>
    refine .bind (.mapM fun m hm => gives_lowerPatternMember hg (hturn.each hk rfl m hm))
      fun rs hrs => ?_
    exact .pure (low_like hturn.placed hk rfl (fit_each hrs))
  case h_5 hk =>
    refine .bind (hg.patternOf (hturn.kid hk 0 rfl)) fun target htarget => ?_
    refine .bind (hg.exprOf (hturn.kid hk 1 rfl)) fun init hinit => .pure ?_
    exact low_like hturn.placed hk rfl (fit_first htarget (fit_first hinit fit_none))
  case h_6 hk | h_7 hk =>
    refine .bind (hg.patternOf (hturn.kid hk 0 rfl)) fun r hr => .pure ?_
    exact low_like hturn.placed hk rfl (fit_first hr fit_none)
  case h_8 hk | h_9 hk | h_10 hk | h_11 hk => exact hg.patternOf (hturn.kid hk 0 rfl)
  case h_12 =>
    -- what is no pattern goes on to the rule for expressions, which does not hand it back
    refine hg.expr .expr n rfl hn ?_
    unfold patternDepth at hd
    unfold exprDepth
    split at hd <;> first | contradiction | omega

/-- What binds names stays of its kind. -/
theorem gives_lowerPattern_bound (hg : Handles f d g) (hn : Fits f .pattern n)
    (hd : patternDepth n ≤ d + 1) : Gives (lowerPattern g false n) (Low f .pattern) := by
  have hturn := patternDepth_turn (fits_le .pattern_expr hn) hd
  have hallowed := (fits_placed hn hturn.placed.isPresent rfl).allowed
  simp only [Place.allows, Bool.or_eq_true, beq_iff_eq] at hallowed
  unfold lowerPattern
  refine .branch (fun ha => ?_) fun _ => ?_
  · rw [Node.isAbsent, hturn.placed.isPresent] at ha
    cases ha
  rcases hallowed with (hk | hk) | hk <;> rw [hk]
  · have hleaf : Low f .pattern (leaf n) :=
      low_leaf hturn.placed (by rw [hk]; rfl) (by rw [hk]; rfl)
    refine .skip fun scope => ?_
    split <;> exact .pure hleaf
  · refine .bind (.mapM fun m hm => hg.patternOf (hturn.each hk rfl m hm)) fun rs hrs => .pure ?_
    exact low_like hturn.placed hk rfl (fit_each hrs)
  · refine .bind (.mapM fun m hm => gives_lowerPatternMember hg (hturn.each hk rfl m hm))
      fun rs hrs => .pure ?_
    exact low_like hturn.placed hk rfl (fit_each hrs)

end

end ScriptLower.Lower
