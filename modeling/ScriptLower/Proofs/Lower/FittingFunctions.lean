import ScriptLower.Proofs.Lower.Fitting

/-!
# Captured operands, functions and classes fit

A list of statements stays one, and functions and classes keep their parts. A member of a class that
exists only for the type checker is of a kind that lowering knows to drop. Before that come the
parts of expressions that several rules share.
-/

/-!
## Captured operands fit

What is evaluated once and used twice is a tree of the plain language both times. The targets of
assignments, the links of chains and the members of objects that are spelled out are taken apart and
put together from such trees.
-/

namespace ScriptLower.Lower

open ScriptLower

section

variable {f : SourceFile} {d : Nat} {g : Rules} {n : Node} {s : Span} {ns : List Node}

/-! ## Names -/

theorem gives_nameRef (hs : f.holds n.span = true) (hleaf : Low f .expr (leaf n)) :
    Gives (nameRef n) (Low f .expr) := by
  refine .skip fun scope => ?_
  split
  · exact .pure (low_qualified hs)
  · refine .skip fun define => ?_
    split
    · rename_i replaced
      refine .pure ?_
      split
      · -- the text of the definition, in parentheses if it needs them
        have hraw : Low f .expr (.newText .raw n.span replaced.value) :=
          fits_ofHead rfl hs (.inl (by simp)) fit_none
        unfold Define.replacement
        dsimp only
        split
        · exact hraw
        · exact low_new rfl (by simp) hs (fit_first hraw fit_none)
      · exact hleaf
    · exact .pure hleaf

theorem gives_ref {p : Place} (mark : Nat) (ha : p.allows true .ident = true) :
    Gives (ref mark) (Low f p) := fun _ _ hs => ⟨hs, low_marked ha⟩

/-! ## Captures -/

/-- Both uses of what is evaluated once. -/
structure Captured.Low (f : SourceFile) (c : Captured) : Prop where
  first : Lower.Low f .expr c.first
  again : Lower.Low f .expr c.again

theorem gives_capture (hn : Low f .expr n) : Gives (capture n) (Captured.Low f) := by
  refine .branch (fun hrep => .pure ⟨hn, ?_⟩) fun _ => ?_
  · simp only [isRepeatable, Bool.or_eq_true, Bool.and_eq_true, beq_iff_eq] at hrep
    rcases hrep with ⟨hk, -⟩ | hk <;> rw [hk] <;>
      exact fits_ofHead rfl hn.span (.inl (by simp)) fit_none
  · refine .skip fun mark => .bind (gives_ref mark rfl) fun stored hstored => .pure ⟨?_, hstored⟩
    exact low_paren (low_assign hn.span hstored hn)

theorem low_mathPow {x y : Node} (hs : f.holds s = true) (hx : Low f .expr x) (hy : Low f .expr y) :
    Low f .expr (mathPow s x y) :=
  low_call hs (low_dotted _ hs) (.cons hx (.one hy))

theorem low_nullTest {join compare : TokenKind} {c : Captured} (hj : join.precedence ≠ 0)
    (hcmp : compare.precedence ≠ 0) (hs : f.holds s = true) (hc : c.Low f) :
    Low f .expr (nullTest s join compare c) :=
  low_bin hj hs (low_bin hcmp hs hc.first (low_literal rfl hs))
    (low_bin hcmp hs hc.again (low_void0 hs))

theorem low_conditional {x y z : Node} (hs : f.holds s = true) (hx : Low f .expr x)
    (hy : Low f .expr y) (hz : Low f .expr z) : Low f .expr (.new .conditional s [x, y, z]) :=
  low_new rfl (by simp) hs (fit_first hx (fit_first hy (fit_first hz fit_none)))

theorem low_index {x y : Node} (hs : f.holds s = true) (hx : Low f .expr x) (hy : Low f .expr y) :
    Low f .expr (.new .index s [x, y]) :=
  low_new rfl (by simp) hs (fit_first hx (fit_first hy fit_none))

theorem low_object (hs : f.holds s = true) (hns : LowAll f .objectMember ns) :
    Low f .expr (.new .object s ns) := low_new rfl (by simp) hs (fit_each hns)

theorem gives_lowerNullish {left : Node} {right : LowerM Node} (hs : f.holds s = true)
    (hl : Low f .expr left) (hr : Gives right (Low f .expr)) :
    Gives (lowerNullish s left right) (Low f .expr) := by
  refine .bind (gives_capture hl) fun c hc => .bind hr fun r hr => .pure ?_
  exact low_conditional hs (low_nullTest (by decide) (by decide) hs hc) hc.again hr

/-! ## Assignment targets -/

theorem memberAccess_low {c : Captured} {prop : Bytes} (hs : f.holds s = true) (hc : c.Low f) :
    (memberAccess s c prop).Low f := ⟨low_member hs hc.first, low_member hs hc.again⟩

theorem indexAccess_low {obj key : Captured} (hs : f.holds s = true) (ho : obj.Low f)
    (hk : key.Low f) : (indexAccess s obj key).Low f :=
  ⟨low_index hs ho.first hk.first, low_index hs ho.again hk.again⟩

theorem kid_first (h : Head) (ks ds : List Node) (t a x : Node) :
    (Node.mk h ks ds t a x).kid 0 = ks.headD .absent := by cases ks <;> rfl

mutual

theorem gives_access? (hg : Handles f d g) :
    ∀ n, Due f d .expr n → Gives (access? g n) fun o => ∀ c ∈ o, c.Low f
  | .absent, _ => .pure fun _ h => by cases h
  | .mk h ks ds t a x, hn => by
    have hturn := hn.turn rfl rfl
    have hs : f.holds h.span = true := hturn.placed.span
    have hnone : ∀ c ∈ (none : Option Captured), c.Low f := fun _ h => by cases h
    have hsome {c : Captured} (hc : c.Low f) : ∀ c' ∈ some c, c'.Low f := by
      rintro c' ⟨⟩
      exact hc
    have hfirst {k : NodeKind} (hk : h.kind = k)
        (hshape : (shapeOf .expr k h.flags).first[0]? = some .expr) :
        Gives (accessFirst? g ks) fun o => ∀ c ∈ o, c.Low f := by
      refine gives_accessFirst? hg ks ?_
      rw [← kid_first h ks ds t a x]
      exact hturn.kid hk 0 hshape
    unfold access?
    split
    case h_1 hk | h_2 hk | h_3 hk | h_4 hk | h_5 hk => exact hfirst hk rfl
    case h_6 hk =>
      refine .skip fun scope => ?_
      split
      · exact .bind (gives_capture (low_ident rfl hs)) fun c hc =>
          .pure (hsome (memberAccess_low hs hc))
      · have hleaf : Low f .expr (leaf (.mk h ks ds t a x)) := by
          refine low_leaf hturn.placed ?_ ?_ <;>
            rw [show (Node.mk h ks ds t a x).kind = .ident from hk] <;> rfl
        exact .pure (hsome ⟨hleaf, hleaf⟩)
    case h_7 hk =>
      refine .branch (fun _ => .pure hnone) fun _ => ?_
      refine .bind (hg.exprOf (hturn.kid hk 0 rfl)) fun obj hobj => ?_
      exact .bind (gives_capture hobj) fun c hc => .pure (hsome (memberAccess_low hs hc))
    case h_8 hk =>
      refine .bind (hg.exprOf (hturn.kid hk 0 rfl)) fun obj hobj => ?_
      refine .bind (gives_capture hobj) fun obj hobj => ?_
      refine .bind (hg.exprOf (hturn.kid hk 1 rfl)) fun key hkey => ?_
      exact .bind (gives_capture hkey) fun key hkey => .pure (hsome (indexAccess_low hs hobj hkey))
    case h_9 => exact .pure hnone

theorem gives_accessFirst? (hg : Handles f d g) :
    ∀ ks : List Node, Due f d .expr (ks.headD .absent) →
    Gives (accessFirst? g ks) fun o => ∀ c ∈ o, c.Low f
  | [], _ => .pure fun _ h => by cases h
  | n :: _, hn => gives_access? hg n hn

end

theorem gives_keepAssignment (hg : Handles f d g) (hn : Turn f d .expr n) (hk : n.kind = .assign) :
    Gives (keepAssignment g n) (Low f .expr) := by
  refine .skip fun _ => .bind (hg.patternOf (hn.kid hk 0 rfl)) fun target htarget => ?_
  refine .bind (hg.exprOf (hn.kid hk 1 rfl)) fun value hvalue => .pure ?_
  exact low_like hn.placed hk rfl (fit_first htarget (fit_first hvalue fit_none))

theorem gives_lowerPowerAssign (hg : Handles f d g) (hn : Turn f d .expr n)
    (hk : n.kind = .assign) :
    Gives (lowerPowerAssign g n) (Low f .expr) := by
  refine .bind (gives_access? hg _ (hn.kid hk 0 rfl)) fun o ho => ?_
  split
  · exact gives_keepAssignment hg hn hk
  · refine .bind (hg.exprOf (hn.kid hk 1 rfl)) fun value hvalue => .pure ?_
    have hs := hn.placed.span
    exact low_assign hs (ho _ rfl).first (low_mathPow hs (ho _ rfl).again hvalue)

theorem gives_lowerLogicalAssign (hg : Handles f d g) (hn : Turn f d .expr n)
    (hk : n.kind = .assign) :
    Gives (lowerLogicalAssign g n) (Low f .expr) := by
  have hs := hn.placed.span
  refine .bind (gives_access? hg _ (hn.kid hk 0 rfl)) fun o ho => ?_
  split
  · exact gives_keepAssignment hg hn hk
  · rename_i acc
    have hacc : acc.Low f := ho _ rfl
    extract_lets set
    have hset : Gives set (Low f .expr) :=
      .bind (hg.exprOf (hn.kid hk 1 rfl)) fun value hvalue =>
        .pure (low_paren (low_assign hs hacc.again hvalue))
    have hjoin (op : TokenKind) (hop : op.precedence ≠ 0) :
        Gives (set >>= fun r => (Pure.pure (bin n.span op acc.first r) : LowerM Node))
          (Low f .expr) :=
      .bind hset fun r hr => .pure (low_bin hop hs hacc.first hr)
    split
    · exact hjoin .andAnd (by decide)
    · exact hjoin .orOr (by decide)
    · exact .skip fun _ => .branch (fun _ => gives_lowerNullish hs hacc.first hset) fun _ =>
        hjoin .questionQuestion (by decide)

/-! ## Optional chains -/

/-- The links of a chain, and the expression it begins with. -/
structure ChainDue (f : SourceFile) (d : Nat) (chain : Node × List Node) : Prop where
  base : Due f d .expr chain.1
  links : ∀ link ∈ chain.2, Turn f d .expr link ∧
    (link.kind = .member ∨ link.kind = .index ∨ link.kind = .call)

mutual

theorem due_chainOf : ∀ n, Due f d .expr n → ChainDue f d (chainOf n)
  | .absent, hn => ⟨hn, by simp [chainOf]⟩
  | .mk h ks ds t a x, hn => by
    have hturn := hn.turn rfl rfl
    have hfirst {k : NodeKind} (hk : h.kind = k)
        (hshape : (shapeOf .expr k h.flags).first[0]? = some .expr) :
          ChainDue f d (chainOfFirst ks) := by
      refine due_chainOfFirst ks ?_
      rw [← kid_first h ks ds t a x]
      exact hturn.kid hk 0 hshape
    unfold chainOf
    split
    case h_1 hk | h_2 hk | h_3 hk =>
      obtain ⟨hbase, hlinks⟩ := hfirst hk rfl
      exact ⟨hbase, List.forall_mem_append.2 ⟨hlinks, List.forall_mem_singleton.2
        ⟨hturn, by simp [Node.kind, Node.head, hk]⟩⟩⟩
    case h_4 hk => exact hfirst hk rfl
    case h_5 => exact ⟨hn, by simp⟩

theorem due_chainOfFirst :
    ∀ ks : List Node, Due f d .expr (ks.headD .absent) → ChainDue f d (chainOfFirst ks)
  | [], hn => ⟨hn, by simp [chainOfFirst]⟩
  | n :: _, hn => due_chainOf n hn

end

/-- The parts of a chain in the making. -/
structure Chain.Low (f : SourceFile) (c : Chain) : Prop where
  value : Lower.Low f .expr c.value
  tests : LowAll f .expr c.tests
  receiver : ∀ r ∈ c.receiver, Lower.Low f .expr r

variable {c : Chain} {link : Node}

theorem gives_guard (hs : f.holds s = true) (hc : c.Low f) : Gives (c.guard s) (Chain.Low f) := by
  refine .bind (gives_capture hc.value) fun v hv => .pure ⟨hv.again, ?_, hc.receiver⟩
  exact hc.tests.append (.one (low_nullTest (by decide) (by decide) hs hv))

theorem gives_chainRead {callFollows : Bool} (hg : Handles f d g) (hlink : Turn f d .expr link)
    (hk : link.kind = .member ∨ link.kind = .index) (hc : c.Low f) :
    Gives (c.read g link callFollows) (Chain.Low f) := by
  have hs := hlink.placed.span
  refine .either (R := fun o : Option Captured => ∀ x ∈ o, x.Low f) (fun _ => ?_)
    (fun _ => .pure fun _ h => by cases h) fun o ho => ?_
  · refine .map (gives_capture hc.value) fun v hv => ?_
    rintro x ⟨⟩
    exact hv
  -- the name behind a point, or the key in brackets
  refine .either (R := fun prop => ∀ obj, Low f .expr obj →
    Low f .expr (.new link.kind link.span [obj, prop])) (fun hm => .pure fun obj hobj => ?_)
    (fun hm => ?_) fun prop hprop => ?_
  · have hkind : link.kind = .member := beq_iff_eq.1 hm
    rw [hkind]
    exact low_new rfl (by simp) hs
      (fit_first hobj (fit_first (low_name (hlink.kid hkind 1 rfl).fits) fit_none))
  · have hkind : link.kind = .index := hk.resolve_left fun h => hm (beq_iff_eq.2 h)
    refine (hg.exprOf (hlink.kid hkind 1 rfl)).mono fun prop hprop obj hobj => ?_
    rw [hkind]
    exact low_index hs hobj hprop
  split
  · have hobj := ho _ rfl
    exact .pure ⟨hprop _ hobj.first, hc.tests, by rintro r ⟨⟩; exact hobj.again⟩
  · exact .pure ⟨hprop _ hc.value, hc.tests, hc.receiver⟩

theorem gives_chainCall (hg : Handles f d g) (hlink : Turn f d .expr link) (hk : link.kind = .call)
    (hc : c.Low f) : Gives (c.call g link) (Chain.Low f) := by
  have hs := hlink.placed.span
  refine .bind (hg.exprs (hlink.each hk rfl)) fun args hargs => ?_
  split
  · rename_i this _ hthis
    refine .pure ⟨low_call hs (low_member hs hc.value) ?_, hc.tests, fun _ h => by cases h⟩
    exact .cons (hc.receiver _ hthis) hargs
  · exact .pure ⟨low_call hs hc.value hargs, hc.tests, hc.receiver⟩

theorem gives_follow {links : List Node} (hg : Handles f d g) (hs : f.holds s = true)
    (hc : c.Low f) (hlinks : ∀ link ∈ links, Turn f d .expr link ∧
      (link.kind = .member ∨ link.kind = .index ∨ link.kind = .call)) :
    Gives (Chain.follow g s c links) (Chain.Low f) := by
  induction links generalizing c with
  | nil => exact .pure hc
  | cons link rest ih =>
    obtain ⟨hturn, hkind⟩ := hlinks link List.mem_cons_self
    refine .either (fun _ => gives_guard hs hc) (fun _ => .pure hc) fun c' hc' => ?_
    refine .either (R := Chain.Low f) (fun hcall => ?_) (fun hcall => ?_) fun c'' hc'' => ?_
    · exact gives_chainCall hg hturn (beq_iff_eq.1 hcall) hc'
    · refine gives_chainRead hg hturn ?_ hc'
      rcases hkind with hk | hk | hk
      · exact .inl hk
      · exact .inr hk
      · exact absurd (beq_iff_eq.2 hk) hcall
    · exact ih hc'' fun link hl => hlinks link (List.mem_cons_of_mem _ hl)

theorem low_tests {tests : List Node} {short value : Node} (hs : f.holds s = true)
    (ht : LowAll f .expr tests) (hshort : Low f .expr short) (hv : Low f .expr value) :
    Low f .expr (tests.foldr (fun test rest => .new .conditional s [test, short, rest]) value) := by
  induction tests with
  | nil => exact hv
  | cons t ts ih =>
    have hrest := ih fun x hx => ht x (List.mem_cons_of_mem _ hx)
    exact low_conditional hs (ht t List.mem_cons_self) hshort hrest

theorem gives_lowerChain (hg : Handles f d g) (hn : Turn f d .expr n) (hk : n.kind = .optChain)
    (deletes : Bool) : Gives (lowerChain g n deletes) (Low f .expr) := by
  have hs := hn.placed.span
  obtain ⟨hbase, hlinks⟩ := due_chainOf _ (hn.kid hk 0 rfl)
  unfold lowerChain
  refine .bind (hg.exprOf hbase) fun base hbase => ?_
  refine .bind (gives_follow hg hs ⟨hbase, .nil, fun _ h => by cases h⟩ hlinks) fun c hc => .pure ?_
  refine low_tests hs hc.tests ?_ ?_
  · split
    · exact low_literal rfl hs
    · exact low_void0 hs
  · split
    · exact fits_ofHead rfl hs (.inl (by simp)) (fit_first hc.value fit_none)
    · exact hc.value

/-! ## Spreads in objects -/

/-- What a lowered spread spreads. -/
theorem Low.spread_kid {p : Place} (hn : Low f p n) (hk : n.kind = .spread) :
    Low f .expr (n.kid 0) :=
  (hn.placed (isPresent_of_kind hk (by decide))).kid hk 0 rfl

theorem low_spreadGroups (hs : f.holds s = true) (hns : LowAll f .objectMember ns) :
    LowAll f .objectMember (spreadGroups s ns).1 ∧ LowAll f .expr (spreadGroups s ns).2 := by
  induction ns with
  | nil => exact ⟨.nil, .nil⟩
  | cons p r ih =>
    obtain ⟨hgroup, hargs⟩ := ih fun x hx => hns x (List.mem_cons_of_mem _ hx)
    have hfirst := hns p List.mem_cons_self
    rw [spreadGroups]
    dsimp only
    split
    · rename_i hspread
      refine ⟨.nil, .cons (hfirst.spread_kid (beq_iff_eq.1 hspread)) ?_⟩
      split
      · exact hargs
      · exact .cons (low_object hs hgroup) hargs
    · exact ⟨.cons hfirst hgroup, hargs⟩

theorem low_lowerObjectSpread (hs : f.holds s = true) (hns : LowAll f .objectMember ns) :
    Low f .expr (lowerObjectSpread s ns) := by
  obtain ⟨hgroup, hargs⟩ := low_spreadGroups hs hns
  refine low_call hs (low_dotted _ hs) ?_
  split
  · exact .cons (low_object hs .nil) hargs
  · exact .cons (low_object hs hgroup) hargs

end

end ScriptLower.Lower

namespace ScriptLower.Lower

open ScriptLower

section

variable {f : SourceFile} {d : Nat} {g : Rules} {p q : Place} {n : Node} {ns : List Node}

/-! ## Lists of statements -/

theorem gives_lowerEach (hg : Handles f d g) (hns : ∀ n ∈ ns, Due f d .stmt n)
    (orphans : List Nat) :
    Gives (lowerEach g ns orphans) (LowAll f .stmt) := by
  induction ns generalizing orphans with
  | nil => exact .pure .nil
  | cons n rest ih =>
    have hrest (orphans : List Nat) := ih (fun m hm => hns m (List.mem_cons_of_mem _ hm)) orphans
    refine .bind (hg.stmtOf (hns n List.mem_cons_self)) fun out hout => ?_
    split
    · exact .skip fun _ => .skip fun s => hrest _
    · refine .branch (fun _ => ?_) fun _ => .skip fun _ => ?_
      · exact .bind (hrest orphans) fun more hmore => .pure (hout.append hmore)
      · exact .bind (hrest []) fun more hmore => .pure (hout.append hmore)

theorem gives_lowerList (hg : Handles f d g) (hns : ∀ n ∈ ns, Due f d .stmt n) :
    Gives (lowerList g ns) (LowAll f .stmt) := by
  refine .skip fun s => .modify_then (fun _ => rfl) fun _ => ?_
  refine .bind (.elsewhere (gives_lowerEach hg hns [])) fun out hout => ?_
  exact .modify_then (fun _ => rfl) fun _ => .pure hout

/-- The statements of a block. -/
theorem Due.block (hn : Due f d .block n) : Turn f d .block n ∧ n.kind = .block := by
  have hturn := hn.present rfl fun _ => rfl
  exact ⟨hturn, by simpa [Place.allows] using hturn.placed.allowed⟩

theorem Due.stmts (hn : Due f d .block n) : ∀ m ∈ n.kids, Due f d .stmt m :=
  hn.block.1.each hn.block.2 rfl

/-- A block with other statements. -/
theorem low_block (hn : Due f d .block n) (hns : LowAll f .stmt ns) : Low f .block (like n ns) :=
  low_like hn.block.1.placed hn.block.2 rfl (fit_each hns)

/-! ## Parameters and bodies -/

theorem gives_lowerOptional (hg : Handles f d g) (hp : isExprPlace p = true) (hn : Due f d p n) :
    Gives (lowerOptional g n) (Low f p) := by
  refine .branch (fun ha => .pure ?_) fun _ => hg.exprAt hp hn
  cases n with
  | absent => exact hn.fits
  | mk h ks ds t a x => cases ha

theorem gives_inFunction {α : Type} {Q : α → Prop} {params body : Node} {m : LowerM α}
    (hm : Gives m Q) : Gives (inFunction params body m) Q :=
  .skip fun _ => .branch (fun _ => hm) fun _ => .elsewhere hm

theorem gives_inConstructor {α : Type} {Q : α → Prop} {derived : Bool} {m : LowerM α}
    (hm : Gives m Q) : Gives (inConstructor derived m) Q := .elsewhere hm

theorem low_dropOptional (hn : Low f p n) : Low f p (dropOptional n) :=
  fits_mapFlags (fun _ => rfl) (fun _ => rfl) hn

theorem gives_lowerParam (hg : Handles f d g) (hn : Due f d .param n) :
    Gives (lowerParam g n) (Low f .param) := by
  have hturn := hn.present rfl fun _ => rfl
  have hk : n.kind = .param := by simpa [Place.allows] using hturn.placed.allowed
  have hrest : Gives (do
      let binding ← g.pattern false (n.kid 0)
      let init ← lowerOptional g (n.kid 1)
      return dropOptional (like n [binding, init])) (Low f .param) := by
    refine .bind (hg.patternOf (hturn.kid hk 0 rfl)) fun binding hbinding => ?_
    refine .bind (gives_lowerOptional hg rfl (hturn.kid hk 1 rfl)) fun init hinit => .pure ?_
    refine low_dropOptional (low_like hturn.placed hk rfl ?_)
    exact fit_first hbinding (fit_first hinit fit_none)
  unfold lowerParam
  split
  · exact hrest
  · exact .skip fun _ => hrest

theorem Due.params (hn : Due f d .params n) : Turn f d .params n ∧ n.kind = .params := by
  have hturn := hn.present rfl fun _ => rfl
  exact ⟨hturn, by simpa [Place.allows] using hturn.placed.allowed⟩

theorem gives_lowerParams (hg : Handles f d g) (hn : Due f d .params n) :
    Gives (lowerParams g n) (Low f .params) := by
  obtain ⟨hturn, hk⟩ := hn.params
  refine .branch (fun ha => ?_) fun _ => ?_
  · rw [Node.isAbsent, hturn.placed.isPresent] at ha
    cases ha
  · refine .bind (.mapM fun m hm => gives_lowerParam hg ?_) fun kids hkids => .pure ?_
    · exact hturn.each hk rfl m (List.mem_filter.1 hm).1
    · exact low_like hturn.placed hk rfl (fit_each hkids)

theorem gives_lowerBody {params : Node} {prologue : List Node → List Node} (hg : Handles f d g)
    (hn : Due f d .block n) (hp : ∀ xs, LowAll f .stmt xs → LowAll f .stmt (prologue xs)) :
    Gives (lowerBody g params n prologue) (Low f .block) := by
  refine .branch (fun ha => ?_) fun _ => gives_inFunction ?_
  · rw [Node.isAbsent, hn.block.1.placed.isPresent] at ha
    cases ha
  · refine .bind (.collectTemps (Q := LowAll f .stmt) ?_) fun r hr => ?_
    · exact .bind (gives_lowerList hg hn.stmts) fun stmts hstmts => .pure (hp stmts hstmts)
    · exact .bind (gives_withTemps hr) fun stmts hstmts => .pure (low_block hn hstmts)

/-! ## Functions -/

theorem gives_lowerFunction (hg : Handles f d g) (hn : Turn f d p n)
    (hk : n.kind = .funcDecl ∨ n.kind = .funcExpr) (ha : p.allows true n.kind = true) :
    Gives (lowerFunction g n) (Low f p) := by
  obtain ⟨q, hq, hshape⟩ : ∃ q : Place, (q = .optName ∨ q = .optBinder ∨ q = .binder) ∧
      shapeOf p n.kind n.flags = { first := [q, .params, .block] } := by
    rcases hk with hk | hk <;> rw [hk]
    · exact ⟨_, .inr (declaredPlace_eq p), rfl⟩
    · exact ⟨_, .inl rfl, rfl⟩
  have hname := hn.kid rfl 0 (by rw [hshape]; rfl)
  have hparams := hn.kid rfl 1 (by rw [hshape]; rfl)
  have hbody := hn.kid rfl 2 (by rw [hshape]; rfl)
  refine gives_inConstructor (.bind (gives_lowerParams hg hparams) fun params hparams => ?_)
  refine .bind (gives_lowerBody hg hbody fun _ h => h) fun body hbody => .skip fun _ => .pure ?_
  refine low_like hn.placed rfl ha ?_
  rw [hshape]
  exact fit_first (low_declared hq hname.fits) (fit_first hparams (fit_first hbody fit_none))

theorem gives_lowerArrow (hg : Handles f d g) (hn : Turn f d .expr n) (hk : n.kind = .arrow) :
    Gives (lowerArrow g n) (Low f .expr) := by
  refine .bind (gives_lowerParams hg (hn.kid hk 0 rfl)) fun params hparams => .skip fun _ => ?_
  have hbody : Due f d (if n.flags.exprBody then .expr else .block) (n.kid 1) := hn.kid hk 1 rfl
  have hlike (x : Node) (hx : Low f (if n.flags.exprBody then .expr else .block) x) :
      Low f .expr (like n [params, x]) :=
    low_like hn.placed hk rfl (fit_first hparams (fit_first hx fit_none))
  refine .branch (fun hb => ?_) fun hb => ?_
  · rw [if_neg (by simpa using hb)] at hbody hlike
    exact .bind (gives_lowerBody hg hbody fun _ h => h) fun body hbody => .pure (hlike body hbody)
  · rw [if_pos (by simpa using hb)] at hbody hlike
    have hspan : f.holds (n.kid 1).span = true := hbody.fits.span
    refine .bind (gives_inFunction (.collectTemps (hg.exprOf hbody))) fun r hr => ?_
    refine .branch (fun _ => .pure (hlike _ hr)) fun _ => ?_
    -- the temporaries need a block around the value
    have hreturn : Low f .stmt (.new .returnStmt (n.kid 1).span [r.1]) :=
      low_new rfl (by simp) hspan (fit_first (fits_le .expr_optExpr hr) fit_none)
    refine .bind (gives_withTemps (.one hreturn)) fun stmts hstmts => .pure ?_
    have hblock : Low f .block (.new .block (n.kid 1).span stmts) :=
      low_new rfl (by simp) hspan (fit_each hstmts)
    refine fits_ofHead (h := { n.head with
      flags := { n.flags.runtime with exprBody := false }, mark := 0 }) ?_ hn.placed.span
        (.inl ?_) ?_
    · show Place.allows true .expr n.kind = true
      rw [hk]
      rfl
    · show n.kind ≠ .binary
      rw [hk]
      decide
    · show kidsFit _ (shapeOf .expr n.kind _).first (shapeOf .expr n.kind _).rest _ = true
      rw [hk]
      exact fit_first hparams (fit_first hblock fit_none)

/-! ## Members -/

theorem gives_lowerKey (hg : Handles f d g) (hn : Due f d (keyPlace n.flags.computed) (n.kid 0)) :
    Gives (lowerKey g n) (Low f (keyPlace n.flags.computed)) := by
  unfold keyPlace at hn ⊢
  refine .branch (fun hc => ?_) fun hc => ?_
  · rw [if_pos hc] at hn ⊢
    exact hg.exprOf hn
  · rw [if_neg hc] at hn ⊢
    exact .pure (low_name hn.fits)

theorem gives_lowerDecorators (hg : Handles f d g) (hns : ∀ n ∈ ns, Due f d .decorator n) :
    Gives (lowerDecorators g ns) (LowAll f .decorator) := by
  refine .mapM fun n hn => ?_
  have hturn := (hns n hn).present rfl fun _ => rfl
  have hk : n.kind = .decorator := by simpa [Place.allows] using hturn.placed.allowed
  refine .bind (hg.exprOf (hturn.kid hk 0 rfl)) fun r hr => .pure ?_
  exact low_like hturn.placed hk rfl (fit_first hr fit_none)

theorem gives_propertyOfParam (hs : f.holds n.span = true) :
    Gives (propertyOfParam n) (LowAll f .stmt) := by
  unfold propertyOfParam
  extract_lets name
  refine .branch (fun _ => .skip fun _ => .pure .nil) fun _ => .pure (.one ?_)
  have hthis : Low f .expr (.new .thisExpr n.span []) := low_new rfl (by simp) hs fit_none
  exact low_exprStmt hs (low_assign hs (low_member hs hthis) (low_ident rfl hs))

theorem gives_propertiesOfParams (hn : Due f d .params n) :
    Gives (propertiesOfParams n) (LowAll f .stmt) := by
  obtain ⟨hturn, hk⟩ := hn.params
  refine .bind (.mapM fun m hm => gives_propertyOfParam ?_) fun sets hsets => .pure (.flatten hsets)
  have hparam := hturn.each hk rfl m (List.mem_filter.1 hm).1
  exact hparam.fits.span

theorem gives_lowerMethod {derived : Bool} (hg : Handles f d g) (hn : Turn f d p n)
    (hk : n.kind = .method) (ha : p.allows true .method = true) :
    Gives (lowerMethod g derived n) (Low f p) := by
  have hparams : Due f d .params (n.kid 1) := hn.kid hk 1 rfl
  refine gives_inConstructor (.bind (gives_lowerKey hg (hn.kid hk 0 rfl)) fun key hkey => ?_)
  refine .bind (gives_lowerParams hg hparams) fun params' hparams' => ?_
  refine .either (R := LowAll f .stmt) (fun _ => gives_propertiesOfParams hparams)
    (fun _ => .pure .nil) fun props hprops => ?_
  refine .bind (gives_lowerBody hg (hn.kid hk 2 rfl) fun xs hxs => ?_) fun body hbody => ?_
  · split
    · exact hxs
    · exact forall_afterSuper hprops hxs
  refine .skip fun _ => .bind (gives_lowerDecorators hg hn.decos) fun decos hdecos => .pure ?_
  refine fits_withDecos hdecos (low_dropOptional (low_like hn.placed hk ha ?_))
  exact fit_first hkey (fit_first hparams' (fit_first hbody fit_none))

theorem gives_lowerField (hg : Handles f d g) (hn : Turn f d .member n) (hk : n.kind = .property) :
    Gives (lowerField g n) (Low f .member) := by
  refine .bind (gives_lowerDecorators hg hn.decos) fun decos hdecos => ?_
  refine .bind (gives_lowerKey hg (hn.kid hk 0 rfl)) fun key hkey => ?_
  refine .bind (gives_lowerOptional hg rfl (hn.kid hk 1 rfl)) fun init hinit =>
    .skip fun _ => .pure ?_
  refine fits_withDecos hdecos (low_dropOptional (low_like hn.placed hk rfl ?_))
  exact fit_first hkey (fit_first hinit fit_none)

theorem gives_lowerStaticBlock (hg : Handles f d g) (hn : Turn f d .member n)
    (hk : n.kind = .staticBlock) : Gives (lowerStaticBlock g n) (Low f .member) := by
  have hblock : Due f d .block (n.kid 0) := hn.kid hk 0 rfl
  refine .skip fun _ => .bind (.collectTemps (gives_lowerList hg hblock.stmts)) fun r hr => ?_
  refine .bind (gives_withTemps hr) fun stmts hstmts => .pure ?_
  exact low_like hn.placed hk rfl (fit_first (low_block hblock hstmts) fit_none)

theorem gives_lowerMember {derived : Bool} (hg : Handles f d g) (hn : Due f d .member n) :
    Gives (lowerMember g derived n) (LowAll f .member) := by
  have hp : n.isPresent = true := by
    cases n with
    | absent => cases hn.fits
    | mk h ks ds t a x => rfl
  unfold lowerMember
  split
  · rename_i hk
    have hturn := hn.turn hp (by rw [hk]; rfl)
    exact .bind (gives_lowerMethod hg hturn hk rfl) fun r hr => .pure (.one hr)
  · rename_i hk
    have hturn := hn.turn hp (by rw [hk]; rfl)
    refine .branch (fun _ => .skip fun _ => .pure .nil) fun _ => ?_
    exact .bind (gives_lowerField hg hturn hk) fun r hr => .pure (.one hr)
  · rename_i hk
    have hturn := hn.turn hp (by rw [hk]; rfl)
    exact .bind (gives_lowerStaticBlock hg hturn hk) fun r hr => .pure (.one hr)
  · rename_i hmethod hproperty hstatic
    refine .branch (fun ht => absurd ht ?_) fun _ => .skip fun _ => .pure .nil
    -- what is left exists only for the type checker
    rcases (fits_present hp).1 hn.fits with ⟨⟨-, hdrop⟩, -⟩ | hplaced
    · simp only [Place.drops, Bool.or_eq_true, beq_iff_eq] at hdrop
      rcases hdrop with hk | hk <;> rw [hk] <;> decide
    · have hallowed := hplaced.allowed
      simp only [Place.allows, Bool.or_eq_true, beq_iff_eq] at hallowed
      rcases hallowed with (hk | hk) | hk
      · exact absurd hk hmethod
      · exact absurd hk hproperty
      · exact absurd hk hstatic

theorem gives_lowerClass (hg : Handles f d g) (hn : Turn f d p n)
    (hk : n.kind = .classDecl ∨ n.kind = .classExpr) (ha : p.allows true n.kind = true) :
    Gives (lowerClass g n) (Low f p) := by
  obtain ⟨q, hq, hshape⟩ : ∃ q : Place, (q = .optName ∨ q = .optBinder ∨ q = .binder) ∧
      shapeOf p n.kind n.flags = { first := [q, .optExpr, .classBody] } := by
    rcases hk with hk | hk <;> rw [hk]
    · exact ⟨_, .inr (declaredPlace_eq p), rfl⟩
    · exact ⟨_, .inl rfl, rfl⟩
  have hname := hn.kid rfl 0 (by rw [hshape]; rfl)
  have hparent := hn.kid rfl 1 (by rw [hshape]; rfl)
  have hbody := (hn.kid rfl 2 (by rw [hshape]; rfl)).present rfl fun _ => rfl
  have hbodyKind : (n.kid 2).kind = .classBody := by
    simpa [Place.allows] using hbody.placed.allowed
  refine .bind (gives_lowerOptional hg rfl hparent) fun parent hparent => gives_inConstructor ?_
  refine .bind (.mapM fun m hm => gives_lowerMember hg ?_) fun members hmembers => ?_
  · exact hbody.each hbodyKind rfl m hm
  refine .bind (gives_lowerDecorators hg hn.decos) fun decos hdecos => .pure ?_
  have hinner : Low f .classBody (like (n.kid 2) members.flatten) :=
    low_like hbody.placed hbodyKind rfl (fit_each (LowAll.flatten hmembers))
  refine fits_withDecos hdecos (low_like hn.placed rfl ha ?_)
  rw [hshape]
  exact fit_first (low_declared hq hname.fits) (fit_first hparent (fit_first hinner fit_none))

end

end ScriptLower.Lower
