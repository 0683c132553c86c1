import ScriptLower.Proofs.Lower.Captures

/-!
# Lowering functions and classes

A function, a class or a list of statements is lowered to good code when the rules lower its parts
so. The body of a function is lowered inside one more scope, which exports no name.
-/

namespace ScriptLower.Lower

open ScriptLower

section

variable {a : Aim} {c : Context} {n : Node} {g : Rules} {given : Prop} {α : Type} {P : α → Prop}

theorem Source.ref (h : Source a n) : Ref a n := fun hk _ => h.covers.ident hk

/-! ## Lists of statements -/

/-- What holds of whatever the statements of a list become holds of all that the list becomes. -/
theorem yields_lowerEach {P : Node → Prop} {stmts : List Node} :
    ∀ {given : Prop} {orphans : List Nat},
      (∀ n ∈ stmts, Yields c given (g.stmt n) fun rs => ∀ r ∈ rs, P r) →
      Yields c given (lowerEach g stmts orphans) fun rs => ∀ r ∈ rs, P r := by
  induction stmts with
  | nil => exact fun _ => .pure fun _ => by simp
  | cons n rest ih =>
    intro given orphans hs
    have hrest (x : Node) (hx : x ∈ rest) := hs x (List.mem_cons_of_mem _ hx)
    refine .bind (hs n List.mem_cons_self) fun rs => ?_
    split
    · refine .bind (yields_onComments _) fun _ => .bind yields_get fun s => ?_
      exact ih fun x hx => (hrest x hx).under fun h => h.1.1.1
    · refine .branch (fun _ => ?_) fun _ => .bind (yields_onComments _) fun _ => ?_
      · refine .bind (ih fun x hx => (hrest x hx).under And.left) fun more => .pure fun h => ?_
        exact List.forall_mem_append.2 ⟨h.1.2, h.2⟩
      · refine .bind (ih fun x hx => (hrest x hx).under fun h => h.1.1) fun more =>
          .pure fun h => ?_
        exact List.forall_mem_append.2 ⟨h.1.1.2, h.2⟩

theorem yields_lowerListOf {P : Node → Prop} {stmts : List Node}
    (hs : ∀ n ∈ stmts, Yields { c with listDepth := c.listDepth + 1 } given (g.stmt n)
      fun rs => ∀ r ∈ rs, P r) :
    Yields c given (lowerList g stmts) fun rs => ∀ r ∈ rs, P r := by
  refine .bind yields_get fun s => .bind (yields_modify fun _ => rfl) fun _ => ?_
  refine .bind (.elsewhere (yields_lowerEach fun n hn => (hs n hn).under fun h => h.1.1))
    fun out => ?_
  exact .bind (yields_modify fun _ => rfl) fun _ => .pure fun h => h.1.2

theorem yields_lowerList {stmts : List Node} (hg : Lowers a g)
    (hs : given → ∀ n ∈ stmts, At a c n) :
    Yields c given (lowerList g stmts) fun rs => ∀ r ∈ rs, Fine a r := by
  refine yields_lowerListOf fun n hn => (hg.stmt _ n).under fun h => ?_
  have hat := hs h n hn
  exact ⟨⟨hat.ctx.version, hat.ctx.scopes, hat.ctx.classic⟩, hat.source⟩

/-! ## Scopes -/

theorem Ctx.inScope {s : Scope} (hc : Ctx a c) (hs : a.names s.name) :
    Ctx a { c with scopes := s :: c.scopes } :=
  ⟨hc.version, List.forall_mem_cons.2 ⟨hs, hc.scopes⟩, hc.classic⟩

theorem yields_inFunction {m : LowerM α} {params body : Node}
    (hm : ∀ c', Yields c' (Ctx a c' ∧ given) m P) :
    Yields c (Ctx a c ∧ given) (inFunction params body m) P := by
  refine .bind yields_read fun x => .branch (fun _ => (hm c).under And.left) fun _ => ?_
  exact .elsewhere ((hm _).under fun h => ⟨h.1.1.inScope a.nameless, h.1.2⟩)

theorem yields_inConstructor (given : Prop) {m : LowerM α} {derived : Bool}
    (hm : ∀ c', Yields c' (Ctx a c' ∧ given) m P) :
    Yields c (Ctx a c ∧ given) (inConstructor derived m) P :=
  .elsewhere ((hm _).under fun h => ⟨⟨h.1.version, h.1.scopes, h.1.classic⟩, h.2⟩)

/-! ## Parameters and bodies -/

theorem yields_lowerOptional (hg : Lowers a g) (hn : given → At a c n) :
    Yields c given (lowerOptional g n) (Fine a) :=
  .branch (fun _ => .pure fun _ => .absent) fun _ => hg.exprOf hn

theorem fine_dropOptional (hk : isPlain n.kind = true) (hn : Fine a n) : Fine a (dropOptional n) :=
  hn.mapFlags hk rfl

theorem plain_of_isA {k : NodeKind} {ks : List Node} (hn : IsA k n) (hk : isPlain k = true) :
    isPlain (like n ks).kind = true := by
  rcases hn with rfl | hn
  · rfl
  · show isPlain n.kind = true
    rw [hn]
    exact hk

theorem yields_lowerParam (hg : Lowers a g) (hn : given → At a c n ∧ IsA .param n) :
    Yields c given (lowerParam g n) (Fine a) := by
  have hrest : Yields c given (do
      let binding ← g.pattern false (n.kid 0)
      let init ← lowerOptional g (n.kid 1)
      return dropOptional (like n [binding, init])) (Fine a) := by
    refine hg.pattern_then (fun h => (hn h).1.part (hn h).2 0 rfl) fun binding => ?_
    refine .bind (yields_lowerOptional hg fun h => (hn h.1).1.part (hn h.1).2 1 rfl) fun init => ?_
    refine .pure fun h => ?_
    obtain ⟨⟨hgiven, hb⟩, hi⟩ := h
    have hA := (hn hgiven).2
    exact fine_dropOptional (plain_of_isA hA rfl) (.likeA hA rfl (by simp [hb, hi]))
  unfold lowerParam
  split
  · exact hrest
  · exact .bind (yields_warnAt _ _ _) fun _ => hrest.under And.left

theorem yields_lowerParams (hg : Lowers a g) (hn : given → At a c n ∧ IsA .params n) :
    Yields c given (lowerParams g n) (Fine a) := by
  refine .branch (fun _ => .pure fun _ => .absent) fun hp => ?_
  refine .bind (.mapM fun p hmem => yields_lowerParam hg fun h => ?_) fun kids => .pure fun h => ?_
  · have hkid := (List.mem_filter.1 hmem).1
    obtain ⟨hat, hA⟩ := hn h
    refine ⟨hat.parts hA (fun _ => rfl) hkid, ?_⟩
    rcases hA with rfl | hk
    · cases hkid
    · refine hat.source.toSpine.mem_isA (j := 0) hkid fun i => ?_
      exact kindsAt_of_kind (show n.head.kind = .params from hk) _
  · exact .likeA (hn h.1).2 rfl h.2

theorem yields_lowerBody (given : Prop) {params : Node} {prologue : List Node → List Node}
    (hg : Lowers a g)
    (hn : given → Source a n ∧ IsA .block n)
    (hp : given → ∀ xs : List Node, (∀ x ∈ xs, Fine a x) → ∀ x ∈ prologue xs, Fine a x) :
    Yields c (Ctx a c ∧ given) (lowerBody g params n prologue) (Fine a) := by
  refine .branch (fun _ => .pure fun _ => .absent) fun _ => yields_inFunction fun c' => ?_
  refine .bind (yields_collectTemps (P := fun xs => ∀ x ∈ xs, Fine a x) ?_) fun r => ?_
  · refine .bind (yields_lowerList hg fun h x hx => ?_) fun stmts => .pure fun h => ?_
    · exact ⟨h.1, (hn h.2).1.parts (hn h.2).2 (fun _ => rfl) x hx⟩
    · exact hp h.1.2 stmts h.2
  · refine .bind (yields_withTemps a fun h => h.2) fun stmts => .pure fun h => ?_
    exact .likeA (hn h.1.1.2).2 rfl h.2

/-! ## Functions -/

/-- The parameters and the body of a function. -/
theorem function_parts (h : Source a n) (hk : n.kind = .funcDecl ∨ n.kind = .funcExpr) :
    Source a (n.kid 0) ∧ (Source a (n.kid 1) ∧ IsA .params (n.kid 1)) ∧
      (Source a (n.kid 2) ∧ IsA .block (n.kid 2)) := by
  rcases hk with hk | hk <;>
  · have hhead : n.head.kind = _ := hk
    exact ⟨h.kid hk 0 rfl, ⟨h.kid hk 1 rfl, h.toSpine.kid_isA 1 (kindsAt_of_kind hhead _)⟩,
      h.kid hk 2 rfl, h.toSpine.kid_isA 2 (kindsAt_of_kind hhead _)⟩

theorem yields_lowerFunction (hg : Lowers a g) (hk : n.kind = .funcDecl ∨ n.kind = .funcExpr) :
    Yields c (At a c n) (lowerFunction g n) (Fine a) := by
  have hparts (h : Source a n) := function_parts h hk
  refine (yields_inConstructor (Source a n) fun c' => ?_).under fun h => ⟨h.ctx, h.source⟩
  refine .bind (yields_lowerParams hg fun h => ⟨⟨h.1, (hparts h.2).2.1.1⟩, (hparts h.2).2.1.2⟩) ?_
  intro params
  refine .bind ((yields_lowerBody (Source a n) hg (fun h => (hparts h).2.2)
    fun _ _ h => h).under And.left) fun body => ?_
  refine .bind yields_noteUnlowered fun _ => .pure fun h => ?_
  have hname : Fine a (leaf? (n.kid 0)) := .leaf? (hparts h.1.1.1.2).1.ref
  have hplain : isPlain n.kind = true := by rcases hk with hk | hk <;> rw [hk] <;> rfl
  exact .like rfl hplain (by simp [hname, h.1.1.2, h.1.2])

theorem yields_lowerArrow (hg : Lowers a g) (hk : n.kind = .arrow) :
    Yields c (At a c n) (lowerArrow g n) (Fine a) := by
  have hhead : n.head.kind = .arrow := hk
  refine .bind (yields_lowerParams hg fun h => ⟨h.kid hk 0 rfl, ?_⟩) fun params => ?_
  · exact h.source.toSpine.kid_isA 0 (kindsAt_of_kind hhead _)
  refine .bind yields_noteUnlowered fun _ => .branch (fun hb => ?_) fun hb => ?_
  · have hblock : kindsAt n.head 1 = [.block] := by
      have hb : n.head.flags.exprBody = false := by simpa [Node.flags] using hb
      refine (kindsAt_of_kind hhead 1).trans ?_
      show (if n.head.flags.exprBody then [] else [NodeKind.block]) = [.block]
      rw [hb]
      rfl
    refine .bind ((yields_lowerBody (Source a n) hg (fun h => ⟨h.kid hk 1 rfl, ?_⟩)
      fun _ _ h => h).under fun h => ⟨h.1.1.ctx, h.1.1.source⟩) fun body => .pure fun h => ?_
    · exact h.toSpine.kid_isA 1 hblock
    · exact .like hk rfl (by simp [h.1.1.2, h.2])
  · have hbody (c' : Context) : Yields c' (Ctx a c' ∧ Source a n)
        (collectTemps (g.expr (n.kid 1))) fun r => Fine a r.1 :=
      yields_collectTemps (hg.exprOf fun h => ⟨h.1, h.2.kid hk 1 rfl⟩)
    refine .bind ((yields_inFunction hbody).under fun h => ⟨h.1.1.ctx, h.1.1.source⟩) fun r => ?_
    refine .branch (fun _ => .pure fun h => .like hk rfl (by simp [h.1.1.2, h.2])) fun _ => ?_
    refine .bind (yields_withTemps a fun h => ?_) fun stmts => .pure fun h => ?_
    · have hreturn : Fine a (.new .returnStmt (n.kid 1).span [r.1]) :=
        .new rfl _ (by simpa using h.2)
      simpa using hreturn
    · have hblock : Fine a (.new .block (n.kid 1).span stmts) := .new rfl _ h.2
      refine Fine.mapFlags (plain_of_isA (.inr hk) rfl) (.like hk rfl ?_) rfl
      simp [h.1.1.1.2, hblock]

/-! ## Members -/

theorem yields_lowerKey {k : NodeKind} (hg : Lowers a g) (hn : given → At a c n) (hk : n.kind = k)
    (hkey : enters k true 0 = true) :
    Yields c given (lowerKey g n) fun r => Good a r ∧ (n.flags.computed = true → Ref a r) := by
  refine .branch (fun hc => ?_) fun hc => .pure fun _ => ⟨.leafOf _, fun e => absurd e hc⟩
  refine (hg.exprOf fun h => ?_).mono fun r _ hr => ⟨hr.good, fun _ => hr.ref⟩
  exact (hn h).kid hk 0 (by rw [hc]; exact hkey)

theorem yields_lowerDecorators {ds : List Node} (hg : Lowers a g)
    (hd : given → ∀ d ∈ ds, At a c d ∧ d.kind = .decorator) :
    Yields c given (lowerDecorators g ds) fun rs => ∀ r ∈ rs, Fine a r := by
  refine .mapM fun d hmem => ?_
  refine hg.expr_then (fun h => (hd h d hmem).1.kid (hd h d hmem).2 0 rfl) fun r =>
    .pure fun h => ?_
  exact .like (hd h.1 d hmem).2 rfl (by simpa using h.2)

theorem At.decos (h : At a c n) (hk : n.kind.isType = false) :
    ∀ d ∈ n.decos, At a c d ∧ d.kind = .decorator := by
  intro d hd
  obtain ⟨hsource, hkind⟩ := h.source.deco hk hd
  exact ⟨⟨h.ctx, hsource⟩, hkind⟩

theorem yields_propertyOfParam (a : Aim) {p : Node} (hp : given → Source a p ∧ IsA .param p) :
    Yields c given (propertyOfParam p) fun rs => ∀ r ∈ rs, Fine a r := by
  unfold propertyOfParam
  extract_lets name
  refine .branch (fun _ => .error_then (.pure False.elim)) fun hk => .pure fun h => ?_
  have hident : name.kind = .ident := by simpa using hk
  have hname : Source a name := by
    have hkid := (hp h).1.part (hp h).2 0 rfl
    show Source a (if (p.kid 0).kind == .assignPattern then (p.kid 0).kid 0 else p.kid 0)
    split
    · rename_i he
      exact hkid.kid (beq_iff_eq.1 he) 0 rfl
    · exact hkid
  have htarget : Fine a (.member (.new .thisExpr p.span []) name.text p.span) :=
    .member (.new rfl _ (by simp)) _ _
  have hvalue : Fine a (.ident name.text p.span) := .ident (hname.covers.ident hident) _
  have hset : Fine a (.new .exprStmt p.span [assign p.span
      (.member (.new .thisExpr p.span []) name.text p.span) (.ident name.text p.span)]) :=
    .new rfl _ (by simpa using .assign _ htarget hvalue)
  simpa using hset

theorem yields_propertiesOfParams {params : Node}
    (hp : given → Source a params ∧ IsA .params params) :
    Yields c given (propertiesOfParams params) fun rs => ∀ r ∈ rs, Fine a r := by
  refine .bind (.mapM fun p hmem => yields_propertyOfParam a fun h => ?_) fun sets =>
    .pure fun h => ?_
  · have hkid := (List.mem_filter.1 hmem).1
    obtain ⟨hsource, hA⟩ := hp h
    refine ⟨hsource.parts hA (fun _ => rfl) p hkid, ?_⟩
    rcases hA with rfl | hk
    · cases hkid
    · refine hsource.toSpine.mem_isA (j := 0) hkid fun i => ?_
      exact kindsAt_of_kind (show params.head.kind = .params from hk) _
  · intro r hr
    obtain ⟨rs, hrs, hr⟩ := List.mem_flatten.1 hr
    exact h.2 rs hrs r hr

theorem yields_lowerMethod {derived : Bool} (hg : Lowers a g) (hk : n.kind = .method) :
    Yields c (At a c n) (lowerMethod g derived n) fun r => Fine a r ∧ r.kind = .method := by
  have hhead : n.head.kind = .method := hk
  have hreads (i : Nat) (hi : i ≠ 0) : enters .method n.flags.computed i = true := by
    simp [enters, NodeKind.reads, hi]
  have hparams (h : Source a n) : Source a (n.kid 1) ∧ IsA .params (n.kid 1) :=
    ⟨h.kid hk 1 (hreads 1 (by decide)), h.toSpine.kid_isA 1 (kindsAt_of_kind hhead _)⟩
  have hbody (h : Source a n) : Source a (n.kid 2) ∧ IsA .block (n.kid 2) :=
    ⟨h.kid hk 2 (hreads 2 (by decide)), h.toSpine.kid_isA 2 (kindsAt_of_kind hhead _)⟩
  refine (yields_inConstructor (Source a n) fun c' => ?_).under fun h => ⟨h.ctx, h.source⟩
  refine .bind (yields_lowerKey hg (fun h => ⟨h.1, h.2⟩) hk rfl) fun key => ?_
  refine .bind (yields_lowerParams hg fun h => ⟨⟨h.1.1, (hparams h.1.2).1⟩, (hparams h.1.2).2⟩) ?_
  intro params
  refine .either (R := fun rs => ∀ r ∈ rs, Fine a r)
    (fun _ => yields_propertiesOfParams fun h => hparams h.1.1.2)
      (fun _ => .pure fun _ => by simp) ?_
  intro props
  refine .bind ((yields_lowerBody (Source a n ∧ ∀ r ∈ props, Fine a r) hg
    (fun h => hbody h.1) fun h xs hxs => ?_).under fun h => ⟨h.1.1.1.1, h.1.1.1.2, h.2⟩)
      fun body => ?_
  · split
    · exact hxs
    · exact forall_afterSuper h.2 hxs
  refine .bind yields_noteUnlowered fun _ => ?_
  refine .bind (yields_lowerDecorators hg fun h => ?_) fun decos => .pure fun h => ?_
  · exact At.decos ⟨h.1.1.1.1.1.1, h.1.1.1.1.1.2⟩ (by rw [hk]; rfl)
  · obtain ⟨⟨⟨⟨⟨⟨-, hkey⟩, hparams⟩, -⟩, hbody⟩, -⟩, hdecos⟩ := h
    refine ⟨Fine.withDecos (fine_dropOptional (plain_of_isA (.inr hk) rfl) ?_) hdecos, hk⟩
    exact .keyed hk (.inr (.inl rfl)) hkey.1 hkey.2 (by simp [hparams, hbody])

theorem yields_lowerField (hg : Lowers a g) (hk : n.kind = .property) :
    Yields c (At a c n) (lowerField g n) (Fine a) := by
  refine .bind (yields_lowerDecorators hg fun h => h.decos (by rw [hk]; rfl)) fun decos => ?_
  refine .bind (yields_lowerKey hg (fun h => h.1) hk rfl) fun key => ?_
  refine .bind (yields_lowerOptional hg fun h => h.1.1.kid hk 1 ?_) fun init => ?_
  · simp [enters, NodeKind.reads]
  refine .bind yields_noteUnlowered fun _ => .pure fun h => ?_
  obtain ⟨⟨⟨⟨-, hdecos⟩, hkey⟩, hinit⟩, -⟩ := h
  refine Fine.withDecos (fine_dropOptional (plain_of_isA (.inr hk) rfl) ?_) hdecos
  exact .keyed hk (.inr (.inr rfl)) hkey.1 hkey.2 (by simpa using hinit)

theorem yields_lowerStaticBlock (hg : Lowers a g) (hk : n.kind = .staticBlock) :
    Yields c (At a c n) (lowerStaticBlock g n) (Fine a) := by
  have hhead : n.head.kind = .staticBlock := hk
  have hblock (h : At a c n) : IsA .block (n.kid 0) :=
    h.source.toSpine.kid_isA 0 (kindsAt_of_kind hhead _)
  refine .bind yields_noteUnlowered fun _ => ?_
  refine .bind (yields_collectTemps (yields_lowerList hg fun h x hx => ?_)) fun r => ?_
  · exact (h.1.kid hk 0 rfl).parts (hblock h.1) (fun _ => rfl) hx
  · refine .bind (yields_withTemps a fun h => h.2) fun stmts => .pure fun h => ?_
    have hinner : Fine a (like (n.kid 0) stmts) := .likeA (hblock h.1.1.1) rfl h.2
    exact .like hk rfl (by simpa using hinner)

theorem yields_lowerMember {derived : Bool} (hg : Lowers a g) :
    Yields c (At a c n) (lowerMember g derived n) fun rs => ∀ r ∈ rs, Fine a r := by
  unfold lowerMember
  split
  · exact .bind (yields_lowerMethod hg ‹_›) fun r => .pure fun h => by simpa using h.2.1
  · refine .branch (fun _ => .bind (yields_onComments _) fun _ => .pure fun _ => by simp)
      fun _ => ?_
    exact .bind (yields_lowerField hg ‹_›) fun r => .pure fun h => by simpa using h.2
  · exact .bind (yields_lowerStaticBlock hg ‹_›) fun r => .pure fun h => by simpa using h.2
  · refine .branch (fun _ => .error_then ?_) fun _ => ?_
    · exact .bind (yields_onComments _) fun _ => .pure fun _ => by simp
    · exact .bind (yields_onComments _) fun _ => .pure fun _ => by simp

theorem yields_lowerClass (hg : Lowers a g) (hk : n.kind = .classDecl ∨ n.kind = .classExpr) :
    Yields c (At a c n) (lowerClass g n) (Fine a) := by
  have hparts (h : Source a n) : Source a (n.kid 0) ∧ Source a (n.kid 1) ∧
      (Source a (n.kid 2) ∧ IsA .classBody (n.kid 2)) := by
    rcases hk with hk | hk <;>
    · have hhead : n.head.kind = _ := hk
      exact ⟨h.kid hk 0 rfl, h.kid hk 1 rfl, h.kid hk 2 rfl,
        h.toSpine.kid_isA 2 (kindsAt_of_kind hhead _)⟩
  refine .bind (yields_lowerOptional hg fun h => ⟨h.ctx, (hparts h.source).2.1⟩) fun parent => ?_
  refine (yields_inConstructor (Source a n ∧ Fine a parent) fun c' => ?_).under
    fun h => ⟨h.1.ctx, h.1.source, h.2⟩
  refine .bind (.mapM fun x hx => (yields_lowerMember hg).under fun h => ⟨h.1, ?_⟩)
    fun members => ?_
  · exact (hparts h.2.1).2.2.1.parts (hparts h.2.1).2.2.2 (fun _ => rfl) x hx
  refine .bind (yields_lowerDecorators hg fun h => ?_) fun decos => .pure fun h => ?_
  · exact At.decos ⟨h.1.1, h.1.2.1⟩ (by rcases hk with hk | hk <;> rw [hk] <;> rfl)
  · obtain ⟨⟨⟨-, hsource, hparent⟩, hmembers⟩, hdecos⟩ := h
    have hname : Fine a (leaf? (n.kid 0)) := .leaf? (hparts hsource).1.ref
    have hbody : Fine a (like (n.kid 2) members.flatten) := by
      refine .likeA (hparts hsource).2.2.2 rfl fun x hx => ?_
      obtain ⟨xs, hxs, hx⟩ := List.mem_flatten.1 hx
      exact hmembers xs hxs x hx
    have hplain : isPlain n.kind = true := by rcases hk with hk | hk <;> rw [hk] <;> rfl
    exact Fine.withDecos (.like rfl hplain (by simp [hname, hparent, hbody])) hdecos

end

end ScriptLower.Lower
