import ScriptLower.Proofs.Lower.Origins

/-!
# Origins of functions and classes

The body of a function or a static block is a list of statements that is no body of a namespace, so
no exported declaration stands in it where it may not stay. The other parts of functions and classes
are expressions and patterns, or are copied.
-/

namespace ScriptLower.Lower

open ScriptLower

section

variable {p : Origin} {c : Context} {n : Node} {g : Rules} {given : Prop} {α : Type} {P : α → Prop}

/-! ## Lists of statements -/

theorem yields_lowerList_made {stmts : List Node} (hg : Emits p g) (hc : c.defines = p.defines)
    (hs : ∀ n ∈ stmts, Stands p c n) :
    Yields c given (lowerList g stmts) fun rs => ∀ r ∈ rs, Made p r := by
  refine yields_lowerListOf fun n hn => hg.stmt hc ?_
  have hstands := hs n hn
  exact ⟨hstands.code, hstands.closed, hstands.placed⟩

/-! ## Scopes -/

theorem yields_inFunction_at {m : LowerM α} {params body : Node} (hc : c.defines = p.defines)
    (hm : ∀ c, c.defines = p.defines → Yields c given m P) :
    Yields c given (inFunction params body m) P := by
  refine .bind yields_read fun x => .branch (fun _ => (hm c hc).under And.left) fun _ => ?_
  exact .elsewhere
    ((hm { c with scopes := functionScope params body :: c.scopes } hc).under And.left)

theorem yields_inConstructor_at {m : LowerM α} {derived : Bool} (hc : c.defines = p.defines)
    (hm : ∀ c, c.defines = p.defines → Yields c given m P) :
    Yields c given (inConstructor derived m) P := .elsewhere (hm _ hc)

/-! ## Parameters and bodies -/

/-- A copy of a node that holds no statements. -/
theorem From.copy {ks : List Node} (hn : From p n) (hs : n.kind.holdsStatements = false)
    (hks : ∀ k ∈ ks, Made p k) : Made p (Lower.like n ks) :=
  hn.like (fun he => absurd he (ne_of_holdsNothing hs rfl)) hks

theorem yields_lowerOptional_made (hg : Emits p g) (hc : c.defines = p.defines) (hn : From p n) :
    Yields c given (lowerOptional g n) (Made p) :=
  .branch (fun _ => .pure fun _ => .absent) fun _ => hg.expr hc hn

theorem yields_lowerParam_made (hg : Emits p g) (hc : c.defines = p.defines) (hn : From p n)
    (hp : n.kind = .exportDecl → p.exports) : Yields c given (lowerParam g n) (Made p) := by
  have hrest (given : Prop) : Yields c given (do
      let binding ← g.pattern false (n.kid 0)
      let init ← lowerOptional g (n.kid 1)
      return dropOptional (like n [binding, init])) (Made p) := by
    refine .bind (hg.pattern false hc (hn.kid 0)) fun binding => ?_
    refine .bind (yields_lowerOptional_made hg hc (hn.kid 1)) fun init => .pure fun h => ?_
    exact (hn.like hp (by simp [h.1.2, h.2])).mapFlags
  unfold lowerParam
  split
  · exact hrest given
  · exact .bind (yields_warnAt _ _ _) fun _ => hrest _

theorem yields_lowerParams_made (hg : Emits p g) (hc : c.defines = p.defines) (hn : Part p n) :
    Yields c given (lowerParams g n) (Made p) := by
  refine .branch (fun _ => .pure fun _ => .absent) fun _ => ?_
  refine .bind (.mapM fun q hq => ?_) fun kids => .pure fun h => hn.like h.2
  have hkid := (List.mem_filter.1 hq).1
  exact yields_lowerParam_made hg hc (hn.code.mem hkid) (hn.closed q hkid)

theorem yields_lowerBody_made {params : Node} {prologue : List Node → List Node} (hg : Emits p g)
    (hc : c.defines = p.defines) (hn : Part p n)
    (hp : given → ∀ xs : List Node, (∀ x ∈ xs, Made p x) → ∀ x ∈ prologue xs, Made p x) :
    Yields c given (lowerBody g params n prologue) (Made p) := by
  refine .branch (fun _ => .pure fun _ => .absent) fun _ => yields_inFunction_at hc fun c hc => ?_
  refine .bind (yields_collectTemps (P := fun xs => ∀ x ∈ xs, Made p x) ?_) fun r => ?_
  · refine .bind (yields_lowerList_made hg hc fun k hk => hn.stands_mem hk) fun stmts => ?_
    exact .pure fun h => hp h.1 stmts h.2
  · refine .bind (yields_withTemps_made And.right) fun stmts => .pure fun h => hn.like h.2

/-! ## Functions -/

theorem yields_lowerFunction_made (hg : Emits p g) (hc : c.defines = p.defines) (hn : From p n)
    (hs : n.kind.holdsStatements = false) : Yields c given (lowerFunction g n) (Made p) := by
  refine yields_inConstructor_at hc fun c hc => ?_
  refine .bind (yields_lowerParams_made hg hc (hn.part hs 1)) fun params => ?_
  refine .bind (yields_lowerBody_made hg hc (hn.part hs 2) fun _ _ h => h) fun body => ?_
  refine .bind yields_noteUnlowered fun _ => .pure fun h => ?_
  have hname : Made p (leaf? (n.kid 0)) := (hn.part hs 0).leaf?
  exact hn.copy hs (by simp [hname, h.1.1.2, h.1.2])

theorem yields_lowerArrow_made (hg : Emits p g) (hc : c.defines = p.defines) (hn : From p n)
    (hs : n.kind.holdsStatements = false) : Yields c given (lowerArrow g n) (Made p) := by
  refine .bind (yields_lowerParams_made hg hc (hn.part hs 0)) fun params => ?_
  refine .bind yields_noteUnlowered fun _ => .branch (fun _ => ?_) fun _ => ?_
  · refine .bind (yields_lowerBody_made hg hc (hn.part hs 1) fun _ _ h => h) fun body => ?_
    exact .pure fun h => hn.copy hs (by simp [h.1.1.2, h.2])
  · have hvalue (given : Prop) (c : Context) (hc : c.defines = p.defines) :
        Yields c given (collectTemps (g.expr (n.kid 1))) fun r => Made p r.1 :=
      yields_collectTemps (hg.expr hc (hn.kid 1))
    refine .bind (yields_inFunction_at hc (hvalue _)) fun r => ?_
    refine .branch (fun _ => .pure fun h => hn.copy hs (by simp [h.1.1.2, h.2])) fun _ => ?_
    refine .bind (yields_withTemps_made (p := p) fun h => ?_) fun stmts => .pure fun h => ?_
    · have hreturn : Made p (.new .returnStmt (n.kid 1).span [r.1]) := .new rfl (by simpa using h.2)
      simpa using hreturn
    · have hblock : Made p (.new .block (n.kid 1).span stmts) := .new rfl h.2
      exact (hn.copy hs (by simp [h.1.1.1.2, hblock])).mapFlags

/-! ## Members -/

theorem yields_lowerKey_made (hg : Emits p g) (hc : c.defines = p.defines) (hn : From p n)
    (hk : Closed p n) : Yields c given (lowerKey g n) (Made p) :=
  .branch (fun _ => hg.expr hc (hn.kid 0)) fun _ => .pure fun _ => (hn.kid 0).leaf (hk.kid 0)

theorem yields_lowerDecorators_made (hg : Emits p g) (hc : c.defines = p.defines) (hn : From p n) :
    Yields c given (lowerDecorators g n.decos) fun rs => ∀ r ∈ rs, Made p r := by
  refine .mapM fun d hd => .bind (hg.expr hc ((hn.deco hd).kid 0)) fun r => .pure fun h => ?_
  exact (hn.deco hd).like (hn.deco_plain hd) (by simpa using h.2)

theorem yields_propertiesOfParams_made {params : Node} :
    Yields c given (propertiesOfParams params) fun rs => ∀ r ∈ rs, Made p r := by
  refine .bind (.mapM (Q := fun rs => ∀ r ∈ rs, Made p r) fun q _ => ?_) fun sets =>
    .pure fun h => made_flatten h.2
  unfold propertyOfParam
  refine .branch (fun _ => .error_then (.pure False.elim)) fun _ => .pure fun _ => ?_
  simpa using .exprStmt _ (.assign _ (.member _ _ made_this) made_ident)

theorem yields_lowerMethod_made {derived : Bool} (hg : Emits p g) (hc : c.defines = p.defines)
    (hn : From p n) (hs : n.kind.holdsStatements = false) :
    Yields c given (lowerMethod g derived n) (Made p) := by
  have hclosed : Closed p n := hn.closed (ne_of_holdsNothing hs rfl)
  refine yields_inConstructor_at hc fun c hc => ?_
  refine .bind (yields_lowerKey_made hg hc hn hclosed) fun key => ?_
  refine .bind (yields_lowerParams_made hg hc (hn.part hs 1)) fun params => ?_
  refine .either (R := fun rs => ∀ r ∈ rs, Made p r) (fun _ => yields_propertiesOfParams_made)
    (fun _ => .pure fun _ => by simp) fun props => ?_
  refine .bind (yields_lowerBody_made hg hc (hn.part hs 2) fun h xs hxs => ?_) fun body => ?_
  · split
    · exact hxs
    · exact forall_afterSuper h.2 hxs
  refine .bind yields_noteUnlowered fun _ => ?_
  refine .bind (yields_lowerDecorators_made hg hc hn) fun decos => .pure fun h => ?_
  obtain ⟨⟨⟨⟨⟨⟨-, hkey⟩, hparams⟩, -⟩, hbody⟩, -⟩, hdecos⟩ := h
  exact (hn.copy hs (by simp [hkey, hparams, hbody])).mapFlags.withDecos hdecos

theorem yields_lowerField_made (hg : Emits p g) (hc : c.defines = p.defines) (hn : From p n)
    (hs : n.kind.holdsStatements = false) : Yields c given (lowerField g n) (Made p) := by
  have hclosed : Closed p n := hn.closed (ne_of_holdsNothing hs rfl)
  refine .bind (yields_lowerDecorators_made hg hc hn) fun decos => ?_
  refine .bind (yields_lowerKey_made hg hc hn hclosed) fun key => ?_
  refine .bind (yields_lowerOptional_made hg hc (hn.kid 1)) fun init => ?_
  refine .bind yields_noteUnlowered fun _ => .pure fun h => ?_
  obtain ⟨⟨⟨⟨-, hdecos⟩, hkey⟩, hinit⟩, -⟩ := h
  exact (hn.copy hs (by simp [hkey, hinit])).mapFlags.withDecos hdecos

theorem yields_lowerStaticBlock_made (hg : Emits p g) (hc : c.defines = p.defines) (hn : From p n)
    (hs : n.kind.holdsStatements = false) : Yields c given (lowerStaticBlock g n) (Made p) := by
  have hblock : Part p (n.kid 0) := hn.part hs 0
  refine .bind yields_noteUnlowered fun _ => ?_
  refine .bind
    (yields_collectTemps (yields_lowerList_made hg hc fun k hk => hblock.stands_mem hk)) ?_
  refine fun r => .bind (yields_withTemps_made And.right) fun stmts => .pure fun h => ?_
  exact hn.copy hs (by simpa using hblock.like h.2)

theorem yields_lowerMember_made {derived : Bool} (hg : Emits p g) (hc : c.defines = p.defines)
    (hn : From p n) : Yields c given (lowerMember g derived n) fun rs => ∀ r ∈ rs, Made p r := by
  have hnone (given : Prop) : Yields c given (do
      onComments (·.drop n.span.start)
      return []) fun rs => ∀ r ∈ rs, Made p r := .bind (yields_onComments _) fun _ =>
        .pure fun _ => by simp
  have hsingle {m : LowerM Node} (hm : Yields c given m (Made p)) :
      Yields c given (do return [← m]) fun rs => ∀ r ∈ rs, Made p r :=
    .bind hm fun _ => .pure fun h => by simpa using h.2
  unfold lowerMember
  split
  · exact hsingle (yields_lowerMethod_made hg hc hn (by simp [*, NodeKind.holdsStatements]))
  · refine .branch (fun _ => hnone given) fun _ => ?_
    exact hsingle (yields_lowerField_made hg hc hn (by simp [*, NodeKind.holdsStatements]))
  · exact hsingle (yields_lowerStaticBlock_made hg hc hn (by simp [*, NodeKind.holdsStatements]))
  · exact .branch (fun _ => .error_then (hnone False)) fun _ => hnone given

theorem yields_lowerClass_made (hg : Emits p g) (hc : c.defines = p.defines) (hn : From p n)
    (hs : n.kind.holdsStatements = false) : Yields c given (lowerClass g n) (Made p) := by
  refine .bind (yields_lowerOptional_made hg hc (hn.kid 1)) fun parent => ?_
  refine yields_inConstructor_at hc fun c hc => ?_
  refine .bind (.mapM fun m hm => yields_lowerMember_made hg hc ((hn.kid 2).mem hm))
    fun members => ?_
  refine .bind (yields_lowerDecorators_made hg hc hn) fun decos => .pure fun h => ?_
  have hname : Made p (leaf? (n.kid 0)) := (hn.part hs 0).leaf?
  have hbody : Made p (like (n.kid 2) members.flatten) := (hn.part hs 2).like (made_flatten h.1.2)
  exact (hn.copy hs (by simp [hname, h.1.1.2, hbody])).withDecos h.2

end

end ScriptLower.Lower
