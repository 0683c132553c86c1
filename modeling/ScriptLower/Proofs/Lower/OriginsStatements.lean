import ScriptLower.Proofs.Lower.OriginsExpressions

/-!
# Origins of statements

Only one thing is made that may not stand everywhere: outside of namespaces the declaration of an
exported object is exported, and so is what an exported statement becomes. In the body of a
namespace both are replaced, so there, and where nothing is exported, all of lowered code is as it
should be.
-/

namespace ScriptLower.Lower

open ScriptLower

/-! ## Exported declarations -/

/-- Lowered code, or nothing, that is exported. -/
def Wrapped (p : Origin) (r : Node) : Prop := ∃ span d, Made p d ∧ r = exportWrap span d

/-- Lowered code, or an exported declaration that stands outside of namespaces. -/
def Emitted (p : Origin) (c : Context) (exported : Bool) (r : Node) : Prop :=
  Made p r ∨ (exported = true ∧ ¬InNamespace c) ∧ Wrapped p r

/-- A copy of a node with children that are lowered code, or nothing. -/
def CopyOf (p : Origin) (n r : Node) : Prop :=
  r = .absent ∨ ∃ ks, r = like n ks ∧ ∀ k ∈ ks, Made p k

section

variable {p : Origin} {c : Context} {n r : Node} {g : Rules} {given : Prop} {span : Span}
  {exported : Bool}

theorem Wrapped.made (h : Wrapped p r) (ho : p.exports) : Made p r := by
  obtain ⟨span, d, hd, rfl⟩ := h
  unfold exportWrap
  split
  · exact .absent
  · exact made_ofHead.2 ⟨p.wrapped ho, by simpa using hd⟩

theorem Emitted.made (h : Emitted p c exported r)
    (ho : exported = true → p.exports ∨ InNamespace c) :
    Made p r := by
  rcases h with h | ⟨⟨hexported, houtside⟩, hwrapped⟩
  · exact h
  · exact hwrapped.made ((ho hexported).resolve_right houtside)

theorem CopyOf.made (h : CopyOf p n r) (hn : From p n) (ho : n.kind = .exportDecl → p.exports) :
    Made p r := by
  rcases h with rfl | ⟨ks, rfl, hks⟩
  · exact .absent
  · exact hn.like ho hks

/-! ## Objects filled by a function -/

theorem yields_namespaceScope?_iff :
    Yields c given namespaceScope? fun o => o = none ↔ ¬InNamespace c := by
  refine .bind yields_read fun x => ?_
  split
  · rename_i hs
    refine .pure fun h => ?_
    obtain rfl := h.2
    simp [InNamespace, hs]
  · rename_i s rest hs
    refine .pure fun h => ?_
    obtain rfl := h.2
    simp [InNamespace, hs]

theorem made_objectArgument {name : Bytes} {parent : Option Scope} :
    Made p (objectArgument span name parent) := by
  have hobject : Made p (.new .object span []) := .new rfl (by simp)
  unfold objectArgument
  dsimp only
  split
  · rename_i s
    have hslot : Made p (.member (.ident s.name span) name span) := .member _ _ made_ident
    exact .assign _ made_ident (.bin _ hslot (.paren (.assign _ hslot hobject)))
  · exact .bin _ made_ident (.paren (.assign _ made_ident hobject))

/-- The declaration of an object is exported outside of namespaces, and the call that fills it is
new code. -/
theorem yields_fillObject_made {name : Node} {body : List Node} {parent : Option Scope}
    (hb : given → ∀ x ∈ body, Made p x) (hp : given → (parent = none ↔ ¬InNamespace c)) :
    Yields c given (fillObject span name body exported parent) fun rs =>
      ∀ r ∈ rs, Emitted p c exported r := by
  have hdecl (keyword : String) : Made p (varDecl keyword span
      [declarator name.span (.ident name.text name.span)]) :=
    .varDecl _ (by simpa using Made.declarator name.span made_ident)
  refine .bind (R := fun _ => True) (yields_declareOnce _) fun isNew => ?_
  extract_lets arg param function jp
  have hjp (given' : Prop) (hgiven : given' → given) (decl : List Node) :
      Yields c (given' ∧ ∀ d ∈ decl, Emitted p c exported d) (jp decl) fun rs =>
        ∀ r ∈ rs, Emitted p c exported r := by
    refine .pure fun h => List.forall_mem_append.2 ⟨h.2, ?_⟩
    have hparam : Made p (.new .param name.span [.ident name.text name.span, .absent]) :=
      .new rfl (by simp)
    have hparams : Made p (.new .params span
        [.new .param name.span [.ident name.text name.span, .absent]]) := .new rfl
          (by simpa using hparam)
    have hblock : Made p (.new .block span body) := .new rfl (hb (hgiven h.1))
    have hfunction : Made p (.new .funcExpr span [.absent, .new .params span
        [.new .param name.span [.ident name.text name.span, .absent]], .new .block span body]) :=
      .new rfl (by simpa using ⟨hparams, hblock⟩)
    simp only [List.mem_singleton, forall_eq]
    exact .inl (.exprStmt _ (.call _ (.paren hfunction) (by simpa using made_objectArgument)))
  refine .branch (fun _ => .bind yields_read fun x => ?_) fun _ => ?_
  · refine .bind (.pure fun h => ?_) (hjp _ fun h => h.1.1)
    simp only [List.mem_singleton, forall_eq]
    split
    · rename_i hout
      rw [Bool.and_eq_true, Option.isNone_iff_eq_none] at hout
      exact .inr ⟨⟨hout.1, (hp h.1.1).1 hout.2⟩, span, _, hdecl _, rfl⟩
    · exact .inl (hdecl _)
  · exact .bind (.pure fun _ => by simp) (hjp _ And.left)

/-! ## Enumerations -/

theorem made_enumLiteral (v : EnumValue) : Made p (v.literal span) := by
  unfold EnumValue.literal
  split
  · exact made_string
  · split
    · exact .newOp rfl (by simp)
    · exact made_number

theorem made_setMember {enum key : Bytes} {value : Node} {isString : Bool} (hv : Made p value) :
    Made p (setMember span enum key value isString) := by
  have hentry (x : Node) (hx : Made p x) : Made p (.new .index span [.ident enum span, x]) :=
    .new rfl (by simpa using hx)
  have hset := Made.assign span (hentry (string key span) made_string) hv
  refine .exprStmt _ ?_
  split
  · exact hset
  · exact .assign _ (hentry _ hset) made_string

theorem made_push {s : EnumState} {enum key : Bytes} {value : Node} {constant : Option EnumValue}
    (hs : ∀ x ∈ s.body, Made p x) (hv : Made p value) :
    ∀ x ∈ (s.push enum key span constant value).body, Made p x := by
  refine List.forall_mem_append.2 ⟨hs, ?_⟩
  simpa using made_setMember hv

theorem yields_lowerEnumMember_made {enum : Bytes} {s : EnumState} (hg : Emits p g)
    (hc : c.defines = p.defines) (hn : From p n) (hs : given → ∀ x ∈ s.body, Made p x) :
    Yields c given (lowerEnumMember g enum s n) fun s => ∀ x ∈ s.body, Made p x := by
  unfold lowerEnumMember
  split
  · exact .error_then (.pure False.elim)
  · refine .branch (fun _ => ?_) fun _ => ?_
    · split
      · exact .pure fun h => made_push (hs h) (made_enumLiteral _)
      · refine .bind (.elsewhere (hg.expr hc (hn.kid 1))) fun value => .pure fun h => ?_
        exact made_push (hs h.1) h.2
    · split
      · exact .pure fun h => made_push (hs h) (made_enumLiteral _)
      · exact .error_then (.pure False.elim)

theorem yields_lowerEnum_made (hg : Emits p g) (hc : c.defines = p.defines) (hn : From p n) :
    Yields c given (lowerEnum g n exported) fun rs => ∀ r ∈ rs, Emitted p c exported r := by
  refine .branch (fun _ => .pure fun _ => by simp) fun _ => ?_
  refine .bind yields_namespaceScope?_iff fun parent => ?_
  refine .bind (.foldlM (I := fun s : EnumState => ∀ x ∈ s.body, Made p x) (fun _ => by simp) ?_) ?_
  · intro m hm s
    exact yields_lowerEnumMember_made hg hc (hn.mem (List.mem_of_mem_drop hm)) And.right
  · intro s
    exact yields_fillObject_made And.right fun h => h.1.2

/-! ## Imports -/

theorem yields_lowerImportSpec_made (hn : Part p n) :
    Yields c given (lowerImportSpec n) fun rs => ∀ r ∈ rs, Made p r := by
  have hcopy : Made p (like n (n.kids.map leaf)) := by
    refine hn.like fun x hx => ?_
    obtain ⟨k, hk, rfl⟩ := List.mem_map.1 hx
    exact (hn.code.mem hk).leaf (hn.closed k hk)
  refine .branch (fun _ => .pure fun _ => by simp) fun _ =>
    .bind (yields_keepsImport _) fun keeps => ?_
  exact .branch (fun _ => .pure fun _ => by simpa using hcopy) fun _ => .pure fun _ => by simp

theorem yields_lowerImport_made (hg : Emits p g) (hc : c.defines = p.defines)
    (hn : ∀ k ∈ n.kids, Part p k) : Yields c given (lowerImport g n) (CopyOf p n) := by
  refine .branch (fun _ => .pure fun _ => .inl rfl) fun _ => ?_
  refine .bind (yields_lowerOptional_made hg hc (part_kid hn 1).code) fun attrs => ?_
  refine .bind (.mapM fun x hx => yields_lowerImportSpec_made (hn x (List.mem_of_mem_drop hx))) ?_
  refine fun specs => .branch (fun _ => .pure fun _ => .inl rfl) fun _ => .pure fun h => ?_
  refine .inr ⟨_, rfl, List.forall_mem_cons.2 ⟨(part_kid hn 0).leaf, ?_⟩⟩
  exact List.forall_mem_cons.2 ⟨h.1.2, made_flatten h.2⟩

mutual

theorem yields_lowerEntity_made (hg : Emits p g) (hc : c.defines = p.defines) :
    ∀ n, From p n → Yields c given (lowerEntity g n) (Made p)
  | .absent, _ => .pure fun _ => .absent
  | .mk h ks ds t x y, hn => by
    unfold lowerEntity
    dsimp only
    split
    · refine .bind (yields_lowerEntityFirst_made hg hc ks ?_) fun obj => .pure fun h => ?_
      · exact kid_zero h ks ds t x y ▸ hn.kid 0
      · exact .new rfl (by simp [h.2])
    · rename_i hk
      exact yields_nameRef_made hc (hn.source hk (by simp)) (.inl hk) (hn.leafOf hk (by simp))
    · exact hg.expr hc hn

theorem yields_lowerEntityFirst_made (hg : Emits p g) (hc : c.defines = p.defines) :
    ∀ ks : List Node, From p (ks.headD .absent) → Yields c given (lowerEntityFirst g ks) (Made p)
  | [], _ => .pure fun _ => .absent
  | n :: _, hn => yields_lowerEntity_made hg hc n hn

end

theorem yields_lowerAlias_made (hg : Emits p g) (hc : c.defines = p.defines) (hn : From p n)
    (hk : n.kind = .importEquals) : Yields c given (lowerAlias g n exported) (Made p) := by
  have hname : Made p (leaf (n.kid 0)) := (hn.part (by rw [hk]; rfl) 0).leaf
  refine .branch (fun _ => .pure fun _ => .absent) fun _ => ?_
  refine .branch (fun _ => .error_then (.pure False.elim)) fun _ => ?_
  refine .bind (yields_keepsImport _) fun keeps => .branch (fun _ => ?_) fun _ =>
    .pure fun _ => .absent
  refine .bind (yields_lowerEntity_made hg hc _ (hn.kid 1)) fun value => .pure fun h => ?_
  have hdeclarator : Made p (.new .declarator n.span [leaf (n.kid 0), value]) :=
    .new rfl (by simpa using ⟨hname, h.2⟩)
  exact .varDecl _ (by simpa using hdeclarator)

/-! ## Exports -/

theorem yields_lowerExportSpec_made {reexport : Bool} (hn : Part p n) :
    Yields c given (lowerExportSpec reexport n) fun rs => ∀ r ∈ rs, Made p r := by
  have hname (i : Nat) : Made p (leaf (n.kid i)) := (hn.code.kid i).leaf (hn.closed.kid i)
  have hcopy : Made p (like n [leaf (n.kid 0), leaf (n.kid 1)]) := hn.like (by simp [hname])
  refine .bind yields_read fun x => .branch (fun _ => .pure fun _ => by simp) fun _ => ?_
  exact .pure fun _ => by simpa using hcopy

theorem yields_lowerExportNamed_made (hg : Emits p g) (hc : c.defines = p.defines)
    (hn : ∀ k ∈ n.kids, Part p k) : Yields c given (lowerExportNamed g n) (CopyOf p n) := by
  refine .branch (fun _ => .pure fun _ => .inl rfl) fun _ => ?_
  refine .bind (yields_lowerOptional_made hg hc (part_kid hn 1).code) fun attrs => ?_
  refine .bind (.mapM fun x hx => yields_lowerExportSpec_made (hn x (List.mem_of_mem_drop hx))) ?_
  refine fun specs => .branch (fun _ => .pure fun _ => .inl rfl) fun _ => .pure fun h => ?_
  refine .inr ⟨_, rfl, List.forall_mem_cons.2 ⟨(part_kid hn 0).leaf?, ?_⟩⟩
  exact List.forall_mem_cons.2 ⟨h.1.2, made_flatten h.2⟩

theorem yields_lowerExportAll_made (hg : Emits p g) (hc : c.defines = p.defines)
    (hn : ∀ k ∈ n.kids, Part p k) : Yields c given (lowerExportAll g n) (CopyOf p n) := by
  have hsource : Made p (leaf (n.kid 0)) := (part_kid hn 0).leaf
  have hname : Made p (leaf? (n.kid 2)) := (part_kid hn 2).leaf?
  refine .branch (fun _ => .pure fun _ => .inl rfl) fun _ => ?_
  refine .bind (yields_lowerOptional_made hg hc (part_kid hn 1).code) fun attrs => .pure fun h => ?_
  exact .inr ⟨_, rfl, by simp [hsource, hname, h.2]⟩

theorem yields_lowerExportDefault_made (hg : Emits p g) (hc : c.defines = p.defines)
    (hn : From p (n.kid 0)) : Yields c given (lowerExportDefault g n) (CopyOf p n) := by
  have hcopy {m : LowerM Node} (hm : Yields c given m (Made p)) :
      Yields c given (do return like n [← m]) (CopyOf p n) :=
    .bind hm fun r => .pure fun h => .inr ⟨_, rfl, by simpa using h.2⟩
  refine .branch (fun _ => .pure fun _ => .inl rfl) fun _ => ?_
  split
  · rename_i hk
    exact hcopy (yields_lowerFunction_made hg hc hn (by rw [hk]; rfl))
  · rename_i hk
    exact hcopy (yields_lowerClass_made hg hc hn (by rw [hk]; rfl))
  · refine .bind yields_read fun x => .branch (fun _ => .pure fun _ => .inl rfl) fun _ => ?_
    exact (hcopy (hg.expr hc hn)).under And.left

/-! ## Namespaces -/

/-- The body of a namespace is one, whether it is a list of statements or another namespace. -/
theorem yields_lowerNamespace_made (hg : Emits p g) (hc : c.defines = p.defines) (hn : From p n) :
    Yields c given (lowerNamespace g n exported) fun rs => ∀ r ∈ rs, Emitted p c exported r := by
  refine .branch (fun _ => .pure fun _ => by simp) fun _ => ?_
  refine .branch (fun _ => .error_then (.pure False.elim)) fun _ => ?_
  refine .bind yields_namespaceScope?_iff fun parent => ?_
  have hinside : InNamespace
      { c with scopes := namespaceBodyScope (n.kid 0).text (n.kid 1) :: c.scopes } := by
    show some (namespaceBodyScope (n.kid 0).text (n.kid 1)).kind = _
    unfold namespaceBodyScope
    split <;> rfl
  refine .bind (.elsewhere (yields_collectTemps (P := fun rs => ∀ r ∈ rs, Made p r)
    (.branch (fun hb => ?_) fun hb => ?_))) fun r => ?_
  · exact hg.namespaceDecl true hc (hn.kid 1) (beq_iff_eq.1 hb) fun _ => .inr hinside
  · refine yields_lowerList_made hg hc fun k hk => ⟨(hn.kid 1).mem hk, ?_, fun _ => .inr hinside⟩
    exact (hn.kid 1).closed_mem (.inr fun e => hb (beq_iff_eq.2 e)) hk
  refine .branch (fun _ => .pure fun _ => by simp) fun _ => ?_
  refine .bind (yields_withTemps_made And.right) fun stmts => ?_
  exact yields_fillObject_made And.right fun h => h.1.1.2

theorem made_setExport {ns : Scope} {name : Bytes} {nameSpan : Span} {value : Node}
    (hv : Made p value) : Made p (setExport ns span name nameSpan value) :=
  .exprStmt _ (.assign _ (.member _ _ made_ident) hv)

theorem yields_lowerExportedVariable_made {ns : Scope} (hg : Emits p g) (hc : c.defines = p.defines)
    (hn : From p n) :
    Yields c given (lowerExportedVariable g ns n) fun rs => ∀ r ∈ rs, Made p r := by
  refine .branch (fun _ => .error_then (.pure False.elim)) fun _ => ?_
  refine .branch (fun _ => .pure fun _ => by simp) fun _ => ?_
  refine .bind (hg.expr hc (hn.kid 1)) fun value => .pure fun h => ?_
  simpa using made_setExport h.2

/-- What is exported below another statement than a list stands there. -/
theorem From.stands_exported (hn : From p n) (hk : n.kind = .exportDecl) : Stands p c (n.kid 0) :=
  hn.stands (by rw [hk]; decide) (by rw [hk]; decide) 0

theorem yields_lowerNamespaceExport_made {ns : Scope} (hg : Emits p g) (hc : c.defines = p.defines)
    (hn : From p n) (hk : n.kind = .exportDecl) (hi : given → InNamespace c) :
    Yields c given (lowerNamespaceExport g ns n) fun rs => ∀ r ∈ rs, Made p r := by
  have hdecl : Stands p c (n.kid 0) := hn.stands_exported hk
  have hinside {m : LowerM (List Node)}
      (hm : Yields c (given ∧ True) m fun rs => ∀ r ∈ rs, Emitted p c true r) :
      Yields c (given ∧ True) m fun rs => ∀ r ∈ rs, Made p r :=
    hm.mono fun rs h hrs r hr => (hrs r hr).made fun _ => .inr (hi h.1)
  refine .bind (yields_onComments _) fun _ => ?_
  -- a function or a class is copied from the name it is declared under
  have hcopy : Yields c (given ∧ True) (do
      let out ← g.stmt (n.kid 0)
      if out.isEmpty then return []
      return out ++ [setExport ns ((n.kid 0).kid 0).span ((n.kid 0).kid 0).text
        ((n.kid 0).kid 0).span (.ident ((n.kid 0).kid 0).text ((n.kid 0).kid 0).span)])
      fun rs => ∀ r ∈ rs, Made p r := by
    refine .bind (hg.stmt hc hdecl) fun out => .branch (fun _ => .pure fun _ => by simp) fun _ => ?_
    refine .pure fun h => List.forall_mem_append.2 ⟨h.2, ?_⟩
    simpa using made_setExport made_ident
  split
  · refine .branch (fun _ => .pure fun _ => by simp) fun _ => ?_
    refine .bind (.mapM fun d hd => yields_lowerExportedVariable_made hg hc (hdecl.code.mem hd)) ?_
    exact fun sets => .pure fun h => made_flatten h.2
  · exact hcopy
  · exact hcopy
  · exact hinside (yields_lowerEnum_made hg hc hdecl.code)
  · exact hinside (yields_lowerNamespace_made hg hc hdecl.code)
  · refine .branch (fun _ => .error_then (.pure False.elim)) fun _ => ?_
    refine .bind (yields_lowerEntity_made hg hc _ (hdecl.code.kid 1)) fun value => .pure fun h => ?_
    simpa using made_setExport h.2
  · exact .branch (fun _ => .error_then (.pure False.elim)) fun _ => .pure fun _ => by simp

theorem yields_lowerExportDecl_made (hg : Emits p g) (hc : c.defines = p.defines) (hn : From p n)
    (hk : n.kind = .exportDecl) :
    Yields c given (lowerExportDecl g n) fun rs => ∀ r ∈ rs, Emitted p c true r := by
  have hdecl : Stands p c (n.kid 0) := hn.stands_exported hk
  refine .bind yields_namespaceScope?_iff fun o => ?_
  split
  · rename_i ns
    have hinside : (given ∧ (some ns = none ↔ ¬InNamespace c)) → InNamespace c := by simp
    exact (yields_lowerNamespaceExport_made hg hc hn hk hinside).mono fun rs _ h r hr =>
      .inl (h r hr)
  · have houtside : (given ∧ ((none : Option Scope) = none ↔ ¬InNamespace c)) → ¬InNamespace c := by
      simp
    have hwrap {d : Node} (h : given ∧ ((none : Option Scope) = none ↔ ¬InNamespace c))
        (hd : Made p d) : Emitted p c true (exportWrap n.span d) :=
      .inr ⟨⟨rfl, houtside h⟩, n.span, d, hd, rfl⟩
    dsimp only
    split
    · exact .bind (yields_onComments _) fun _ => yields_lowerEnum_made hg hc hdecl.code
    · exact .bind (yields_onComments _) fun _ => yields_lowerNamespace_made hg hc hdecl.code
    · rename_i ha
      refine .bind (yields_lowerAlias_made hg hc hdecl.code ha) fun r => .pure fun h => ?_
      exact forall_mem_one (hwrap h.1 h.2)
    · refine .bind (hg.stmt hc hdecl) fun rs => ?_
      split
      · exact .pure fun _ => by simp
      · refine .pure fun h => ?_
        simpa using hwrap h.1 (h.2 _ List.mem_cons_self)

/-! ## Statements -/

theorem yields_lowerVariables_made (hg : Emits p g) (hc : c.defines = p.defines) (hn : From p n)
    (hk : n.kind = .varDecl) : Yields c given (lowerVariables g n) (Made p) := by
  refine .bind (R := fun ds => ∀ d ∈ ds, Made p d) (.mapM fun d hd => ?_) fun decls => ?_
  · have hpart : Part p d := hn.part_mem (by rw [hk]; rfl) hd
    refine .bind (hg.pattern false hc (hpart.code.kid 0)) fun binding => ?_
    refine .bind (yields_lowerOptional_made hg hc (hpart.code.kid 1)) fun init => .pure fun h => ?_
    exact hpart.like (by simp [h.1.2, h.2])
  · exact .pure fun h => hn.likeOf hk (by simp) h.2

theorem yields_lowerSingle_made (hg : Emits p g) (hc : c.defines = p.defines) (hn : Stands p c n) :
    Yields c given (lowerSingle g n) (Made p) := by
  refine .branch (fun _ => .pure fun _ => .absent) fun _ => .bind (hg.stmt hc hn) fun rs => ?_
  split
  · exact .pure fun _ => .new rfl (by simp)
  · exact .pure fun h => h.2 _ List.mem_cons_self
  · exact .pure fun h => .new rfl h.2

theorem yields_lowerBlock_made (hg : Emits p g) (hc : c.defines = p.defines) (hn : From p n)
    (ho : Closed p n) (hk : n.kind = .block) : Yields c given (lowerBlock g n) (Made p) := by
  refine .bind (yields_lowerList_made hg hc fun x hx => ?_) fun rs => .pure fun h => ?_
  · exact stands_mem hn ho (.inr (by rw [hk]; decide)) hx
  · exact hn.likeOf hk (by simp) h.2

theorem yields_lowerLoopHead_made {other : LowerM Node} (hg : Emits p g)
    (hc : c.defines = p.defines)
    (hn : From p n) (ho : Yields c given other (Made p)) :
    Yields c given (lowerLoopHead g n other) (Made p) :=
  .branch (fun hk => yields_lowerVariables_made hg hc hn (beq_iff_eq.1 hk)) fun _ => ho

theorem yields_lowerCase_made (hg : Emits p g) (hc : c.defines = p.defines) (hn : Part p n) :
    Yields c given (lowerCase g n) (Made p) := by
  refine .bind (yields_lowerOptional_made hg hc (hn.code.kid 0)) fun test => ?_
  refine .bind (yields_lowerList_made hg hc fun x hx => hn.stands_mem (List.mem_of_mem_drop hx)) ?_
  exact fun rs => .pure fun h => hn.like (List.forall_mem_cons.2 ⟨h.1.2, h.2⟩)

mutual

theorem yields_lowerSimple_made (hg : Emits p g) (hc : c.defines = p.defines) :
    ∀ n, From p n → Closed p n → Yields c given (lowerSimple g n) (Made p)
  | .absent, _, _ => .pure fun _ => .absent
  | .mk h ks ds t x y, hn, ho => by
    have hbelow {k : NodeKind} (hk : h.kind = k) (hb : k ≠ .block) (hi : k ≠ .namespaceDecl)
        (i : Nat) :
        Stands p c ((Node.mk h ks ds t x y).kid i) := by
      subst hk
      exact hn.stands hb hi i
    have hpart {k : NodeKind} (hk : h.kind = k) (hs : k.holdsStatements = false) :
        ∀ x ∈ ks, Part p x := by
      subst hk
      exact fun x hx => hn.part_mem hs hx
    unfold lowerSimple
    extract_lets n
    split
    case h_1 hk =>
      refine .bind (hg.expr hc (hn.kid 0)) fun r => .pure fun h => ?_
      exact hn.likeOf hk (by simp) (by simpa using h.2)
    case h_2 hk => exact yields_lowerBlock_made hg hc hn ho hk
    case h_3 hk | h_4 hk => exact .pure fun _ => hn.leafOf hk (by simp)
    case h_5 hk =>
      refine .bind (yields_lowerLoopHead_made hg hc (hn.kid 0)
        (yields_lowerOptional_made hg hc (hn.kid 0))) fun init => ?_
      refine .bind (yields_lowerOptional_made hg hc (hn.kid 1)) fun test => ?_
      refine .bind (yields_lowerOptional_made hg hc (hn.kid 2)) fun update => ?_
      refine .bind (yields_lowerSingle_made hg hc (hbelow hk (by simp) (by simp) 3)) fun body => ?_
      exact .pure fun h => hn.likeOf hk (by simp) (by simp [h.1.1.1.2, h.1.1.2, h.1.2, h.2])
    case h_6 hk | h_7 hk =>
      refine .bind (yields_lowerLoopHead_made hg hc (hn.kid 0)
        (hg.pattern true hc (hn.kid 0))) fun left => ?_
      refine .bind (hg.expr hc (hn.kid 1)) fun right => ?_
      refine .bind (yields_lowerSingle_made hg hc (hbelow hk (by simp) (by simp) 2)) fun body => ?_
      exact .pure fun h => hn.likeOf hk (by simp) (by simp [h.1.1.2, h.1.2, h.2])
    case h_8 hk | h_9 hk =>
      refine .bind (hg.expr hc (hn.kid 0)) fun test => ?_
      refine .bind (yields_lowerSingle_made hg hc (hbelow hk (by simp) (by simp) 1)) fun body => ?_
      exact .pure fun h => hn.likeOf hk (by simp) (by simp [h.1.2, h.2])
    case h_10 hk =>
      refine .bind (yields_lowerSingle_made hg hc (hbelow hk (by simp) (by simp) 0)) fun body => ?_
      refine .bind (hg.expr hc (hn.kid 1)) fun test => .pure fun h => ?_
      exact hn.likeOf hk (by simp) (by simp [h.1.2, h.2])
    case h_11 hk | h_12 hk =>
      refine .bind (yields_lowerOptional_made hg hc (hn.kid 0)) fun r => .pure fun h => ?_
      exact hn.likeOf hk (by simp) (by simpa using h.2)
    case h_13 hk | h_14 hk =>
      have hlabel : Made p (leaf? (n.kid 0)) := (part_kid (n := n) (hpart hk rfl) 0).leaf?
      exact .pure fun _ => hn.likeOf hk (by simp) (by simpa using hlabel)
    case h_15 hk =>
      have hkid (i : Nat) : Part p (n.kid i) := part_kid (n := n) (hpart hk rfl) i
      have hat (i : Nat) : Yields c given (lowerSimpleAt g i ks) (Made p) :=
        yields_lowerSimpleAt_made hg hc i ks (hkid i).code (hkid i).closed
      have hhandler : Yields c given (lowerHandlerAt g 1 ks) (Made p) :=
        yields_lowerHandlerAt_made hg hc 1 ks (hkid 1)
      refine .bind (hat 0) fun body => .bind (hhandler.under And.left) fun handler => ?_
      refine .bind ((hat 2).under fun h => h.1.1) fun last => ?_
      exact .pure fun h => hn.likeOf hk (by simp) (by simp [h.1.1.2, h.1.2, h.2])
    case h_16 hk =>
      refine .bind (hg.expr hc (hn.kid 0)) fun value => ?_
      refine .bind (.mapM fun x hx => yields_lowerCase_made hg hc ?_) fun cases => .pure fun h => ?_
      · exact hpart hk rfl x (List.mem_of_mem_drop hx)
      · exact hn.likeOf hk (by simp) (List.forall_mem_cons.2 ⟨h.1.2, h.2⟩)
    case h_17 hk =>
      have hlabel : Made p (leaf (n.kid 0)) := (hn.kid 0).leaf (ho.kid 0)
      refine .bind (yields_lowerSingle_made hg hc (hbelow hk (by simp) (by simp) 1)) fun body => ?_
      exact .pure fun h => hn.likeOf hk (by simp) (by simp [hlabel, h.2])
    case h_18 => exact .error_then (.pure False.elim)

theorem yields_lowerSimpleAt_made (hg : Emits p g) (hc : c.defines = p.defines) :
    ∀ i (ks : List Node), From p (ks.getD i .absent) → Closed p (ks.getD i .absent) →
      Yields c given (lowerSimpleAt g i ks) (Made p)
  | _, [], _, _ => .pure fun _ => .absent
  | 0, n :: _, hn, ho => yields_lowerSimple_made hg hc n hn ho
  | i + 1, _ :: ks, hn, ho => yields_lowerSimpleAt_made hg hc i ks hn ho

theorem yields_lowerHandlerAt_made (hg : Emits p g) (hc : c.defines = p.defines) :
    ∀ i (ks : List Node), Part p (ks.getD i .absent) →
      Yields c given (lowerHandlerAt g i ks) (Made p)
  | _, [], _ => .pure fun _ => .absent
  | i + 1, _ :: ks, hn => yields_lowerHandlerAt_made hg hc i ks hn
  | 0, .absent :: _, _ => .pure fun _ => .absent
  | 0, .mk h ks ds t x y :: _, hn => by
    have hn : Part p (.mk h ks ds t x y) := hn
    have hbody : Closed p ((Node.mk h ks ds t x y).kid 1) := by
      rcases kid_cases (.mk h ks ds t x y) 1 with hk | ⟨-, hk⟩
      · rw [hk]
        exact Part.absent.closed
      · exact hn.code.closed_mem hn.inner hk
    unfold lowerHandlerAt
    extract_lets n jp
    have hjp (given' : Prop) (hgiven : given' → given) (param : Node) :
        Yields c (given' ∧ Made p param) (jp param) (Made p) := by
      have hlast : Yields c given (lowerSimpleAt g 1 ks) (Made p) :=
        yields_lowerSimpleAt_made hg hc 1 ks (hn.code.kid 1) hbody
      refine .bind (hlast.under fun h => hgiven h.1) fun body => .pure fun h => ?_
      exact hn.like (by simp [h.1.2, h.2])
    refine .target_then (.branch (fun _ => ?_) fun _ => .branch (fun _ => ?_) fun _ => ?_)
    · exact .bind (hg.pattern false hc (hn.code.kid 0)) (hjp _ id)
    · exact .bind (yields_fresh _) fun m => .bind (yields_ref_made p m) (hjp _ And.left)
    · exact .bind (.pure fun _ => .absent) (hjp _ id)

end

theorem yields_lowerIf_made (hg : Emits p g) (hc : c.defines = p.defines) (hn : From p n)
    (hk : n.kind = .ifStmt) : Yields c given (lowerIf g n) fun rs => ∀ r ∈ rs, Made p r := by
  have hbelow (i : Nat) : Stands p c (n.kid i) :=
    hn.stands (by rw [hk]; decide) (by rw [hk]; decide) i
  refine .bind (yields_isStripped _) fun stripped => .branch (fun _ => ?_) fun _ => ?_
  · exact .branch (fun _ => .pure fun _ => by simp) fun _ => hg.stmt hc (hbelow 2)
  · refine .bind (hg.expr hc (hn.kid 0)) fun test => ?_
    refine .bind (yields_lowerSingle_made hg hc (hbelow 1)) fun yes => ?_
    refine .bind (yields_lowerSingle_made hg hc (hbelow 2)) fun no => .pure fun h => ?_
    have hif : Made p (like n [test, yes, no]) :=
      hn.likeOf hk (by simp) (by simp [h.1.1.2, h.1.2, h.2])
    simpa using hif

/-- A statement where its exports are replaced or may stay becomes code that may stand anywhere. -/
theorem yields_lowerStmt_made (hg : Emits p g) (hc : c.defines = p.defines) (hn : Stands p c n) :
    Yields c given (lowerStmt g n) fun rs => ∀ r ∈ rs, Made p r := by
  have hone {m : LowerM Node} (hm : Yields c given m (Made p)) :
      Yields c given (do return one (← m)) fun rs => ∀ r ∈ rs, Made p r :=
    .bind hm fun _ => .pure fun h => forall_mem_one h.2
  have hitem {k : NodeKind} {m : LowerM Node} (hk : n.kind = k) (hne : k ≠ .exportDecl)
      (hm : Yields c given m (CopyOf p n)) :
      Yields c given (do return one (← m)) fun rs => ∀ r ∈ rs, Made p r :=
    hone (hm.mono fun r _ h => h.made hn.code fun he => absurd (hk.symm.trans he) hne)
  have hsingle {m : LowerM Node} (hm : Yields c given m (Made p)) :
      Yields c given (if n.flags.declared then return [] else return [← m])
        fun rs => ∀ r ∈ rs, Made p r :=
    .branch (fun _ => .pure fun _ => by simp) fun _ => .bind hm fun _ => .pure fun h => by
      simpa using h.2
  have hobject {m : LowerM (List Node)} {exported : Bool}
      (ho : exported = true → p.exports ∨ InNamespace c)
      (hm : Yields c given m fun rs => ∀ r ∈ rs, Emitted p c exported r) :
      Yields c given m fun rs => ∀ r ∈ rs, Made p r :=
    hm.mono fun rs _ h r hr => (h r hr).made ho
  have hparts {k : NodeKind} (hk : n.kind = k) (hs : k.holdsStatements = false) :
      ∀ x ∈ n.kids, Part p x := fun x hx => hn.code.part_mem (hk ▸ hs) hx
  unfold lowerStmt
  split
  case h_1 | h_2 | h_3 | h_4 => exact .pure fun _ => by simp
  case h_5 hk => exact hsingle (yields_lowerVariables_made hg hc hn.code hk)
  case h_6 hk => exact hsingle (yields_lowerFunction_made hg hc hn.code (by rw [hk]; rfl))
  case h_7 hk => exact hsingle (yields_lowerClass_made hg hc hn.code (by rw [hk]; rfl))
  case h_8 => exact hobject (by simp) (yields_lowerEnum_made hg hc hn.code)
  case h_9 => exact hobject (by simp) (yields_lowerNamespace_made hg hc hn.code)
  case h_10 hk => exact hitem hk (by simp) (yields_lowerImport_made hg hc (hparts hk rfl))
  case h_11 hk => exact hone (yields_lowerAlias_made hg hc hn.code hk)
  case h_12 hk => exact hitem hk (by simp) (yields_lowerExportNamed_made hg hc (hparts hk rfl))
  case h_13 hk => exact hitem hk (by simp) (yields_lowerExportAll_made hg hc (hparts hk rfl))
  case h_14 hk =>
    exact hobject (fun _ => hn.placed hk) (yields_lowerExportDecl_made hg hc hn.code hk)
  case h_15 hk => exact hitem hk (by simp) (yields_lowerExportDefault_made hg hc (hn.code.kid 0))
  case h_16 => exact .error_then (.pure False.elim)
  case h_17 hk => exact yields_lowerIf_made hg hc hn.code hk
  case h_18 => exact hone (yields_lowerSimple_made hg hc n hn.code hn.closed)

/-! ## The rules -/

theorem emits_rules (p : Origin) : ∀ d, Emits p (rules d)
  | 0 =>
    { expr := fun _ _ => .error_then (.pure False.elim)
      pattern := fun _ _ _ => .error_then (.pure False.elim)
      stmt := fun _ _ => .error_then (.pure False.elim)
      namespaceDecl := fun _ _ _ _ _ => .error_then (.pure False.elim) }
  | d + 1 =>
    have ih := emits_rules p d
    { expr := fun hc hn => yields_lowerExpr_made ih hc hn
      pattern := fun _ hc hn => yields_lowerPattern_made ih hc hn
      stmt := fun hc hn => yields_lowerStmt_made ih hc hn
      namespaceDecl := fun _ hc hn _ ho =>
        (yields_lowerNamespace_made ih hc hn).mono fun _ _ h r hr => (h r hr).made ho }

end

end ScriptLower.Lower
