import ScriptLower.Proofs.Scope.Functions
import ScriptLower.Lower.Module

/-!
# Marks in declarations

The body of a namespace becomes the body of a function and declares its temporaries there. Members
of enumerations and exported variables have none of their own. Imports and exports of the source
hold no generated names.
-/

namespace ScriptLower.Lower

open ScriptLower Node

section

variable {x : Nat} {c : Context} {g : Rules} {n : Node} {ks : List Node}

/-! ## Parts without generated names -/

theorem held_leaves (hx : x ≠ 0) (hk : ∀ k ∈ ks, k.mark = 0) : heldAll x (ks.map leaf) ≤ 0 := by
  induction ks with
  | nil => simp
  | cons k ks ih =>
    have hrest := ih fun k hk' => hk k (List.mem_cons_of_mem _ hk')
    simpa using Held.add_le_add (held_leaf hx (hk k List.mem_cons_self)) hrest

theorem heldAll_one : heldAll x (one n) ≤ held x n := by
  unfold one
  split
  · simp
  · simp

theorem held_exportWrap (hx : x ≠ 0) (span : Span) : held x (exportWrap span n) ≤ held x n := by
  unfold exportWrap
  split
  · exact fun _ => by simp [held]
  · simpa using held_new hx .exportDecl span [n]

/-- A node with one child. -/
theorem held_only (hx : x ≠ 0) (kind : NodeKind) (span : Span) :
    held x (.new kind span [n]) ≤ held x n := by
  simpa using held_new hx kind span [n]

/-- One statement or none. -/
theorem Issues.one {m : LowerM Node} (hm : Issues x c 0 m (held x)) :
    Issues x c 0 (do return Lower.one (← m)) (heldAll x) :=
  .bind hm fun _ => .pure heldAll_one

/-! ## Objects filled by a function -/

theorem issues_declareOnce (name : Bytes) : Issues x c 0 (declareOnce name) fun _ => 0 := by
  refine .skip issues_get fun s => .branch (fun _ => .pure (Held.le_refl 0)) fun _ => ?_
  exact .skip (issues_modify fun _ => ⟨rfl, rfl, rfl, rfl⟩) fun _ => .pure (Held.le_refl 0)

theorem held_objectArgument (hx : x ≠ 0) (span : Span) (name : Bytes) (parent : Option Scope) :
    held x (objectArgument span name parent) ≤ 0 := by
  intro _
  unfold objectArgument
  dsimp only
  split <;> simp [held, loose_member hx, loose_ident hx]

/-- The function that fills an object covers what its body declares. -/
theorem held_filler (hx : x ≠ 0) (span : Span) (name : Node) (body : List Node) :
    held x (.new .funcExpr span
      [.absent, .new .params span [.new .param name.span [.ident name.text name.span, .absent]],
        .new .block span body]) ≤ heldBody x body := by
  have habsent : held x .absent ≤ 0 := fun _ => by simp [held]
  have hident : held x (.ident name.text name.span) ≤ 0 := fun _ => by simp [held, loose_ident hx]
  have hparams : held x (.new .params span
      [.new .param name.span [.ident name.text name.span, .absent]]) ≤ 0 := by
    refine Held.le_trans (held_only hx _ _) (Held.le_trans (held_new hx _ _ _) ?_)
    simpa using Held.add_le_add hident habsent
  have hblock : heldBlock x (.new .block span body) ≤ heldBody x body := by
    refine fun _ => ⟨mark_new, fun hu => ?_, ?_⟩
    · change 0 < if body.any (Node.introduces x) then 0
        else (Node.new .block span body).loose x at hu
      rwa [loose_new (by simp)] at hu
    · simp [heldBlock, heldBody]
  have hfn := held_withBody (h := { kind := .funcExpr, span := span })
    [.absent, .new .params span [.new .param name.span [.ident name.text name.span, .absent]]]
    (.new .block span body) hx rfl rfl
  refine Held.le_trans hfn ?_
  simpa using Held.add_le_add (Held.add_le_add habsent hparams) hblock

theorem issues_fillObject (hx : x ≠ 0) {name : Node} {body : List Node} {exported : Bool}
    {parent : Option Scope} (span : Span) :
    Issues x c (heldBody x body) (fillObject span name body exported parent) (heldAll x) := by
  refine .skip (issues_declareOnce _) fun isNew => ?_
  extract_lets arg param fn build
  have hcall : held x (.new .exprStmt span [.call span (paren fn) [arg]]) ≤ heldBody x body := by
    have hfn : held x (paren fn) ≤ heldBody x body :=
      Held.le_trans (held_only hx _ _) (held_filler hx span name body)
    have harg : held x arg ≤ 0 := held_objectArgument hx span name.text _
    refine Held.le_trans (held_only hx _ _) (Held.le_trans (held_new hx _ _ _) ?_)
    simpa using Held.add_le_add hfn harg
  have hbuild (decl : List Node) :
      Issues x c (heldBody x body + heldAll x decl) (build decl) (heldAll x) := by
    refine .pure ?_
    rw [heldAll_append, Held.add_comm]
    refine Held.add_le_add ?_ (Held.le_refl _)
    simpa using hcall
  refine .branch (fun _ => .skip issues_read fun _ => .step (.pure ?_) hbuild)
    fun _ => .step (.pure (by simp)) hbuild
  have hdecl (keyword : String) : held x (varDecl keyword span
      [declarator name.span (.ident name.text name.span)]) ≤ 0 := fun _ => by
    simp [held, loose_declarator, declared_declarator, loose_ident hx, isUse_of_mark mark_ident hx]
  rw [heldAll_cons, heldAll_nil, Held.add_zero]
  split
  · exact Held.le_trans (held_exportWrap hx span) (hdecl _)
  · exact hdecl _

/-! ## Enumerations -/

theorem held_enumLiteral (span : Span) (v : EnumValue) : held x (v.literal span) ≤ 0 := by
  intro _
  unfold EnumValue.literal
  split
  · simp [held]
  · split <;> simp [held]

theorem held_setMember (hx : x ≠ 0) {value : Node} (span : Span) (enum key : Bytes)
    (isString : Bool) :
    held x (setMember span enum key value isString) ≤ held x value := by
  intro _
  unfold setMember
  dsimp only
  split <;> simp [loose_ident hx]

/-- The statements that fill an enumeration so far. -/
def heldEnum (x : Nat) (s : EnumState) : Held := heldAll x s.body

theorem heldEnum_push (hx : x ≠ 0) {s : EnumState} {enum key : Bytes} {value : Node} (span : Span)
    (constant : Option EnumValue) :
    heldEnum x (s.push enum key span constant value) ≤ heldEnum x s + held x value := by
  show heldAll x (s.body ++ [_]) ≤ _
  rw [heldAll_append, heldAll_cons, heldAll_nil, Held.add_zero]
  exact Held.add_le_add_left (held_setMember hx span enum key _) _

theorem issues_lowerEnumMember (hx : x ≠ 0) (hg : Keeps x g) {enum : Bytes}
    {s : EnumState} {m : Node}
    (hm : Tidy m) : Issues x c (heldEnum x s) (lowerEnumMember g enum s m) (heldEnum x) := by
  have hconstant (key : Bytes) (v : EnumValue) :
      heldEnum x (s.push enum key m.span (some v) (v.literal m.span)) ≤ heldEnum x s := by
    refine Held.le_trans (heldEnum_push hx _ _) ?_
    simpa using Held.add_le_add_left (held_enumLiteral m.span v) (heldEnum x s)
  unfold lowerEnumMember
  split
  · exact .skip (issues_errorAt (by decide)) fun _ => .pure (Held.le_refl _)
  · rename_i key _
    refine .branch (fun _ => ?_) fun _ => ?_
    · split
      · exact .pure (hconstant key _)
      · refine .step (.elsewhere (hg.expr _ _ (hm.kid 1))) fun value => .pure ?_
        exact heldEnum_push hx _ _
    · split
      · exact .pure (hconstant key _)
      · refine .skip (issues_errorAt ?_) fun _ => .pure (Held.le_refl _)
        rw [List.append_assoc, warns_append (by decide)]
        decide

theorem issues_namespaceScope? : Issues x c 0 namespaceScope? fun _ => 0 := by
  refine .skip issues_read fun context => ?_
  split <;> exact .pure (Held.le_refl 0)

theorem issues_lowerEnum (hx : x ≠ 0) (hg : Keeps x g) {exported : Bool} (hn : Tidy n) :
    Issues x c 0 (lowerEnum g n exported) (heldAll x) := by
  refine .branch (fun _ => .pure (by simp)) fun _ => .skip issues_namespaceScope? fun parent => ?_
  have hmembers (s : EnumState) :
      Issues x c (heldEnum x s) ((n.kids.drop 1).foldlM (lowerEnumMember g (n.kid 0).text) s)
        (heldEnum x) := .foldlM fun m hm s => issues_lowerEnumMember hx hg (hn.drop hm)
  refine .bind ((hmembers {}).given (by simp [heldEnum])) fun s => ?_
  exact (issues_fillObject hx n.span).given (heldBody_le s.body)

/-! ## Imports -/

theorem issues_keepsImport (name : Bytes) : Issues x c 0 (keepsImport name) fun _ => 0 :=
  .skip issues_read fun _ => .pure (Held.le_refl 0)

theorem issues_lowerImportSpec (hx : x ≠ 0) {spec : Node} (hs : Tidy spec) :
    Issues x c 0 (lowerImportSpec spec) (heldAll x) := by
  refine .branch (fun _ => .pure (by simp)) fun _ => .skip (issues_keepsImport _) fun keeps => ?_
  refine .branch (fun _ => .pure ?_) fun _ => .pure (by simp)
  rw [heldAll_cons, heldAll_nil, Held.add_zero]
  exact Held.le_trans (held_like hx spec _) (held_leaves hx fun k hk => (hs.mem hk).mark)

theorem issues_lowerImport (hx : x ≠ 0) (hg : Keeps x g) (hn : Tidy n) :
    Issues x c 0 (lowerImport g n) (held x) := by
  refine .branch (fun _ => .pure fun _ => by simp [held]) fun _ => ?_
  refine .bind (issues_lowerOptional hg (hn.kid 1)) fun attrs => ?_
  refine .step (.mapM_flatten fun k hk => issues_lowerImportSpec hx (hn.drop hk)) fun specs => ?_
  refine .branch (fun _ => .pure fun _ => by simp [held]) fun _ => .pure ?_
  refine Held.le_trans (held_like hx n _) ?_
  simpa using Held.add_le_add (held_leaf hx (hn.kid 0).mark) (Held.le_refl _)

mutual

theorem issues_lowerEntity (hx : x ≠ 0) (hg : Keeps x g) :
    ∀ n, Tidy n → Issues x c 0 (lowerEntity g n) (held x)
  | .absent, _ => .pure fun _ => by simp [held]
  | .mk h ks ds t a y, hn => by
    unfold lowerEntity
    dsimp only
    split
    · refine .bind (issues_lowerEntityFirst hx hg ks fun k hk => hn.mem hk) fun obj =>
        .pure fun _ => ?_
      simp [loose_ident hx]
    · exact issues_nameRef hx hn.mark
    · exact hg.expr c _ hn

theorem issues_lowerEntityFirst (hx : x ≠ 0) (hg : Keeps x g) :
    ∀ ks : List Node, (∀ k ∈ ks, Tidy k) → Issues x c 0 (lowerEntityFirst g ks) (held x)
  | [], _ => .pure fun _ => by simp [held]
  | n :: _, hn => issues_lowerEntity hx hg n (hn n List.mem_cons_self)

end

theorem issues_lowerAlias (hx : x ≠ 0) (hg : Keeps x g) {exported : Bool} (hn : Tidy n) :
    Issues x c 0 (lowerAlias g n exported) (held x) := by
  have habsent : Issues x c 0 (pure .absent) (held x) := .pure fun _ => by simp [held]
  refine .branch (fun _ => habsent) fun _ => ?_
  refine .branch (fun _ => .skip (issues_errorAt (by decide)) fun _ => habsent) fun _ => ?_
  refine .skip (issues_keepsImport _) fun keeps => .branch (fun _ => ?_) fun _ => habsent
  refine .bind (issues_lowerEntity hx hg _ (hn.kid 1)) fun value => .pure ?_
  have hvar (keyword : String) (d : Node) : held x (varDecl keyword n.span [d]) ≤ held x d :=
    fun _ => by simp
  refine Held.le_trans (hvar _ _) (Held.le_trans (held_new hx _ _ _) ?_)
  simpa using Held.add_le_add (held_leaf hx (hn.kid 0).mark) (Held.le_refl (held x value))

/-! ## Exports -/

theorem issues_lowerExportSpec (hx : x ≠ 0) {reexport : Bool} {spec : Node} (hs : Tidy spec) :
    Issues x c 0 (lowerExportSpec reexport spec) (heldAll x) := by
  refine .skip issues_read fun _ => .branch (fun _ => .pure (by simp)) fun _ => .pure ?_
  rw [heldAll_cons, heldAll_nil, Held.add_zero]
  refine Held.le_trans (held_like hx spec _) ?_
  simpa using Held.add_le_add (held_leaf hx (hs.kid 0).mark) (held_leaf hx (hs.kid 1).mark)

theorem issues_lowerExportNamed (hx : x ≠ 0) (hg : Keeps x g) (hn : Tidy n) :
    Issues x c 0 (lowerExportNamed g n) (held x) := by
  refine .branch (fun _ => .pure fun _ => by simp [held]) fun _ => ?_
  refine .bind (issues_lowerOptional hg (hn.kid 1)) fun attrs => ?_
  refine .step (.mapM_flatten fun k hk => issues_lowerExportSpec hx (hn.drop hk)) fun specs => ?_
  refine .branch (fun _ => .pure fun _ => by simp [held]) fun _ => .pure ?_
  refine Held.le_trans (held_like hx n _) ?_
  simpa using Held.add_le_add (held_leaf? hx (hn.kid 0).mark) (Held.le_refl _)

theorem issues_lowerExportAll (hx : x ≠ 0) (hg : Keeps x g) (hn : Tidy n) :
    Issues x c 0 (lowerExportAll g n) (held x) := by
  refine .branch (fun _ => .pure fun _ => by simp [held]) fun _ => ?_
  refine .bind (issues_lowerOptional hg (hn.kid 1)) fun attrs => .pure ?_
  refine Held.le_trans (held_like hx n _) ?_
  have hname := Held.add_le_add_left (held_leaf? hx (hn.kid 2).mark) (held x attrs)
  simpa using Held.add_le_add (held_leaf hx (hn.kid 0).mark) hname

theorem issues_lowerExportDefault (hx : x ≠ 0) (hg : Keeps x g) (hn : Tidy n) :
    Issues x c 0 (lowerExportDefault g n) (held x) := by
  have hinner {m : LowerM Node} (hm : Issues x c 0 m (held x)) :
      Issues x c 0 (do return like n [← m]) (held x) :=
    .bind hm fun r => .pure (Held.le_trans (held_like hx n _) (by simp))
  refine .branch (fun _ => .pure fun _ => by simp [held]) fun _ => ?_
  split
  · exact hinner (issues_lowerFunction hx hg (hn.kid 0) (.inl ‹_›))
  · exact hinner (issues_lowerClass hx hg (hn.kid 0))
  · refine .skip issues_read fun _ => .branch (fun _ => .pure fun _ => by simp [held]) fun _ => ?_
    exact hinner (hg.expr c _ (hn.kid 0))

/-! ## Namespaces -/

theorem issues_lowerNamespace (hx : x ≠ 0) (hg : Keeps x g) {exported : Bool} (hn : Tidy n) :
    Issues x c 0 (lowerNamespace g n exported) (heldAll x) := by
  have hnone : Issues x c 0 (pure []) (heldAll x) := .pure (by simp)
  refine .branch (fun _ => hnone) fun _ => ?_
  refine .branch (fun _ => .skip (issues_errorAt (by decide)) fun _ => hnone) fun _ => ?_
  refine .skip issues_namespaceScope? fun parent => ?_
  refine .bind
    (.elsewhere (issues_collectTemps (Q := heldAll x) (.branch (fun _ => ?_) fun _ => ?_))) ?_
  · exact hg.namespaceDecl _ _ _ (hn.kid 1)
  · exact issues_lowerList hg fun _ => (hn.kid 1).mem
  intro r
  refine .branch (fun _ => .pure (by simp)) fun _ => ?_
  exact .bind (issues_withTemps r.1 r.2) fun stmts => issues_fillObject hx n.span

theorem held_setExport (hx : x ≠ 0) (ns : Scope) {value : Node} (span : Span) (name : Bytes)
    (nameSpan : Span) : held x (setExport ns span name nameSpan value) ≤ held x value := fun _ => by
  simp [setExport, loose_member hx, loose_ident hx]

theorem issues_lowerExportedVariable (hx : x ≠ 0) (hg : Keeps x g) {ns : Scope} {d : Node}
    (hd : Tidy d) : Issues x c 0 (lowerExportedVariable g ns d) (heldAll x) := by
  have hnone : Issues x c 0 (pure []) (heldAll x) := .pure (by simp)
  refine .branch (fun _ => .skip (issues_errorAt (by decide)) fun _ => hnone) fun _ => ?_
  refine .branch (fun _ => hnone) fun _ => .bind (hg.expr c _ (hd.kid 1)) fun value => .pure ?_
  simpa using held_setExport hx _ d.span (d.kid 0).text (d.kid 0).span

theorem issues_lowerNamespaceExport (hx : x ≠ 0) (hg : Keeps x g) {ns : Scope} (hn : Tidy n) :
    Issues x c 0 (lowerNamespaceExport g ns n) (heldAll x) := by
  have hnone : Issues x c 0 (pure []) (heldAll x) := .pure (by simp)
  have hdecl := hn.kid 0
  refine .skip (issues_onComments _) fun _ => ?_
  have hcopy : Issues x c 0 (do
      let out ← g.stmt (n.kid 0)
      if out.isEmpty then return []
      return out ++ [setExport ns ((n.kid 0).kid 0).span ((n.kid 0).kid 0).text
        ((n.kid 0).kid 0).span (.ident ((n.kid 0).kid 0).text ((n.kid 0).kid 0).span)])
      (heldAll x) := by
    refine .bind (hg.stmt c _ hdecl) fun out => .branch (fun _ => .pure (by simp)) fun _ => .pure ?_
    have hname : held x (.ident ((n.kid 0).kid 0).text ((n.kid 0).kid 0).span) ≤ 0 :=
      fun _ => by simp [held, loose_ident hx]
    have hset := Held.le_trans (held_setExport hx ns ((n.kid 0).kid 0).span
      ((n.kid 0).kid 0).text ((n.kid 0).kid 0).span) hname
    simpa using Held.add_le_add_left hset (heldAll x out)
  split
  · refine .branch (fun _ => hnone) fun _ => ?_
    refine .bind (.mapM_flatten fun d hd => issues_lowerExportedVariable hx hg (hdecl.mem hd)) ?_
    exact fun sets => .pure (Held.le_refl _)
  · exact hcopy
  · exact hcopy
  · exact issues_lowerEnum hx hg hdecl
  · exact issues_lowerNamespace hx hg hdecl
  · refine .branch (fun _ => .skip (issues_errorAt (by decide)) fun _ => hnone) fun _ => ?_
    refine .bind (issues_lowerEntity hx hg _ (hdecl.kid 1)) fun value => .pure ?_
    simpa using held_setExport hx _ _ _ _
  · exact .branch (fun _ => .skip (issues_errorAt rfl) fun _ => hnone) fun _ => hnone

theorem issues_lowerExportDecl (hx : x ≠ 0) (hg : Keeps x g) (hn : Tidy n) :
    Issues x c 0 (lowerExportDecl g n) (heldAll x) := by
  have hdecl := hn.kid 0
  refine .skip issues_namespaceScope? fun o => ?_
  split
  · exact issues_lowerNamespaceExport hx hg hn
  · dsimp only
    split
    · exact .skip (issues_onComments _) fun _ => issues_lowerEnum hx hg hdecl
    · exact .skip (issues_onComments _) fun _ => issues_lowerNamespace hx hg hdecl
    · refine .bind (issues_lowerAlias hx hg hdecl) fun r => .pure ?_
      exact Held.le_trans heldAll_one (held_exportWrap hx n.span)
    · refine .bind (hg.stmt c _ hdecl) fun out => ?_
      split
      · exact .pure (by simp)
      · rename_i first rest
        refine .pure ?_
        rw [heldAll_cons, heldAll_nil, Held.add_zero]
        refine Held.le_trans (held_exportWrap hx n.span) ?_
        rw [heldAll_cons]
        exact Held.le_add_right _ _

end

end ScriptLower.Lower
