import ScriptLower.Proofs.Lower.Statements

/-!
# Lowering programs

Tied together to any depth the rules keep what they promise of each other, so a program is lowered
to good code. The final spelling of generated names changes nothing of that, since what is asked of
a name is asked only of names of the source.
-/

namespace ScriptLower.Lower

open ScriptLower

section

variable {a : Aim} {c : Context} {n : Node} {g : Rules} {given : Prop}

/-! ## The rules -/

theorem lowers_noRules (a : Aim) : Lowers a noRules where
  expr _ _ := .error_then (.pure False.elim)
  absent _ := .error_then (.pure False.elim)
  this _ _ _ := .error_then (.pure False.elim)
  pattern _ _ _ := .error_then (.pure False.elim)
  stmt _ _ := .error_then (.pure False.elim)
  namespaceDecl _ _ _ := .error_then (.pure False.elim)

theorem lowers_rules (a : Aim) : ∀ d, Lowers a (rules d)
  | 0 => lowers_noRules a
  | d + 1 =>
    have ih := lowers_rules a d
    { expr := fun _ _ => yields_lowerExpr ih
      absent := fun _ => .pure fun _ => rfl
      this := fun _ _ hk => yields_lowerThis hk
      pattern := fun _ _ _ => yields_lowerPattern ih
      stmt := fun _ _ => yields_lowerStmt ih
      namespaceDecl := fun _ _ _ => yields_lowerNamespace ih }

/-! ## Programs -/

theorem yields_importSpecs (a : Aim) (hs : List Helper) :
    Yields c given (importSpecs hs) fun rs => ∀ r ∈ rs, Fine a r := by
  refine .bind yields_get fun s => .mapM fun x _ => ?_
  refine .bind (yields_ref a _) fun r => .pure fun h => ?_
  exact .unread rfl rfl (fun _ _ => rfl) (by simpa using ⟨.leaf _, h.2.1.good⟩)

theorem fine_importFrom {specs : List Node} (source : Bytes) (hs : ∀ x ∈ specs, Fine a x) :
    Fine a (importFrom source specs) := by
  refine .unread rfl rfl (fun _ _ => rfl) ?_
  refine List.forall_mem_cons.2 ⟨.leaf _, List.forall_mem_cons.2 ⟨.absent, ?_⟩⟩
  exact fun x hx => (hs x hx).good

theorem yields_withHelperImports (a : Aim) {stmts : List Node}
    (hs : given → ∀ x ∈ stmts, Fine a x) :
    Yields c given (withHelperImports stmts) fun rs => ∀ r ∈ rs, Fine a r := by
  refine .bind yields_read fun x => ?_
  refine .bind (yields_importSpecs a _) fun specs =>
    .bind (yields_importSpecs a _) fun creators => ?_
  refine .pure fun h => ?_
  have himport (source : Bytes) (xs : List Node) (hxs : ∀ x ∈ xs, Fine a x) :
      ∀ x ∈ (if xs.isEmpty then [] else [importFrom source xs]), Fine a x := by
    split
    · simp
    · simpa using fine_importFrom source hxs
  have hinsert (xs : List Node) (hxs : ∀ x ∈ xs, Fine a x) :
      ∀ x ∈ (if xs.isEmpty then stmts else insertAfterDirectives stmts xs), Fine a x := by
    split
    · exact hs h.1.1.1
    · exact forall_insertAfterDirectives (hs h.1.1.1) hxs
  exact hinsert _ (List.forall_mem_append.2 ⟨himport _ specs h.1.2, himport _ creators h.2⟩)

theorem yields_lowerProgram (hg : Lowers a g) (hk : n.kind = .program) :
    Yields c (At a c n) (lowerProgram g n) (Fine a) := by
  refine .bind (yields_collectTemps (yields_lowerList hg fun h x hx => ?_)) fun r => ?_
  · exact h.kids hk (fun _ => rfl) hx
  refine .bind (yields_withTemps a And.right) fun stmts => ?_
  refine .bind (yields_withHelperImports a And.right) fun stmts => .pure fun h => ?_
  exact Fine.mapFlags rfl (.new rfl _ h.2) rfl

/-! ## Final names -/

/-- A change of heads that spells generated names and nothing else. -/
structure Respells (f : Head → Head) : Prop where
  kind : ∀ h, (f h).kind = h.kind
  flags : ∀ h, (f h).flags = h.flags
  op : ∀ h, (f h).op = h.op
  mark : ∀ h, (f h).mark = h.mark
  same : ∀ h, h.mark = 0 → f h = h
  plain : ∀ h, h.kind ≠ .ident → f h = h

section

variable {f : Head → Head}

theorem mapAllHeads_eq (ks : List Node) : Node.mapAllHeads f ks = ks.map (Node.mapHeads f) := by
  induction ks with
  | nil => rfl
  | cons k ks ih => rw [Node.mapAllHeads, ih, List.map_cons]

theorem kids_mapHeads (n : Node) : (n.mapHeads f).kids = n.kids.map (Node.mapHeads f) := by
  cases n with
  | absent => rfl
  | mk h ks ds t x y => exact mapAllHeads_eq ks

theorem decos_mapHeads (n : Node) : (n.mapHeads f).decos = n.decos.map (Node.mapHeads f) := by
  cases n with
  | absent => rfl
  | mk h ks ds t x y => exact mapAllHeads_eq ds

theorem kid_mapHeads (n : Node) (i : Nat) : (n.mapHeads f).kid i = (n.kid i).mapHeads f := by
  unfold Node.kid
  rw [kids_mapHeads, List.getD_eq_getElem?_getD, List.getD_eq_getElem?_getD, List.getElem?_map]
  cases n.kids[i]? with
  | none => rfl
  | some k => rfl

theorem isPresent_mapHeads (n : Node) : (n.mapHeads f).isPresent = n.isPresent := by
  cases n with
  | absent => rfl
  | mk h ks ds t x y => rfl

theorem Respells.kind_mapHeads (hf : Respells f) (n : Node) : (n.mapHeads f).kind = n.kind := by
  cases n with
  | absent => rfl
  | mk h ks ds t x y => exact hf.kind h

theorem Respells.ref (hf : Respells f) (hn : Ref a n) : Ref a (n.mapHeads f) := by
  cases n with
  | absent => exact hn
  | mk h ks ds t x y =>
    intro hk hm
    have hmark : h.mark = 0 := (hf.mark h).symm.trans hm
    show a.names (f h).text
    rw [hf.same h hmark]
    exact hn ((hf.kind h).symm.trans hk) hmark

theorem Respells.since (hf : Respells f) (n : Node) : (n.mapHeads f).since = n.since := by
  cases n with
  | absent => rfl
  | mk h ks ds t x y =>
    have hany :
        ((ks.map (Node.mapHeads f)).any (·.kind == .spread)) = ks.any (·.kind == .spread) := by
      rw [List.any_map]
      exact congrArg ks.any (funext fun k => by simp [hf.kind_mapHeads])
    have hfirst :
        ((ks.map (Node.mapHeads f)).getD 0 .absent).isPresent = (ks.getD 0 .absent).isPresent := by
      cases ks with
      | nil => rfl
      | cons k ks => exact isPresent_mapHeads k
    show Head.since (f h) (Node.mapAllHeads f ks) = Head.since h ks
    unfold Head.since
    rw [mapAllHeads_eq, hany, hfirst, hf.kind, hf.op, hf.flags, List.isEmpty_map]

theorem Respells.fit (hf : Respells f) (hn : Fit a n) : Fit a (n.mapHeads f) where
  since := by
    rw [hf.since]
    exact hn.since
  reads i hi := by
    rw [kid_mapHeads]
    refine hf.ref (hn.reads i ?_)
    cases n with
    | absent => exact hi
    | mk h ks ds t x y =>
      rw [← hi]
      simp only [Node.readsAt, kid_mapHeads, hf.kind_mapHeads]
      show (_ && _) = (NodeKind.reads _ (f h).flags.computed i && _)
      rw [hf.flags]
      rfl
  decos d hd := by
    rw [decos_mapHeads] at hd
    obtain ⟨d, hmem, rfl⟩ := List.mem_map.1 hd
    exact hf.ref (hn.decos d hmem)
  specs hk hlocal spec hs := by
    rw [hf.kind_mapHeads] at hk
    rw [kid_mapHeads, Node.isAbsent, isPresent_mapHeads] at hlocal
    rw [kids_mapHeads, ← List.map_drop] at hs
    obtain ⟨s, hmem, rfl⟩ := List.mem_map.1 hs
    rw [kid_mapHeads]
    exact hf.ref (hn.specs hk hlocal s hmem)

theorem Respells.good (hf : Respells f) (hn : Good a n) : Good a (n.mapHeads f) := by
  induction hn with
  | absent => exact .absent
  | mk hfit _ _ ihk ihd =>
    refine .mk (hf.fit hfit) (fun k hk => ?_) fun d hd => ?_
    · rw [mapAllHeads_eq] at hk
      obtain ⟨k, hmem, rfl⟩ := List.mem_map.1 hk
      exact ihk k hmem
    · rw [mapAllHeads_eq] at hd
      obtain ⟨d, hmem, rfl⟩ := List.mem_map.1 hd
      exact ihd d hmem

end

/-- The final spelling of generated names. -/
theorem renameMarked_eq (supply : NameSupply) (root : Node) :
    ∃ f, Respells f ∧ (renameMarked supply root).1 = root.mapHeads f := by
  refine ⟨_, ⟨fun h => ?_, fun h => ?_, fun h => ?_, fun h => ?_, fun h hm => ?_, fun h hk => ?_⟩,
    rfl⟩
  · dsimp only; split <;> rfl
  · dsimp only; split <;> rfl
  · dsimp only; split <;> rfl
  · dsimp only; split <;> rfl
  · simp [hm]
  · simp [hk]

/-! ## Files -/

section

variable {file : SourceFile} {root out : Node} {comments : CommentTable} {supply : NameSupply}
  {o : Settings}

/-- What is fixed for a file. -/
def fileContext (file : SourceFile) (root : Node) (comments : CommentTable) (o : Settings) :
    Context :=
  let elements := (applyPragmas o.elements.resolved comments.all).1
  { file := file, target := o.target.resolved, elements := elements
    conditionals := o.conditionals, defines := o.defines, preserveImports := o.preserveImports
    used := usedNames elements root, typeLevel := typeLevelNames root }

/-- A file that is lowered to a tree is a program that lacks nothing. -/
theorem lowerTree_whole (h : (lowerTree file root comments supply o).tree = some out) :
    root.kind = .program ∧
      lowerTree file root comments supply o = lowerWhole file root comments supply o := by
  by_cases hk : root.kind = .program
  · refine ⟨hk, ?_⟩
    unfold lowerTree at h ⊢
    rw [if_neg (by simp [hk])] at h ⊢
    split at h
    · cases h
    · rfl
  · rw [lowerTree, if_pos (by simpa using hk)] at h
    cases h

/-- The tree that a file is lowered to is that of its program, made without an error, with the
generated names spelled out. -/
theorem lowerTree_eq_some (h : (lowerTree file root comments supply o).tree = some out) :
    root.kind = .program ∧ ∃ s f, Respells f ∧
      (lowerProgram (rules (depthFor root)) root (fileContext file root comments o) s).2.errors
        = 0 ∧
      out = (lowerProgram (rules (depthFor root)) root (fileContext file root comments o)
          s).1.mapHeads f := by
  obtain ⟨hk, hwhole⟩ := lowerTree_whole h
  rw [hwhole] at h
  unfold lowerWhole at h
  refine ⟨hk, { supply := supply, comments := comments
                reports := (applyPragmas o.elements.resolved comments.all).2 }, ?_⟩
  dsimp only at h
  split at h
  rename_i tree s hrun
  have hrun : lowerProgram (rules (depthFor root)) root (fileContext file root comments o)
      { supply := supply, comments := comments
        reports := (applyPragmas o.elements.resolved comments.all).2 } = (tree, s) := hrun
  rw [hrun]
  split at h
  · rename_i herrors
    obtain ⟨f, hf, hrename⟩ := renameMarked_eq s.supply tree
    refine ⟨f, hf, herrors, ?_⟩
    dsimp only at h
    split at h
    · rw [← hrename]
      exact (Option.some.inj h).symm
    · cases h
  · rename_i herrors
    dsimp only at h
    split at h
    · exact absurd ‹_› herrors
    · cases h

/-- A file is lowered to good code. -/
theorem fine_lowerTree (hroot : At a (fileContext file root comments o) root)
    (h : (lowerTree file root comments supply o).tree = some out) : Fine a out := by
  obtain ⟨hk, s, f, hf, herrors, rfl⟩ := lowerTree_eq_some h
  have hyields := yields_lowerProgram (c := fileContext file root comments o)
    (lowers_rules a (depthFor root)) hk
  have hfine := (hyields s).2 herrors hroot
  exact ⟨hf.good hfine.good, hf.ref hfine.ref⟩

end

end

end ScriptLower.Lower
