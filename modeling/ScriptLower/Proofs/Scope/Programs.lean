import Mathlib.Data.List.Nodup
import ScriptLower.Lower.Program
import ScriptLower.Proofs.Scope.Statements

/-!
# Marks in programs

When a program is done its own temporaries are declared at its head, and every helper in use is
imported. So nothing is left to be declared, and all uses are covered.
-/

namespace ScriptLower.Lower

open ScriptLower Node

section

variable {x outside : Nat} {c : Context} {g : Rules} {n : Node} {s : State} {J : Held}

/-! ## The rules -/

theorem issues_exhausted : Issues x c 0 (exhausted n) fun _ => 0 := issues_errorAt rfl

theorem keeps_noRules : Keeps x noRules where
  expr _ _ _ := .skip issues_exhausted fun _ => .pure fun _ => by simp [held]
  pattern _ _ _ _ := .skip issues_exhausted fun _ => .pure fun _ => by simp [held]
  stmt _ _ _ := .skip issues_exhausted fun _ => .pure (by simp)
  namespaceDecl _ _ _ _ := .skip issues_exhausted fun _ => .pure (by simp)

theorem keeps_rules (hx : x ≠ 0) : ∀ d, Keeps x (rules d)
  | 0 => keeps_noRules
  | d + 1 =>
    have ih := keeps_rules hx d
    { expr := fun _ _ hn => issues_lowerExpr hx ih hn
      pattern := fun _ _ _ hn => issues_lowerPattern hx ih hn
      stmt := fun _ _ hn => issues_lowerStmt hx ih hn
      namespaceDecl := fun _ _ _ hn => issues_lowerNamespace hx ih hn }

/-! ## Helpers -/

/-- The import of a helper under its mark. -/
def helperSpec (s : State) (p : Helper × Nat) : Node :=
  .new .importSpec {} [.ident p.1.name {}, .marked (s.supply.wish p.2) p.2]

/-- The helpers among some that a file uses. -/
def usedAmong (s : State) (hs : List Helper) : List (Helper × Nat) :=
  hs.filterMap fun h => s.helpers.find? (·.1 == h)

theorem helperSpecs_run (ps : List (Helper × Nat)) (c : Context) (s : State) :
    (ps.mapM (m := LowerM) fun (p : Helper × Nat) =>
        match p with
        | (h, m) => do return .new .importSpec {} [.ident h.name {}, ← ref m]) c s =
      (ps.map (helperSpec s), s) := by
  induction ps with
  | nil => rfl
  | cons p ps ih =>
    rw [List.mapM_cons]
    refine Eq.trans ?_ (congrArg (fun r : List Node × State => (helperSpec s p :: r.1, r.2)) ih)
    rfl

theorem importSpecs_run (hs : List Helper) (c : Context) (s : State) :
    importSpecs hs c s = ((usedAmong s hs).map (helperSpec s), s) :=
  helperSpecs_run (usedAmong s hs) c s

/-- The imports that a file needs for its helpers. -/
def helperImports (c : Context) (s : State) : List Node :=
  let o := c.elements
  let path : Bytes := if o.development then "/jsx-dev-runtime" else "/jsx-runtime"
  let specs := (usedAmong s [.jsx, .jsxs, .fragment, .jsxDev]).map (helperSpec s)
  let creators := (usedAmong s [.createElement]).map (helperSpec s)
  (if specs.isEmpty then [] else [importFrom (o.importSource ++ path) specs])
    ++ (if creators.isEmpty then [] else [importFrom o.importSource creators])

theorem withHelperImports_run (stmts : List Node) (c : Context) (s : State) :
    withHelperImports stmts c s =
      (if (helperImports c s).isEmpty then stmts else insertAfterDirectives stmts
          (helperImports c s),
        s) := by
  have hrun : withHelperImports stmts c s =
      (let specs := importSpecs [.jsx, .jsxs, .fragment, .jsxDev] c s
      let creators := importSpecs [.createElement] c specs.2
      let o := c.elements
      let path : Bytes := if o.development then "/jsx-dev-runtime" else "/jsx-runtime"
      let imports := (if specs.1.isEmpty then [] else [importFrom (o.importSource ++ path) specs.1])
        ++ (if creators.1.isEmpty then [] else [importFrom o.importSource creators.1])
      (if imports.isEmpty then stmts else insertAfterDirectives stmts imports, creators.2)) := rfl
  rw [hrun, importSpecs_run]
  dsimp only
  rw [importSpecs_run]
  rfl

theorem helperSpecs_count (s : State) (ps : List (Helper × Nat)) (hx : x ≠ 0) :
    looseAll x (ps.map (helperSpec s)) = (ps.map (·.2)).count x ∧
      declaredAll x (ps.map (helperSpec s)) = (ps.map (·.2)).count x := by
  induction ps with
  | nil => exact ⟨rfl, rfl⟩
  | cons p ps ih =>
    have hloose : (helperSpec s p).loose x = if p.2 = x then 1 else 0 := by
      rw [helperSpec, Node.new, ofHead, loose_mk, looseKids_eq rfl]
      simp [Head.declaresFor, loose_ident hx]
    have hdecl : (helperSpec s p).declared x = if p.2 = x then 1 else 0 := by
      rw [helperSpec, Node.new, declared_ofHead]
      simp [Head.declares, NodeKind.nameAt?, isUse_marked]
    simp only [List.map_cons, looseAll_cons, declaredAll_cons, ih, hloose, hdecl, List.count_cons,
      beq_iff_eq]
    omega

theorem importFrom_count {specs : List Node} (source : Bytes) :
    (importFrom source specs).loose x = looseAll x specs ∧
      (importFrom source specs).declared x = declaredAll x specs := by
  have hleaf (h : Head) (hk : h.kind = .literal) : (ofHead h []).loose x = 0 := by
    rw [loose_ofHead (by simp [hk])]
    rfl
  have hfrom := hleaf
    { kind := .literal, op := .stringLit, text := StringLiteral.quote source (ascii '"'),
      flags := { synth := true } } rfl
  simp [importFrom, hfrom, declared_ofHead_nil]

theorem find_helper (hs : (s.helpers.map (·.1)).Nodup) {p : Helper × Nat} (hp : p ∈ s.helpers) :
    s.helpers.find? (·.1 == p.1) = some p := by
  obtain ⟨q, hq⟩ : ∃ q, s.helpers.find? (·.1 == p.1) = some q :=
    Option.isSome_iff_exists.1 (List.find?_isSome.2 ⟨p, hp, beq_self_eq_true p.1⟩)
  have hkey := List.find?_some hq
  have hmem := List.mem_of_find?_eq_some hq
  rw [hq, List.inj_on_of_nodup_map hs hmem hp (beq_iff_eq.1 hkey)]

/-- Each helper in use is found once among all helpers. -/
theorem usedAmong_all (hs : (s.helpers.map (·.1)).Nodup) :
    (usedAmong s [.jsx, .jsxs, .fragment, .jsxDev] ++ usedAmong s [.createElement]).Perm
    s.helpers := by
  have hall (h : Helper) : h ∈ [Helper.jsx, .jsxs, .fragment, .jsxDev, .createElement] := by
    cases h <;> decide
  have hjoin : usedAmong s [.jsx, .jsxs, .fragment, .jsxDev] ++ usedAmong s [.createElement] =
      usedAmong s [.jsx, .jsxs, .fragment, .jsxDev, .createElement] := by
    rw [usedAmong, usedAmong, ← List.filterMap_append]
    rfl
  rw [hjoin]
  refine (List.perm_ext_iff_of_nodup ?_ (List.Nodup.of_map _ hs)).2 fun p => ?_
  · refine List.Nodup.filterMap (fun h h' p hp hp' => ?_) (by decide)
    have hkey := List.find?_some hp
    have hkey' := List.find?_some hp'
    exact (beq_iff_eq.1 hkey).symm.trans (beq_iff_eq.1 hkey')
  · refine ⟨fun hp => ?_, fun hp => ?_⟩
    · obtain ⟨h, -, hfind⟩ := List.mem_filterMap.1 hp
      exact List.mem_of_find?_eq_some hfind
    · exact List.mem_filterMap.2 ⟨p.1, hall p.1, find_helper hs hp⟩

/-- The imports declare every helper once. -/
theorem helperImports_count (hx : x ≠ 0) (hs : (s.helpers.map (·.1)).Nodup) :
    looseAll x (helperImports c s) = s.asHelper x ∧
      declaredAll x (helperImports c s) = s.asHelper x := by
  have hcount : s.asHelper x = ((usedAmong s [.jsx, .jsxs, .fragment, .jsxDev]).map (·.2)).count x +
      ((usedAmong s [.createElement]).map (·.2)).count x := by
    rw [State.asHelper, ← List.count_append, ← List.map_append]
    exact (((usedAmong_all hs).map (·.2)).count_eq x).symm
  have himport (source : Bytes) (ps : List (Helper × Nat)) :
      looseAll x (if (ps.map (helperSpec s)).isEmpty then []
        else [importFrom source (ps.map (helperSpec s))]) = (ps.map (·.2)).count x ∧
      declaredAll x (if (ps.map (helperSpec s)).isEmpty then []
        else [importFrom source (ps.map (helperSpec s))]) = (ps.map (·.2)).count x := by
    cases ps with
    | nil => exact ⟨rfl, rfl⟩
    | cons p ps => simpa [importFrom_count] using helperSpecs_count s (p :: ps) hx
  rw [helperImports, hcount]
  simp only [looseAll_append, declaredAll_append, himport, and_self]

theorem introduces_importFrom {source : Bytes} {specs : List Node} {d : Node} (hd : d ∈ specs)
    (hk : d.kind = .importSpec) (hm : (d.kid 1).isUse x = true) :
    (importFrom source specs).introduces x = true := by
  have hany : (importFrom source specs).kids.any
      (fun d => d.kind == .importSpec && (d.kid 1).isUse x) = true :=
    List.any_eq_true.2
      ⟨d, List.mem_cons_of_mem _ (List.mem_cons_of_mem _ hd), by simp [hk, hm]⟩
  exact hany

/-- A helper in use is declared among the imports. -/
theorem helperImports_introduce (hs : (s.helpers.map (·.1)).Nodup) (hx : 0 < s.asHelper x) :
    (helperImports c s).any (Node.introduces x) = true := by
  obtain ⟨p, hp, rfl⟩ := List.mem_map.1 (List.count_pos_iff.1 hx)
  have himport (source : Bytes) (ps : List (Helper × Nat)) (hps : p ∈ ps) :
      (if (ps.map (helperSpec s)).isEmpty then []
        else [importFrom source (ps.map (helperSpec s))]).any (Node.introduces p.2) = true := by
    have hspec : helperSpec s p ∈ ps.map (helperSpec s) := List.mem_map_of_mem hps
    rw [if_neg (by simpa using List.ne_nil_of_mem hps), List.any_cons, List.any_nil, Bool.or_false]
    exact introduces_importFrom hspec rfl (isUse_marked.trans (beq_self_eq_true p.2))
  rw [helperImports, List.any_append, Bool.or_eq_true]
  rcases List.mem_append.1 ((usedAmong_all hs).symm.subset hp) with hp | hp
  · exact .inl (himport _ _ hp)
  · exact .inr (himport _ _ hp)

/-! ## Programs -/

/-- The statements of a program with its temporaries, before the imports of helpers. -/
def programBody (g : Rules) (root : Node) : LowerM (List Node) :=
  collectTemps (lowerList g root.kids) >>= fun r => withTemps r.1 r.2

theorem issues_programBody (hg : Keeps x g) (hn : Tidy n) :
    Issues x c 0 (programBody g n) (heldBody x) :=
  .bind (issues_collectTemps (issues_lowerList hg fun _ => hn.mem)) fun r =>
    issues_withTemps r.1 r.2

/-- A program leaves no temporaries to the outside. -/
theorem programBody_temps (g : Rules) (n : Node) (c : Context) (s : State) :
    (programBody g n c s).2.temps = s.temps := by
  have hrun : programBody g n c s = withTemps (collectTemps (lowerList g n.kids) c s).1.1
      (collectTemps (lowerList g n.kids) c s).1.2 c (collectTemps (lowerList g n.kids) c s).2 := rfl
  rw [hrun, withTemps_run, collectTemps_run]

theorem lowerProgram_run (g : Rules) (n : Node) (c : Context) (s : State) :
    lowerProgram g n c s =
      (let b := programBody g n c s
      ((Node.new .program n.span (withHelperImports b.1 c b.2).1).addFlags
          { strict := n.flags.strict },
        b.2)) := by
  have hrun : lowerProgram g n c s =
      (let b := programBody g n c s
      ((Node.new .program n.span (withHelperImports b.1 c b.2).1).addFlags
          { strict := n.flags.strict },
        (withHelperImports b.1 c b.2).2)) := rfl
  rw [hrun]
  dsimp only
  rw [withHelperImports_run]

theorem program_count (span : Span) (stmts : List Node) (strict : Bool) :
    ((Node.new .program span stmts).addFlags { strict := strict }).loose x =
        (if stmts.any (Node.introduces x) then 0 else looseAll x stmts) ∧
      ((Node.new .program span stmts).addFlags { strict := strict }).declared x =
        declaredAll x stmts := by
  rw [Node.addFlags, loose_mapFlags, declared_mapFlags]
  · refine ⟨?_, ?_⟩
    · rw [Node.new, ofHead, loose_mk, looseKids_eq rfl]
      simp [Head.declaresFor]
    · rw [Node.new, declared_ofHead]
      simp [Head.declares, NodeKind.nameAt?]
  · intro h
    simp [Head.bodyAt?, Flags.or]

/-- The imports of helpers declare what is still owed, and nothing else. -/
theorem withHelperImports_count (hx : x ≠ 0) (hs : (s.helpers.map (·.1)).Nodup)
    (stmts : List Node) :
    looseAll x (withHelperImports stmts c s).1 = looseAll x stmts + s.asHelper x ∧
      declaredAll x (withHelperImports stmts c s).1 = declaredAll x stmts + s.asHelper x ∧
      (stmts.any (Node.introduces x) = true ∨ 0 < s.asHelper x →
        (withHelperImports stmts c s).1.any (Node.introduces x) = true) := by
  obtain ⟨hloose, hdecl⟩ := helperImports_count (c := c) hx hs
  have hintroduce := helperImports_introduce (c := c) (x := x) hs
  rw [withHelperImports_run]
  dsimp only
  split
  · rename_i hempty
    rw [List.isEmpty_iff.1 hempty] at hloose hdecl
    rw [← hloose]
    exact ⟨rfl, rfl, fun h => h.resolve_right (Nat.lt_irrefl 0)⟩
  · refine ⟨by simp [hloose], by simp [hdecl], fun h => List.any_eq_true.2 ?_⟩
    rcases h with h | h
    · obtain ⟨d, hd, hm⟩ := List.any_eq_true.1 h
      exact ⟨d, mem_insertAfterDirectives.2 (.inl hd), hm⟩
    · obtain ⟨d, hd, hm⟩ := List.any_eq_true.1 (hintroduce h)
      exact ⟨d, mem_insertAfterDirectives.2 (.inr hd), hm⟩

/-- In a finished program every use of a mark is covered, and a mark is declared once at most. -/
theorem lowerProgram_scoped (hx : x ≠ 0) (hg : Keeps x g) (hn : Tidy n) (hs : Books x 0 s 0)
    (htemps : s.temps = []) :
    (lowerProgram g n c s).1.loose x = 0 ∧ (lowerProgram g n c s).1.declared x ≤ 1 ∧
      ∀ d ∈ (lowerProgram g n c s).2.reports, Classed d := by
  have hbooks : Books x 0 (programBody g n c s).2 (0 + heldBody x (programBody g n c s).1) :=
    (issues_programBody hg hn 0 0 s (by simpa using hs)).1
  have hnone : (programBody g n c s).2.temps = [] := (programBody_temps g n c s).trans htemps
  rw [Held.zero_add] at hbooks
  rw [lowerProgram_run]
  dsimp only
  generalize programBody g n c s = b at hbooks hnone
  obtain ⟨stmts, t⟩ := b
  dsimp only at hbooks hnone ⊢
  -- all that is still owed is owed to the helpers
  have howed : t.owed x 0 = t.asHelper x := by
    simp [State.owed, show t.temps = [] from hnone]
  have hknown := hbooks.known
  have honce := hbooks.once
  rw [howed] at hknown honce
  obtain ⟨hloose, hdecl, hany⟩ := withHelperImports_count (c := c) hx hbooks.helpers stmts
  obtain ⟨hcover, hdecls⟩ := program_count (x := x) n.span (withHelperImports stmts c t).1
    n.flags.strict
  refine ⟨?_, ?_, hbooks.reports⟩
  · rw [hcover]
    split
    · rfl
    · rename_i hno
      have hplain : ¬(stmts.any (Node.introduces x) = true ∨ 0 < t.asHelper x) :=
        fun h => hno (hany h)
      have hstmts : stmts.any (Node.introduces x) = false := by
        simpa using fun h => hplain (.inl h)
      simp only [heldBody, hstmts, Bool.false_eq_true, if_false] at hknown
      rw [hloose]
      have : ¬0 < t.asHelper x := fun h => hplain (.inr h)
      omega
  · rw [hdecls, hdecl]
    simp only [heldBody] at honce
    omega

end

end ScriptLower.Lower
