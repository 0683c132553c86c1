import ScriptLower.Proofs.Lower.Versions

/-!
# Lists of statements

What the statements of a list become stands, part behind part, in what the list becomes. So a
promise about each part is one about the whole list, and a part that is sought is found in it. At
the top of a file two more things stand there: the variables that hold what is used twice, and the
imports of the functions that elements call.
-/

namespace ScriptLower.Lower

open ScriptLower

section

variable {a : Aim} {c : Context} {n : Node} {g : Rules} {given : Prop} {α β : Type}
    {P : Node → Prop}

/-- Code of a version that has everything, whatever names it reads. -/
def codeAim : Aim := versionAim .unset

/-- What a step yields when nothing is asked. -/
theorem Yields.any {m : LowerM α} {given' : Prop} {Q : α → Prop} (hm : Yields c given' m Q) :
    Yields c given m fun _ => True :=
  fun s => ⟨(hm s).1, fun _ _ => trivial⟩

theorem Yields.mapM_mem {f : α → LowerM β} {Q : β → Prop} {xs : List α} {x : α} (hx : x ∈ xs)
    (h : Yields c given (f x) Q) (hany : ∀ x, Yields c given (f x) fun _ => True) :
    Yields c given (xs.mapM f) fun ys => ∃ y ∈ ys, Q y := by
  induction xs with
  | nil => cases hx
  | cons z xs ih =>
    rw [List.mapM_cons]
    rcases List.mem_cons.1 hx with rfl | hx
    · refine .bind h fun y => .bind (Yields.mapM fun x _ => (hany x).any) fun ys =>
        .pure fun hy => ?_
      exact ⟨y, List.mem_cons_self, hy.1.2⟩
    · refine .bind (hany z) fun y => .bind ((ih hx).under And.left) fun ys => .pure fun hys => ?_
      obtain ⟨y', hmem, hy'⟩ := hys.2
      exact ⟨y', List.mem_cons_of_mem _ hmem, hy'⟩

/-! ## Statements -/

theorem forall_mem_one {r : Node} (h : P r) : ∀ x ∈ one r, P x := by
  unfold one
  split
  · simp
  · simpa using h

theorem yields_lowerEach_any (hg : Lowers a g) (stmts : List Node) (orphans : List Nat) :
    Yields c given (lowerEach g stmts orphans) fun _ => True := by
  have hany (m : Node) : Yields c given (g.stmt m) fun rs => ∀ r ∈ rs, True :=
    (hg.stmt c m).any.mono fun _ _ _ _ _ => trivial
  exact (yields_lowerEach (P := fun _ => True) fun m _ => hany m).any

/-- What a statement of a list becomes is among what the list becomes. -/
theorem yields_lowerEach_mem {stmts : List Node} {Q : List Node → Prop} (hg : Lowers a g)
    (hn : n ∈ stmts) : ∀ {given : Prop} {orphans : List Nat}, Yields c given (g.stmt n) Q →
      Yields c given (lowerEach g stmts orphans) fun rs => ∃ part, Q part ∧ ∀ r ∈ part, r ∈ rs := by
  have hany (given : Prop) (m : Node) : Yields c given (g.stmt m) fun _ => True := (hg.stmt c m).any
  induction stmts with
  | nil => cases hn
  | cons m rest ih =>
    intro given orphans hP
    rcases List.mem_cons.1 hn with rfl | hn
    · refine .bind hP fun rs => ?_
      split
      · refine .bind (yields_onComments _) fun _ => .bind yields_get fun s => ?_
        refine (yields_lowerEach_any hg _ _).mono fun rs h _ => ⟨[], h.1.1.2, by simp⟩
      · refine .branch (fun _ => ?_) fun _ => .bind (yields_onComments _) fun _ => ?_
        · refine .bind (yields_lowerEach_any hg _ _) fun more =>
            .pure fun h => ⟨_, h.1.2, fun r hr => ?_⟩
          exact List.mem_append_left _ hr
        · refine .bind (yields_lowerEach_any hg _ _) fun more =>
            .pure fun h => ⟨_, h.1.1.2, fun r hr => ?_⟩
          exact List.mem_append_left _ hr
    · have hmore (first rest' : List Node) (h : ∃ part, Q part ∧ ∀ r ∈ part, r ∈ rest') :
          ∃ part, Q part ∧ ∀ r ∈ part, r ∈ first ++ rest' := by
        obtain ⟨part, hp, hsub⟩ := h
        exact ⟨part, hp, fun r hr => List.mem_append_right _ (hsub r hr)⟩
      refine .bind (hany given m) fun rs => ?_
      split
      · refine .bind (yields_onComments _) fun _ => .bind yields_get fun s => ?_
        exact ih hn (hP.under fun h => h.1.1.1)
      · refine .branch (fun _ => ?_) fun _ => .bind (yields_onComments _) fun _ => ?_
        · exact .bind (ih hn (hP.under And.left)) fun more => .pure fun h => hmore _ _ h.2
        · exact .bind (ih hn (hP.under fun h => h.1.1)) fun more => .pure fun h => hmore _ _ h.2

theorem yields_lowerList_mem {stmts : List Node} {Q : List Node → Prop} (hg : Lowers a g)
    (hn : n ∈ stmts)
    (hP : Yields { c with listDepth := c.listDepth + 1 } given (g.stmt n) Q) :
    Yields c given (lowerList g stmts) fun rs => ∃ part, Q part ∧ ∀ r ∈ part, r ∈ rs := by
  refine .bind yields_get fun s => .bind (yields_modify fun _ => rfl) fun _ => ?_
  refine .bind (.elsewhere (yields_lowerEach_mem hg hn (hP.under fun h => h.1.1))) fun out => ?_
  exact .bind (yields_modify fun _ => rfl) fun _ => .pure fun h => h.1.2

/-! ## What is put in front -/

/-- A declaration of temporaries. -/
def IsTempDecl (r : Node) : Prop :=
  ∃ decls, r = varDecl "var" {} decls ∧ ∀ d ∈ decls, ∃ x m, d = declarator {} (.marked x m)

/-- The statements stay, and what is put in front of them declares temporaries. -/
theorem yields_withTemps_mem (stmts : List Node) (temps : List Nat) :
    Yields c given (withTemps stmts temps) fun rs => (∀ x ∈ stmts, x ∈ rs) ∧
      ∀ r ∈ rs, r ∈ stmts ∨ IsTempDecl r := by
  refine .branch (fun _ => .pure fun _ => ⟨fun x hx => hx, fun r hr => .inl hr⟩) fun _ => ?_
  have hdecl (m : Nat) : Yields c given (do return declarator {} (← ref m)) fun d =>
      ∃ x m, d = declarator {} (.marked x m) :=
    fun s => ⟨Nat.le_refl s.errors, fun _ _ => ⟨s.supply.wish m, m, rfl⟩⟩
  refine .bind (.mapM fun m _ => hdecl m) fun decls => .pure fun h =>
    ⟨fun x hx => ?_, fun r hr => ?_⟩
  · exact mem_insertAfterDirectives.2 (.inl hx)
  · rcases mem_insertAfterDirectives.1 hr with hr | hr
    · exact .inl hr
    · exact .inr ⟨decls, List.mem_singleton.1 hr, h.2⟩

/-- A name that is imported under a generated one. -/
def IsHelperSpec (r : Node) : Prop :=
  ∃ name x m, r = .new .importSpec {} [.ident name {}, .marked x m]

theorem yields_importSpecs_helper (hs : List Helper) :
    Yields c given (importSpecs hs) fun rs => ∀ r ∈ rs, IsHelperSpec r := by
  refine .bind yields_get fun s => .mapM fun x _ => ?_
  exact fun s => ⟨Nat.le_refl s.errors, fun _ _ => ⟨x.1.name, s.supply.wish x.2, x.2, rfl⟩⟩

/-- An import of helpers. -/
def IsHelperImport (r : Node) : Prop :=
  ∃ source specs, r = importFrom source specs ∧ ∀ spec ∈ specs, IsHelperSpec spec

/-- The statements stay, and what is put in front of them imports helpers. -/
theorem yields_withHelperImports_mem (stmts : List Node) :
    Yields c given (withHelperImports stmts) fun rs => (∀ x ∈ stmts, x ∈ rs) ∧
      ∀ r ∈ rs, r ∈ stmts ∨ IsHelperImport r := by
  refine .bind yields_read fun o => .bind (yields_importSpecs_helper _) fun specs => ?_
  refine .bind (yields_importSpecs_helper _) fun creators => .pure fun h => ?_
  have himport (source : Bytes) (specs : List Node) (hs : ∀ spec ∈ specs, IsHelperSpec spec) :
      ∀ r ∈ (if specs.isEmpty then [] else [importFrom source specs]), IsHelperImport r := by
    split
    · simp
    · simpa using ⟨source, specs, rfl, hs⟩
  have hinsert (xs : List Node) (hxs : ∀ r ∈ xs, IsHelperImport r) :
      (∀ x ∈ stmts, x ∈ (if xs.isEmpty then stmts else insertAfterDirectives stmts xs)) ∧
        ∀ r ∈ (if xs.isEmpty then stmts else insertAfterDirectives stmts xs),
          r ∈ stmts ∨ IsHelperImport r := by
    split
    · exact ⟨fun x hx => hx, fun r hr => .inl hr⟩
    · refine ⟨fun x hx => mem_insertAfterDirectives.2 (.inl hx), fun r hr => ?_⟩
      exact (mem_insertAfterDirectives.1 hr).imp_right (hxs r)
  exact hinsert _ (List.forall_mem_append.2 ⟨himport _ specs h.1.2, himport _ creators h.2⟩)

/-! ## Programs -/

/-- What the statements of a program become is among the statements of the lowered program. -/
theorem yields_lowerProgram_list {root : Node} {Q : List Node → Prop}
    (hlist : Yields c given (lowerList g root.kids) Q) :
    Yields c given (lowerProgram g root) fun r => ∃ part, Q part ∧ ∀ x ∈ part, x ∈ r.kids := by
  refine .bind (yields_collectTemps hlist) fun r => ?_
  refine .bind (yields_withTemps_mem r.1 r.2) fun stmts => ?_
  refine .bind (yields_withHelperImports_mem stmts) fun stmts' => .pure fun h => ?_
  exact ⟨r.1, h.1.1.2, fun x hx => h.2.1 x (h.1.2.1 x hx)⟩

/-- A statement of a lowered program is what a statement became, declares temporaries or imports
helpers. -/
theorem yields_lowerProgram_all {root : Node}
    (hs : ∀ n ∈ root.kids, Yields { c with listDepth := c.listDepth + 1 } given (g.stmt n)
      fun rs => ∀ r ∈ rs, P r)
    (htemps : ∀ r, IsTempDecl r → P r) (hhelpers : ∀ r, IsHelperImport r → P r) :
    Yields c given (lowerProgram g root) fun r => ∀ k ∈ r.kids, P k := by
  refine .bind (yields_collectTemps (yields_lowerListOf hs)) fun r => ?_
  refine .bind (yields_withTemps_mem r.1 r.2) fun stmts => ?_
  refine .bind (yields_withHelperImports_mem stmts) fun stmts' => .pure fun h k hk => ?_
  rcases h.2.2 k hk with hk | hk
  · rcases h.1.2.2 k hk with hk | hk
    · exact h.1.1.2 k hk
    · exact htemps k hk
  · exact hhelpers k hk

end

/-! ## Files -/

/-- What is fixed for the statements of a file. -/
def topContext (file : SourceFile) (root : Node) (comments : CommentTable) (o : Settings) :
    Context :=
  { fileContext file root comments o with listDepth := 1 }

section

variable {file : SourceFile} {root out : Node} {comments : CommentTable} {supply : NameSupply}
  {o : Settings}

/-- The statements of a file are lowered by rules that are tied one less deep. -/
theorem exists_depthFor (root : Node) : ∃ d, depthFor root = d + 1 :=
  ⟨rulesPerNode * (root.count + 1) + 3, by unfold depthFor rulesPerNode; omega⟩

/-- What the statements of a file become is, with its final names, among the statements of the
lowered file. -/
theorem lowered_list {Q : List Node → Prop}
    (h : (lowerTree file root comments supply o).tree = some out)
    (hQ : ∀ d, Yields (fileContext file root comments o) True
      (lowerList (rules (d + 1)) root.kids) Q) :
    ∃ part f, Q part ∧ Respells f ∧ ∀ r ∈ part, r.mapHeads f ∈ out.kids := by
  obtain ⟨-, s, f, hf, herrors, rfl⟩ := lowerTree_eq_some h
  obtain ⟨d, hd⟩ := exists_depthFor root
  rw [hd] at herrors ⊢
  obtain ⟨part, hpart, hsub⟩ := (yields_lowerProgram_list (hQ d) s).2 herrors trivial
  refine ⟨part, f, hpart, hf, fun r hr => ?_⟩
  rw [kids_mapHeads]
  exact List.mem_map_of_mem (hsub r hr)

/-- What a statement becomes is, with its final names, among the statements of the lowered file. -/
theorem lowered_statement {decl : Node} {Q : List Node → Prop}
    (h : (lowerTree file root comments supply o).tree = some out) (hdecl : decl ∈ root.kids)
    (hQ : ∀ d, Yields (topContext file root comments o) True (lowerStmt (rules d) decl) Q) :
    ∃ part f, Q part ∧ Respells f ∧ ∀ r ∈ part, r.mapHeads f ∈ out.kids := by
  obtain ⟨all, f, ⟨part, hpart, hsub⟩, hf, hout⟩ := lowered_list h fun d =>
    yields_lowerList_mem (lowers_rules codeAim (d + 1)) hdecl (hQ d)
  exact ⟨part, f, hpart, hf, fun r hr => hout r (hsub r hr)⟩

/-- What holds of whatever the statements of a file become, of declared temporaries and of imported
helpers holds, but for the final names, of every statement of the lowered file. -/
theorem lowered_statements {P : Node → Prop}
    (h : (lowerTree file root comments supply o).tree = some out)
    (hs :
      ∀ d, ∀ n ∈ root.kids, Yields (topContext file root comments o) True (lowerStmt (rules d) n)
      fun rs => ∀ r ∈ rs, P r)
    (htemps : ∀ r, IsTempDecl r → P r) (hhelpers : ∀ r, IsHelperImport r → P r) :
    ∃ f, Respells f ∧ ∀ k ∈ out.kids, ∃ r, P r ∧ k = r.mapHeads f := by
  obtain ⟨-, s, f, hf, herrors, rfl⟩ := lowerTree_eq_some h
  obtain ⟨d, hd⟩ := exists_depthFor root
  rw [hd] at herrors ⊢
  have hprogram : Yields (fileContext file root comments o) True (lowerProgram (rules (d + 1)) root)
      fun r => ∀ k ∈ r.kids, P k := yields_lowerProgram_all (hs d) htemps hhelpers
  have hall := (hprogram s).2 herrors trivial
  refine ⟨f, hf, fun k hk => ?_⟩
  rw [kids_mapHeads] at hk
  obtain ⟨r, hr, rfl⟩ := List.mem_map.1 hk
  exact ⟨r, hall r hr, rfl⟩

end

end ScriptLower.Lower
