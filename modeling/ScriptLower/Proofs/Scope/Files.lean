import ScriptLower.Proofs.Parse.StatementForms
import ScriptLower.Proofs.Scope.Programs
import ScriptLower.Proofs.Lower.Names

/-!
# Generated names in their scopes

The generated names of a file get their final spelling when its program is done, which moves neither
a use nor a declaration. So a mark that is used anywhere has exactly one declaration, in a place
that sees the use. The diagnostics of lowering can be told apart: none is an error and a warning at
once.
-/

namespace ScriptLower.Lower

open ScriptLower Node

/-! ## Final names -/

section

variable {x : Nat} {names : List Bytes}

theorem isUse_spellOut (n : Node) : (spellOut names n).isUse x = n.isUse x := by
  rw [isUse, isUse, kind_spellOut, mark_spellOut]

theorem kids_spellOut (n : Node) : (spellOut names n).kids = n.kids.map (spellOut names) :=
  kids_mapHeads n

theorem kid_spellOut (n : Node) (i : Nat) : (spellOut names n).kid i = spellOut names (n.kid i) :=
  kid_mapHeads n i

/-- Spelling generated names out changes no other text. -/
theorem text_spellOut (n : Node) (hk : n.kind ≠ .ident) : (spellOut names n).text = n.text := by
  cases n with
  | absent => rfl
  | mk h ks ds t a y =>
    have hk : h.kind ≠ .ident := hk
    show (spellHead names h).text = h.text
    simp [spellHead, hk]

theorem introduces_spellOut (n : Node) : (spellOut names n).introduces x = n.introduces x := by
  have hdecls (p : Node → Bool) (hp : ∀ d, p (spellOut names d) = p d) :
      (spellOut names n).kids.any p = n.kids.any p := by
    rw [kids_spellOut, List.any_map]
    exact congrArg n.kids.any (funext hp)
  unfold Node.introduces
  rw [kind_spellOut]
  split
  · rename_i hk
    rw [text_spellOut n (by rw [hk]; decide)]
    exact congrArg _ (hdecls _ fun d => by rw [kind_spellOut, kid_spellOut, isUse_spellOut])
  · exact hdecls _ fun d => by rw [kind_spellOut, kid_spellOut, isUse_spellOut]
  · rfl

theorem spellHead_same (names : List Bytes) (h : Head) : (spellHead names h).kind = h.kind ∧
    (spellHead names h).mark = h.mark ∧ (spellHead names h).flags = h.flags := by
  unfold spellHead
  split <;> exact ⟨rfl, rfl, rfl⟩

theorem bodyDeclares_spellOut (h : Head) (i : Nat) (k : Node) :
    (spellHead names h).bodyDeclares x i (spellOut names k) = h.bodyDeclares x i k := by
  obtain ⟨hkind, -, hflags⟩ := spellHead_same names h
  have hbody : (spellHead names h).bodyAt? = h.bodyAt? := by
    rw [Head.bodyAt?, Head.bodyAt?, hkind, hflags]
  rw [Head.bodyDeclares, Head.bodyDeclares, hbody, kids_spellOut, List.any_map]
  exact congrArg _ (congrArg k.kids.any (funext introduces_spellOut))

theorem getD_spellOut (ks : List Node) (i : Nat) :
    (ks.map (spellOut names)).getD i .absent = spellOut names (ks.getD i .absent) := by
  rw [List.getD_eq_getElem?_getD, List.getD_eq_getElem?_getD, List.getElem?_map]
  cases ks[i]? with
  | none => rfl
  | some k => rfl

theorem declaresFor_spellOut (h : Head) (ks : List Node) :
    (spellHead names h).declaresFor x (ks.map (spellOut names)) = h.declaresFor x ks := by
  unfold Head.declaresFor
  rw [(spellHead_same names h).1, List.any_map, getD_spellOut, isUse_spellOut]
  rw [show Node.introduces x ∘ spellOut names = Node.introduces x from funext introduces_spellOut]

theorem declares_spellOut (h : Head) (ks : List Node) :
    (spellHead names h).declares x (ks.map (spellOut names)) = h.declares x ks := by
  unfold Head.declares
  rw [(spellHead_same names h).1]
  split
  · rw [getD_spellOut, isUse_spellOut]
  · rfl

theorem spellOut_mk (names : List Bytes) (h : Head) (ks ds : List Node) (t a y : Node) :
    spellOut names (.mk h ks ds t a y) = .mk (spellHead names h) (ks.map (spellOut names))
      (ds.map (spellOut names)) (spellOut names t) (spellOut names a) (spellOut names y) := by
  rw [spellOut, mapHeads, mapAllHeads_eq, mapAllHeads_eq]
  rfl

mutual

theorem loose_spellOut (x : Nat) (names : List Bytes) :
    ∀ n : Node, (spellOut names n).loose x = n.loose x
  | .absent => rfl
  | .mk h ks ds t a y => by
    obtain ⟨hkind, hmark, -⟩ := spellHead_same names h
    have hdecos : looseKids x {} 0 (ds.map (spellOut names)) = looseKids x {} 0 ds := by
      have hplain := looseKids_spellOut x names {} 0 ds
      rwa [show spellHead names {} = {} from rfl] at hplain
    rw [spellOut_mk, loose, loose, hkind, hmark, declaresFor_spellOut,
      looseKids_spellOut x names h 0 ks,
      hdecos, loose_spellOut x names t, loose_spellOut x names a, loose_spellOut x names y]

theorem looseKids_spellOut (x : Nat) (names : List Bytes) (h : Head) (i : Nat) :
    ∀ ks : List Node, looseKids x (spellHead names h) i (ks.map (spellOut names)) =
    looseKids x h i ks
  | [] => rfl
  | k :: ks => by
    rw [List.map_cons, looseKids, looseKids, bodyDeclares_spellOut, loose_spellOut x names k,
      looseKids_spellOut x names h (i + 1) ks]

end

mutual

theorem declared_spellOut (x : Nat) (names : List Bytes) :
    ∀ n : Node, (spellOut names n).declared x = n.declared x
  | .absent => rfl
  | .mk h ks ds t a y => by
    rw [spellOut_mk, declared, declared, declares_spellOut, declaredAll_spellOut x names ks,
      declaredAll_spellOut x names ds, declared_spellOut x names t, declared_spellOut x names a,
      declared_spellOut x names y]

theorem declaredAll_spellOut (x : Nat) (names : List Bytes) :
    ∀ ks : List Node, declaredAll x (ks.map (spellOut names)) = declaredAll x ks
  | [] => rfl
  | k :: ks => by
    rw [List.map_cons, declaredAll_cons, declaredAll_cons, declared_spellOut x names k,
      declaredAll_spellOut x names ks]

end

end

/-! ## Diagnostics -/

/-- Whether a diagnostic says that a pragma is ignored. -/
def ignoresPragma (d : Diagnostic) : Bool := !d.isError && d.code == .pragmaIgnored

/-- Pragmas from comments at some places, with warnings about ignored pragmas only. -/
structure Pragmas.From (places : List Span) (p : Pragmas) : Prop where
  warnings : ∀ d ∈ p.warnings, ignoresPragma d = true ∧ d.primary ∈ places
  factory : ∀ q ∈ p.factory, q.span ∈ places
  fragment : ∀ q ∈ p.fragment, q.span ∈ places
  importSource : ∀ q ∈ p.importSource, q.span ∈ places

namespace Pragmas.From

variable {p : Pragmas} {places : List Span} {span : Span}

theorem warn (h : p.From places) (hs : span ∈ places) (message : Bytes) :
    (p.warn span message).From places :=
  { h with
    warnings := List.forall_mem_append.2 ⟨h.warnings, List.forall_mem_singleton.2 ⟨rfl, hs⟩⟩ }

theorem word (h : p.From places) (hs : span ∈ places) (word next : Bytes) :
    (p.word span word next).From places := by
  have hfound : ∀ q ∈ some { value := Bytes.trimSuffix "*/" next, span : Pragma },
    q.span ∈ places :=
    fun q hq => by rwa [← Option.some.inj hq]
  unfold Pragmas.word
  dsimp only
  split
  · exact h
  split
  · exact { h with factory := hfound }
  split
  · exact { h with fragment := hfound }
  split
  · exact { h with importSource := hfound }
  split
  · split
    · exact { h with }
    · exact h.warn hs _
  · exact h

theorem comment {k : Comment} (h : p.From places) (hk : k.span ∈ places) :
    (p.comment k).From places := by
  unfold Pragmas.comment
  dsimp only
  generalize (Words.split k.text).zip ((Words.split k.text).drop 1) = pairs
  induction pairs generalizing p with
  | nil => exact h
  | cons w pairs ih => exact ih (h.word hk w.1 w.2)

theorem classicOnly {pragma : Option Pragma} (h : p.From places)
    (hq : ∀ q ∈ pragma, q.span ∈ places)
    (name : String) (old : Bytes) : (p.classicOnly name pragma old).2.From places := by
  unfold Pragmas.classicOnly
  split
  · exact h
  split
  · exact h.warn (hq _ rfl) _
  split
  · exact h.warn (hq _ rfl) _
  · exact h

theorem automaticOnly (h : p.From places) (old : Bytes) : (p.automaticOnly old).2.From places := by
  unfold Pragmas.automaticOnly
  split
  · exact h
  rename_i q hq
  split
  · exact h.warn (h.importSource q hq) _
  · exact h

end Pragmas.From

/-- The warnings about pragmas stand where the comments do. -/
theorem applyPragmas_warnings (o : ElementOptions) (comments : List Comment) :
    ∀ d ∈ (applyPragmas o comments).2, ignoresPragma d = true ∧
    d.primary ∈ comments.map (·.span) := by
  have hfold : (comments.foldl Pragmas.comment { runtime := o.runtime }).From
      (comments.map (·.span)) := by
    refine List.foldlRecOn comments Pragmas.comment (by constructor <;> simp) fun p hp k hk => ?_
    exact hp.comment (List.mem_map_of_mem hk)
  have hfactory := hfold.classicOnly hfold.factory "@jsx" o.factory
  have hfragment := hfactory.classicOnly hfactory.fragment "@jsxFrag" o.fragment
  exact (hfragment.automaticOnly o.importSource).warnings

theorem classed_of_ignoresPragma {d : Diagnostic} (h : ignoresPragma d = true) : Classed d := by
  simp only [ignoresPragma, Bool.and_eq_true, Bool.not_eq_true', beq_iff_eq] at h
  simp [Classed, warns, h.1, h.2]

mutual

theorem classed_leaks : ∀ n : Node, ∀ d ∈ leaks n, Classed d
  | .absent, d, hd => by cases hd
  | .mk h ks ds t a y, d, hd => by
    unfold leaks at hd
    split at hd
    · rename_i e he
      obtain rfl := List.mem_singleton.1 hd
      unfold leak? at he
      split at he
      · cases he
        rfl
      split at he
      · cases he
        rfl
      · cases he
    · rcases List.mem_append.1 hd with hd | hd
      · exact classed_leaksAll ks d hd
      · exact classed_leaksAll ds d hd

theorem classed_leaksAll : ∀ ns : List Node, ∀ d ∈ leaksAll ns, Classed d
  | [], d, hd => by cases hd
  | n :: ns, d, hd => by
    rcases List.mem_append.1 hd with hd | hd
    · exact classed_leaks n d hd
    · exact classed_leaksAll ns d hd

end

/-! ## Files -/

section

variable {file : SourceFile} {root out : Node} {comments : CommentTable} {supply : NameSupply}
  {o : Settings} {x : Nat}

/-- The state that lowering a file begins with. -/
def startState (comments : CommentTable) (supply : NameSupply) (o : Settings) : State :=
  { supply := supply, comments := comments
    reports := (applyPragmas o.elements.resolved comments.all).2 }

theorem books_startState (x : Nat) : Books x 0 (startState comments supply o) 0 where
  facts := trivial
  known hu := absurd hu (Nat.lt_irrefl 0)
  once := Nat.zero_le 1
  fresh _ := rfl
  helpers := List.nodup_nil
  reports d hd := classed_of_ignoresPragma (applyPragmas_warnings _ _ d hd).1

/-- The program that a file is lowered to, and the state behind it. -/
def programOf (file : SourceFile) (root : Node) (comments : CommentTable) (supply : NameSupply)
    (o : Settings) : Node × State :=
  lowerProgram (rules (depthFor root)) root (fileContext file root comments o)
    (startState comments supply o)

theorem programOf_scoped (file : SourceFile) (comments : CommentTable) (supply : NameSupply)
    (o : Settings) (hx : x ≠ 0) (hroot : Tidy root) :
    (programOf file root comments supply o).1.loose x = 0 ∧
      (programOf file root comments supply o).1.declared x ≤ 1 ∧
      ∀ d ∈ (programOf file root comments supply o).2.reports, Classed d :=
  lowerProgram_scoped hx (keeps_rules hx _) hroot (books_startState x) rfl

theorem lowerWhole_eq :
    lowerWhole file root comments supply o =
      let p := programOf file root comments supply o
      let result (tree : Node) (reports : List Diagnostic) : Result :=
        { tree := if reports.countP Diagnostic.isError = 0 then some tree else none
          errors := reports.countP Diagnostic.isError, reports := reports
          comments := p.2.comments, supply := p.2.supply }
      if p.2.errors = 0 then
        result (renameMarked p.2.supply p.1).1
          (p.2.reports ++ (renameMarked p.2.supply p.1).2 ++ leaks (renameMarked p.2.supply p.1).1)
      else result p.1 p.2.reports := rfl

/-- A program is lowered, or fails to be. -/
theorem lowerTree_eq (hk : root.kind = .program) :
    lowerTree file root comments supply o =
      match flaw? root with
      | some what => failed comments supply o what
      | none => lowerWhole file root comments supply o := by
  unfold lowerTree
  exact if_neg (by simp [hk])

/-- A failure counts as one error: what pragmas are warned of is none. -/
theorem failed_counts (what : Bytes) : (failed comments supply o what).errors =
    (failed comments supply o what).reports.countP Diagnostic.isError := by
  have hwarnings :
      (applyPragmas o.elements.resolved comments.all).2.countP Diagnostic.isError = 0 := by
    rw [List.countP_eq_zero]
    intro d hd
    have hpragma := (applyPragmas_warnings _ _ d hd).1
    simp only [ignoresPragma, Bool.and_eq_true, Bool.not_eq_true'] at hpragma
    simp [hpragma.1]
  show 1 = (_ ++ _ : List Diagnostic).countP _
  rw [List.countP_append, hwarnings]
  rfl

/-- Lowering counts its errors, and gives a tree when there are none. -/
theorem lowerTree_counts (hk : root.kind = .program) :
    (lowerTree file root comments supply o).errors =
        (lowerTree file root comments supply o).reports.countP Diagnostic.isError ∧
      ((lowerTree file root comments supply o).tree = none ↔
        (lowerTree file root comments supply o).errors ≠ 0) := by
  have hnone (n : Nat) (tree : Node) : (if n = 0 then some tree else none) = none ↔ n ≠ 0 := by
    by_cases hn : n = 0 <;> simp [hn]
  rw [lowerTree_eq hk]
  split
  · exact ⟨failed_counts _, iff_of_true rfl Nat.one_ne_zero⟩
  rw [lowerWhole_eq]
  dsimp only
  split
  all_goals
    dsimp only
    exact ⟨rfl, hnone _ _⟩

/-- The tree of a file is its program with the generated names spelled out. -/
theorem lowerTree_spellOut (h : (lowerTree file root comments supply o).tree = some out) :
    ∃ names, out = spellOut names (programOf file root comments supply o).1 := by
  rw [(lowerTree_whole h).2, lowerWhole_eq] at h
  dsimp only at h
  split at h
  · dsimp only at h
    split at h
    · cases h
      exact ⟨_, rfl⟩
    · cases h
  · rename_i herrors
    dsimp only at h
    split at h
    · -- without an error there would have been none to stop at
      rename_i hnone
      exact absurd hnone herrors
    · cases h

/-- The generated names of a lowered file are well scoped. A mark is declared at most once, whatever
it is; one that is used is declared, and its declaration is visible from every use: no use is left
that a variable of an enclosing body, an imported name or the parameter of a handler does not
cover. -/
theorem generated_names_scoped (file : SourceFile) (po : Parse.Options) (root : Node)
    (comments : CommentTable) (supply : NameSupply) (o : Settings) (out : Node)
    (hparse : (Parse.parseFile file po).tree = some root)
    (hlower : (lowerTree file root comments supply o).tree = some out) :
    (∀ n ∈ out.walk, n.kind = .ident → n.mark ≠ 0 →
      out.loose n.mark = 0 ∧ out.declared n.mark = 1) ∧
    ∀ x ≠ 0, out.declared x ≤ 1 := by
  have hroot : Tidy root := (Parse.parseFile_tidy hparse).1
  obtain ⟨names, hout⟩ := lowerTree_spellOut hlower
  have hscoped (x : Nat) (hx : x ≠ 0) : out.loose x = 0 ∧ out.declared x ≤ 1 := by
    obtain ⟨hloose, hdeclared, -⟩ := programOf_scoped file comments supply o hx hroot
    rw [hout, loose_spellOut, declared_spellOut]
    exact ⟨hloose, hdeclared⟩
  refine ⟨fun n hn hk hm => ?_, fun x hx => (hscoped x hx).2⟩
  obtain ⟨hloose, hdeclared⟩ := hscoped n.mark hm
  refine ⟨hloose, ?_⟩
  -- an undeclared mark would leave this use loose
  by_contra hnone
  have huse : n.isUse n.mark = true := by simp [isUse, hk]
  have := loose_of_use out (by omega) n hn huse
  omega

/-- A temporary of a function's body, one of a parameter's default, which the function's body must
not declare, and an imported helper. -/
theorem temporaries_scoped :
    let file :=
    (FileSet.empty.add "a.tsx" "function f(p = g()?.a) \x7b g()?.b; \x7d x = <p/>;" true).2
    let r := Parse.parseFile file {}
    let o : Settings := { target := .es2019, elements := { runtime := .automatic } }
    ∃ root out, r.tree = some root ∧ (lowerTree file root r.comments {} o).tree = some out ∧
      ∀ x ∈ [1, 2, 3], out.loose x = 0 ∧ out.declared x = 1 := by
  intro file r o
  have hrun : r.tree.isSome = true ∧
      let l := lowerTree file (r.tree.getD .absent) r.comments {} o
      l.tree.isSome = true ∧ ∀ x ∈ [1, 2, 3], x ≠ 0 ∧
        ∃ n ∈ (l.tree.getD .absent).walk, n.kind = .ident ∧ n.mark = x := by
    decide +kernel
  obtain ⟨hsome, hlowered, hused⟩ := hrun
  obtain ⟨root, hroot⟩ := Option.isSome_iff_exists.1 hsome
  rw [hroot, Option.getD_some] at hlowered hused
  obtain ⟨out, hout⟩ := Option.isSome_iff_exists.1 hlowered
  rw [hout, Option.getD_some] at hused
  refine ⟨root, out, hroot, hout, fun x hx => ?_⟩
  obtain ⟨hne, n, hn, hk, rfl⟩ := hused x hx
  exact (generated_names_scoped file {} root r.comments {} o out hroot hout).1 n hn hk hne

end

end ScriptLower.Lower
