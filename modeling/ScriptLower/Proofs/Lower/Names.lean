import ScriptLower.Proofs.Lower.Versions
import ScriptLower.Proofs.Name.Resolution

/-!
# Generated names and the names of the source

When a file is lowered every mark gets a name of its own, and every use of a mark is spelled with
that name. The names are kept apart from the spellings that the lowered tree holds, letter for
letter. So a generated name meets a name of the source only where the source spells its name with an
escape, or where the name stands in a text that is put in as it is.
-/

namespace ScriptLower

mutual

theorem Node.walk_mapHeads (f : Head → Head) :
    ∀ n : Node, (n.mapHeads f).walk = n.walk.map (Node.mapHeads f)
  | .absent => rfl
  | .mk h ks ds t a x => by
    rw [Node.mapHeads, Node.walk, Node.walk, walkAll_mapHeads f ks, walkAll_mapHeads f ds,
      walk_mapHeads f t, walk_mapHeads f a, walk_mapHeads f x, List.map_cons, List.map_append,
      List.map_append, List.map_append, List.map_append, Node.mapHeads]

theorem Node.walkAll_mapHeads (f : Head → Head) :
    ∀ ns : List Node, Node.walkAll (Node.mapAllHeads f ns) = (Node.walkAll ns).map (Node.mapHeads f)
  | [] => rfl
  | n :: ns => by
    rw [Node.mapAllHeads, Node.walkAll, Node.walkAll, walk_mapHeads f n, walkAll_mapHeads f ns,
      List.map_append]

end

/-- The name that a spelling stands for: its escapes are read as in a string. -/
def spelledName (s : Bytes) : Bytes := (StringLiteral.cook s).getD s

/-- A spelling without an escape is the name itself. -/
theorem spelledName_eq_self {s : Bytes} (h : ascii '\\' ∉ s) : spelledName s = s := by
  have hplain : s.contains (ascii '\\') = false := by simpa using h
  rw [spelledName, StringLiteral.cook, hplain]
  rfl

namespace Lower

open ScriptLower

section

variable {supply : NameSupply} {root n : Node} {names : List Bytes}

/-- The head of a generated name, spelled with its final name. -/
def spellHead (names : List Bytes) (h : Head) : Head :=
  if h.kind == .ident && h.mark != 0 then
    { h with text := (finalName? names h.mark).getD h.text }
  else h

/-- A tree whose generated names are spelled with their final names. -/
def spellOut (names : List Bytes) (n : Node) : Node := n.mapHeads (spellHead names)

@[simp] theorem kind_spellOut (names : List Bytes) (n : Node) :
    (spellOut names n).kind = n.kind := by
  cases n with
  | absent => rfl
  | mk h ks ds t a x =>
    show (spellHead names h).kind = h.kind
    unfold spellHead
    split <;> rfl

@[simp] theorem mark_spellOut (names : List Bytes) (n : Node) :
    (spellOut names n).mark = n.mark := by
  cases n with
  | absent => rfl
  | mk h ks ds t a x =>
    show (spellHead names h).mark = h.mark
    unfold spellHead
    split <;> rfl

theorem text_spellOut_of_unmarked (hm : n.mark = 0) : (spellOut names n).text = n.text := by
  cases n with
  | absent => rfl
  | mk h ks ds t a x =>
    have hm : h.mark = 0 := hm
    show (spellHead names h).text = h.text
    simp [spellHead, hm]

theorem text_spellOut_of_marked (hk : n.kind = .ident) (hm : n.mark ≠ 0) :
    (spellOut names n).text = (finalName? names n.mark).getD n.text := by
  cases n with
  | absent => cases hk
  | mk h ks ds t a x =>
    have hk : h.kind = .ident := hk
    have hm : h.mark ≠ 0 := hm
    show (spellHead names h).text = _
    simp [spellHead, hk, hm]
    rfl

/-- Spelling the generated names out changes none of the names of the source. -/
theorem takenNames_spellOut (names : List Bytes) (root : Node) :
    takenNames (spellOut names root) = takenNames root := by
  unfold takenNames
  rw [spellOut, Node.walk_mapHeads, List.filter_map, List.map_map]
  have hsame :
      ((fun n : Node => n.kind == .ident && n.mark = 0) ∘ Node.mapHeads (spellHead names)) =
      fun n => n.kind == .ident && n.mark = 0 := by
    funext n
    show ((spellOut names n).kind == .ident && decide ((spellOut names n).mark = 0)) = _
    rw [kind_spellOut, mark_spellOut]
  rw [hsame]
  refine List.map_congr_left fun n hn => ?_
  have hkept := (List.mem_filter.1 hn).2
  have hunmarked : n.mark = 0 := of_decide_eq_true (Bool.and_eq_true_iff.1 hkept).2
  exact text_spellOut_of_unmarked hunmarked

/-- Where no generated name is left without a name, every use of one has its final name. -/
theorem spelled_of_nameless (hnone : (renameMarked supply root).2 = []) :
    ∀ m ∈ (renameMarked supply root).1.walk, m.kind = .ident → m.mark ≠ 0 →
      finalName? (supply.resolve (takenNames root)) m.mark = some m.text := by
  intro m hm hk hmark
  have hwalk : m ∈ (spellOut (supply.resolve (takenNames root)) root).walk := hm
  rw [spellOut, Node.walk_mapHeads] at hwalk
  obtain ⟨n, hn, rfl⟩ := List.mem_map.1 hwalk
  change (spellOut _ n).kind = _ at hk
  change (spellOut _ n).mark ≠ _ at hmark
  rw [kind_spellOut] at hk
  rw [mark_spellOut] at hmark
  have hnamed : (finalName? (supply.resolve (takenNames root)) n.mark).isNone = false := by
    by_contra hnone'
    have hmem : n ∈ root.walk.filter fun n => (n.head.kind == .ident && n.head.mark != 0) &&
        (finalName? (supply.resolve (takenNames root)) n.mark).isNone := by
      refine List.mem_filter.2 ⟨hn, ?_⟩
      have hk : n.head.kind = .ident := hk
      have hmark : n.head.mark ≠ 0 := hmark
      simpa [hk, hmark] using hnone'
    exact absurd hmem (by rw [List.map_eq_nil_iff.1 hnone]; exact List.not_mem_nil)
  obtain ⟨name, hname⟩ := Option.isSome_iff_exists.1 (by simpa using hnamed)
  change finalName? _ (spellOut _ n).mark = some (spellOut _ n).text
  rw [text_spellOut_of_marked hk hmark, mark_spellOut, hname]
  rfl

end

section

variable {file : SourceFile} {root out : Node} {comments : CommentTable} {supply : NameSupply}
  {o : Settings}

/-- A file that is lowered to a tree is lowered to one whose generated names are spelled out, none
of them left without a name. -/
theorem lowerTree_renames (h : (lowerTree file root comments supply o).tree = some out) :
    ∃ tree, out = (renameMarked (lowerTree file root comments supply o).supply tree).1 ∧
      (renameMarked (lowerTree file root comments supply o).supply tree).2 = [] := by
  have hwhole := (lowerTree_whole h).2
  rw [hwhole] at h ⊢
  generalize hr : lowerWhole file root comments supply o = r at h
  unfold lowerWhole at hr
  dsimp only at hr
  split at hr
  rename_i tree s hrun
  split at hr
  · subst hr
    dsimp only at h
    split at h
    · rename_i herrors
      refine ⟨tree, (Option.some.inj h).symm, ?_⟩
      rw [List.countP_append, List.countP_append] at herrors
      have hzero : (renameMarked s.supply tree).2.countP Diagnostic.isError = 0 := by omega
      -- All that is reported here is an error, so no error means no report.
      rw [List.countP_eq_zero] at hzero
      refine List.eq_nil_iff_forall_not_mem.2 fun d hd => hzero d hd ?_
      obtain ⟨n, _, rfl⟩ := List.mem_map.1 hd
      rfl
    · cases h
  · rename_i herrors
    subst hr
    dsimp only at h
    split at h
    · exact absurd ‹_› herrors
    · cases h

end

/-- When a file is lowered, the marks get names that differ from each other, every use of a mark is
spelled with its name, and a name of the source that is also the name of a mark is spelled with an
escape. -/
theorem generated_names_avoid_spellings (file : SourceFile) (root : Node) (comments : CommentTable)
    (supply : NameSupply) (o : Settings) (out : Node)
    (h : (lowerTree file root comments supply o).tree = some out) :
    let names := (lowerTree file root comments supply o).supply.resolve (takenNames out)
    names.Nodup ∧ names.length = (lowerTree file root comments supply o).supply.issued ∧
      (∀ n ∈ out.walk, n.kind = .ident → n.mark ≠ 0 → finalName? names n.mark = some n.text) ∧
      ∀ n ∈ out.walk, n.kind = .ident → n.mark = 0 →
        spelledName n.text ∈ names → ascii '\\' ∈ n.text := by
  intro names
  obtain ⟨tree, hout, hnameless⟩ := lowerTree_renames h
  have htaken : takenNames out = takenNames tree := by
    rw [hout]
    exact takenNames_spellOut _ tree
  refine ⟨NameSupply.nodup_resolve _ _, NameSupply.length_resolve _ _, ?_, ?_⟩
  · intro n hn hk hm
    rw [hout] at hn
    show finalName? (NameSupply.resolve _ (takenNames out)) n.mark = _
    rw [htaken]
    exact spelled_of_nameless hnameless n hn hk hm
  · intro n hn hk hm hname
    by_contra hescape
    rw [spelledName_eq_self hescape] at hname
    refine NameSupply.resolve_not_taken hname (List.mem_map.2 ⟨n, ?_, rfl⟩)
    exact List.mem_filter.2 ⟨hn, by simp [hk, hm]⟩

/-- A temporary gives way to the name it wishes for. -/
theorem temporary_gives_way :
    let file := (FileSet.empty.add "a.ts" "_a = f()?.b;" true).2
    let r := Parse.parseFile file {}
    let o : Settings := { target := .es2019 }
    ∃ root out, r.tree = some root ∧ (lowerTree file root r.comments {} o).tree = some out ∧
      let names := (lowerTree file root r.comments {} o).supply.resolve (takenNames out)
      names.Nodup ∧ names = [Bytes.ofString "_a1"] := by
  intro file r o
  have hrun : r.tree.isSome = true ∧
      (lowerTree file (r.tree.getD .absent) r.comments {} o).tree.isSome = true ∧
      (lowerTree file (r.tree.getD .absent) r.comments {} o).supply.resolve
        (takenNames ((lowerTree file (r.tree.getD .absent) r.comments {} o).tree.getD .absent)) =
          [Bytes.ofString "_a1"] := by
    decide +kernel
  obtain ⟨hsome, hlowered, hnames⟩ := hrun
  obtain ⟨root, hroot⟩ := Option.isSome_iff_exists.1 hsome
  rw [hroot, Option.getD_some] at hlowered hnames
  obtain ⟨out, hout⟩ := Option.isSome_iff_exists.1 hlowered
  rw [hout, Option.getD_some] at hnames
  exact ⟨root, out, hroot, hout,
    (generated_names_avoid_spellings file root r.comments {} o out hout).1, hnames⟩

/-- A temporary meets a name that is spelled with an escape, and one that stands in the text put in
for another name. -/
theorem temporary_meets_names :
    let o : Settings := { target := .es2019, defines := [⟨"A", "_a", true⟩] }
    ∀ text ∈ ["\\u005fa = f()?.b;", "f()?.b; x = A;"],
      let file := (FileSet.empty.add "a.ts" text true).2
      let r := Parse.parseFile file {}
      ∃ root out, r.tree = some root ∧ (lowerTree file root r.comments {} o).tree = some out ∧
        ∃ m ∈ out.walk, (m.kind = .ident ∧ m.mark ≠ 0) ∧
          ∃ n ∈ out.walk, (n.kind = .ident ∨ n.kind = .raw) ∧ n.mark = 0 ∧
            spelledName n.text = m.text := by
  intro o text htext file r
  have hrun : ∀ text ∈ ["\\u005fa = f()?.b;", "f()?.b; x = A;"],
      let file := (FileSet.empty.add "a.ts" text true).2
      let r := Parse.parseFile file {}
      let l := lowerTree file (r.tree.getD .absent) r.comments {} o
      r.tree.isSome = true ∧ l.tree.isSome = true ∧
        ∃ m ∈ (l.tree.getD .absent).walk, (m.kind = .ident ∧ m.mark ≠ 0) ∧
          ∃ n ∈ (l.tree.getD .absent).walk, (n.kind = .ident ∨ n.kind = .raw) ∧ n.mark = 0 ∧
            spelledName n.text = m.text := by
    decide +kernel
  obtain ⟨hsome, hlowered, hmeets⟩ := hrun text htext
  obtain ⟨root, hroot⟩ := Option.isSome_iff_exists.1 hsome
  rw [hroot, Option.getD_some] at hlowered hmeets
  obtain ⟨out, hout⟩ := Option.isSome_iff_exists.1 hlowered
  rw [hout, Option.getD_some] at hmeets
  exact ⟨root, out, hroot, hout, hmeets⟩

end Lower

end ScriptLower
