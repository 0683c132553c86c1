import ScriptLower.Proofs.Lower.Names
import ScriptLower.Proofs.Lower.OriginsStatements
import ScriptLower.Proofs.Parse.StatementForms

/-!
# Imports and exports stay on top

Beneath the statements of a program lowering makes no imports and no exports, and an export in the
body of a namespace it replaces. So where none stands below the statements of a file but exports in
the bodies of namespaces, none stands below those of the lowered file. Whatever else parses there is
carried along, as the last theorem shows.
-/

namespace ScriptLower

/-- Whether nodes of the kind are items of a module, which stand on top only. -/
def NodeKind.isModuleItem : NodeKind → Bool
  | .importDecl | .exportNamed | .exportAll | .exportDecl | .exportDefault => true
  | _ => false

/-- Whether the only items of a module below the statements of a program are exported declarations,
and these are in the bodies of namespaces. -/
def Node.keepsItemsOnTop (root : Node) : Bool :=
  root.kids.all fun n => (n.kind != .block || n.exportsNothing) && n.walk.all (·.housesExports)
    && (n.kids ++ n.decos).all fun k => k.walk.all fun m => !m.kind.isModuleItem ||
      m.kind == .exportDecl

namespace Lower

open ScriptLower

/-! ## Statements on top -/

/-- All that stands below a statement is lowered code. -/
def Beneath (p : Origin) (r : Node) : Prop := ∀ k ∈ r.kids ++ r.decos, Made p k

section

variable {p : Origin} {c : Context} {n r : Node} {g : Rules} {given : Prop}

theorem Made.beneath (hr : Made p r) : Beneath p r := by
  intro k hk
  rcases List.mem_append.1 hk with hk | hk
  · exact hr.mem hk
  · exact hr.deco hk

theorem beneath_ofHead {h : Head} {ks : List Node} (hks : ∀ k ∈ ks, Made p k) :
    Beneath p (.ofHead h ks) := by
  intro k hk
  rcases List.mem_append.1 hk with hk | hk
  · exact hks k hk
  · cases hk

theorem CopyOf.beneath (h : CopyOf p n r) : Beneath p r := by
  rcases h with rfl | ⟨ks, rfl, hks⟩
  · exact Made.absent.beneath
  · exact beneath_ofHead hks

theorem Emitted.beneath {exported : Bool} (h : Emitted p c exported r) : Beneath p r := by
  rcases h with h | ⟨-, span, d, hd, rfl⟩
  · exact h.beneath
  · unfold exportWrap
    split
    · exact Made.absent.beneath
    · exact beneath_ofHead (by simpa using hd)

theorem IsHelperImport.beneath (h : IsHelperImport r) : Beneath p r := by
  obtain ⟨ks, rfl, hks⟩ := h.eq_new (p := p)
  exact beneath_ofHead hks

/-- Whether a statement of a kind is copied with what it holds, which is no statement. -/
def copiesParts : NodeKind → Bool
  | .importDecl | .exportNamed | .exportAll | .exportDefault => true
  | _ => false

theorem holdsStatements_of_copiesParts {k : NodeKind} (hk : copiesParts k = true) :
    k.holdsStatements = false := by
  unfold copiesParts at hk
  split at hk <;> first | rfl | cases hk

example : copiesParts .exportDecl = false ∧ NodeKind.exportDecl.holdsStatements = true := by
  decide +kernel

/-- A statement that is copied: its children need to be code, and it may be what it wants. -/
theorem yields_copied_beneath (hg : Emits p g) (hc : c.defines = p.defines)
    (hk : copiesParts n.kind = true) (hn : ∀ k ∈ n.kids, Part p k) :
    Yields c given (lowerStmt g n) fun rs => ∀ r ∈ rs, Beneath p r := by
  have hone {m : LowerM Node} (hm : Yields c given m (CopyOf p n)) :
      Yields c given (do return one (← m)) fun rs => ∀ r ∈ rs, Beneath p r :=
    .bind hm fun _ => .pure fun h => forall_mem_one h.2.beneath
  unfold lowerStmt
  unfold copiesParts at hk
  split at hk
  case h_1 h => simpa only [h] using hone (yields_lowerImport_made hg hc hn)
  case h_2 h => simpa only [h] using hone (yields_lowerExportNamed_made hg hc hn)
  case h_3 h => simpa only [h] using hone (yields_lowerExportAll_made hg hc hn)
  case h_4 h =>
    simpa only [h] using hone (yields_lowerExportDefault_made hg hc (part_kid hn 0).code)
  case h_5 => cases hk

/-- A statement outside of namespaces: what is exported there stays. -/
theorem yields_lowerStmt_beneath (hg : Emits p g) (hc : c.defines = p.defines) (hn : From p n)
    (ho : Closed p n) : Yields c given (lowerStmt g n) fun rs => ∀ r ∈ rs, Beneath p r := by
  by_cases hk : n.kind = .exportDecl
  · unfold lowerStmt
    simp only [hk]
    exact (yields_lowerExportDecl_made hg hc hn hk).mono fun rs _ h r hr => (h r hr).beneath
  · have hstands : Stands p c n := ⟨hn, ho, fun he => absurd he hk⟩
    exact (yields_lowerStmt_made hg hc hstands).mono fun rs _ h r hr => (h r hr).beneath

end

/-! ## Files -/

/-- Lowered code without items of a module. -/
def itemless (defines : List Define) : Origin where
  source k _ _ := k.isModuleItem = false ∨ k = .exportDecl
  lowered k _ _ := k.isModuleItem = false
  exports := False
  defines := defines
  copied hs ho := hs.resolve_right ho
  made hk := by
    unfold isMade at hk
    split at hk <;> first | rfl | cases hk
  wrapped := False.elim
  replaced _ _ _ := rfl

section

variable {file : SourceFile} {root out n : Node} {comments : CommentTable} {supply : NameSupply}
  {o : Settings}

/-- Each statement of a program that keeps its items on top is lowered to one with none below. -/
theorem yields_itemless {c : Context} (hroot : Grown file root)
    (hitems : root.keepsItemsOnTop = true)
    (hn : n ∈ root.kids) (d : Nat) :
    Yields c True (lowerStmt (rules d) n) fun rs => ∀ r ∈ rs, Beneath (itemless c.defines) r := by
  have hall := List.all_eq_true.1 hitems n hn
  simp only [Bool.and_eq_true, Bool.or_eq_true, List.all_eq_true, bne_iff_ne, ne_eq,
    Bool.not_eq_true', beq_iff_eq] at hall
  obtain ⟨⟨hblock, hhouses⟩, hbeneath⟩ := hall
  cases n with
  | absent => exact .pure fun _ => forall_mem_one Made.absent.beneath
  | mk h ks ds t a x =>
    have hself : (Node.mk h ks ds t a x).housesExports = true := hhouses _ (walk_self rfl)
    obtain ⟨hgrows, -, hks, hds, -⟩ := grown_mk.1 (hroot.kids _ hn)
    have hkids : ∀ k ∈ ks, From (itemless c.defines) k := fun k hk =>
      from_of_grown (hks k hk) fun m hm =>
        ⟨hbeneath k (List.mem_append_left _ hk) m hm, .inr (hhouses m (walk_of_kid hk hm))⟩
    have hdecos : ∀ k ∈ ds, From (itemless c.defines) k := fun k hk =>
      from_of_grown (hds k hk) fun m hm =>
        ⟨hbeneath k (List.mem_append_right _ hk) m hm, .inr (hhouses m (walk_of_deco hk hm))⟩
    by_cases hs : copiesParts h.kind = true
    · refine yields_copied_beneath (emits_rules _ d) rfl hs fun k hk => ?_
      exact part_of_houses (.inr hself) (holdsStatements_of_copiesParts hs) hk (hkids k hk)
    · have hsource : h.kind.isModuleItem = false ∨ h.kind = .exportDecl := by
        revert hs
        cases h.kind <;> simp [copiesParts, NodeKind.isModuleItem]
      have hfrom : From (itemless c.defines) (.mk h ks ds t a x) :=
        .mk hsource (.inr hself) (Bool.and_eq_true_iff.1 hgrows).2 hkids hdecos
      refine yields_lowerStmt_beneath (emits_rules _ d) rfl hfrom ?_
      by_cases hk : h.kind = .block
      · have hnone := hblock.resolve_left fun hne => hne hk
        simp only [Node.exportsNothing, List.all_eq_true, bne_iff_ne] at hnone
        exact fun k hmem he => absurd he (hnone k hmem)
      · exact hfrom.closed hk

end

/-- Items stay on top: when the only items below the statements of a file are exported declarations
in the bodies of namespaces, there are none below the statements of the lowered file. -/
theorem module_items_stay_on_top (file : SourceFile) (po : Parse.Options) (root : Node)
    (hparse : (Parse.parseFile file po).tree = some root) (comments : CommentTable)
    (supply : NameSupply) (o : Settings) (out : Node)
    (h : (lowerTree file root comments supply o).tree = some out)
    (hitems : root.keepsItemsOnTop = true) :
    ∀ n ∈ out.kids, ∀ k ∈ n.kids ++ n.decos, ∀ m ∈ k.walk, m.kind.isModuleItem = false := by
  obtain ⟨hroot, -⟩ := Parse.parseFile_grown hparse
  obtain ⟨f, hf, hall⟩ := lowered_statements (P := Beneath (itemless o.defines)) h
    (fun d n hn => yields_itemless (c := topContext file root comments o) hroot hitems hn d)
    (fun r hr => hr.made.beneath) fun r hr => hr.beneath
  intro n hn k hk m hm
  obtain ⟨r, hr, rfl⟩ := hall n hn
  rw [kids_mapHeads, decos_mapHeads, ← List.map_append] at hk
  obtain ⟨k', hk', rfl⟩ := List.mem_map.1 hk
  rw [Node.walk_mapHeads] at hm
  obtain ⟨m', hm', rfl⟩ := List.mem_map.1 hm
  rw [hf.kind_mapHeads]
  exact (hr k' hk').walk m' hm'

/-- What a namespace exports is replaced, and the items on top stay there. -/
theorem exported_namespace_items :
    let file := (FileSet.empty.add "a.ts"
      ("import x from 'm'; export namespace N \x7b export const y = x; \x7d " ++
        "\x7b let z = N.y; \x7d export default N;")
      true).2
    let r := Parse.parseFile file {}
    ∃ root out, r.tree = some root ∧ (lowerTree file root r.comments {} {}).tree = some out ∧
      (out.kids.filter fun n => n.kind.isModuleItem).map Node.kind
        = [.importDecl, .exportDecl, .exportDefault] ∧
      ∀ n ∈ out.kids, ∀ k ∈ n.kids ++ n.decos, ∀ m ∈ k.walk, m.kind.isModuleItem = false := by
  intro file r
  have hrun : r.tree.isSome = true ∧
      (lowerTree file (r.tree.getD .absent) r.comments {} {}).tree.isSome = true ∧
      (r.tree.getD .absent).keepsItemsOnTop = true ∧
      ((((lowerTree file (r.tree.getD .absent) r.comments {} {}).tree.getD .absent).kids.filter
        fun n => n.kind.isModuleItem).map Node.kind) =
          [.importDecl, .exportDecl, .exportDefault] := by
    decide +kernel
  obtain ⟨hsome, hlowered, hitems, hkinds⟩ := hrun
  obtain ⟨root, hroot⟩ := Option.isSome_iff_exists.1 hsome
  rw [hroot, Option.getD_some] at hlowered hitems hkinds
  obtain ⟨out, hout⟩ := Option.isSome_iff_exists.1 hlowered
  rw [hout, Option.getD_some] at hkinds
  refine ⟨root, out, hroot, hout, hkinds, ?_⟩
  exact module_items_stay_on_top file {} root hroot r.comments {} {} out hout hitems

/-- An import and an export of names in the body of a namespace parse and are carried along. -/
theorem module_items_below_statements :
    let file := (FileSet.empty.add "a.ts"
      "namespace N \x7b import x from 'm'; export \x7b x as y \x7d; f(x); \x7d" true).2
    let r := Parse.parseFile file {}
    ∃ root out, r.tree = some root ∧ (lowerTree file root r.comments {} {}).tree = some out ∧
      (∃ n ∈ out.kids, ∃ k ∈ n.kids ++ n.decos, ∃ m ∈ k.walk, m.kind = .importDecl) ∧
      ∃ n ∈ out.kids, ∃ k ∈ n.kids ++ n.decos, ∃ m ∈ k.walk, m.kind = .exportNamed := by
  intro file r
  have hrun : r.tree.isSome = true ∧
      (lowerTree file (r.tree.getD .absent) r.comments {} {}).tree.isSome = true ∧
      ∀ kind ∈ [NodeKind.importDecl, .exportNamed],
        ∃ n ∈ ((lowerTree file (r.tree.getD .absent) r.comments {} {}).tree.getD .absent).kids,
          ∃ k ∈ n.kids ++ n.decos, ∃ m ∈ k.walk, m.kind = kind := by
    decide +kernel
  obtain ⟨hsome, hlowered, hitems⟩ := hrun
  obtain ⟨root, hroot⟩ := Option.isSome_iff_exists.1 hsome
  rw [hroot, Option.getD_some] at hlowered hitems
  obtain ⟨out, hout⟩ := Option.isSome_iff_exists.1 hlowered
  rw [hout, Option.getD_some] at hitems
  exact ⟨root, out, hroot, hout, hitems .importDecl (by decide), hitems .exportNamed (by decide)⟩

end Lower

end ScriptLower
