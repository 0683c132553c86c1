import ScriptLower.Proofs.Lower.Comments
import ScriptLower.Proofs.Parse.Capture
import ScriptLower.Proofs.Parse.Ending
import ScriptLower.Proofs.Pipeline.Texts
import ScriptLower.Proofs.Print.Inks

/-!
# The legal comments of a text

Reading a text records its comments by position. Lowering keeps the legal ones, though perhaps at
other positions, and printing writes those whose position is asked for. So the text of a run holds
no legal comment that was not recorded and none more often than it was recorded, and it holds all of
them exactly when every position at which one hangs after lowering is asked for by something that is
printed. A statement that is erased at the end of its list leaves a position for which nothing asks.
-/

namespace ScriptLower

open ScriptLower

/-! ## The phases of a run -/

namespace Run

/-- The file of a run. -/
def file (specifier source : Bytes) : SourceFile := (FileSet.empty.add specifier source true).2

/-- What a run reads. -/
def parsed (o : Options) (specifier source : Bytes) : Parse.Result :=
  Parse.parseFile (file specifier source)
    { grammar := o.grammar (o.configuration specifier).dialect }

/-- What a run makes of the tree that it reads. -/
def lowered (o : Options) (specifier source : Bytes) (root : Node) : Lower.Result :=
  Lower.lowerTree (file specifier source) root (parsed o specifier source).comments {}
    (o.configuration specifier).lowering

/-- How a run prints. -/
def settings (o : Options) (specifier source : Bytes) : Print.Settings :=
  { minify := o.minify, asciiOnly := o.asciiOnly
    sink := if o.sourceMap == .none then none else some { file := file specifier source } }

/-- What a run writes. -/
def inks (o : Options) (specifier source : Bytes) (root tree : Node) : List Print.Ink :=
  Print.programInks (settings o specifier source) tree (lowered o specifier source root).comments

end Run

namespace Run

/-- A text stands in front of its map. -/
theorem attachMap_text (mode : MapMode) (sink : MapSink) (specifier code : Bytes) :
    code <+: (attachMap mode sink specifier code).1 := by
  have hline : code <+: if ([10] : Bytes).isSuffixOf code then code else code ++ [10] := by
    split
    · exact List.prefix_rfl
    · exact List.prefix_append ..
  unfold attachMap
  dsimp only
  cases mode with
  | none => exact hline
  | inline | separate =>
    dsimp only
    rw [List.append_assoc]
    exact hline.trans (List.prefix_append ..)

variable {o : Options} {specifier source code : Bytes}

/-- A run with a text has read a program, has made a program of it, and has written that. -/
theorem text_inks (h : (transpile specifier source o).text = some code) : ∃ root tree,
    (parsed o specifier source).tree = some root ∧
    (lowered o specifier source root).tree = some tree ∧
      Print.inkText (settings o specifier source) (inks o specifier source root tree) <+: code ∧
      (o.sourceMap = .none →
        code = Print.inkText (settings o specifier source)
          (inks o specifier source root tree)) := by
  rw [transpile_text] at h
  split at h
  swap
  · cases h
  obtain ⟨root, hroot, hlowered⟩ := Option.bind_eq_some_iff.1 h
  obtain ⟨tree, htree, hprinted⟩ := Option.bind_eq_some_iff.1 hlowered
  obtain ⟨text, htext, hcode⟩ := Option.map_eq_some_iff.1 hprinted
  have hinks :
      text = Print.inkText (settings o specifier source) (inks o specifier source root tree) :=
    Print.printTree_code htext
  refine ⟨root, tree, hroot, htree, ?_, fun hnone => ?_⟩
  · rw [← hcode, ← hinks]
    split
    · exact attachMap_text ..
    · exact List.prefix_rfl
  · have hunmapped : (Print.printTree tree (lowered o specifier source root).comments
        (settings o specifier source)).sink = none :=
      Print.printTree_unmapped (by rw [settings, hnone]; rfl)
    rw [← hcode, ← hinks]
    split
    · rename_i hsome
      cases hsome.symm.trans hunmapped
    · rfl

end Run

/-! ## The comments of a run -/

/-- The legal comments of some. The interpreter line, which is legal too, is left out: it has a
place of its own in front of the text. -/
def legalOf (cs : List Comment) : List Comment := cs.filter Comment.stays

/-- Lowering keeps the comments that no setting leaves out. -/
theorem CommentTable.Saves.stays {t u : CommentTable} (h : t.Saves u) :
    (legalOf u.held).Perm (legalOf t.held) := by
  have hstays (cs : List Comment) : legalOf cs = (cs.filter (·.legal)).filter (!·.hashbang) := by
    rw [List.filter_filter]
    exact List.filter_congr fun c _ => Bool.and_comm ..
  rw [hstays, hstays]
  exact h.held_legal.filter _

/-- A text holds each legal comment that was recorded at most once, and no other; it holds all of
them when, and only when, each position that has one behind lowering is asked for by what is
printed. -/
theorem legal_comments_printed_iff {o : Options} {specifier source code : Bytes}
    (h : (transpile specifier source o).text = some code) : ∃ root tree,
    (Run.parsed o specifier source).tree = some root ∧
      (Run.lowered o specifier source root).tree = some tree ∧
      let recorded := legalOf (Run.parsed o specifier source).comments.held
      let table := (Run.lowered o specifier source root).comments
      let inks := Run.inks o specifier source root tree
      let pieces := Print.programPieces o.asciiOnly tree
      Print.inkText (Run.settings o specifier source) inks <+: code ∧
      (o.sourceMap = .none → code = Print.inkText (Run.settings o specifier source) inks) ∧
      (legalOf (Print.commentsOf inks)).Subperm recorded ∧
      ((legalOf (Print.commentsOf inks)).Perm recorded ↔
        (∀ e ∈ table.leading, (∃ c ∈ e.2, c.stays = true) → Print.asksLeading pieces e.1 = true) ∧
        (∀ e ∈ table.dangling, (∃ c ∈ e.2, c.stays = true) →
          Print.asksDangling pieces e.1 = true)) := by
  obtain ⟨root, tree, hroot, htree, hfront, hcode⟩ := Run.text_inks h
  refine ⟨root, tree, hroot, htree, ?_⟩
  intro recorded table inks pieces
  have hkeyed : (Run.parsed o specifier source).comments.Keyed :=
    (Parse.parsed_noted (congrArg Option.isSome hroot)).1
  obtain ⟨hgrown, hkind⟩ := Parse.parseFile_grown hroot
  have hbase : 0 < (Run.file specifier source).base := by
    show 0 < FileSet.empty.next
    decide
  have hsaves : (Run.parsed o specifier source).comments.Saves table :=
    Lower.lowerTree_saves _ _ _ hbase hgrown hkind hkeyed.leading
  have htable : table.Keyed := ⟨hsaves.keyed, hsaves.dangling ▸ hkeyed.dangling⟩
  have hheld : (legalOf table.held).Perm recorded := hsaves.stays
  have hprinted : (legalOf (Print.commentsOf inks)).Perm (legalOf (Print.asked pieces table)) :=
    Print.stays_programInks htable (Run.settings o specifier source) tree
  refine ⟨hfront, hcode, ?_, ?_⟩
  · exact hprinted.subperm.trans
      (((Print.asked_held pieces table).filter _).subperm.trans hheld.subperm)
  · rw [← Print.asked_perm_iff]
    exact ⟨fun hall => (hprinted.symm.trans hall).trans hheld.symm,
      fun hasked => (hprinted.trans hasked).trans hheld⟩

/-- The comment of an interface that is gone stands in front of the next statement. -/
theorem comment_moves_to_next_statement :
    let source : Bytes := "/*! a */ interface I \x7b\x7d\nx;"
    (transpile "a.ts" source {}).text = some "/*! a */\nx;\n" ∧
      ∃ root tree, (Run.parsed {} "a.ts" source).tree = some root ∧
        (Run.lowered {} "a.ts" source root).tree = some tree ∧
        (legalOf (Print.commentsOf (Run.inks {} "a.ts" source root tree))).Perm
          (legalOf (Run.parsed {} "a.ts" source).comments.held) := by
  intro source
  have htext : (transpile "a.ts" source {}).text = some "/*! a */\nx;\n" := by decide +kernel
  have hasked : ((Run.parsed {} "a.ts" source).tree.all fun root =>
      (Run.lowered {} "a.ts" source root).tree.all fun tree =>
        let table := (Run.lowered {} "a.ts" source root).comments
        let pieces := Print.programPieces false tree
        List.all table.leading (fun e => Print.asksLeading pieces e.1) &&
          List.all table.dangling fun e => Print.asksDangling pieces e.1) = true := by
    decide +kernel
  obtain ⟨root, tree, hroot, htree, -, -, -, hiff⟩ := legal_comments_printed_iff htext
  rw [hroot, Option.all_some, htree, Option.all_some] at hasked
  obtain ⟨hleading, hdangling⟩ := Bool.and_eq_true_iff.1 hasked
  exact ⟨htext, root, tree, hroot, htree, hiff.2 ⟨fun e he _ => List.all_eq_true.1 hleading e he,
    fun e he _ => List.all_eq_true.1 hdangling e he⟩⟩

/-- The comment of an interface at the end is recorded, and is not in the text. -/
theorem last_interface_loses_comment :
    let source : Bytes := "x;\n/*! c */ interface I \x7b\x7d"
    (transpile "a.ts" source {}).text = some "x;\n" ∧
      (Run.parsed {} "a.ts" source).comments.held.map (fun c => (c.text, c.legal)) =
        [(Bytes.ofString "/*! c */", true)] := by
  decide +kernel

end ScriptLower
