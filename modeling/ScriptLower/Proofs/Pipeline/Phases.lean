import ScriptLower.Proofs.Lower.Comments
import ScriptLower.Proofs.Lower.FittingPrograms
import ScriptLower.Proofs.Parse.Capture
import ScriptLower.Proofs.Parse.StatementForms
import ScriptLower.Proofs.Pipeline.Texts
import ScriptLower.Proofs.Print.Mappings

/-!
# From phase to phase

Each phase can do with whatever the phase before it makes. What is read fits the places of a source,
so lowering knows what to do with every node; what lowering makes fits the places of the plain
language, so printing does. In neither tree is a child missing where the next phase looks for one.

The nodes of the one tree stand in the file because those of the other do, so the map of what is
printed points into the file. The comments stand in the file too, and nodes and comments are all
that warnings speak of, so those of a run that succeeds speak of the file.
-/

namespace ScriptLower

/-- A file that parses is lowered without a node that lowering does not know, a type that is left, a
name that cannot be found, a part that is looked into and missing or a depth that it gives up at.
The tree it is lowered to is printed without a node that printing does not know or a missing one
that it looks into. -/
theorem phases_fit (file : SourceFile) (po : Parse.Options) (root : Node)
    (hparse : (Parse.parseFile file po).tree = some root) (comments : CommentTable)
    (supply : NameSupply) (lo : Lower.Settings) :
    FitsAsProgram (.source file) root ∧
    (∀ d ∈ (Lower.lowerTree file root comments supply lo).reports,
      d.code ∉ [Code.unknownNode, .typeLeaked, .noFreeName, .loweringFailure]) ∧
    ∀ out, (Lower.lowerTree file root comments supply lo).tree = some out →
      FitsAsProgram (.lowered file) out ∧
      ∀ (comments : CommentTable) (eo : Print.Settings),
        ∀ d ∈ (Print.printTree out comments eo).reports,
        d.code ∉ [Code.unprintableNode, .printingFailure] := by
  have hroot : FitsAsProgram (.source file) root := Parse.parseFile_fits hparse
  obtain ⟨hreports, hfits⟩ := Lower.lowerTree_fits hroot (Parse.parseFile_tidy hparse).1 comments
    supply lo
  refine ⟨hroot, hreports, fun out hout => ⟨hfits out hout, fun comments eo d hd => ?_⟩⟩
  rcases Print.printTree_fits (hfits out hout) comments eo d hd with h | h | h <;> rw [h] <;> decide

/-- A file with an enumeration, a type in an expression and an element passes through all phases. -/
theorem enum_and_element_fit :
    let file :=
    (FileSet.empty.add "a.tsx" "enum E \x7b A \x7d x = (y as E)?.[E.A] + <p a='b'/>;" true).2
    let r := Parse.parseFile file {}
    ∃ root out, r.tree = some root ∧ (Lower.lowerTree file root r.comments {} {}).tree = some out ∧
      ∀ d ∈ (Print.printTree out r.comments { minify := true }).reports,
        d.code ∉ [Code.unprintableNode, .printingFailure] := by
  intro file r
  have hrun : r.tree.isSome = true ∧
      (Lower.lowerTree file (r.tree.getD .absent) r.comments {} {}).tree.isSome = true := by
    decide +kernel
  obtain ⟨hparsed, hlowered⟩ := hrun
  obtain ⟨root, hroot⟩ := Option.isSome_iff_exists.1 hparsed
  rw [hroot, Option.getD_some] at hlowered
  obtain ⟨out, hout⟩ := Option.isSome_iff_exists.1 hlowered
  exact ⟨root, out, hroot, hout,
    ((phases_fit file {} root hroot r.comments {} {}).2.2 out hout).2 r.comments { minify := true }⟩

theorem MapSink.new_eq_ok {fs : FileSet} {file : SourceFile} {sink : MapSink}
    (h : MapSink.new fs (some file) = .ok sink) : sink = { file := file } := by
  unfold MapSink.new at h
  dsimp only at h
  split at h
  · cases h
  · split at h
    · exact (Except.ok.inj h).symm
    · cases h

/-- The map of a file that is parsed, lowered and printed takes every entry, as long as the
positions of the file and the ends of the printed text are words. Each entry stands where a token of
the printed text begins, which is at the end of the text in front of it: its line is the number of
line feeds there, and its column is that of UTF-16 units. Each comes from an offset of the file. -/
theorem map_points_at_tokens (fs : FileSet) (file : SourceFile) (hwords : file.InWords)
    (sink : MapSink) (hsink : MapSink.new fs (some file) = .ok sink) (po : Parse.Options)
    (root : Node)
    (hparse : (Parse.parseFile file po).tree = some root) (comments : CommentTable)
    (supply : NameSupply) (lo : Lower.Settings) (out : Node)
    (hlower : (Lower.lowerTree file root comments supply lo).tree = some out)
    (comments' : CommentTable) (eo : Print.Settings) (heo : eo.sink = some sink)
    (hshort : Print.Short (Print.printed out comments' eo).writer.text) :
    (∀ d ∈ (Print.printTree out comments' eo).reports,
      d.code ≠ .spanOutOfRange ∧ d.code ≠ .mapMismatch) ∧
    ∃ filled, (Print.printTree out comments' eo).sink = some filled ∧ ∀ m ∈ filled.mappings,
      (∃ t ∈ Print.tokensOf out comments' eo,
        (m.line, m.col) = Writer.endOf t.front ∧
        (Utf8.isValid (Writer.lastLine t.front) = true →
          m.col = Utf8.length16 (Writer.lastLine t.front)) ∧
        ∀ text, (Print.printTree out comments' eo).code = some text →
          t.text ≠ [] ∧ t.front ++ t.text <+: text) ∧
      ∃ off ≤ file.content.length,
        (m.sourceLine, m.sourceCol) = Lines.lineCol16 file.content off := by
  obtain rfl := MapSink.new_eq_ok hsink
  have hroot : FitsAsProgram (.source file) root := Parse.parseFile_fits hparse
  have hout : FitsAsProgram (.lowered file) out :=
    (Lower.lowerTree_fits hroot (Parse.parseFile_tidy hparse).1 comments supply lo).2 out hlower
  have hmapped := Print.mapped_printed hwords hout comments' heo
  obtain ⟨filled, hfilled, hentered⟩ := hmapped.sink hshort
  refine ⟨fun d hd => ?_, filled, ?_, fun m hm => ⟨?_, ?_⟩⟩
  · rw [Print.reports_mapped hwords hout heo hshort d hd]
    decide
  · rw [Print.printTree_eq hout.kind (Print.sound_of_faultless
      (Print.faults_of_clear (Print.clear_programPieces hout eo.asciiOnly)))]
    exact hfilled
  · obtain ⟨t, ht, hplace⟩ := hentered.printed m (List.mem_reverse.1 hm)
    refine ⟨t, ht, hplace, fun hvalid => ?_, fun text htext => ?_⟩
    · rw [← Writer.endOf_col hvalid, ← hplace]
    · rw [Print.code_printed hout.kind htext]
      exact hmapped.begun t ht
  · exact hentered.source m (List.mem_reverse.1 hm)

/-! ## What is told -/

/-- What a bag of reports holds was there before or is reported. -/
theorem Reports.mem_reportAll {d : Diagnostic} {ds : List Diagnostic} {r : Reports}
    (h : d ∈ (r.reportAll ds).bag.items) : d ∈ r.bag.items ∨ d ∈ ds := by
  induction ds generalizing r with
  | nil => exact .inl h
  | cons e ds ih =>
    rcases ih h with hone | hrest
    · rw [List.mem_cons, ← or_assoc]
      refine .inl ?_
      unfold report Bag.add at hone
      grind
    · exact .inr (List.mem_cons_of_mem _ hrest)

namespace Run

variable {o : Options} {c : Configuration} {specifier text : Bytes} {files : FileSet}
  {file : SourceFile} {parsed : Parse.Result} {lowered : Lower.Result} {tree : Node}
  {reports : Reports} {phases : List Phase} {x : Output}

/-- Behind printing that succeeds the warnings are those that were there before. -/
theorem print_ok (h :
      (print o c specifier files file parsed lowered tree reports phases).result = .ok x) :
    x.files = files ∧ x.diagnostics = reports.bag.items ∧ reports.bag.hasErrors = false := by
  unfold print at h
  extract_lets sink printed reports' phases' at h
  split at h
  · cases h
  · rename_i code hsome
    have hsame : reports' = reports := congrArg reports.reportAll (Print.reports_of_code hsome)
    rw [hsame] at h
    split at h
    · cases h
    · rename_i hclean
      obtain rfl := Except.ok.inj h
      exact ⟨rfl, rfl, Bool.eq_false_iff.2 hclean⟩

/-- A run that succeeds tells what lowering its tree told. -/
theorem transpile_ok (h : (transpile specifier text o).result = .ok x) :
    let added := FileSet.empty.add specifier text true
    ∃ (po : Parse.Options) (root : Node) (lo : Lower.Settings),
      let parsed := Parse.parseFile added.2 po
      let told := (Reports.new o.maxDiagnostics).reportAll
        (Lower.lowerTree added.2 root parsed.comments {} lo).reports
      parsed.tree = some root ∧ x.files = added.1 ∧ x.diagnostics = told.bag.items ∧
        told.bag.hasErrors = false := by
  obtain ⟨-, reports, -, hrun⟩ | ⟨-, hrun⟩ := transpile_cases specifier text o
  · rw [hrun] at h
    cases h
  rw [hrun] at h
  unfold parse at h
  generalize FileSet.empty.add specifier text true = added at h ⊢
  obtain ⟨files, file⟩ := added
  dsimp -zeta only at h
  extract_lets parsed reports' phases at h
  split at h
  · cases h
  rename_i root hroot
  have hnew : reports' = Reports.new o.maxDiagnostics :=
    congrArg (Reports.new o.maxDiagnostics).reportAll (reports_of_tree (by rw [hroot]; rfl))
  rw [hnew, Reports.hasErrors_new, if_neg Bool.false_ne_true] at h
  unfold lower at h
  extract_lets lowered told phases' at h
  split at h
  · cases h
  split at h
  · cases h
  · exact ⟨_, root, _, hroot, print_ok h⟩

end Run

/-- The warnings of lowering a file that parses speak of the file. -/
theorem lowered_warnings_placed {file : SourceFile} {po : Parse.Options} {root : Node}
    (hparse : (Parse.parseFile file po).tree = some root) (lo : Lower.Settings) :
    Lower.WarnsIn file
      (Lower.lowerTree file root (Parse.parseFile file po).comments {} lo).reports := by
  have hgrown := (Parse.parseFile_grown hparse).1
  rw [Lower.lowerTree_reports (Parse.parseFile_fits hparse) hgrown.tidy]
  refine (Lower.saving_lowerProgram hgrown _).placed _ _ fun d hd => .inr ?_
  obtain ⟨c, hc, hspan⟩ := List.mem_map.1 (Lower.applyPragmas_warnings _ _ d hd).2
  rw [← hspan]
  exact (Parse.parsed_noted (congrArg Option.isSome hparse)).2 c (List.mem_mergeSort.1 hc)

/-- A run that succeeds tells warnings, and they speak of its one file or of no place. -/
theorem run_warns_in_file {specifier text : Bytes} {o : Options} {x : Output}
    (h : (transpile specifier text o).result = .ok x) :
    let added := FileSet.empty.add specifier text true
    x.files = added.1 ∧ ∀ d ∈ x.diagnostics, d.isError = false ∧
      added.2.spans d.primary = true := by
  intro added
  obtain ⟨po, root, lo, hroot, hfiles, htold, hclean⟩ := Run.transpile_ok h
  refine ⟨hfiles, fun d hd => ?_⟩
  rw [htold] at hd
  have hwarns : d.isError = false := Bool.eq_false_iff.2 (List.any_eq_false.1 hclean d hd)
  have hmem := (Reports.mem_reportAll hd).resolve_left List.not_mem_nil
  have hplaced := lowered_warnings_placed hroot lo d hmem
  exact ⟨hwarns, hplaced.resolve_left (Bool.eq_false_iff.1 hwarns)⟩

end ScriptLower
