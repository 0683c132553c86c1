import ScriptLower.Proofs.Parse.Limits
import ScriptLower.Proofs.Pipeline.Outcomes

/-!
# Texts of runs

The text of a run is the printed form of the lowered tree of its source, unless a phase fails. The
diagnostics collected on the way decide nothing else: a phase that goes on has reported no error, so
what the bag holds, and how much fits into it, has no part in the text. With that the options that
only say how much is told, or kept beside the text, have none either.
-/

namespace ScriptLower

/-! ## The text of each phase -/

/-- The text of a run; none when the run failed. -/
def Run.text (r : Run) : Option Bytes := r.result.toOption.map (·.code)

/-- Diagnostics without an error add none. -/
theorem Reports.hasErrors_reportAll_of_warnings {r : Reports} {ds : List Diagnostic}
    (h : ∀ d ∈ ds, d.isError = false) : (r.reportAll ds).bag.hasErrors = r.bag.hasErrors := by
  induction ds generalizing r with
  | nil => rfl
  | cons d ds ih =>
    have hone : (r.report d).bag.hasErrors = r.bag.hasErrors := by
      by_cases hseen : (d.code, d.primary, d.message) ∈ r.seen
      · rw [report_of_seen hseen]
      · rw [report_of_unseen hseen, Bag.hasErrors_add, h d List.mem_cons_self, Bool.or_false]
    exact (ih fun e he => h e (List.mem_cons_of_mem _ he)).trans hone

namespace Run

variable {o o' : Options} {c : Configuration} {specifier text : Bytes} {files : FileSet}
  {file : SourceFile} {parsed : Parse.Result} {tree : Node} {reports : Reports}
  {phases : List Phase}

/-- The text that a lowered tree is printed as. -/
def printedText (o : Options) (specifier : Bytes) (file : SourceFile) (comments : CommentTable)
    (tree : Node) : Option Bytes :=
  let printed := Print.printTree tree comments
    { minify := o.minify, asciiOnly := o.asciiOnly,
      sink := if o.sourceMap == .none then none else some { file := file } }
  printed.code.map fun code =>
    match printed.sink with
    | some s => (attachMap o.sourceMap s specifier code).1
    | none => code

theorem print_text {lowered : Lower.Result} (hclean : reports.bag.hasErrors = false) :
    (print o c specifier files file parsed lowered tree reports phases).text =
      printedText o specifier file lowered.comments tree := by
  unfold print printedText
  extract_lets sink printed reports' phases'
  change _ = printed.code.map fun code => match printed.sink with
    | some s => (attachMap o.sourceMap s specifier code).1
    | none => code
  split
  · rename_i hnone
    rw [hnone]
    rfl
  · rename_i code hsome
    have hnil : printed.reports = [] := Print.reports_of_code hsome
    have hnone : reports'.bag.hasErrors = false := by
      show (reports.reportAll printed.reports).bag.hasErrors = false
      rw [hnil]
      exact hclean
    rw [if_neg (Bool.eq_false_iff.1 hnone), hsome, Option.map_some]
    rcases printed.sink with _ | s <;> rfl

/-- The text that the tree of a source comes to. -/
def loweredText (o : Options) (c : Configuration) (specifier : Bytes) (file : SourceFile)
    (comments : CommentTable) (tree : Node) : Option Bytes :=
  let lowered := Lower.lowerTree file tree comments {} c.lowering
  lowered.tree.bind (printedText o specifier file lowered.comments)

theorem lower_text (hk : tree.kind = .program) (hclean : reports.bag.hasErrors = false) :
    (lower o c specifier files file parsed tree reports phases).text =
      loweredText o c specifier file parsed.comments tree := by
  unfold lower loweredText
  extract_lets lowered reports' phases'
  obtain ⟨hcount, htree⟩ : lowered.errors = lowered.reports.countP Diagnostic.isError ∧
      (lowered.tree = none ↔ lowered.errors ≠ 0) := Lower.lowerTree_counts hk
  split
  · rename_i hnone
    rw [hnone]
    rfl
  · rename_i out hsome
    have hzero : lowered.reports.countP Diagnostic.isError = 0 := by
      by_contra hne
      rw [htree.2 (hcount ▸ hne)] at hsome
      cases hsome
    have hnone : reports'.bag.hasErrors = false :=
      (Reports.hasErrors_reportAll_of_warnings fun d hd =>
        Bool.eq_false_iff.2 (List.countP_eq_zero.1 hzero d hd)).trans hclean
    rw [if_neg (Bool.eq_false_iff.1 hnone), hsome]
    exact print_text hnone

/-- Where there is a tree nothing is reported. -/
theorem reports_of_tree {o : Parse.Options} (h : (Parse.parseFile file o).tree.isSome = true) :
    (Parse.parseFile file o).reports = [] := by
  refine ((Parse.parseFile_tally ?_).2.1 h).1
  unfold Parse.parseFile at h
  dsimp only at h
  split at h
  · rename_i hrun
    rw [hrun]
    trivial
  · cases h
  · cases h

/-- The text that a source comes to. -/
def parsedText (o : Options) (c : Configuration) (specifier text : Bytes) : Option Bytes :=
  let file := (FileSet.empty.add specifier text true).2
  let parsed := Parse.parseFile file { grammar := o.grammar c.dialect }
  parsed.tree.bind (loweredText o c specifier file parsed.comments)

theorem parse_text (limit : Int) :
    (parse o c specifier text (Reports.new limit)).text = parsedText o c specifier text := by
  unfold parse parsedText
  generalize FileSet.empty.add specifier text true = added
  obtain ⟨files, file⟩ := added
  dsimp -zeta only
  extract_lets parsed reports' phases file' parsed'
  obtain ⟨htree, hcomments⟩ : parsed.tree = parsed'.tree ∧
      (parsed.tree.isSome = true → parsed.comments = parsed'.comments) :=
    Parse.parseFile_of_grammar file rfl
  rw [← htree]
  split
  · rename_i hnone
    rw [hnone]
    rfl
  · rename_i tree hsome
    have hnil : parsed.reports = [] := reports_of_tree (by rw [hsome]; rfl)
    have hclean : reports'.bag.hasErrors = false := by
      show ((Reports.new limit).reportAll parsed.reports).bag.hasErrors = false
      rw [hnil]
      rfl
    rw [if_neg (Bool.eq_false_iff.1 hclean), lower_text (Parse.parseFile_tidy hsome).2 hclean,
      hcomments (by rw [hsome]; rfl), hsome]
    rfl

end Run

/-- A run has a text when its options have no fault and all phases go on. -/
theorem transpile_text (specifier text : Bytes) (o : Options) :
    (transpile specifier text o).text =
      if (o.faults specifier text).isEmpty then
        Run.parsedText o (o.configuration specifier) specifier text
      else none := by
  obtain ⟨hfaults, reports, -, hrun⟩ | ⟨hnone, hrun⟩ := transpile_cases specifier text o
  · rw [hrun, hfaults, if_neg Bool.false_ne_true]
    rfl
  · rw [hrun, hnone, if_pos rfl]
    exact Run.parse_text o.maxDiagnostics

/-! ## Options without a part in the text -/

theorem Target.resolved_resolved (t : Target) : t.resolved.resolved = t.resolved := by
  unfold resolved
  split <;> rfl

/-- Versions that mean the same are the same, or both are known. -/
theorem Target.eq_or_isKnown {t u : Target} (h : t.resolved = u.resolved) :
    t = u ∨ t.isKnown = true ∧ u.isKnown = true := by
  unfold resolved at h
  split at h <;> split at h
  · exact .inl (by simp [*])
  · rename_i ht hu
    exact .inr ⟨ht ▸ by decide, h ▸ by decide⟩
  · rename_i ht hu
    exact .inr ⟨h ▸ by decide, hu ▸ by decide⟩
  · exact .inl h

/-- Two choices of options differ at most in how many diagnostics are told, whether the tokens are
kept, in which order the definitions are given, and whether the default version is spelled out. -/
structure Options.Alike (o o' : Options) : Prop where
  elements : o.elements = o'.elements
  minify : o.minify = o'.minify
  dialect : o.dialect = o'.dialect
  target : o.target.resolved = o'.target.resolved
  asciiOnly : o.asciiOnly = o'.asciiOnly
  sourceMap : o.sourceMap = o'.sourceMap
  decorators : o.decorators = o'.decorators
  strictEarlyErrors : o.strictEarlyErrors = o'.strictEarlyErrors
  stripConditionals : o.stripConditionals = o'.stripConditionals
  defines : (o.defines.mergeSort fun a b => Bytes.le a.1 b.1) =
    o'.defines.mergeSort fun a b => Bytes.le a.1 b.1
  preserveImports : o.preserveImports = o'.preserveImports

section

variable {o o' : Options} {specifier source : Bytes}

theorem Options.Alike.faults (h : o.Alike o') :
    o.faults specifier source = o'.faults specifier source := by
  have htarget : (if o.target.isKnown then [] else
      [(Code.unknownTarget, "unknown target " ++ o.target.name)]) =
      if o'.target.isKnown then []
        else [(Code.unknownTarget, "unknown target " ++ o'.target.name)] := by
    rcases Target.eq_or_isKnown h.target with ht | ⟨hk, hk'⟩
    · rw [ht]
    · rw [if_pos hk, if_pos hk']
  have hdefines : o.readDefines = o'.readDefines := by rw [readDefines, readDefines, h.defines]
  have hconditionals : o.readConditionals = o'.readConditionals := by
    rw [readConditionals, readConditionals, h.stripConditionals]
  unfold Options.faults settingFaults
  rw [htarget, hdefines, hconditionals, h.dialect, h.elements, h.stripConditionals]

/-- Lowering goes by the version that is meant. -/
theorem Lower.lowerTree_resolved (file : SourceFile) (root : Node) (comments : CommentTable)
    (supply : NameSupply) (s : Settings) :
    lowerTree file root comments supply s =
      lowerTree file root comments supply { s with target := s.target.resolved } := by
  unfold lowerTree lowerWhole failed
  dsimp only
  rw [Target.resolved_resolved]

theorem Options.Alike.loweredText (h : o.Alike o') (file : SourceFile) (comments : CommentTable) :
    Run.loweredText o (o.configuration specifier) specifier file comments =
      Run.loweredText o' (o'.configuration specifier) specifier file comments := by
  funext tree
  have hlowering : { o.lowering with target := o.lowering.target.resolved } =
      { o'.lowering with target := o'.lowering.target.resolved } := by
    simp only [Options.lowering, readDefines, readConditionals, h.elements,
      h.target, h.preserveImports,
      h.defines, h.stripConditionals]
  have hlower : Lower.lowerTree file tree comments {} (o.configuration specifier).lowering =
      Lower.lowerTree file tree comments {} (o'.configuration specifier).lowering := by
    rw [Lower.lowerTree_resolved,
      Lower.lowerTree_resolved _ _ _ _ (o'.configuration specifier).lowering]
    exact congrArg _ hlowering
  have hprinted : Run.printedText o specifier file = Run.printedText o' specifier file := by
    unfold Run.printedText
    rw [h.minify, h.asciiOnly, h.sourceMap]
  unfold Run.loweredText
  rw [hlower, hprinted]

/-- Such options have no part in the text. -/
theorem Options.Alike.text_eq (h : o.Alike o') :
    (transpile specifier source o).text = (transpile specifier source o').text := by
  have hdialect : (o.configuration specifier).dialect = (o'.configuration specifier).dialect := by
    rw [configuration, configuration, h.dialect]
  have hgrammar (d : Dialect) : o.grammar d = o'.grammar d := by
    rw [grammar, grammar, h.decorators, h.strictEarlyErrors]
  rw [transpile_text, transpile_text, h.faults]
  unfold Run.parsedText
  dsimp only
  rw [hdialect, hgrammar, h.loweredText]

end

end ScriptLower
