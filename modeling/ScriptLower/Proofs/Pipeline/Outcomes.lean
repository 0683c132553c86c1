import ScriptLower.Pipeline.Run
import ScriptLower.Proofs.Parse.Tally
import ScriptLower.Proofs.Print.Layouts
import ScriptLower.Proofs.Scope.Files

/-!
# What a run comes to

A run is an output without an error, or a failure that tells one. Each phase decides for itself
whether it failed, by its own count, while the diagnostics go through a filter into a bag with a
limit. That the two agree has three reasons: a bag takes the first error even when it is full; the
filter goes by code, place and message, and code and message alone tell an error from a warning; and
a phase that begins was preceded by no error.

All this is about runs whose parses end. The parse of a tag with an escaped attribute name does not,
and such a run comes to nothing.
-/

namespace ScriptLower

open Lower (Classed warns)

/-! ## Collecting -/

section

variable {b : Bag} {r : Reports} {d : Diagnostic} {ds : List Diagnostic}

/-- A bag takes every error or holds one already. -/
theorem Bag.hasErrors_add : (b.add d).hasErrors = (b.hasErrors || d.isError) := by
  unfold Bag.add Bag.admits
  split
  · simp [hasErrors, List.any_append]
  · rename_i h
    rw [Bool.or_eq_true, Bool.and_eq_true, not_or] at h
    cases hd : d.isError with
    | false => rw [Bool.or_false]
    | true =>
      have hb : b.hasErrors = true := by simpa [hd] using h.2
      rw [hb, Bool.true_or]

theorem Reports.report_of_seen (h : (d.code, d.primary, d.message) ∈ r.seen) : r.report d = r := by
  unfold report
  rw [if_pos (List.contains_iff_mem.2 h)]

theorem Reports.report_of_unseen (h : (d.code, d.primary, d.message) ∉ r.seen) :
    r.report d = { bag := r.bag.add d, seen := (d.code, d.primary, d.message) :: r.seen } := by
  unfold report
  rw [if_neg (mt List.contains_iff_mem.1 h)]

theorem Reports.hasErrors_report (h : r.bag.hasErrors = true) :
    (r.report d).bag.hasErrors = true := by
  by_cases hseen : (d.code, d.primary, d.message) ∈ r.seen
  · rwa [report_of_seen hseen]
  · rw [report_of_unseen hseen, Bag.hasErrors_add, h, Bool.true_or]

theorem Reports.hasErrors_reportAll (h : r.bag.hasErrors = true) :
    (r.reportAll ds).bag.hasErrors = true := by
  induction ds generalizing r with
  | nil => exact h
  | cons d ds ih => exact ih (hasErrors_report h)

theorem Reports.hasErrors_new (limit : Int) : (new limit).bag.hasErrors = false := rfl

/-- The first errors that are reported are not filtered out. -/
theorem Reports.reportAll_new (limit : Int) (h : ∀ d ∈ ds, d.isError = true) :
    ((new limit).reportAll ds).bag.hasErrors = !ds.isEmpty := by
  cases ds with
  | nil => rfl
  | cons d ds =>
    have hfirst : ((new limit).report d).bag.hasErrors = true := by
      rw [report_of_unseen List.not_mem_nil, Bag.hasErrors_add, h d List.mem_cons_self,
        Bool.or_true]
    exact hasErrors_reportAll (r := (new limit).report d) hfirst

/-- All that was let through so far were warnings, or an error is held. -/
def Reports.Faithful (r : Reports) : Prop :=
  ∀ k ∈ r.seen, r.bag.hasErrors = true ∨ warns k.1 k.2.2 = true

/-- An error that is dropped is not the only one. -/
theorem Reports.Faithful.report (hr : r.Faithful) (hd : Classed d) :
    (r.report d).Faithful ∧ (r.report d).bag.hasErrors = (r.bag.hasErrors || d.isError) := by
  have hclass : d.isError = !warns d.code d.message := hd
  by_cases hseen : (d.code, d.primary, d.message) ∈ r.seen
  · rw [report_of_seen hseen]
    refine ⟨hr, ?_⟩
    rcases hr _ hseen with herr | hwarns
    · rw [herr, Bool.true_or]
    · rw [hclass, hwarns, Bool.not_true, Bool.or_false]
  · rw [report_of_unseen hseen]
    refine ⟨fun k hk => ?_, Bag.hasErrors_add⟩
    rw [Bag.hasErrors_add]
    rcases List.mem_cons.1 hk with rfl | hk
    · cases hw : warns d.code d.message with
      | true => exact .inr rfl
      | false => exact .inl (by rw [hclass, hw, Bool.not_false, Bool.or_true])
    · exact (hr k hk).imp_left fun h => by rw [h, Bool.true_or]

theorem Reports.Faithful.reportAll (hr : r.Faithful) (hds : ∀ d ∈ ds, Classed d) :
    (r.reportAll ds).Faithful ∧
      (r.reportAll ds).bag.hasErrors = (r.bag.hasErrors || ds.any Diagnostic.isError) := by
  induction ds generalizing r with
  | nil => exact ⟨hr, (Bool.or_false _).symm⟩
  | cons d ds ih =>
    obtain ⟨hr', herr⟩ := hr.report (hds d List.mem_cons_self)
    obtain ⟨hlast, herrs⟩ := ih hr' fun e he => hds e (List.mem_cons_of_mem _ he)
    refine ⟨hlast, herrs.trans ?_⟩
    rw [herr, List.any_cons, Bool.or_assoc]

end

/-! ## Diagnostics of the printer -/

namespace Print

end Print

/-! ## The parses of a run -/

namespace Parse

/-- A file to be parsed, and how. -/
structure Job where
  /-- The file. -/
  file : SourceFile
  /-- How it is read. -/
  options : Options

/-- What a parse comes to. -/
def Job.outcome (j : Job) : Outcome Node :=
  parseProgram (rules (depthFor j.file.content.length)) (initial j.file j.options)

end Parse

namespace Options

end Options

/-! ## Outcomes -/

namespace Run

/-- The run has an output: no diagnostic is an error, and no phase counted one. -/
structure Emits (r : Run) (x : Output) : Prop where
  /-- The output. -/
  result : r.result = .ok x
  /-- Its diagnostics. -/
  clean : ∀ d ∈ x.diagnostics, d.isError = false
  /-- All phases were gone through. -/
  phases : r.phases.map Phase.name = ["parse", "fold", "emit"]
  /-- None of them counted an error. -/
  counts : ∀ p ∈ r.phases, p.errors = 0

section

variable {o : Options} {c : Configuration} {specifier text : Bytes} {files : FileSet}
  {file : SourceFile} {parsed : Parse.Result} {lowered : Lower.Result} {tree : Node}
  {reports : Reports}

end

end Run

section

variable {specifier text : Bytes} {o : Options}

/-- A fault of the options ends a run before it begins; without one the source is read. -/
theorem transpile_cases (specifier text : Bytes) (o : Options) :
    ((o.faults specifier text).isEmpty = false ∧ ∃ reports : Reports, reports.bag.hasErrors = true ∧
      transpile specifier text o = Run.failed .idle reports FileSet.empty []) ∨
    ((o.faults specifier text).isEmpty = true ∧ transpile specifier text o =
      Run.parse o (o.configuration specifier) specifier text (Reports.new o.maxDiagnostics)) := by
  unfold transpile
  extract_lets reports
  have hfaults : reports.bag.hasErrors = !(o.faults specifier text).isEmpty := by
    refine (Reports.reportAll_new o.maxDiagnostics ?_).trans (by rw [List.isEmpty_map])
    exact List.forall_mem_map.2 fun _ _ => rfl
  cases hnone : (o.faults specifier text).isEmpty with
  | false =>
    rw [hnone, Bool.not_false] at hfaults
    exact .inl ⟨rfl, reports, hfaults, if_pos hfaults⟩
  | true =>
    rw [hnone, Bool.not_true] at hfaults
    have hreports : reports = Reports.new o.maxDiagnostics := by
      show (Reports.new _).reportAll _ = _
      rw [List.isEmpty_iff.1 hnone]
      rfl
    rw [if_neg (Bool.eq_false_iff.1 hfaults), hreports]
    exact .inr ⟨rfl, rfl⟩

end

end ScriptLower
