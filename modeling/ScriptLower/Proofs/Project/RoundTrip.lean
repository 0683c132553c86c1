import ScriptLower.Project.Cache
import ScriptLower.Proofs.Pipeline.Phases
import ScriptLower.Proofs.Source.Positions

/-!
# Outputs run again, and outputs put back

An output is stable when running it under its own name gives the same code. Not every output is.
Whether an import stays is decided by the uses in the source, and a use in a statement that is
itself dropped counts. In the output that use is gone, so the import goes when the output is run.

An output that was kept without its files is put back as it was. Each of its warnings speaks of its
one file or of no place, and the offsets of a span of a file give the span again, at the end of the
file too, as long as the end is a position.
-/

namespace ScriptLower

variable {specifier content : Bytes} {o : Options}

/-- An import whose name only an alias uses stays when the alias is dropped, and goes when the
output is run. -/
theorem dropped_alias_unstable :
    let r := checkRoundTrip "a.ts" "import \x7b a \x7d from 'm'; import b = a.c;" {}
    r.first.isOk = true ∧ r.first.code = "import \x7b a \x7d from 'm';\n" ∧
      r.second.any (fun x => x.isOk && x.code.isEmpty) = true ∧ r.stable = false := by
  decide +kernel

/-! ## Outputs put back -/

/-- The offsets of a span of a file give the span again. -/
theorem SourceFile.span_offset {f : SourceFile} {s : Span} (hfile : s.file = f.id)
    (hbase : f.base ≤ s.start)
    (horder : s.start ≤ s.stop) (hstop : s.stop ≤ f.stop) :
    f.span (f.offset s.start) (f.offset s.stop) = s := by
  unfold stop at hstop
  have hstart : f.base + f.offset s.start = s.start := by
    unfold offset
    omega
  have hend : f.base + f.offset s.stop = s.stop := by
    unfold offset
    omega
  rw [span, hstart, hend, ← hfile]

/-- What is shown of a diagnostic: all but its notes. -/
def Diagnostic.shown (d : Diagnostic) : Severity × Code × Bytes × Span :=
  (d.severity, d.code, d.message, d.primary)

/-- A warning that speaks of its one file, or of no place, is put back as it is shown. -/
theorem CachedWarning.restore_ofDiagnostic {path : Bytes} {d : Diagnostic}
    (hroom : FileSet.empty.hasRoom content.length = true)
    (hsize : content.length ≠ FileSet.uncheckedSize)
    (hspan : (FileSet.empty.add path content true).2.spans d.primary = true) :
    (restore (FileSet.empty.add path content true).2
      (ofDiagnostic (FileSet.empty.add path content true).1 d)).shown = d.shown := by
  have hadd : FileSet.empty.add? path content true = some
      ({ files := [FileSet.empty.fileFor path content true]
         next := (FileSet.behind 1 content.length).toNat },
           FileSet.empty.fileFor path content true) := by
    rw [FileSet.add?, FileSet.register?, if_pos hroom]
    rfl
  have hlaid := (FileSet.laid_empty [] []).add? hsize hadd
  suffices hplace : (restore (FileSet.empty.add path content true).2
      (ofDiagnostic (FileSet.empty.add path content true).1 d)).primary = d.primary by
    rw [Diagnostic.shown, hplace]
    rfl
  unfold restore ofDiagnostic
  rcases SourceFile.spans_iff.1 hspan with hnone | ⟨hfile, hbase, horder, hstop⟩
  · rw [hnone]
    rfl
  · have hfound : (FileSet.empty.add path content true).1.fileOf? d.primary.start =
        some (FileSet.empty.add path content true).2 :=
      hlaid.fileOf? (List.mem_singleton_self _) hbase (Nat.le_trans horder hstop)
    have hsome : ¬d.primary.isDummy = true := by
      have hone : 1 ≤ d.primary.start := hbase
      rw [Span.isDummy, beq_iff_eq]
      omega
    rw [if_neg hsome, hfound]
    exact SourceFile.span_offset hfile hbase horder hstop

/-- An output that is kept without its files, and put back behind its source, has the name, the
code, the map and the warnings that it had, each with its severity, code, message and place. The
source is one that is let in, and not of the size that the check of positions misses. -/
theorem kept_output_put_back (specifier content : Bytes) (o : Options)
    (hroom : FileSet.empty.hasRoom content.length = true)
    (hsize : content.length ≠ FileSet.uncheckedSize)
    (h : (transpileSource specifier content o).isOk = true) :
    let out := transpileSource specifier content o
    ∃ kept, CachedOutput.ofOutput? out = some kept ∧
      let back := kept.restore content
      back.specifier = out.specifier ∧ back.code = out.code ∧ back.map = out.map ∧
        back.diagnostics.map Diagnostic.shown = out.diagnostics.map Diagnostic.shown := by
  obtain ⟨x, hx, hout⟩ : ∃ x, (transpile specifier content o).result = .ok x ∧
      transpileSource specifier content o =
        { specifier := specifier, code := x.code, map := x.map, diagnostics := x.diagnostics
          files := x.files, inputBytes := content.length } := by
    unfold transpileSource FileOutput.ofRun at h ⊢
    cases hrun : (transpile specifier content o).result with
    | ok x => exact ⟨x, rfl, rfl⟩
    | error f =>
      rw [hrun] at h
      cases h
  obtain ⟨hfiles, hplaced⟩ := run_warns_in_file hx
  rw [hout, hfiles]
  refine ⟨_, rfl, rfl, rfl, rfl, ?_⟩
  simp only [CachedOutput.restore, List.map_map]
  exact List.map_congr_left fun d hd =>
    CachedWarning.restore_ofDiagnostic hroom hsize (hplaced d hd).2

/-- A pragma that is ignored in front, and a function that ends with its file. -/
theorem kept_async_put_back :
    let source : Bytes := "/** @jsxRuntime foo */ async () => 1"
    let out := transpileSource "a.tsx" source { target := .es2015 }
    out.diagnostics.map (·.primary) = [⟨0, 1, 23⟩, ⟨0, 24, 37⟩] ∧
      ∃ kept, CachedOutput.ofOutput? out = some kept ∧
        (kept.restore source).diagnostics.map Diagnostic.shown =
          out.diagnostics.map Diagnostic.shown := by
  intro source out
  obtain ⟨kept, hkept, -, -, -, hshown⟩ := kept_output_put_back "a.tsx"
    "/** @jsxRuntime foo */ async () => 1" { target := .es2015 } (by decide +kernel)
      (by decide +kernel)
    (by decide +kernel)
  exact ⟨by decide +kernel, kept, hkept, hshown⟩

end ScriptLower
