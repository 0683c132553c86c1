import ScriptLower.Proofs.Parse.Silence
import ScriptLower.Proofs.Parse.StatementForms
import ScriptLower.Report.Listing

/-!
# The spans of a parsed file

Every node of a parsed file names no place or one inside the file, because the tree grows in the
file. That the program covers its statements is a matter of order. The program begins at the first
token of the file, and nothing that is consumed later begins in front of that token, not even behind
an error that is passed over in silence.

Position zero names no place, and the end of a file is computed in 32-bit words. So the positions of
a file have to be words that are not zero, which those of a registered file are, unless it has the
size that the check of positions misses.
-/

namespace ScriptLower

/-! ## Spans between two positions -/

/-- A span names no place, or one between the two positions. -/
def Span.Within (lo hi : Nat) (s : Span) : Prop := s.isDummy = true ∨ lo ≤ s.start ∧ s.stop ≤ hi

section

variable {lo hi : Nat} {s t : Span}

theorem Span.Within.cover (hs : s.Within lo hi) (ht : t.Within lo hi) :
    (s.cover t).Within lo hi := by
  unfold Span.cover
  split
  · exact hs
  · split
    · exact ht
    · split
      · exact hs
      · rename_i hdt hds _
        obtain ⟨hsl, hsh⟩ := hs.resolve_left hds
        obtain ⟨htl, hth⟩ := ht.resolve_left hdt
        exact .inr ⟨Nat.le_min.2 ⟨hsl, htl⟩, Nat.max_le.2 ⟨hsh, hth⟩⟩

theorem Span.Within.coverAll {ns : List Node} (hns : ∀ n ∈ ns, n.span.Within lo hi)
    (hs : s.Within lo hi) : (ns.foldl (fun s n => s.cover n.span) s).Within lo hi := by
  induction ns generalizing s with
  | nil => exact hs
  | cons n r ih =>
    obtain ⟨hn, hr⟩ := List.forall_mem_cons.1 hns
    exact ih hr (hs.cover hn)

end

end ScriptLower

namespace ScriptLower.Parse

open ScriptLower

/-! ## Behind the first token -/

/-- The parse stands behind the place `p` of the file: neither the last token consumed nor the one
in front begins before it. -/
structure State.Past (f : SourceFile) (p : Nat) (s : State) : Prop extends s.At f where
  /-- The token in front begins at the place or behind it. -/
  ahead : p ≤ s.front.span.start
  /-- The last token, if there is one, lies between the place and the end of the file. -/
  last : s.lastSpan.Within p f.stop

section

variable {f : SourceFile} {s t u : State} {p depth : Nat} {top : Bool} {n : Node}

theorem State.Past.along (hs : s.Past f p) (h : Passes p s t) : t.Past f p where
  sound := h.sound
  file := h.file.trans hs.file
  ahead := h.ahead
  last := by
    have hspan : f.spans t.lastSpan = true := State.At.last ⟨h.sound, h.file.trans hs.file⟩
    rcases h.last with heq | hp
    · rw [heq]
      exact hs.last
    · rcases SourceFile.spans_iff.1 hspan with hd | ⟨-, -, -, hstop⟩
      · exact .inl (by rw [hd]; rfl)
      · exact .inr ⟨hp, hstop⟩

theorem State.Past.front (hs : s.Past f p) : s.front.span.Within p f.stop :=
  .inr ⟨hs.ahead, hs.file ▸ hs.sound.reads.stands.stop_le⟩

theorem State.Past.peeked (hs : s.Past f p) : s.peeked.Past f p :=
  hs.along ((passes_peeked hs.sound).of_le hs.ahead)

/-- What stretches from a token behind the place up to here lies behind the place. -/
theorem State.Past.stretch {k : Know} {tok : Token} (ht : t.Past f p) (hk : k.Fits t)
    (htok : tok.span.Within p f.stop) (h : Stretches tok n k) : n.span.Within p f.stop := by
  obtain ⟨-, sp, hsp, hspan⟩ := h
  rw [hspan, ← hk.last sp hsp]
  exact htok.cover ht.last

/-- Decorators stand in front of a class or an export. The class begins at the first of them and the
export at its own word, both behind the place. -/
theorem State.Past.decorated {tok : Token} (hs : s.Past f p) (htok : tok.span.Within p f.stop)
    (h : parseDecorated (rules depth) tok s = .ok n t) : n.span.Within p f.stop := by
  obtain ⟨decos, u, hdecos, h⟩ := Parser.of_bind_ok h
  have hk : Know.Placed p { rank := 6 } s :=
    .blank rfl (by simp) (by rintro (hb | hb) <;> simp [partsPerToken] at hb)
  have hobeys : Obeys (rules depth) false { rank := 6 } (parseDecorators (rules depth)) _ :=
    parseDecorators_obeys
  have hpass := hobeys.passes (rules_framed depth) (rules_pass depth) hs.sound hs.ahead hk
  rw [hdecos] at hpass
  have hu := hs.along hpass.1
  have hpeek := hu.peeked
  -- what follows the decorators is read from the token in front
  have hends {m : Know} {start : Token} {q : Parser Node}
      (hq : Obeys (rules depth) false { rank := 6, next := .is u.front } q (Spans m start))
      (hstart : start.span.Within p f.stop) (hrun : q u.peeked = .ok n t) :
        n.span.Within p f.stop := by
    have hpass := hq.passes (rules_framed depth) (rules_pass depth) hpeek.sound
      (passes_peeked hu.sound).ahead (placed_peeked u 6 (by decide))
    rw [hrun] at hpass
    obtain ⟨hpass, k, hspans, hk⟩ := hpass
    exact (hpeek.along (hpass.of_le hu.ahead)).stretch hk.toFits hstart hspans.2
  rw [Parser.bind_ok (at_eq _ _)] at h
  split at h
  · rename_i hexport
    exact hends (parseExport_spans rfl (by rw [beq_iff_eq.1 hexport]; simp)) hu.front h
  · exact hends parseDecoratedClass_spans htok h

/-- A statement that is read behind the place lies behind it. -/
theorem State.Past.statement (hs : s.Past f p)
    (h : rules depth (.statement top) s.peeked = .ok n t) :
    t.Past f p ∧ n.span.Within p f.stop := by
  obtain ⟨hpass, k, hstands, hk⟩ := statement_stands hs.sound h
  have ht := hs.along (hpass.of_le hs.ahead)
  refine ⟨ht, ?_⟩
  rcases hstands with hstretch | ⟨-, -, hspan⟩ | ⟨hat, -⟩
  · exact ht.stretch hk.toFits hs.front hstretch
  · rw [hspan]
    exact hs.front
  · cases depth with
    | zero => cases h
    | succ d =>
      -- the statement is the decorated one
      have hrun :
          (peek >>= fun tok => addLeading tok >>= fun _ => parseStatementFrom (rules d) top tok)
          s.peeked = .ok n t := h
      rw [Parser.bind_ok (peek_peeked s)] at hrun
      obtain ⟨⟨⟩, u, hlead, hrun⟩ := Parser.of_bind_ok hrun
      have hstays := addLeading_stays s.front s.peeked
      rw [hlead] at hstays
      have hpeek := hs.peeked
      have hu := hpeek.along (.of_reading hpeek.sound hpeek.ahead hstays.1 hstays.2)
      unfold parseStatementFrom at hrun
      rw [hat] at hrun
      exact hu.decorated hs.front hrun

/-- So do all statements of a list, whatever is passed over between them. -/
theorem Rounds.past {ends closes : Token → Bool} {rs : List Round}
    (hclose : ∀ u v, closes u = false → Reread u v → u.kind ≠ .eof ∧ ends v = false)
    (h : Rounds (rules depth (.statement top)) ends closes s rs t) (hs : s.Past f p) :
    t.Past f p ∧ ∀ n ∈ Round.nodes rs, n.span.Within p f.stop := by
  induction h with
  | done => exact ⟨hs.peeked, by simp⟩
  | read _ hrun _ ih =>
    obtain ⟨ht, hn⟩ := hs.statement hrun
    obtain ⟨hend, hall⟩ := ih ht
    exact ⟨hend, List.forall_mem_cons.2 ⟨hn, hall⟩⟩
  | passed hc hfail hrec _ ih =>
    have hround := (recovery_runs hs.sound (hclose _ _ hc (.refl _)).1
      (fun v hv => (hclose _ v hc hv).2) hfail hrec).1
    exact ih (hs.along (hround.toPasses.of_le hs.ahead))

end

/-! ## A whole file -/

/-- The list of the statements of a file begins at its first token. -/
theorem listStart_past (file : SourceFile) (o : Options) :
    (listStart file o).Past file (initial file o).front.span.start := by
  have hsound := initial_sound file o
  have hpass := passes_peeked hsound
  have hinit : (initial file o).Past file (initial file o).front.span.start :=
    ⟨⟨hsound, rfl⟩, Nat.le_refl _, .inl rfl⟩
  exact (hinit.along hpass).along (.of_reading hpass.sound hpass.ahead rfl (Nat.le_refl _))

/-- The program that a file is read into stretches from the first token to the end of the file, and
its statements lie there. -/
theorem parseFile_covers {file : SourceFile} {o : Options} {root : Node} (hbase : 0 < file.base)
    (h : (parseFile file o).tree = some root) :
    root.span.stop = file.stop ∧ ∀ n ∈ root.kids, n.span.Within root.span.start file.stop := by
  obtain ⟨t, hrun, -⟩ := parseFile_ran h
  obtain ⟨rs, u, hrounds, hkids, hspan, -, -⟩ := program_rounds hrun
  obtain ⟨hu, hall⟩ := hrounds.past eof_closes (listStart_past file o)
  have hfirst := (initial_sound file o).reads.stands
  have hend := hu.sound.reads.stands
  rw [hu.file] at hend
  obtain ⟨tok, hheld, hclosed⟩ := hrounds.ends_closed
  have hkind : u.front.kind = .eof := by simpa [State.front_of_held hheld] using hclosed
  have hstop : u.front.span.start = file.stop :=
    start_eq_stop_of_nil hend (hend.heads.eof.1 hkind)
  have hle : (initial file o).front.span.start ≤ (initial file o).front.span.stop := hfirst.ordered
  have hin : (initial file o).front.span.stop ≤ file.stop := hfirst.stop_le
  have hpos : file.base ≤ (initial file o).front.span.start := hfirst.base_le
  have hcover : (initial file o).front.span.cover u.front.span =
      { (initial file o).front.span with stop := file.stop } := by
    have hord := hend.ordered
    have hst := hend.stop_le
    have hlast : u.front.span.stop = file.stop := by omega
    have hfile : (initial file o).front.span.file = u.front.span.file :=
      hfirst.file.trans hend.file.symm
    have hd (s : Span) (hs : file.base ≤ s.start) : ¬s.isDummy = true := by
      simp only [Span.isDummy, beq_iff_eq]
      omega
    rw [Span.cover, if_neg (hd _ hend.base_le), if_neg (hd _ hpos), if_neg (by simp [hfile]),
      Nat.min_eq_left (by omega), Nat.max_eq_right (by omega), hlast]
  rw [hspan, hcover]
  refine ⟨rfl, fun n hn => hall n ?_⟩
  rw [hkids] at hn
  exact (List.mem_filter.1 hn).1

/-- The tree of a registered file has well-formed spans: every node stands inside the file and does
not end before it starts, and the program covers its statements. None of the registered texts may
have the size that the check of positions misses. -/
theorem parsed_spans_wellFormed {baseDir workDir : Bytes} {texts : List FileSet.Text} {fs : FileSet}
    (hadd : ({ baseDir, workDir } : FileSet).addAll? texts = some fs)
    (hsizes : ∀ t ∈ texts, t.content.length ≠ FileSet.uncheckedSize)
    {file : SourceFile} (hfile : file ∈ fs.files) (o : Options) (root : Node)
    (h : (parseFile file o).tree = some root) : root.spansWellFormed file = true := by
  have hwords : file.InWords :=
    ((FileSet.laid_empty baseDir workDir).addAll? hsizes hadd).inWords hfile
  obtain ⟨hgrown, hkind⟩ := parseFile_grown h
  obtain ⟨hstop, hkids⟩ := parseFile_covers hwords.begins h
  have hpresent : root.isPresent = true := by
    cases root with
    | absent => cases hkind
    | mk => rfl
  have hnodes : ∀ n ∈ root.walk, (n.span.isDummy || (n.span.start ≤ n.span.stop &&
      file.base ≤ n.span.start && n.span.stop ≤ file.endWord.toNat && n.span.file == file.id)) =
        true := by
    intro n hn
    rcases SourceFile.spans_iff.1 (Grown.walk root hgrown n hn).span with hd | ⟨hf, hb, ho, hs⟩
    · simp [hd, Span.isDummy]
    · simp [hf, hb, ho, hs, hwords.endWord]
  have hunion := Span.Within.coverAll (s := Span.none) hkids (.inl rfl)
  simp only [Node.spansWellFormed, hpresent, Bool.true_and, Bool.and_eq_true, List.all_eq_true]
  refine ⟨hnodes, ?_⟩
  rcases hunion with hd | ⟨hlo, hhi⟩
  · simp [hd]
  · simp [hlo, hstop, hhi]

/-- In a file that stands behind another, with an export that begins in front of its own word. -/
theorem parsed_spans_wellFormed_second :
    let texts : List FileSet.Text :=
      [⟨"m.ts", "let n;", true⟩,
        ⟨"a.ts", "@d export class C<T> \x7b\x7d let a: A<B<c>> = /=/;", true⟩]
    let o : Options := { grammar := { dialect := .ts, decorators := true } }
    ∃ fs file root, FileSet.empty.addAll? texts = some fs ∧ fs.files[1]? = some file ∧
      (parseFile file o).tree = some root ∧ root.spansWellFormed file = true := by
  intro texts o
  have hrun : ∃ fs ∈ FileSet.empty.addAll? texts, ∃ file ∈ fs.files[1]?,
      (parseFile file o).tree.isSome = true := by
    decide +kernel
  obtain ⟨fs, hadd, file, hfile, hparsed⟩ := hrun
  obtain ⟨root, hroot⟩ := Option.isSome_iff_exists.1 hparsed
  exact ⟨fs, file, root, hadd, hfile, hroot,
    parsed_spans_wellFormed hadd (by decide +kernel) (List.mem_of_getElem? hfile) o root hroot⟩

end ScriptLower.Parse
