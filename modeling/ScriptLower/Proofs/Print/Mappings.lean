import Mathlib.Data.Nat.Init
import ScriptLower.Proofs.Print.Ends
import ScriptLower.Proofs.Print.Fitting
import ScriptLower.Proofs.Print.Words

/-!
# Where the entries of a map come from

A writer enters the end of its text into the map right before it writes a token. Whatever comes
between asking for the entry and the token (a semicolon that was held back, the blanks of a line, a
blank that keeps words apart, comments) only adds text, and the writer knows where its text ends. So
an entry stands where a token begins. The ends of a text that grows never go back, so no entry comes
out of order; and the place it comes from is that of a node, which lies in the file. All this is so
of a text whose ends are words: when the writer begins to count anew, an entry comes out of order.
-/

/-! ## Comments and ends of files -/

namespace ScriptLower.Print

open ScriptLower Writer

section

variable {s : State}

theorem extends_comment (s : State) (c : Comment) : s.writer.Extends (s.comment c).writer := by
  unfold State.comment
  split
  · exact .refl _
  · have hraw (t : Bytes) := (extends_newline s.writer).trans (extends_raw _ t)
    dsimp only [State.write]
    generalize (if s.asciiOnly then escapeText false c.text else c.text) = text
    refine (hraw text).trans ?_
    split
    · exact extends_forceNewline _
    · exact extends_newline _

theorem extends_comments (cs : List Comment) (s : State) :
    s.writer.Extends (cs.foldl State.comment s).writer := by
  induction cs generalizing s with
  | nil => exact .refl _
  | cons c cs ih => exact (extends_comment s c).trans (ih _)

theorem extends_leading (s : State) (pos : Nat) : s.writer.Extends (s.leading pos).writer := by
  unfold State.leading
  split
  · exact .refl _
  · exact extends_comments (s.comments.takeLeading pos).1
      { s with comments := (s.comments.takeLeading pos).2 }

theorem extends_dangling (s : State) (pos : Nat) : s.writer.Extends (s.dangling pos).writer := by
  unfold State.dangling
  split
  · exact .refl _
  · exact extends_comments (s.comments.takeDangling pos).1
      { s with comments := (s.comments.takeDangling pos).2 }

theorem extends_hashbang (s : State) : s.writer.Extends (hashbang s).writer := by
  unfold hashbang
  split
  · exact (extends_raw _ _).trans (extends_forceNewline _)
  · exact .refl _

theorem extends_finish (s : State) : s.writer.Extends (finish s).writer := by
  unfold finish
  split
  · exact .refl _
  · exact extends_newline _

end

/-! ## Tokens -/

/-- A token where it was written. -/
structure Begun where
  /-- The text in front of it. -/
  front : Bytes
  /-- The token. -/
  text : Bytes

/-- The token that a writer writes, unless it is empty. -/
def begin? (w : Writer) : Bytes → List Begun
  | [] => []
  | b :: s => [{ front := (w.flushSemi.startLine.separate b).text, text := b :: s }]

namespace State

/-- In front of the brace that closes a body. -/
def closing (s : State) : Writer := s.writer.pop.dropSemi.newline

/-- The token that printing a piece begins, if it begins one. -/
def begins (s : State) : Piece → List Begun
  | .token t => begin? s.writer t
  | .semi => if s.writer.minify then [] else begin? s.writer ";"
  | .emptyBody pos =>
    if s.hasDangling pos then begin? ((s.write (·.push.newline)).dangling pos).closing [0x7D]
    else begin? s.writer [0x7D]
  | _ => []

/-- The tokens that printing some pieces begins, in order. -/
def tokens (s : State) : Pieces → List Begun
  | [] => []
  | p :: ps => s.begins p ++ (s.step p).tokens ps

end State

/-- The tokens of a printed tree. -/
def tokensOf (root : Node) (comments : CommentTable) (o : Settings) : List Begun :=
  (hashbang { o.start with comments := comments }).tokens (programPieces o.asciiOnly root)

/-! ## Entries -/

/-- A map of a file whose entries stand at tokens, the latest not behind a place. -/
structure Entered (f : SourceFile) (bs : List Begun) (p : Nat × Nat) (sink : MapSink) : Prop where
  /-- It is the file's. -/
  file : sink.file = f
  /-- The latest entry stands at the place or before it. -/
  latest : ∀ m ∈ sink.latestFirst.head?, NotBefore (m.line, m.col) p
  /-- Each entry stands where a token begins. -/
  printed : ∀ m ∈ sink.latestFirst, ∃ b ∈ bs, (m.line, m.col) = endOf b.front
  /-- Each comes from a place in the file. -/
  source : ∀ m ∈ sink.latestFirst, ∃ off ≤ f.content.length,
    (m.sourceLine, m.sourceCol) = Lines.lineCol16 f.content off

/-- A text that is so short that its ends are words, whatever its bytes. -/
def Short (s : Bytes) : Prop := 2 * s.length < UInt32.size

/-- A writer that fills the map of a file, and has begun some tokens. -/
structure Mapped (f : SourceFile) (bs : List Begun) (w : Writer) : Prop where
  /-- The positions of the file are words. -/
  inWords : f.InWords
  /-- It knows where its text ends, in 32-bit words. -/
  stands : (w.line, w.col) = words (endOf w.text)
  /-- The tokens stand in its text. -/
  begun : ∀ b ∈ bs, b.text ≠ [] ∧ b.front ++ b.text <+: w.text
  /-- The place that the next token comes from is in the file. -/
  pending : ∀ span, w.pending = some span → span.isDummy = false ∧ f.holds span = true
  /-- There is a map. -/
  hasSink : w.sink.isSome = true
  /-- The entries stand at tokens. -/
  sink : Short w.text → ∃ sink, w.sink = some sink ∧ Entered f bs (endOf w.text) sink
  /-- No entry was refused. -/
  mapError : Short w.text → w.mapError = none

section

variable {f : SourceFile} {bs bs' : List Begun} {w w' : Writer} {sink : MapSink} {span : Span}
  {p q : Nat × Nat} {s : Bytes}

theorem Entered.later (h : Entered f bs p sink) (hq : NotBefore p q) : Entered f bs q sink :=
  { h with latest := fun m hm => (h.latest m hm).trans hq }

theorem Entered.more (h : Entered f bs p sink) (hbs : bs ⊆ bs') : Entered f bs' p sink :=
  { h with printed := fun m hm => (h.printed m hm).imp fun _ hb => ⟨hbs hb.1, hb.2⟩ }

theorem Short.of_append {t : Bytes} (h : Short (s ++ t)) : Short s := by
  unfold Short at *
  rw [List.length_append] at h
  omega

/-- The ends of a short text are words. -/
theorem Short.endOf (h : Short s) :
    (words (endOf s)).1.toNat = (endOf s).1 ∧ (words (endOf s)).2.toNat = (endOf s).2 := by
  unfold Short at h
  have hline : (Writer.endOf s).1 ≤ s.length := List.count_le_length
  have hcol : (Writer.endOf s).2 ≤ 2 * s.length := endOf_col_le s
  exact ⟨toNat_toUInt32 (by omega), toNat_toUInt32 (by omega)⟩

/-- Adding text leaves the entries where they are. -/
theorem Mapped.extends (h : Mapped f bs w) (hw : w.Extends w') : Mapped f bs w' := by
  obtain ⟨s, htext, hend⟩ := hw.text
  have hfront : Short w'.text → Short w.text := fun hshort => (htext ▸ hshort).of_append
  refine ⟨h.inWords, ?_, fun b hb => ?_, by rw [hw.pending]; exact h.pending, hw.sink ▸ h.hasSink,
    fun hshort => ?_, fun hshort => hw.mapError.trans (h.mapError (hfront hshort))⟩
  · rw [hend, h.stands, foldl_advance, htext]
  · obtain ⟨hne, hprefix⟩ := h.begun b hb
    exact ⟨hne, htext ▸ hprefix.trans (List.prefix_append _ _)⟩
  · obtain ⟨sink, hsink, hentered⟩ := h.sink (hfront hshort)
    exact ⟨sink, hw.sink.trans hsink, hentered.later (htext ▸ notBefore_endOf _ _)⟩

theorem Mapped.still (h : Mapped f bs w) (hw : w.Extends w') : Mapped f (bs ++ []) w' := by
  rw [List.append_nil]
  exact h.extends hw

/-- A map takes an entry at a place that is not before the latest one. -/
theorem Entered.add {line col : Nat} (hwords : f.InWords) (h : Entered f bs (line, col) sink)
    (hd : span.isDummy = false) (hspan : f.holds span = true) (s : Bytes)
    (hend : (line, col) = endOf s) (t : Bytes) :
    ∃ sink', sink.add line col span = .ok sink' ∧
      Entered f (bs ++ [{ front := s, text := t }]) (line, col) sink' := by
  have hmore := h.more (List.subset_append_left bs [{ front := s, text := t }])
  have hholds : sink.holds span = true := by
    rw [MapSink.holds, h.file, hwords.endWord]
    simpa [SourceFile.holds, hd] using hspan
  -- the entry stands at the token, and comes from an offset of the file
  have hentry : Entered f (bs ++ [{ front := s, text := t }]) (line, col)
      { sink with latestFirst := sink.entry line col span :: sink.latestFirst } := by
    refine ⟨h.file, ?_, ?_, ?_⟩
    · rintro m hm
      obtain rfl := Option.some.inj hm
      exact .refl _
    · refine List.forall_mem_cons.2 ⟨?_, hmore.printed⟩
      exact ⟨_, List.mem_append_right _ (List.mem_singleton_self _), hend⟩
    · refine List.forall_mem_cons.2 ⟨?_, h.source⟩
      exact ⟨f.offset span.start, Nat.min_le_right _ _, h.file ▸ rfl⟩
  unfold MapSink.add
  rw [if_neg (by simp [hd]), if_neg (by simp [hholds])]
  cases hlatest : sink.latestFirst with
  | nil => exact ⟨_, rfl, hlatest ▸ hentry⟩
  | cons last rest =>
    have hbefore : NotBefore (last.line, last.col) (line, col) :=
      h.latest last (by rw [hlatest]; rfl)
    dsimp only
    split
    · exact ⟨_, rfl, hmore⟩
    · have horder : ¬(line < last.line ∨ line = last.line ∧ col < last.col) := by
        unfold NotBefore at hbefore
        dsimp only at hbefore
        omega
      rw [if_neg (by simpa using horder)]
      exact ⟨_, rfl, hlatest ▸ hentry⟩

/-- Entering a place changes the map and what is asked for, and nothing else. -/
theorem place_eq (w : Writer) : ∃ sink pending mapError,
    w.place = { w with pending := pending, sink := sink, mapError := mapError } ∧
      (pending = none ∨ pending = w.pending) ∧ sink.isSome = w.sink.isSome := by
  unfold Writer.place
  split
  · rename_i span sink _ hsink
    dsimp only
    split
    · exact ⟨_, none, _, rfl, .inl rfl, by rw [hsink]; rfl⟩
    · exact ⟨_, none, _, rfl, .inl rfl, rfl⟩
  · exact ⟨w.sink, w.pending, w.mapError, rfl, .inr rfl, rfl⟩

/-- A token is entered where it begins, if an entry is asked for. -/
theorem Mapped.place (h : Mapped f bs w) (hshort : Short w.text) (s : Bytes) :
    ∃ sink, w.place.sink = some sink ∧ w.place.mapError = none ∧
      Entered f (bs ++ [{ front := w.text, text := s }]) (endOf w.text) sink := by
  obtain ⟨sink, hsink, hentered⟩ := h.sink hshort
  cases hpending : w.pending with
  | none =>
    have hplace : w.place = w := by rw [Writer.place, hpending]
    refine ⟨sink, ?_, ?_, hentered.more (List.subset_append_left _ _)⟩
    · rw [hplace, hsink]
    · rw [hplace, h.mapError hshort]
  | some span =>
    obtain ⟨hd, hspan⟩ := h.pending span hpending
    -- the words that the writer has are the end of its text
    have hline : w.line.toNat = (endOf w.text).1 :=
      (congrArg (·.1.toNat) h.stands).trans hshort.endOf.1
    have hcol : w.col.toNat = (endOf w.text).2 :=
      (congrArg (·.2.toNat) h.stands).trans hshort.endOf.2
    obtain ⟨sink', hadd, hentered'⟩ := Entered.add h.inWords hentered hd hspan w.text rfl s
    have hput : sink.add w.line.toNat w.col.toNat span = .ok sink' := by
      rw [hline, hcol]
      exact hadd
    have hplace : w.place = { w with pending := none, sink := some sink' } := by
      rw [Writer.place, hpending, hsink]
      dsimp only
      rw [hput]
    rw [hplace]
    exact ⟨sink', rfl, h.mapError hshort, hentered'⟩

theorem Mapped.put (h : Mapped f bs w) (hs : s ≠ []) :
    Mapped f (bs ++ [{ front := w.text, text := s }]) (w.place.append s) := by
  have hold := h.extends (extends_append w s)
  have hplaced := fun hshort : Short w.text => h.place hshort s
  obtain ⟨sink, pending, mapError, hplace, hpending, hsome⟩ := place_eq w
  rw [hplace] at hplaced ⊢
  have hfront : Short (w.append s).text → Short w.text := fun hshort =>
    (text_append w s ▸ hshort).of_append
  refine ⟨h.inWords, hold.stands, ?_, fun span hspan => ?_, hsome.trans h.hasSink, fun hshort => ?_,
    fun hshort => (hplaced (hfront hshort)).choose_spec.2.1⟩
  · rw [List.forall_mem_append, List.forall_mem_singleton]
    refine ⟨hold.begun, hs, ?_⟩
    rw [← text_append w s]
    exact List.prefix_rfl
  · rcases hpending with rfl | rfl
    · cases hspan
    · exact h.pending span hspan
  · obtain ⟨sink', hsink, -, hentered⟩ := hplaced (hfront hshort)
    refine ⟨sink', hsink, hentered.later ?_⟩
    show NotBefore _ (endOf (w.append s).text)
    exact text_append w s ▸ notBefore_endOf _ _

theorem Mapped.token (h : Mapped f bs w) (s : Bytes) :
    Mapped f (bs ++ begin? w s) (w.token s) := by
  cases s with
  | nil => simpa [begin?, Writer.token] using h
  | cons b s =>
    have hahead := (extends_flushSemi w).trans (extends_startLine _) |>.trans (extends_separate _ b)
    exact (h.extends hahead).put (List.cons_ne_nil b s)

/-- What is asked for is a place in the file. -/
theorem Mapped.map (h : Mapped f bs w) (hspan : f.holds span = true) :
    Mapped f bs (w.map span) := by
  unfold Writer.map
  split
  · exact h
  · rename_i hskip
    have hplace : ¬w.sink = none ∧ span.isDummy = false := by simpa using hskip
    refine { h with pending := ?_ }
    rintro _ ⟨⟩
    exact ⟨hplace.2, hspan⟩

/-- Printing a piece enters no place but where it begins a token. -/
theorem Mapped.step {st : State} {p : Piece} (h : Mapped f bs st.writer) (hp : p.isClear f = true) :
    Mapped f (bs ++ st.begins p) (st.step p).writer := by
  cases p with
  | token t => exact h.token t
  | semi =>
    show Mapped f _ st.writer.semi
    unfold Writer.semi
    split
    · rename_i hmin
      rw [State.begins, if_pos hmin, List.append_nil]
      exact h.extends ((extends_flushSemi _).trans (extends_same _ _ _ true))
    · rename_i hmin
      rw [State.begins, if_neg hmin]
      exact h.token _
  | emptyBody pos =>
    rw [State.begins, State.step]
    split
    · have hclosing : st.writer.Extends
          ((st.write (·.push.newline)).dangling pos).closing := by
        have hopen : st.writer.Extends (st.write (·.push.newline)).writer :=
          (extends_same _ _ _ _).trans (extends_newline _)
        exact (hopen.trans (extends_dangling _ pos)).trans
          ((extends_same _ _ _ false).trans (extends_newline _))
      exact (h.extends hclosing).token _
    · exact h.token _
  | map span =>
    show Mapped f (bs ++ []) _
    rw [List.append_nil]
    exact h.map hp
  | fault d => cases hp
  | raw t => exact h.still (extends_raw _ _)
  | space => exact h.still (extends_space _)
  | newline => exact h.still (extends_newline _)
  | dropSemi => exact h.still (extends_same _ _ _ false)
  | push => exact h.still (extends_same _ _ _ _)
  | pop => exact h.still (extends_same _ _ _ _)
  | leading pos => exact h.still (extends_leading _ _)
  | dangling pos => exact h.still (extends_dangling _ _)

theorem Mapped.run {st : State} {ps : Pieces} (h : Mapped f bs st.writer) (hps : Clear f ps) :
    Mapped f (bs ++ st.tokens ps) (st.run ps).writer := by
  induction ps generalizing st bs with
  | nil => exact h.still (.refl _)
  | cons p ps ih =>
    obtain ⟨hp, hps⟩ := clear_cons.1 hps
    rw [State.tokens, ← List.append_assoc]
    exact ih (h.step hp) hps

end

/-- The state in which a tree has been printed. -/
def printed (root : Node) (comments : CommentTable) (o : Settings) : State :=
  finish ((hashbang { o.start with comments := comments }).run (programPieces o.asciiOnly root))

section

variable {f : SourceFile} {root : Node} {comments : CommentTable} {o : Settings}

theorem printTree_eq (hk : root.kind = .program)
    (hsound : ∀ p ∈ programPieces o.asciiOnly root, p.isFailure = false) :
    printTree root comments o =
      let s := printed root comments o
      let reports := s.reports ++ (s.writer.mapError.map mapDiagnostic).toList
        ++ checkOutput o.asciiOnly s.writer.text
      { code := if reports.isEmpty then some s.writer.text else none, reports := reports
        sink := s.writer.sink } := by
  unfold printTree
  rw [if_neg (by simp [hk])]
  dsimp only
  rw [List.findIdx?_eq_none_iff.2 hsound]
  rfl

theorem code_printed {text : Bytes} (hk : root.kind = .program)
    (h : (printTree root comments o).code = some text) :
    text = (printed root comments o).writer.text := by
  rw [printTree_eq hk (sound_of_code h)] at h
  dsimp only at h
  split at h
  · exact (Option.some.inj h).symm
  · cases h

/-- Printing a program that fits leaves a map of its file. -/
theorem mapped_printed (hwords : f.InWords) (hroot : FitsAsProgram (.lowered f) root)
    (comments : CommentTable) (ho : o.sink = some { file := f }) :
    Mapped f (tokensOf root comments o) (printed root comments o).writer := by
  have hstart : Mapped f [] o.start.writer :=
    ⟨hwords, rfl, List.forall_mem_nil _, (fun _ h => nomatch h), Option.isSome_of_mem ho, fun _ =>
      ⟨_, ho, rfl, (fun _ h => nomatch h), List.forall_mem_nil _, List.forall_mem_nil _⟩,
        fun _ => rfl⟩
  have hhead := hstart.extends (extends_hashbang { o.start with comments := comments })
  exact (hhead.run (clear_programPieces hroot _)).extends (extends_finish _)

/-- The map of a program that fits and whose text is short takes every entry, and nothing is
reported but a text that is no good. -/
theorem reports_mapped (hwords : f.InWords) (hroot : FitsAsProgram (.lowered f) root)
    (ho : o.sink = some { file := f })
    (hshort : Short (printed root comments o).writer.text) :
    ∀ d ∈ (printTree root comments o).reports, d.code = .badOutput := by
  have hfaults := faults_of_clear (clear_programPieces hroot o.asciiOnly)
  have hreports : (printed root comments o).reports = [] := by
    rw [printed, reports_finish, State.reports_run, reports_hashbang, hfaults]
    rfl
  rw [printTree_eq hroot.kind (sound_of_faultless hfaults)]
  dsimp only
  rw [hreports, (mapped_printed hwords hroot comments ho).mapError hshort]
  exact code_checkOutput _ _

end

end ScriptLower.Print
