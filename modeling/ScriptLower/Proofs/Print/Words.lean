import ScriptLower.Lower.Program
import ScriptLower.Parse.Program
import ScriptLower.Proofs.Print.Ends
import ScriptLower.Proofs.Print.Layouts
import ScriptLower.Proofs.Print.Seams

/-!
# The words of a text, minified or not

Both texts of a tree are written from the same pieces, so they hold the same words in the same
order. They differ in the blanks between the words, and in semicolons in front of a closing brace or
at the end, which the minified text leaves out.

In either text a word is kept apart from what follows it whenever the last byte of the one and the
first byte of the other would run together. That is enough for names, numbers and regular
expressions that end in a byte of a name, and for strings: these are read in the text as they are
read alone. It is not enough for a regular expression without flags in front of a name.
-/

namespace ScriptLower.Print

open ScriptLower Lexeme

/-! ## Words -/

/-- What a piece leaves in a text. -/
inductive Item
  /-- A place for blanks and line ends. -/
  | gap
  /-- A token. -/
  | token (s : Bytes)
  /-- A part of a template. -/
  | raw (s : Bytes)
  deriving DecidableEq

/-- The closing brace. -/
def Item.brace : Item := .token [0x7D]

/-- The semicolon. -/
def Item.semi : Item := .token [59]

/-- What a piece leaves in a text that is not minified. -/
def Piece.shown : Piece → List Item
  | .token [] => []
  | .token (b :: s) => [.token (b :: s)]
  | .raw s => [.raw s]
  | .space | .newline => [.gap]
  | .semi => [.semi]
  | .emptyBody _ => [.brace]
  | _ => []

/-- What pieces leave in a text that is not minified. -/
def shown (ps : Pieces) : List Item := ps.flatMap Piece.shown

/-- What a piece leaves in a minified text when a semicolon is held back or not, and whether one is
held back behind it. -/
def Piece.kept (held : Bool) : Piece → List Item × Bool
  | .token [] => ([], held)
  | .token (b :: s) => ((if held then [Item.semi] else []) ++ [Item.token (b :: s)], false)
  | .raw s => ((if held then [Item.semi] else []) ++ [Item.raw s], false)
  | .emptyBody _ => ((if held then [Item.semi] else []) ++ [Item.brace], false)
  | .semi => (if held then [.semi] else [], true)
  | .dropSemi => ([], false)
  | _ => ([], held)

/-- What pieces leave in a minified text. -/
def kept : Bool → Pieces → List Item
  | _, [] => []
  | held, p :: ps => (p.kept held).1 ++ kept (p.kept held).2 ps

/-- Items without the gaps. -/
def solid (is : List Item) : List Item := is.filter (· != .gap)

/-- A text holds items in order. Blanks and line ends stand at gaps, and single blanks in front of
tokens; each token is kept apart from what follows it and read as it is read alone. -/
inductive Written (strict : Bool) : List Item → Bytes → Prop
  | nil : Written strict [] []
  | gap {is : List Item} {t : Bytes} (h : Written strict is t) : Written strict (.gap :: is) t
  | blank {is : List Item} {t : Bytes} {b : UInt8} (hb : b = 32 ∨ b = 10)
      (h : Written strict (.gap :: is) t) : Written strict (.gap :: is) (b :: t)
  | apart {w : Bytes} {is : List Item} {t : Bytes} (h : Written strict (.token w :: is) t) :
      Written strict (.token w :: is) (32 :: t)
  | token {w : Bytes} {is : List Item} {t : Bytes} (hread : ReadAlike strict w t)
      (h : Written strict is t) : Written strict (.token w :: is) (w ++ t)
  | raw {s : Bytes} {is : List Item} {t : Bytes} (h : Written strict is t) :
      Written strict (.raw s :: is) (s ++ t)

/-- Items without some semicolons: those are missing that stand in front of a closing brace or at
the end. -/
inductive Thinned : List Item → List Item → Prop
  | nil : Thinned [] []
  | keep {is ms : List Item} (i : Item) (h : Thinned is ms) : Thinned (i :: is) (i :: ms)
  | drop {is ms : List Item} (h : Thinned (.brace :: is) ms) : Thinned (.semi :: .brace :: is) ms
  | last : Thinned [.semi] []

/-! ## Semicolons -/

section

variable {inside : Bool} {p : Piece} {ps : Pieces}

/-- What is missing in a minified text are semicolons in front of a brace and at the end; a
semicolon that is held back counts as one still to come. -/
theorem Orderly.thinned (h : Orderly inside ps) :
    Thinned (solid (shown ps)) (kept false ps) ∧
      Thinned (.semi :: solid (shown ps)) (kept true ps) := by
  induction h with
  | nil => exact ⟨.nil, .last⟩
  | plain hp h ih =>
    rename_i p ps
    cases p with
    | token s =>
      cases s with
      | nil => exact ih
      | cons b s => exact ⟨.keep _ ih.1, .keep _ (.keep _ ih.1)⟩
    | emptyBody pos => exact ⟨.keep _ ih.1, .keep _ (.keep _ ih.1)⟩
    | semi => exact ⟨ih.2, .keep _ ih.2⟩
    | raw s => cases hp
    | dropSemi => cases hp
    | fault d => cases hp
    | _ => exact ih
  | raw hs h ih => exact ⟨.keep _ ih.1, .keep _ (.keep _ ih.1)⟩
  | fault hc span message h ih => exact ih
  | close h ih => exact ⟨.keep _ ih.1, .drop (.keep _ ih.1)⟩
  | last => exact ⟨.nil, .last⟩

/-- Whether text of a template goes on behind a piece. -/
def Piece.opensText : Piece → Bool
  | .raw _ => true
  | p => p == .token [96]

/-- Whether a piece may stand where text of a template goes on or does not. -/
def Piece.fits (inside : Bool) : Piece → Bool
  | .raw s => inside || s == [0x7D]
  | _ => true

/-- Whether all pieces stand where they may. -/
def allFit : Bool → Pieces → Bool
  | _, [] => true
  | inside, p :: ps => p.fits inside && allFit p.opensText ps

theorem Orderly.allFit (h : Orderly inside ps) : allFit inside ps = true := by
  induction h with
  | nil => rfl
  | plain hp h ih =>
    rename_i p ps
    cases p with
    | raw s => cases hp
    | _ => exact ih
  | raw hs h ih =>
    exact Bool.and_eq_true_iff.2 ⟨Bool.or_eq_true_iff.2 (hs.imp_right beq_iff_eq.2), ih⟩
  | fault hc span message h ih => exact ih
  | close h ih => exact ih
  | last => rfl

end

/-! ## Keeping apart -/

section

variable {strict : Bool} {a b : UInt8} {r s t w : Bytes} {is : List Item}

/-- A byte that runs together with nothing. -/
def isLoner (b : UInt8) : Bool := [32, 10, 59, 0x7D, 96].contains b

theorem runTogether_loner (h : isLoner b = true) : Writer.runTogether a b = false := by
  have hloners : ∀ b ∈ ([32, 10, 59, 0x7D, 96] : List UInt8), Writer.isWordByte b = false ∧
      b ≠ ascii '+' ∧ b ≠ ascii '-' ∧ b ≠ ascii '/' := by decide +kernel
  obtain ⟨hword, hplus, hminus, hslash⟩ := hloners b (List.contains_iff_mem.1 h)
  simp [Writer.runTogether, hword, hplus, hminus, hslash]

theorem runTogether_comm : Writer.runTogether a b = Writer.runTogether b a := by
  unfold Writer.runTogether
  rw [Bool.and_comm (Writer.isWordByte a)]
  by_cases h : a = b
  · rw [h]
  · rw [beq_eq_false_iff_ne.2 h, beq_eq_false_iff_ne.2 (Ne.symm h), Bool.false_and, Bool.false_and]

theorem keptApart_nil : KeptApart w [] := fun _ _ _ h => nomatch h

/-- A loner may follow anything. -/
theorem keptApart_cons (h : isLoner b = true) : KeptApart w (b :: r) :=
  fun _ _ _ hc => Option.some.inj hc ▸ runTogether_loner h

/-- Anything may follow a loner. -/
theorem keptApart_singleton (h : isLoner b = true) : KeptApart [b] r := by
  intro a ha c _
  rw [runTogether_comm, ← Option.some.inj ha]
  exact runTogether_loner h

/-- What is kept apart from a text is kept apart from its last word. -/
theorem keptApart_of_append (h : KeptApart (t ++ w) r) : KeptApart w r := by
  intro a ha
  refine h a ?_
  rw [List.getLast?_append, ha]
  rfl

theorem Written.blanks (hs : ∀ b ∈ s, b = 32 ∨ b = 10) (h : Written strict (.gap :: is) t) :
    Written strict (.gap :: is) (s ++ t) := by
  induction s with
  | nil => exact h
  | cons b s ih =>
    exact .blank (hs b List.mem_cons_self) (ih fun c hc => hs c (List.mem_cons_of_mem _ hc))

end

end ScriptLower.Print

/-! ## The writer -/

namespace ScriptLower.Writer

open ScriptLower Lexeme

section

variable {w : Writer} {b : UInt8} {s : Bytes}

/-- The semicolon that is held back. -/
def due (w : Writer) : Bytes := if w.heldSemi then [59] else []

theorem text_flushSemi : w.flushSemi.text = w.text ++ w.due := by
  unfold flushSemi due
  split
  · exact text_append _ _
  · exact (List.append_nil _).symm

theorem flushSemi_flags : w.flushSemi.minify = w.minify ∧ w.flushSemi.atLineStart = w.atLineStart ∧
    w.flushSemi.heldSemi = false := by
  unfold flushSemi
  split
  · exact ⟨rfl, rfl, rfl⟩
  · rename_i h
    exact ⟨rfl, rfl, Bool.eq_false_iff.2 h⟩

/-- The blanks at the head of a line that is to be begun. -/
def indentation (w : Writer) : Bytes :=
  if w.atLineStart && !w.minify then List.replicate (w.level * w.indent) 32 else []

theorem text_startLine : w.startLine.text = w.text ++ w.indentation := by
  unfold startLine indentation
  cases w.atLineStart with
  | false => exact (List.append_nil _).symm
  | true =>
    cases w.minify with
    | false => exact text_append _ _
    | true => exact (List.append_nil _).symm

theorem startLine_flags : w.startLine.minify = w.minify ∧ w.startLine.atLineStart = false ∧
    w.startLine.heldSemi = w.heldSemi := by
  unfold startLine
  split
  · rename_i h
    exact ⟨rfl, by simpa using h, rfl⟩
  · dsimp only
    split <;> exact ⟨rfl, rfl, rfl⟩

theorem text_place : w.place.text = w.text := by
  unfold place
  split
  · dsimp only
    split <;> rfl
  · rfl

theorem place_flags : w.place.minify = w.minify ∧ w.place.atLineStart = w.atLineStart ∧
    w.place.heldSemi = w.heldSemi := by
  unfold place
  split
  · dsimp only
    split <;> exact ⟨rfl, rfl, rfl⟩
  · exact ⟨rfl, rfl, rfl⟩

theorem separate_flags : (w.separate b).minify = w.minify ∧
    (w.separate b).atLineStart = w.atLineStart ∧ (w.separate b).heldSemi = w.heldSemi := by
  unfold separate
  split
  · split <;> exact ⟨rfl, rfl, rfl⟩
  · exact ⟨rfl, rfl, rfl⟩

/-- A blank keeps a token apart from the text, unless it is apart without one. -/
theorem text_separate : (w.separate b).text = w.text ++ [32] ∨
    (w.separate b).text = w.text ∧ KeptApart w.text (b :: s) := by
  unfold separate
  split
  · rename_i last rest hrev
    split
    · exact .inl (text_append _ _)
    · rename_i hrun
      refine .inr ⟨rfl, fun a ha c hc => ?_⟩
      rw [text, hrev, List.reverse_cons, List.getLast?_concat] at ha
      rw [← Option.some.inj ha, ← Option.some.inj hc]
      exact Bool.eq_false_iff.2 hrun
  · rename_i hrev
    refine .inr ⟨rfl, fun a ha => ?_⟩
    rw [text, hrev] at ha
    cases ha

/-- A token is written behind the semicolon that is due, the blanks of its line, and a blank that
keeps it apart where one is needed. -/
theorem text_token (w : Writer) (b : UInt8) (s : Bytes) : ∃ sep : Bytes,
    (sep = [32] ∨ sep = [] ∧ KeptApart (w.text ++ w.due ++ w.flushSemi.indentation) (b :: s)) ∧
      (w.token (b :: s)).text =
        w.text ++ w.due ++ w.flushSemi.indentation ++ (sep ++ (b :: s)) := by
  have hstart : w.flushSemi.startLine.text = w.text ++ w.due ++ w.flushSemi.indentation := by
    rw [text_startLine, text_flushSemi]
  have htoken : (w.token (b :: s)).text = (w.flushSemi.startLine.separate b).text ++ (b :: s) := by
    unfold token
    rw [text_append, text_place]
  rcases text_separate (w := w.flushSemi.startLine) (b := b) (s := s) with h | ⟨h, hapart⟩
  · refine ⟨[32], .inl rfl, ?_⟩
    rw [htoken, h, hstart, List.append_assoc _ [32]]
  · refine ⟨[], .inr ⟨rfl, hstart ▸ hapart⟩, ?_⟩
    rw [htoken, h, hstart, List.nil_append]

theorem token_flags (w : Writer) (b : UInt8) (s : Bytes) : (w.token (b :: s)).minify = w.minify ∧
    (w.token (b :: s)).atLineStart = false ∧ (w.token (b :: s)).heldSemi = false := by
  obtain ⟨hm, hl, hh⟩ := place_flags (w := w.flushSemi.startLine.separate b)
  obtain ⟨hm₁, hl₁, hh₁⟩ := separate_flags (w := w.flushSemi.startLine) (b := b)
  obtain ⟨hm₂, hl₂, hh₂⟩ := startLine_flags (w := w.flushSemi)
  obtain ⟨hm₃, -, hh₃⟩ := flushSemi_flags (w := w)
  exact ⟨hm.trans (hm₁.trans (hm₂.trans hm₃)), hl.trans (hl₁.trans hl₂),
    hh.trans (hh₁.trans (hh₂.trans hh₃))⟩

theorem text_raw (w : Writer) (s : Bytes) :
    (w.raw s).text = w.text ++ w.due ++ w.flushSemi.indentation ++ s := by
  rw [raw, text_append, text_startLine, text_flushSemi]

theorem raw_flags (w : Writer) (s : Bytes) : (w.raw s).minify = w.minify ∧
    (w.raw s).atLineStart = false ∧ (w.raw s).heldSemi = false := by
  obtain ⟨hm, hl, hh⟩ := startLine_flags (w := w.flushSemi)
  obtain ⟨hm₁, -, hh₁⟩ := flushSemi_flags (w := w)
  exact ⟨hm.trans hm₁, hl, hh.trans hh₁⟩

/-- What a writer still has to leave in the text: a semicolon that is held back, and the blanks of a
line. -/
def owed (w : Writer) : List Print.Item :=
  (if w.heldSemi then [Print.Item.semi] else []) ++ if w.atLineStart then [Print.Item.gap] else []

variable {strict : Bool} {is : List Print.Item} {t : Bytes}

/-- What is owed may be written in front of anything. -/
theorem written_owed (w : Writer) (h : Print.Written strict is t) :
    Print.Written strict (w.owed ++ is) (w.due ++ w.flushSemi.indentation ++ t) := by
  have hline : Print.Written strict ((if w.atLineStart then [Print.Item.gap] else []) ++ is)
      (w.flushSemi.indentation ++ t) := by
    have hflags := (flushSemi_flags (w := w)).2.1
    unfold indentation
    rw [hflags]
    cases w.atLineStart with
    | false => exact h
    | true =>
      refine .blanks ?_ (.gap h)
      intro b hb
      split at hb
      · exact .inl (List.eq_of_mem_replicate hb)
      · cases hb
  unfold owed due
  cases w.heldSemi with
  | false => exact hline
  | true => exact .token (Print.keptApart_singleton rfl).readAlike hline

theorem loners_owed (w : Writer) :
    ∀ b ∈ w.due ++ w.flushSemi.indentation, Print.isLoner b = true := by
  unfold due indentation
  intro b hb
  rcases List.mem_append.1 hb with hb | hb
  · split at hb
    · rw [List.mem_singleton.1 hb]
      rfl
    · cases hb
  · split at hb
    · rw [List.eq_of_mem_replicate hb]
      rfl
    · cases hb

/-- What is owed is kept apart from the text. -/
theorem keptApart_owed (w : Writer)
    (h : w.due ++ w.flushSemi.indentation = [] → KeptApart w.text t) :
    KeptApart w.text (w.due ++ w.flushSemi.indentation ++ t) := by
  have hloners := loners_owed w
  cases howed : w.due ++ w.flushSemi.indentation with
  | nil => exact h howed
  | cons b r =>
    rw [howed] at hloners
    exact Print.keptApart_cons (hloners b List.mem_cons_self)

/-- A token is written as one. -/
theorem written_token (strict : Bool) (w : Writer) (b : UInt8) (s : Bytes) : ∃ added,
    (w.token (b :: s)).text = w.text ++ added ∧
      ∀ is t, Print.Written strict is t → KeptApart (b :: s) t →
        Print.Written strict (w.owed ++ .token (b :: s) :: is) (added ++ t) ∧
          KeptApart w.text (added ++ t) := by
  obtain ⟨sep, hsep, htext⟩ := text_token w b s
  refine ⟨w.due ++ w.flushSemi.indentation ++ (sep ++ (b :: s)), ?_, fun is t h hapart => ?_⟩
  · rw [htext]
    simp only [List.append_assoc]
  · have htoken : Print.Written strict (.token (b :: s) :: is) (b :: s ++ t) :=
      .token hapart.readAlike h
    have hsepped : Print.Written strict (.token (b :: s) :: is) (sep ++ (b :: s ++ t)) := by
      rcases hsep with rfl | ⟨rfl, -⟩
      · exact .apart htoken
      · exact htoken
    have hadded : w.due ++ w.flushSemi.indentation ++ (sep ++ (b :: s)) ++ t =
        w.due ++ w.flushSemi.indentation ++ (sep ++ (b :: s ++ t)) := by
      simp only [List.append_assoc]
    rw [hadded]
    refine ⟨written_owed w hsepped, keptApart_owed w fun hnone => ?_⟩
    rcases hsep with rfl | ⟨rfl, hkept⟩
    · exact Print.keptApart_cons rfl
    · rw [List.append_assoc, hnone, List.append_nil] at hkept
      exact hkept

/-- Text is written as it is. -/
theorem written_raw (strict : Bool) (w : Writer) (s : Bytes) :
    ∃ added, (w.raw s).text = w.text ++ added ∧
    ∀ is t, Print.Written strict is t →
      Print.Written strict (w.owed ++ .raw s :: is) (added ++ t) ∧
        (s = [0x7D] → KeptApart w.text (added ++ t)) := by
  refine ⟨w.due ++ w.flushSemi.indentation ++ s, ?_, fun is t h => ?_⟩
  · rw [text_raw]
    simp only [List.append_assoc]
  · rw [List.append_assoc _ s]
    refine ⟨written_owed w (.raw h), ?_⟩
    rintro rfl
    exact keptApart_owed w fun _ => Print.keptApart_cons rfl

/-! ### Blanks -/

theorem written_gap (hheld : w.heldSemi = false) (h : Print.Written strict (w.owed ++ is) t) :
    Print.Written strict (w.owed ++ .gap :: is) t := by
  unfold owed at h ⊢
  rw [hheld] at h ⊢
  cases hline : w.atLineStart with
  | false =>
    rw [hline] at h
    exact .gap h
  | true =>
    rw [hline] at h
    exact .gap h

/-- A blank is written at a gap, or none. -/
theorem written_space (strict : Bool) (hheld : w.heldSemi = false) :
    ∃ added, w.space.text = w.text ++ added ∧
    ∀ is t, Print.Written strict (w.space.owed ++ is) t → KeptApart w.space.text t →
      Print.Written strict (w.owed ++ .gap :: is) (added ++ t) ∧ KeptApart w.text (added ++ t) := by
  have hnone : ∃ added, w.text = w.text ++ added ∧
      ∀ is t, Print.Written strict (w.owed ++ is) t → KeptApart w.text t →
        Print.Written strict (w.owed ++ .gap :: is) (added ++ t) ∧ KeptApart w.text (added ++ t) :=
    ⟨[], (List.append_nil _).symm, fun is t h hapart => ⟨written_gap hheld h, hapart⟩⟩
  unfold space
  split
  · exact hnone
  · split
    · exact hnone
    · have hflush : w.flushSemi = w := by rw [flushSemi, hheld]; rfl
      have hdue : w.due = [] := by rw [due, hheld]; rfl
      refine ⟨w.indentation ++ [32], ?_, fun is t h hapart => ?_⟩
      · rw [text_append, text_startLine, List.append_assoc]
        rfl
      · obtain ⟨-, hline, hheld'⟩ := startLine_flags (w := w)
        have howed : (w.startLine.append " ").owed = [] := by
          unfold owed
          rw [show (w.startLine.append " ").heldSemi = false from hheld'.trans hheld,
            show (w.startLine.append " ").atLineStart = false from hline]
          rfl
        have h' : Print.Written strict is t := by rwa [howed, List.nil_append] at h
        have hblank : Print.Written strict (.gap :: is) (32 :: t) := .blank (.inl rfl) (.gap h')
        have hwritten := written_owed w hblank
        have hkept := keptApart_owed (t := 32 :: t) w fun _ => Print.keptApart_cons rfl
        rw [hflush, hdue, List.nil_append] at hwritten hkept
        rw [List.append_assoc]
        exact ⟨hwritten, hkept⟩

theorem space_flags : w.space.minify = w.minify ∧ w.space.heldSemi = w.heldSemi := by
  unfold space
  split
  · exact ⟨rfl, rfl⟩
  · split
    · exact ⟨rfl, rfl⟩
    · exact ⟨startLine_flags.1, startLine_flags.2.2⟩

theorem map_flags (w : Writer) (span : Span) :
    (w.map span).text = w.text ∧ (w.map span).minify = w.minify ∧
    (w.map span).atLineStart = w.atLineStart ∧ (w.map span).heldSemi = w.heldSemi := by
  unfold map
  split <;> exact ⟨rfl, rfl, rfl, rfl⟩

theorem newline_flags (hmin : w.minify = false) : w.newline.minify = false ∧
    w.newline.heldSemi = false ∧ w.newline.atLineStart = true := by
  obtain ⟨hm, -, hh⟩ := flushSemi_flags (w := w)
  unfold newline forceNewline
  rw [hmin, if_neg Bool.false_ne_true]
  dsimp only
  split
  · exact ⟨hm.trans hmin, hh, rfl⟩
  · split
    · exact ⟨hm.trans hmin, hh, rfl⟩
    · exact ⟨hm.trans hmin, hh, rfl⟩

/-- A line is ended at a gap. -/
theorem written_newline (strict : Bool) (hheld : w.heldSemi = false) (hmin : w.minify = false) :
    ∃ added, w.newline.text = w.text ++ added ∧
      ∀ is t, Print.Written strict (w.newline.owed ++ is) t → KeptApart w.newline.text t →
        Print.Written strict (w.owed ++ .gap :: is) (added ++ t) ∧
          KeptApart w.text (added ++ t) := by
  have hflush : w.flushSemi = w := by rw [flushSemi, hheld]; rfl
  -- the line end, if one is written, stands at the gap
  obtain ⟨added, hadded, htext⟩ : ∃ added : Bytes, (added = [] ∨ added = [10]) ∧
      w.newline.text = w.text ++ added := by
    unfold newline forceNewline
    rw [hmin, hflush, if_neg Bool.false_ne_true]
    dsimp only
    split
    · exact ⟨[], .inl rfl, (List.append_nil _).symm⟩
    · split
      · exact ⟨[], .inl rfl, (List.append_nil _).symm⟩
      · exact ⟨[10], .inr rfl, text_append _ _⟩
  obtain ⟨-, hheld', hline'⟩ := newline_flags hmin
  refine ⟨added, htext, fun is t h hapart => ?_⟩
  have h' : Print.Written strict (.gap :: is) t := by
    unfold owed at h
    rwa [hheld', hline'] at h
  have hline : Print.Written strict (.gap :: is) (added ++ t) := by
    rcases hadded with rfl | rfl
    · exact h'
    · exact .blank (.inr rfl) h'
  refine ⟨?_, ?_⟩
  · unfold owed
    rw [hheld]
    cases w.atLineStart with
    | false => exact hline
    | true => exact .gap hline
  · rcases hadded with rfl | rfl
    · rwa [htext, List.append_nil] at hapart
    · exact Print.keptApart_cons rfl

end

end ScriptLower.Writer

namespace ScriptLower.Print

open ScriptLower Lexeme

/-! ## Steps of writing -/

section

variable {strict inside : Bool} {s : State} {p : Piece} {ps : Pieces} {is : List Item} {t : Bytes}

/-- A text that may follow what is written: it holds the items, and is kept apart unless the text of
a template goes on. -/
def Follows (strict inside : Bool) (w : Writer) (is : List Item) (t : Bytes) : Prop :=
  Written strict is t ∧ (inside = false → KeptApart w.text t)

/-- The state of writing a text without comments that is not minified. -/
structure State.Pretty (s : State) : Prop where
  /-- It is not minified. -/
  minify : s.writer.minify = false
  /-- No semicolon is held back. -/
  held : s.writer.heldSemi = false
  /-- There are no comments. -/
  comments : s.comments = {}

/-- The state of writing a minified text without comments. -/
structure State.Minified (s : State) : Prop where
  /-- It is minified. -/
  minify : s.writer.minify = true
  /-- No line was ended. -/
  line : s.writer.atLineStart = false
  /-- There are no comments. -/
  comments : s.comments = {}

theorem State.leading_none (h : s.comments = {}) (pos : Nat) : s.leading pos = s := by
  obtain ⟨w, c, a, r⟩ := s
  subst h
  unfold State.leading
  split <;> rfl

theorem State.dangling_none (h : s.comments = {}) (pos : Nat) : s.dangling pos = s := by
  obtain ⟨w, c, a, r⟩ := s
  subst h
  unfold State.dangling
  split <;> rfl

theorem State.emptyBody_none (h : s.comments = {}) (pos : Nat) :
    s.step (.emptyBody pos) = s.step (.token [0x7D]) := by
  have hnone : s.hasDangling pos = false := by
    rw [State.hasDangling, h]
    exact Bool.and_false _
  show (if s.hasDangling pos then _ else _) = _
  rw [hnone]
  rfl

/-- What a step in either mode promises: it adds to the text, and what may follow it may follow the
addition. The items `before` were owed or are left by the step, `after` are owed behind it. -/
def Adds (strict inside inside' : Bool) (w w' : Writer) (before after : List Item) : Prop :=
  ∃ added, w'.text = w.text ++ added ∧ ∀ is t, Follows strict inside' w' (after ++ is) t →
    Follows strict inside w (before ++ is) (added ++ t)

variable {w w' : Writer}

/-- A step that leaves nothing in the text. -/
theorem adds_nothing (htext : w'.text = w.text) (is : List Item) :
    Adds strict inside false w w' is is := by
  refine ⟨[], by rw [htext, List.append_nil], fun js t h => ⟨h.1, fun _ => ?_⟩⟩
  have hkept := h.2 rfl
  rwa [htext] at hkept

theorem adds_token (w : Writer) (b : UInt8) (u : Bytes) :
    Adds strict inside (Piece.token (b :: u)).opensText w (w.token (b :: u))
      (w.owed ++ [Item.token (b :: u)]) [] := by
  obtain ⟨added, htext, hadded⟩ := Writer.written_token strict w b u
  refine ⟨added, htext, fun is t h => ?_⟩
  -- behind a backtick anything may follow, behind another token what is kept apart
  have hapart : KeptApart (b :: u) t := by
    cases hopens : (Piece.token (b :: u)).opensText with
    | true =>
      obtain ⟨rfl, rfl⟩ := List.cons.inj (Piece.token.inj (beq_iff_eq.1 hopens))
      exact keptApart_singleton rfl
    | false =>
      have hkept := h.2 hopens
      obtain ⟨sep, -, htoken⟩ := Writer.text_token w b u
      rw [htoken, ← List.append_assoc] at hkept
      exact keptApart_of_append hkept
  obtain ⟨hwritten, hkept⟩ := hadded is t h.1 hapart
  rw [List.append_assoc]
  exact ⟨hwritten, fun _ => hkept⟩

theorem adds_raw (w : Writer) (u : Bytes) (hfit : (Piece.raw u).fits inside = true) :
    Adds strict inside true w (w.raw u) (w.owed ++ [Item.raw u]) [] := by
  obtain ⟨added, htext, hadded⟩ := Writer.written_raw strict w u
  refine ⟨added, htext, fun is t h => ?_⟩
  obtain ⟨hwritten, hbrace⟩ := hadded is t h.1
  rw [List.append_assoc]
  refine ⟨hwritten, fun hinside => hbrace ?_⟩
  rcases Bool.or_eq_true_iff.1 hfit with h | h
  · rw [hinside] at h
    cases h
  · exact beq_iff_eq.1 h

theorem owed_eq_nil (hline : w.atLineStart = false) (hheld : w.heldSemi = false) : w.owed = [] := by
  unfold Writer.owed
  rw [hline, hheld]
  rfl

/-- A step of writing a text that is not minified. -/
theorem State.Pretty.step (hs : s.Pretty) (strict : Bool) (hfit : p.fits inside = true) :
    (s.step p).Pretty ∧ Adds strict inside p.opensText s.writer (s.step p).writer
      (s.writer.owed ++ p.shown) (s.step p).writer.owed := by
  have htoken (b : UInt8) (u : Bytes) : (s.write (·.token (b :: u))).Pretty ∧
      Adds strict inside (Piece.token (b :: u)).opensText s.writer (s.writer.token (b :: u))
        (s.writer.owed ++ [Item.token (b :: u)]) (s.writer.token (b :: u)).owed := by
    obtain ⟨hmin, hline, hheld⟩ := Writer.token_flags s.writer b u
    rw [owed_eq_nil hline hheld]
    exact ⟨⟨hmin.trans hs.minify, hheld, hs.comments⟩, adds_token _ _ _⟩
  have hsilent {s' : State} (h : s'.Pretty) (htext : s'.writer.text = s.writer.text)
      (howed : s'.writer.owed = s.writer.owed) : s'.Pretty ∧
      Adds strict inside false s.writer s'.writer (s.writer.owed ++ []) s'.writer.owed := by
    rw [howed, List.append_nil]
    exact ⟨h, adds_nothing htext _⟩
  cases p with
  | token u =>
    cases u with
    | nil => exact hsilent hs rfl rfl
    | cons b u => exact htoken b u
  | raw u =>
    obtain ⟨hmin, hline, hheld⟩ := Writer.raw_flags s.writer u
    rw [show (s.step (.raw u)).writer.owed = [] from owed_eq_nil hline hheld]
    exact ⟨⟨hmin.trans hs.minify, hheld, hs.comments⟩, adds_raw _ _ hfit⟩
  | space =>
    obtain ⟨hmin, hheld⟩ := Writer.space_flags (w := s.writer)
    obtain ⟨added, htext, hadded⟩ := Writer.written_space strict hs.held
    refine ⟨⟨hmin.trans hs.minify, hheld.trans hs.held, hs.comments⟩, added,
      htext, fun is t h => ?_⟩
    obtain ⟨hwritten, hkept⟩ := hadded is t h.1 (h.2 rfl)
    rw [List.append_assoc]
    exact ⟨hwritten, fun _ => hkept⟩
  | newline =>
    obtain ⟨hmin, hheld, -⟩ := Writer.newline_flags hs.minify
    obtain ⟨added, htext, hadded⟩ := Writer.written_newline strict hs.held hs.minify
    refine ⟨⟨hmin, hheld, hs.comments⟩, added, htext, fun is t h => ?_⟩
    obtain ⟨hwritten, hkept⟩ := hadded is t h.1 (h.2 rfl)
    rw [List.append_assoc]
    exact ⟨hwritten, fun _ => hkept⟩
  | semi =>
    have hsemi : s.step .semi = s.step (.token [59]) := by
      show s.write Writer.semi = s.write (·.token [59])
      unfold State.write Writer.semi
      rw [hs.minify, if_neg Bool.false_ne_true]
      rfl
    rw [hsemi]
    exact htoken 59 []
  | dropSemi =>
    refine hsilent ⟨hs.minify, rfl, hs.comments⟩ rfl ?_
    show Writer.owed { s.writer with heldSemi := false } = s.writer.owed
    unfold Writer.owed
    rw [hs.held]
  | push => exact hsilent ⟨hs.minify, hs.held, hs.comments⟩ rfl rfl
  | pop => exact hsilent ⟨hs.minify, hs.held, hs.comments⟩ rfl rfl
  | map span =>
    obtain ⟨htext, hmin, hline, hheld⟩ := Writer.map_flags s.writer span
    refine hsilent ⟨hmin.trans hs.minify, hheld.trans hs.held, hs.comments⟩ htext ?_
    show (s.writer.map span).owed = s.writer.owed
    unfold Writer.owed
    rw [hline, hheld]
  | leading pos =>
    rw [show s.step (.leading pos) = s from leading_none hs.comments pos]
    exact hsilent hs rfl rfl
  | dangling pos =>
    rw [show s.step (.dangling pos) = s from dangling_none hs.comments pos]
    exact hsilent hs rfl rfl
  | emptyBody pos =>
    rw [emptyBody_none hs.comments]
    exact htoken 0x7D []
  | fault d => exact hsilent ⟨hs.minify, hs.held, hs.comments⟩ rfl rfl

theorem space_minified (h : w.minify = true) : w.space = w := by
  unfold Writer.space
  split
  · rfl
  · rw [h, Bool.true_or, Bool.true_or, if_pos rfl]

theorem newline_minified (h : w.minify = true) : w.newline = w := by
  unfold Writer.newline
  rw [h, if_pos rfl]

/-- A semicolon is held back, and the one held back before is written. -/
theorem adds_semi (hmin : w.minify = true) :
    Adds strict inside false w w.semi (if w.heldSemi then [.semi] else []) [] := by
  have htext : w.semi.text = w.text ++ w.due := by
    unfold Writer.semi
    rw [hmin, if_pos rfl]
    exact Writer.text_flushSemi
  refine ⟨w.due, htext, fun is t h => ?_⟩
  have hkept := h.2 rfl
  rw [htext] at hkept
  unfold Writer.due at hkept ⊢
  cases hheld : w.heldSemi with
  | false =>
    rw [hheld, if_neg Bool.false_ne_true, List.append_nil] at hkept
    exact ⟨h.1, fun _ => hkept⟩
  | true => exact ⟨.token (keptApart_singleton rfl).readAlike h.1, fun _ => keptApart_cons rfl⟩

/-- A step of writing a minified text. -/
theorem State.Minified.step (hs : s.Minified) (strict : Bool) (hfit : p.fits inside = true) :
    (s.step p).Minified ∧ (s.step p).writer.heldSemi = (p.kept s.writer.heldSemi).2 ∧
      Adds strict inside p.opensText s.writer (s.step p).writer
        (p.kept s.writer.heldSemi).1 [] := by
  have howed : s.writer.owed = if s.writer.heldSemi then [Item.semi] else [] := by
    unfold Writer.owed
    rw [hs.line, if_neg Bool.false_ne_true, List.append_nil]
  have htoken (b : UInt8) (u : Bytes) : (s.write (·.token (b :: u))).Minified ∧
      (s.writer.token (b :: u)).heldSemi = false ∧
      Adds strict inside (Piece.token (b :: u)).opensText s.writer (s.writer.token (b :: u))
        ((if s.writer.heldSemi then [Item.semi] else []) ++ [Item.token (b :: u)]) [] := by
    obtain ⟨hmin, hline, hheld⟩ := Writer.token_flags s.writer b u
    rw [← howed]
    exact ⟨⟨hmin.trans hs.minify, hline, hs.comments⟩, hheld, adds_token _ _ _⟩
  have hsilent (s' : State) (h : s'.Minified) (htext : s'.writer.text = s.writer.text) {held : Bool}
      (hheld : s'.writer.heldSemi = held) : s'.Minified ∧ s'.writer.heldSemi = held ∧
      Adds strict inside false s.writer s'.writer [] [] := ⟨h, hheld, adds_nothing htext _⟩
  cases p with
  | token u =>
    cases u with
    | nil => exact hsilent s hs rfl rfl
    | cons b u => exact htoken b u
  | raw u =>
    obtain ⟨hmin, hline, hheld⟩ := Writer.raw_flags s.writer u
    refine ⟨⟨hmin.trans hs.minify, hline, hs.comments⟩, hheld, ?_⟩
    rw [show (Piece.kept s.writer.heldSemi (.raw u)).1 =
      (if s.writer.heldSemi then [Item.semi] else []) ++ [Item.raw u] from rfl, ← howed]
    exact adds_raw _ _ hfit
  | space =>
    rw [show s.step .space = s.write Writer.space from rfl, State.write, space_minified hs.minify]
    exact hsilent _ ⟨hs.minify, hs.line, hs.comments⟩ rfl rfl
  | newline =>
    rw [show s.step .newline = s.write Writer.newline from rfl, State.write,
      newline_minified hs.minify]
    exact hsilent _ ⟨hs.minify, hs.line, hs.comments⟩ rfl rfl
  | semi =>
    have hflags := Writer.flushSemi_flags (w := s.writer)
    have hsemi : s.writer.semi = { s.writer.flushSemi with heldSemi := true } := by
      unfold Writer.semi
      rw [hs.minify, if_pos rfl]
    refine ⟨⟨?_, ?_, hs.comments⟩, ?_, adds_semi hs.minify⟩
    · show s.writer.semi.minify = true
      rw [hsemi]
      exact hflags.1.trans hs.minify
    · show s.writer.semi.atLineStart = false
      rw [hsemi]
      exact hflags.2.1.trans hs.line
    · show s.writer.semi.heldSemi = true
      rw [hsemi]
  | dropSemi => exact hsilent (s.step .dropSemi) ⟨hs.minify, hs.line, hs.comments⟩ rfl rfl
  | push => exact hsilent (s.step .push) ⟨hs.minify, hs.line, hs.comments⟩ rfl rfl
  | pop => exact hsilent (s.step .pop) ⟨hs.minify, hs.line, hs.comments⟩ rfl rfl
  | map span =>
    obtain ⟨htext, hmin, hline, hheld⟩ := Writer.map_flags s.writer span
    exact hsilent (s.step (.map span)) ⟨hmin.trans hs.minify, hline.trans hs.line, hs.comments⟩
      htext hheld
  | leading pos =>
    rw [show s.step (.leading pos) = s from leading_none hs.comments pos]
    exact hsilent s hs rfl rfl
  | dangling pos =>
    rw [show s.step (.dangling pos) = s from dangling_none hs.comments pos]
    exact hsilent s hs rfl rfl
  | emptyBody pos =>
    rw [emptyBody_none hs.comments]
    exact htoken 0x7D []
  | fault d => exact hsilent (s.step (.fault d)) ⟨hs.minify, hs.line, hs.comments⟩ rfl rfl

/-! ## Whole texts -/

theorem adds_refl (w : Writer) (is : List Item) : Adds strict inside inside w w is is :=
  ⟨[], (List.append_nil _).symm, fun _ _ h => h⟩

/-- One addition behind another is an addition. -/
theorem Adds.trans {inside₁ inside₂ : Bool} {w₁ w₂ : Writer} {before mid more after : List Item}
    (h₁ : Adds strict inside inside₁ w w₁ before mid)
    (h₂ : Adds strict inside₁ inside₂ w₁ w₂ (mid ++ more) after) :
    Adds strict inside inside₂ w w₂ (before ++ more) after := by
  obtain ⟨added₁, htext₁, hadded₁⟩ := h₁
  obtain ⟨added₂, htext₂, hadded₂⟩ := h₂
  refine ⟨added₁ ++ added₂, by rw [htext₂, htext₁, List.append_assoc], fun is t h => ?_⟩
  have hrest := hadded₂ is t h
  rw [List.append_assoc] at hrest ⊢
  rw [List.append_assoc]
  exact hadded₁ _ _ hrest

/-- Pieces written one behind another leave what each of them leaves. -/
theorem State.Pretty.run (hs : s.Pretty) (strict : Bool) (hfit : allFit inside ps = true) :
    (s.run ps).Pretty ∧ ∃ inside', Adds strict inside inside' s.writer (s.run ps).writer
      (s.writer.owed ++ shown ps) (s.run ps).writer.owed := by
  induction ps generalizing s inside with
  | nil =>
    refine ⟨hs, inside, ?_⟩
    rw [show shown [] = [] from rfl, List.append_nil]
    exact adds_refl _ _
  | cons p ps ih =>
    obtain ⟨hfirst, hrest⟩ := Bool.and_eq_true_iff.1 hfit
    obtain ⟨hs', hstep⟩ := hs.step strict hfirst
    obtain ⟨hend, inside', hrun⟩ := ih hs' hrest
    refine ⟨hend, inside', ?_⟩
    rw [show shown (p :: ps) = p.shown ++ shown ps from rfl, ← List.append_assoc]
    exact hstep.trans hrun

/-- Pieces written one behind another leave what each of them leaves in a minified text. -/
theorem State.Minified.run (hs : s.Minified) (strict : Bool) (hfit : allFit inside ps = true) :
    (s.run ps).Minified ∧ ∃ inside', Adds strict inside inside' s.writer (s.run ps).writer
      (kept s.writer.heldSemi ps) [] := by
  induction ps generalizing s inside with
  | nil => exact ⟨hs, inside, adds_refl _ _⟩
  | cons p ps ih =>
    obtain ⟨hfirst, hrest⟩ := Bool.and_eq_true_iff.1 hfit
    obtain ⟨hs', hheld, hstep⟩ := hs.step strict hfirst
    obtain ⟨hend, inside', hrun⟩ := ih hs' hrest
    refine ⟨hend, inside', ?_⟩
    rw [hheld] at hrun
    exact hstep.trans hrun

/-- Where nothing was written before, what is added is the text. -/
theorem Adds.written {before after : List Item} (h : Adds strict inside inside' w w' before after)
    (hw : w.text = []) (hafter : Written strict after []) : Written strict before w'.text := by
  obtain ⟨added, htext, hadded⟩ := h
  have hend := (hadded [] [] ⟨by rwa [List.append_nil], fun _ => keptApart_nil⟩).1
  rw [List.append_nil, List.append_nil] at hend
  rwa [htext, hw]

/-- The line that ends the text is ended like any other. -/
theorem State.Pretty.text_finish (hs : s.Pretty) :
    (finish s).writer.text = (s.step .newline).writer.text := by
  unfold finish
  split
  · rename_i hempty
    have hrev : s.writer.reversed = [] := List.isEmpty_iff.1 hempty
    show s.writer.text = s.writer.newline.text
    unfold Writer.newline Writer.forceNewline Writer.flushSemi
    simp [hs.minify, hs.held, hrev, Writer.text]
  · rfl

theorem State.Minified.text_finish (hs : s.Minified) : (finish s).writer.text = s.writer.text := by
  unfold finish
  split
  · rfl
  · show s.writer.newline.text = _
    rw [newline_minified hs.minify]

/-- The state in which a tree without comments is begun. -/
def Settings.start (o : Settings) : State :=
  { writer := { minify := o.minify, indent := o.blanks, sink := o.sink }, asciiOnly := o.asciiOnly }

theorem hashbang_none (h : s.comments = {}) : hashbang s = s := by
  have hall : ({} : CommentTable).all = [] := by simp [CommentTable.all, CommentMap.all]
  unfold hashbang
  rw [h, hall]
  rfl

/-- The text of a tree that is printed without comments. -/
theorem code_eq {root : Node} {o : Settings} {out : Bytes}
    (h : (printTree root {} o).code = some out) :
    out = (finish (o.start.run (programPieces o.asciiOnly root))).writer.text := by
  have hstart : hashbang o.start = o.start := hashbang_none rfl
  unfold printTree at h
  split at h
  · cases h
  dsimp only at h
  split at h
  · cases h
  · dsimp only at h
    split at h
    · rw [← Option.some.inj h, ← hstart]
      rfl
    · cases h

end

section

variable (root : Node) {o : Settings} (strict : Bool)

/-- What a tree without comments leaves in a text that is not minified. -/
theorem written_pretty (ho : o.minify = false) :
    Written strict (shown (programPieces o.asciiOnly root) ++ [.gap])
      (finish (o.start.run (programPieces o.asciiOnly root))).writer.text := by
  have hstart : o.start.Pretty := ⟨ho, rfl, rfl⟩
  obtain ⟨hend, inside, hrun⟩ := hstart.run strict (orderly_programPieces o.asciiOnly root).allFit
  have hfit : Piece.newline.fits inside = true := rfl
  obtain ⟨hlast, hline⟩ := hend.step strict hfit
  rw [hend.text_finish]
  refine (hrun.trans hline).written rfl ?_
  unfold Writer.owed
  rw [hlast.held, if_neg Bool.false_ne_true, List.nil_append]
  split
  · exact .gap .nil
  · exact .nil

/-- What a tree without comments leaves in a minified text. -/
theorem written_minified (ho : o.minify = true) :
    Written strict (kept false (programPieces o.asciiOnly root))
      (finish (o.start.run (programPieces o.asciiOnly root))).writer.text := by
  have hstart : o.start.Minified := ⟨ho, rfl, rfl⟩
  obtain ⟨hend, inside, hrun⟩ := hstart.run strict (orderly_programPieces o.asciiOnly root).allFit
  rw [hend.text_finish]
  exact hrun.written rfl .nil

end

/-- A tree without comments, printed minified and not, leaves the same words in the same order,
apart from semicolons that stand in front of a closing brace or at the end. In either text each word
is kept apart from what follows it, and read there as it is read alone unless it goes on. -/
theorem minified_keeps_words (root : Node) (o : Settings) (strict : Bool) (pretty mini : Bytes)
    (hpretty : (printTree root {} { o with minify := false }).code = some pretty)
    (hmini : (printTree root {} { o with minify := true }).code = some mini) :
    let ps := programPieces o.asciiOnly root
    Written strict (shown ps ++ [.gap]) pretty ∧ Written strict (kept false ps) mini ∧
      Thinned (solid (shown ps)) (kept false ps) := by
  refine ⟨?_, ?_, (orderly_programPieces o.asciiOnly root).thinned.1⟩
  · rw [code_eq hpretty]
    exact written_pretty root (o := { o with minify := false }) strict rfl
  · rw [code_eq hmini]
    exact written_minified root (o := { o with minify := true }) strict rfl

/-- A regular expression without flags goes on in the word behind it when the text is minified, and
so its text is not the same in both. -/
theorem flagless_regExp_goes_on :
    let file := (FileSet.empty.add "a.ts" "x = /a/ in b;" true).2
    let parsed := Parse.parseFile file {}
    ∃ root tree pretty mini, parsed.tree = some root ∧
      (Lower.lowerTree file root {} {} {}).tree = some tree ∧
      (printTree tree {} {}).code = some pretty ∧
        (printTree tree {} { minify := true }).code = some mini ∧
      pretty.take 4 = Bytes.ofString "x = " ∧ mini.take 2 = Bytes.ofString "x=" ∧
      (pretty.drop 4).take (regExp (pretty.drop 4)).size = Bytes.ofString "/a/" ∧
      (mini.drop 2).take (regExp (mini.drop 2)).size = Bytes.ofString "/a/in" := by
  intro file parsed
  have hrun : parsed.tree.isSome = true ∧
      let lowered := Lower.lowerTree file (parsed.tree.getD .absent) {} {} {}
      lowered.tree.isSome = true ∧
      (printTree (lowered.tree.getD .absent) {} {}).code = some "x = /a/ in b;\n" ∧
      (printTree (lowered.tree.getD .absent) {} { minify := true }).code = some "x=/a/in b" := by
    decide +kernel
  obtain ⟨hsome, hlowered, hpretty, hmini⟩ := hrun
  obtain ⟨root, hroot⟩ := Option.isSome_iff_exists.1 hsome
  rw [hroot, Option.getD_some] at hlowered hpretty hmini
  obtain ⟨tree, htree⟩ := Option.isSome_iff_exists.1 hlowered
  rw [htree, Option.getD_some] at hpretty hmini
  exact ⟨root, tree, _, _, hroot, htree, hpretty, hmini, by decide +kernel⟩

end ScriptLower.Print
