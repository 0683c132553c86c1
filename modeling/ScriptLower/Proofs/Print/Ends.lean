import Mathlib.Data.List.Induction
import Mathlib.Algebra.GroupWithZero.Nat
import Mathlib.Data.Nat.Init
import ScriptLower.Print.Piece
import ScriptLower.Proofs.Text.Utf8

/-!
# Where a text ends

The end of a text is a line and a column. A line ends at a line feed, and a column counts UTF-16
units, of which a character has as many as its first byte says. So the end can be kept while the
text grows byte by byte, and it never goes back. A writer that is given well-formed texts knows the
end of all it has written: what it writes of its own accord is ASCII. It counts in 32-bit words, so
what it knows are the remainders of the two counts.
-/

/-! ## Units -/

namespace ScriptLower.Utf8

open ScriptLower

/-- The UTF-16 units of the character that a byte begins; a byte inside of a character begins
none. -/
def unitsOf (b : UInt8) : Nat :=
  if b < 0x80 then 1 else if 0xF0 ≤ b then 2 else if 0xC0 ≤ b then 1 else 0

section

variable {a b : UInt8} {r s t : Bytes}

theorem unitsOf_eq : unitsOf b =
    if b.toNat < 128 then 1 else if 240 ≤ b.toNat then 2 else if 192 ≤ b.toNat then 1 else 0 := by
  simp [unitsOf, UInt8.le_iff_toNat_le, UInt8.lt_iff_toNat_lt]

theorem isTail_iff : isTail b = true ↔ 128 ≤ b.toNat ∧ b.toNat ≤ 191 := by
  simp [isTail, UInt8.le_iff_toNat_le]

theorem unitsOf_tail (h : isTail b = true) : unitsOf b = 0 := by
  rw [isTail_iff] at h
  rw [unitsOf_eq, if_neg (by omega), if_neg (by omega), if_neg (by omega)]

theorem sum_tails (h : ∀ b ∈ s, isTail b = true) : (s.map unitsOf).sum = 0 := by
  induction s with
  | nil => rfl
  | cons b s ih =>
    obtain ⟨hb, hs⟩ := List.forall_mem_cons.1 h
    rw [List.map_cons, List.sum_cons, unitsOf_tail hb, ih hs]

/-- A character that is read whole has as many units as its first byte says. -/
theorem decode_whole (h : decode (a :: r) ≠ (replacement, 1)) :
    ∃ tails rest, r = tails ++ rest ∧ (∀ b ∈ tails, isTail b = true) ∧
      (decode (a :: r)).2 = tails.length + 1 ∧ unitsOf a = units (decode (a :: r)).1 := by
  revert h
  generalize hs : a :: r = s
  fun_cases decode s
  case case2 b t hb =>
    intro _
    cases hs
    have hlow : a.toNat < 128 := UInt8.lt_iff_toNat_lt.1 hb
    refine ⟨[], r, rfl, List.forall_mem_nil _, rfl, ?_⟩
    rw [unitsOf_eq, units, if_pos hlow, if_neg (by dsimp only; omega)]
  case case3 x _ hx y t hy =>
    intro _
    cases hs
    refine ⟨[y], t, rfl, List.forall_mem_singleton.2 hy, rfl, ?_⟩
    simp [UInt8.le_iff_toNat_le] at hx
    rw [isTail_iff] at hy
    rw [unitsOf_eq, units, if_neg (by omega), if_neg (by omega), if_pos (by omega),
      if_neg (by omega)]
  case case6 x _ _ hx y z t lo hi hy =>
    intro _
    cases hs
    have hlo : 0x80 ≤ lo := by simp only [lo]; split <;> decide
    have hhi : hi ≤ 0xBF := by simp only [hi]; split <;> decide
    simp only [Bool.and_eq_true, decide_eq_true_eq] at hx hy
    have hmid : isTail y = true := by
      simp [isTail, UInt8.le_trans hlo hy.1.1, UInt8.le_trans hy.1.2 hhi]
    refine ⟨[y, z], t, rfl, by simp [hmid, hy.2], rfl, ?_⟩
    simp [UInt8.le_iff_toNat_le] at hx
    have hlast := isTail_iff.1 hy.2
    rw [isTail_iff] at hmid
    rw [unitsOf_eq, units, if_neg (by omega), if_neg (by omega), if_pos (by omega),
      if_neg (by omega)]
  case case9 x _ _ _ hx y z u t lo hi hy =>
    intro _
    cases hs
    have hlo : 0x80 ≤ lo := by simp only [lo]; split <;> decide
    have hhi : hi ≤ 0xBF := by simp only [hi]; split <;> decide
    simp only [Bool.and_eq_true, decide_eq_true_eq] at hx hy
    have hmid : isTail y = true := by
      simp [isTail, UInt8.le_trans hlo hy.1.1.1, UInt8.le_trans hy.1.1.2 hhi]
    refine ⟨[y, z, u], t, rfl, by simp [hmid, hy.1.2, hy.2], rfl, ?_⟩
    -- the lowest lead byte takes a second byte that makes the character large enough
    have hlarge : 240 < a.toNat ∨ 144 ≤ y.toNat := by
      by_cases ha : a = 0xF0
      · have hy := hy.1.1.1
        simp only [lo, ha] at hy
        exact .inr (UInt8.le_iff_toNat_le.1 hy)
      · have hne : a.toNat ≠ 240 := fun h => ha (UInt8.toNat_inj.1 h)
        have := UInt8.le_iff_toNat_le.1 hx.1
        simp at this
        omega
    simp [UInt8.le_iff_toNat_le] at hx
    rw [isTail_iff] at hmid
    rw [unitsOf_eq, units, if_neg (by omega), if_pos (by omega), if_pos (by omega)]
  all_goals
    intro h
    first | exact absurd rfl h | cases hs

/-- The units of a text are those of its characters. -/
theorem sum_unitsOf (h : isValid s = true) : (s.map unitsOf).sum = length16 s := by
  induction hn : s.length using Nat.strong_induction_on generalizing s with
  | _ n ih =>
    cases s with
    | nil => rfl
    | cons a r =>
      rw [isValid, chars_cons, List.all_cons, Bool.and_eq_true] at h
      obtain ⟨hchar, hrest⟩ := h
      obtain ⟨tails, rest, rfl, htails, hsize, hunits⟩ :=
        decode_whole (a := a) (r := r) fun hd => by simp [hd] at hchar
      have hdrop : (tails ++ rest).drop ((decode (a :: (tails ++ rest))).2 - 1) = rest := by
        rw [hsize, Nat.add_sub_cancel, List.drop_left]
      have hlength : rest.length < n := by
        rw [← hn, List.length_cons, List.length_append]
        omega
      rw [hdrop] at hrest
      rw [length16, chars_cons, hdrop, List.map_cons, List.sum_cons, List.map_append,
        List.sum_append,
        sum_tails htails, hunits, ih _ hlength hrest rfl, Nat.zero_add]
      rfl

end

end ScriptLower.Utf8

/-! ## Ends -/

namespace ScriptLower.Writer

open ScriptLower Utf8

/-- What stands behind the last line feed of a text. -/
def lastLine (s : Bytes) : Bytes := (s.reverse.takeWhile (· != 10)).reverse

/-- Line and column of the end of a text, from zero, the column in UTF-16 units. -/
def endOf (s : Bytes) : Nat × Nat := (s.count 10, ((lastLine s).map unitsOf).sum)

section

variable {s t : Bytes} {b : UInt8} {p q r : Nat × Nat}

theorem lastLine_snoc : lastLine (s ++ [b]) = if b = 10 then [] else lastLine s ++ [b] := by
  unfold lastLine
  rw [List.reverse_append, List.reverse_singleton, List.singleton_append, List.takeWhile_cons]
  by_cases hb : b = 10
  · simp [hb]
  · simp [hb]

theorem lastLine_append (ht : 10 ∉ t) : lastLine (s ++ t) = lastLine s ++ t := by
  unfold lastLine
  rw [List.reverse_append, List.takeWhile_append_of_pos, List.reverse_append, List.reverse_reverse]
  exact fun b hb => bne_iff_ne.2 fun h => ht (h ▸ List.mem_reverse.1 hb)

theorem endOf_snoc : endOf (s ++ [b]) =
    if b = 10 then ((endOf s).1 + 1, 0) else ((endOf s).1, (endOf s).2 + unitsOf b) := by
  unfold endOf
  rw [lastLine_snoc]
  by_cases hb : b = 10
  · simp [hb]
  · simp [hb, List.sum_append]

/-- A place in 32-bit words. -/
def words (p : Nat × Nat) : UInt32 × UInt32 := (p.1.toUInt32, p.2.toUInt32)

/-- One more byte moves the words of the end as it moves the end. -/
theorem words_endOf_snoc : words (endOf (s ++ [b])) = advance (words (endOf s)) b := by
  rw [endOf_snoc]
  unfold advance words unitsOf
  by_cases hb : b = 10
  · simp [hb]
  · have hne : (b == 10) = false := beq_eq_false_iff_ne.2 hb
    simp only [hb, hne, if_false, Bool.false_eq_true]
    split
    · simp
    · split
      · simp
      · split <;> simp

/-- The words of the end of a text are known from those of its beginning. -/
theorem foldl_advance : t.foldl advance (words (endOf s)) = words (endOf (s ++ t)) := by
  induction t generalizing s with
  | nil => rw [List.append_nil]; rfl
  | cons b t ih =>
    rw [List.foldl_cons, ← words_endOf_snoc, ih, List.append_assoc]
    rfl

/-- A column is at most two units behind each byte. -/
theorem endOf_col_le (s : Bytes) : (endOf s).2 ≤ 2 * s.length := by
  have hunits (t : Bytes) : (t.map unitsOf).sum ≤ 2 * t.length := by
    induction t with
    | nil => exact Nat.zero_le _
    | cons b t ih =>
      have hb : unitsOf b ≤ 2 := by
        unfold unitsOf; split <;> [skip; split <;> [skip; split]] <;> omega
      rw [List.map_cons, List.sum_cons, List.length_cons]
      omega
  have hlast : (lastLine s).length ≤ s.length := by
    unfold lastLine
    rw [List.length_reverse]
    exact Nat.le_trans (List.takeWhile_prefix _).length_le (Nat.le_of_eq List.length_reverse)
  exact Nat.le_trans (hunits _) (Nat.mul_le_mul_left 2 hlast)

/-- The column of the end of a text is the length of its last line. -/
theorem endOf_col (h : isValid (lastLine s) = true) : (endOf s).2 = length16 (lastLine s) :=
  sum_unitsOf h

/-- The place `q` is `p`, or behind it. -/
def NotBefore (p q : Nat × Nat) : Prop := p.1 < q.1 ∨ p.1 = q.1 ∧ p.2 ≤ q.2

theorem NotBefore.refl (p : Nat × Nat) : NotBefore p p := .inr ⟨rfl, Nat.le_refl _⟩

theorem NotBefore.trans (h : NotBefore p q) (h' : NotBefore q r) : NotBefore p r := by
  unfold NotBefore at *
  omega

theorem notBefore_endOf (s t : Bytes) : NotBefore (endOf s) (endOf (s ++ t)) := by
  induction t generalizing s with
  | nil => rw [List.append_nil]; exact .refl _
  | cons b t ih =>
    have hone : NotBefore (endOf s) (endOf (s ++ [b])) := by
      rw [endOf_snoc]
      split
      · exact .inl (Nat.lt_succ_self _)
      · exact .inr ⟨rfl, Nat.le_add_right _ _⟩
    have hrest := hone.trans (ih (s ++ [b]))
    rwa [List.append_assoc] at hrest

end

end ScriptLower.Writer

/-! ## Lines of well-formed texts -/

namespace ScriptLower.Utf8

open ScriptLower

variable {s : Bytes}

/-- A line feed is a character of its own. -/
theorem lineFeed_notMem_encode {c : Nat} (hc : c ≠ 10) : 10 ∉ encode c := by
  obtain ⟨b, r, he, hfirst⟩ := head_encode c
  have htail := encode_tail (c := c)
  rw [he, List.tail_cons] at htail
  rw [he, List.mem_cons, not_or]
  refine ⟨?_, fun hr => absurd (htail 10 hr) (by decide)⟩
  rintro rfl
  rcases hfirst with hb | ⟨hb, -⟩
  · exact hc hb.symm
  · exact absurd hb (by decide)

/-- The last line of a well-formed text is well-formed. -/
theorem isValid_lastLine (h : isValid s = true) : isValid (Writer.lastLine s) = true := by
  obtain ⟨cs, hcs, rfl⟩ := exists_ofCodePoints h
  suffices ∃ ds, ds <:+ cs ∧ Writer.lastLine (ofCodePoints cs) = ofCodePoints ds by
    obtain ⟨ds, hds, heq⟩ := this
    exact heq ▸ isValid_ofCodePoints fun d hd => hcs d (hds.mem hd)
  clear h hcs
  induction cs using List.reverseRecOn with
  | nil => exact ⟨[], List.suffix_rfl, rfl⟩
  | append_singleton cs c ih =>
    obtain ⟨ds, hds, heq⟩ := ih
    have hone : ofCodePoints [c] = encode c := List.append_nil _
    rw [ofCodePoints_append, hone]
    by_cases hc : c = 10
    · refine ⟨[], List.nil_suffix, ?_⟩
      rw [hc, encode_ascii (by decide)]
      exact (Writer.lastLine_snoc).trans (if_pos rfl)
    · obtain ⟨before, rfl⟩ := hds
      refine ⟨ds ++ [c], ⟨before, (List.append_assoc _ _ _).symm⟩, ?_⟩
      rw [Writer.lastLine_append (lineFeed_notMem_encode hc), heq, ofCodePoints_append, hone]

end ScriptLower.Utf8

/-! ## Text that is added -/

namespace ScriptLower.Writer

open ScriptLower Utf8

section

variable {P : Writer → Prop} {w w' w'' : Writer} {s : Bytes}

theorem text_append (w : Writer) (s : Bytes) : (w.append s).text = w.text ++ s := by
  simp [text, append]

/-- A property that writers keep when they add ASCII, and that sees but the text and the map. -/
structure Steady (P : Writer → Prop) : Prop where
  /-- ASCII may be added. -/
  append : ∀ w s, (∀ b ∈ s, b < 0x80) → P w → P (w.append s)
  /-- The rest is not seen. -/
  same : ∀ (w : Writer) level atLineStart heldSemi, P w →
    P { w with level := level, atLineStart := atLineStart, heldSemi := heldSemi }

theorem Steady.flushSemi (hP : Steady P) (h : P w) : P w.flushSemi := by
  unfold Writer.flushSemi
  split
  · exact hP.append _ _ (by decide) (hP.same w _ _ false h)
  · exact h

theorem Steady.startLine (hP : Steady P) (h : P w) : P w.startLine := by
  unfold Writer.startLine
  split
  · exact h
  · dsimp only
    split
    · exact hP.same w _ false _ h
    · refine hP.append _ _ (fun b hb => ?_) (hP.same w _ false _ h)
      rw [(List.mem_replicate.1 hb).2]
      decide

theorem Steady.separate (hP : Steady P) (h : P w) (b : UInt8) : P (w.separate b) := by
  unfold Writer.separate
  split
  · split
    · exact hP.append _ _ (by decide) h
    · exact h
  · exact h

theorem Steady.space (hP : Steady P) (h : P w) : P w.space := by
  unfold Writer.space
  split
  · exact h
  · split
    · exact h
    · exact hP.append _ _ (by decide) (hP.startLine h)

theorem Steady.forceNewline (hP : Steady P) (h : P w) : P w.forceNewline := by
  have hline := hP.flushSemi h
  unfold Writer.forceNewline
  refine hP.same _ _ true _ ?_
  split
  · exact hline
  · split
    · exact hline
    · exact hP.append _ _ (by decide) hline

theorem Steady.newline (hP : Steady P) (h : P w) : P w.newline := by
  unfold Writer.newline
  split
  · exact h
  · exact hP.forceNewline h

/-- A writer that has added some text, and nothing to its map. -/
structure Extends (w w' : Writer) : Prop where
  /-- The text is behind the old one, and the writer knows where it ends. -/
  text : ∃ s, w'.text = w.text ++ s ∧ (w'.line, w'.col) = s.foldl advance (w.line, w.col)
  /-- The map is the same. -/
  sink : w'.sink = w.sink
  /-- The place that the next token comes from is the same. -/
  pending : w'.pending = w.pending
  /-- No entry was refused. -/
  mapError : w'.mapError = w.mapError

theorem Extends.refl (w : Writer) : w.Extends w :=
  ⟨⟨[], (List.append_nil _).symm, rfl⟩, rfl, rfl, rfl⟩

theorem Extends.trans (h : w.Extends w') (h' : w'.Extends w'') : w.Extends w'' := by
  obtain ⟨s, htext, hend⟩ := h.text
  obtain ⟨t, htext', hend'⟩ := h'.text
  refine ⟨⟨s ++ t, ?_, ?_⟩, h'.sink.trans h.sink, h'.pending.trans h.pending,
    h'.mapError.trans h.mapError⟩
  · rw [htext', htext, List.append_assoc]
  · rw [hend', hend, List.foldl_append]

/-- Only the text and the map count. -/
theorem extends_same (w : Writer) (level : Nat) (atLineStart heldSemi : Bool) :
    w.Extends { w with level := level, atLineStart := atLineStart, heldSemi := heldSemi } :=
  ⟨⟨[], (List.append_nil _).symm, rfl⟩, rfl, rfl, rfl⟩

theorem extends_append (w : Writer) (s : Bytes) : w.Extends (w.append s) :=
  ⟨⟨s, text_append w s, rfl⟩, rfl, rfl, rfl⟩

theorem steady_extends (w : Writer) : Steady w.Extends :=
  ⟨fun _ _ _ h => h.trans (extends_append _ _), fun _ _ _ _ h => h.trans (extends_same _ _ _ _)⟩

theorem extends_flushSemi (w : Writer) : w.Extends w.flushSemi :=
    (steady_extends w).flushSemi (.refl w)

theorem extends_startLine (w : Writer) : w.Extends w.startLine :=
    (steady_extends w).startLine (.refl w)

theorem extends_separate (w : Writer) (b : UInt8) : w.Extends (w.separate b) :=
  (steady_extends w).separate (.refl w) b

theorem extends_raw (w : Writer) (s : Bytes) : w.Extends (w.raw s) :=
  ((extends_flushSemi w).trans (extends_startLine _)).trans (extends_append _ s)

theorem extends_space (w : Writer) : w.Extends w.space := (steady_extends w).space (.refl w)

theorem extends_forceNewline (w : Writer) : w.Extends w.forceNewline :=
  (steady_extends w).forceNewline (.refl w)

theorem extends_newline (w : Writer) : w.Extends w.newline := (steady_extends w).newline (.refl w)

/-! ## Well-formed text -/

/-- A writer of well-formed text that knows where its text ends. -/
structure Stands (w : Writer) : Prop where
  /-- Line and column are those of the end, in 32-bit words. -/
  place : (w.line, w.col) = words (endOf w.text)
  /-- The text is well-formed. -/
  valid : isValid w.text = true

theorem Stands.append (h : w.Stands) (hs : isValid s = true) : (w.append s).Stands := by
  refine ⟨?_, text_append w s ▸ isValid_append h.valid hs⟩
  rw [text_append, ← foldl_advance, ← h.place]
  rfl

theorem steady_stands : Steady Stands :=
  ⟨fun _ _ hs h => h.append (isValid_ascii hs), fun _ _ _ _ h => ⟨h.place, h.valid⟩⟩

/-- Entering the end into the map leaves the text as it is. -/
theorem Stands.entered (h : w.Stands) : w.place.Stands := by
  unfold Writer.place
  split
  · dsimp only
    split <;> exact ⟨h.place, h.valid⟩
  · exact h

/-- What a writer can be asked to do. -/
inductive Act
  /-- Writing a token. -/
  | token (s : Bytes)
  /-- Writing text as it is. -/
  | raw (s : Bytes)
  /-- Writing a blank. -/
  | space
  /-- Ending the line. -/
  | newline
  /-- Ending the line, also when minifying. -/
  | forceNewline
  /-- Ending a statement. -/
  | semi
  /-- Forgetting the semicolon that was held back. -/
  | dropSemi
  /-- Going one level deeper. -/
  | push
  /-- Going one level back. -/
  | pop
  /-- Saying where the next token comes from. -/
  | map (span : Span)

/-- The text that a writer is given. -/
def Act.text : Act → Bytes
  | .token s | .raw s => s
  | _ => []

/-- The writer when it has done what it is asked. -/
def act (w : Writer) : Act → Writer
  | .token s => w.token s
  | .raw s => w.raw s
  | .space => w.space
  | .newline => w.newline
  | .forceNewline => w.forceNewline
  | .semi => w.semi
  | .dropSemi => w.dropSemi
  | .push => w.push
  | .pop => w.pop
  | .map span => w.map span

theorem Stands.raw (h : w.Stands) (hs : isValid s = true) : (w.raw s).Stands :=
  (steady_stands.startLine (steady_stands.flushSemi h)).append hs

theorem Stands.token (h : w.Stands) (hs : isValid s = true) : (w.token s).Stands := by
  unfold Writer.token
  split
  · exact h
  · have hahead := steady_stands.startLine (steady_stands.flushSemi h)
    exact (steady_stands.separate hahead _).entered.append hs

theorem Stands.act {a : Act} (h : w.Stands) (ha : isValid a.text = true) : (w.act a).Stands := by
  cases a with
  | token s => exact h.token ha
  | raw s => exact h.raw ha
  | space => exact steady_stands.space h
  | newline => exact steady_stands.newline h
  | forceNewline => exact steady_stands.forceNewline h
  | semi =>
    show w.semi.Stands
    unfold semi
    split
    · exact steady_stands.same _ _ _ true (steady_stands.flushSemi h)
    · exact h.token rfl
  | dropSemi => exact steady_stands.same w _ _ false h
  | push => exact steady_stands.same w _ _ _ h
  | pop => exact steady_stands.same w _ _ _ h
  | map span =>
    show (w.map span).Stands
    unfold map
    split
    · exact h
    · exact ⟨h.place, h.valid⟩

theorem Stands.run {acts : List Act} (h : w.Stands) (hacts : ∀ a ∈ acts, isValid a.text = true) :
    (acts.foldl Writer.act w).Stands := by
  induction acts generalizing w with
  | nil => exact h
  | cons a acts ih =>
    obtain ⟨ha, hrest⟩ := List.forall_mem_cons.1 hacts
    exact ih (h.act ha) hrest

theorem Stands.counts (h : w.Stands) : w.line.toNat = w.text.count 10 % 2 ^ 32 ∧
    w.col.toNat = length16 (lastLine w.text) % 2 ^ 32 := by
  rw [← endOf_col (isValid_lastLine h.valid)]
  have hline : w.line = (endOf w.text).1.toUInt32 := congrArg Prod.fst h.place
  have hcol : w.col = (endOf w.text).2.toUInt32 := congrArg Prod.snd h.place
  rw [hline, hcol]
  exact ⟨UInt32.toNat_ofNat', UInt32.toNat_ofNat'⟩

/-- Whatever a new writer is asked to do with well-formed texts, and in whatever order, it counts
the line feeds of its text, and its column is the length of the last line in UTF-16 units, both up
to multiples of `2 ^ 32`. -/
theorem run_counts_lines_and_units (minify : Bool) (indent : Nat) (sink : Option MapSink)
    {acts : List Act} (hacts : ∀ a ∈ acts, isValid a.text = true) :
    let w := acts.foldl act { minify := minify, indent := indent, sink := sink }
    w.line.toNat = w.text.count 10 % 2 ^ 32 ∧ w.col.toNat = length16 (lastLine w.text) %
      2 ^ 32 := by
  intro w
  have hnew : Stands { minify := minify, indent := indent, sink := sink } := ⟨rfl, rfl⟩
  exact (hnew.run hacts).counts

/-- A name with an accent, a line end and a character of two units in front of an indented word. -/
theorem run_counts_indented :
    let w := [Act.token "é", .push, .newline, .raw "😀", .token "x"].foldl act {}
    w.text = "é\n  😀 x" ∧ w.line.toNat = w.text.count 10 % 2 ^ 32 ∧
      w.col.toNat = length16 (lastLine w.text) % 2 ^ 32 :=
  ⟨by decide, run_counts_lines_and_units false 2 none (by decide)⟩

theorem col_letters (n : Nat) :
    let w := [Act.raw (List.replicate n 97)].foldl act {}
    w.col.toNat = n % 2 ^ 32 ∧ length16 (lastLine w.text) = n := by
  intro w
  have hletters : ∀ b ∈ List.replicate n (97 : UInt8), b < 0x80 := fun b hb => by
    rw [(List.mem_replicate.1 hb).2]
    decide
  have hnew : Stands {} := ⟨rfl, rfl⟩
  have hw : w.Stands := hnew.raw (isValid_ascii hletters)
  have htext : w.text = [] ++ List.replicate n 97 := text_append {} _
  have hline : lastLine w.text = List.replicate n 97 := by
    rw [htext, lastLine_append fun h => absurd (List.mem_replicate.1 h).2 (by decide)]
    rfl
  have hunit : unitsOf 97 = 1 := rfl
  have hlength : length16 (lastLine w.text) = n := by
    rw [← sum_unitsOf (isValid_lastLine hw.valid), hline, List.map_replicate, hunit]
    simp
  exact ⟨hlength ▸ hw.counts.2, hlength⟩

/-- Behind a line of `2 ^ 32` letters the column is zero again. -/
theorem long_line_not_counted :
    let w := [Act.raw (List.replicate (2 ^ 32) 97)].foldl act {}
    w.col = 0 ∧ length16 (lastLine w.text) = 2 ^ 32 := by
  obtain ⟨hcol, hlength⟩ := col_letters (2 ^ 32)
  exact ⟨UInt32.toNat_inj.1 (hcol.trans (Nat.mod_self _)), hlength⟩

end

end ScriptLower.Writer
