import ScriptLower.Proofs.Parse.Progress

/-!
# What a rule knows is true

The knowledge that the discipline writes down is true of the states a rule comes through. So where
the discipline asks for a consumed token one is consumed, and where it asks for an error one is
counted. It follows that the knot of the rules never runs out, that a repetition stops for want of
progress only where the parse is stuck, and that a rule fails in silence only for the two reasons
that say so.
-/

namespace ScriptLower.Parse

open ScriptLower

/-! ## Knowledge that is true -/

/-- What is known of the way since the mark `b`, with the rules tied to the depth `n`, or to some
depth when `n` says nothing. -/
structure Know.Kept (b : Nat) (n : Option Nat) (k : Know) (s : State) : Prop where
  /-- The parse stands behind the mark. -/
  mark : b ≤ s.consumed
  /-- A token is consumed. -/
  moved : s.Fair → k.moved = true → b < s.consumed
  /-- A token is consumed, or the parse is stuck. -/
  cut : s.Fair → k.cut = true → b < s.consumed ∨ s.Stuck
  /-- An error is counted. -/
  told : k.told = true → 0 < s.errors
  /-- The rules are tied deep enough for the parts that may be read from the mark on. -/
  deep : ∀ d ∈ n, s.Fair → partsPerToken * s.lexer.file.left b + k.rank ≤ d

/-- What is known is true, seen from a mark that the parse has passed. -/
structure Know.Holds (b : Nat) (n : Option Nat) (k : Know) (s : State) : Prop
    extends Know.Fits k s, Know.Kept b n k s where
  /-- A token is consumed, or the one in front stands where the other stood. -/
  again : s.Fair → ∀ t, k.next = .again t → b < s.consumed ∨ Reread t s.front

section

variable {s t : State} {k m : Know} {b : Nat} {n : Option Nat} {α β σ : Type}

theorem Know.Kept.along (h : k.Kept b n s) (ha : Advances s t) : k.Kept b n t where
  mark := Nat.le_trans h.mark ha.consumed
  moved hf hm := Nat.lt_of_lt_of_le (h.moved (ha.fair.1 hf) hm) ha.consumed
  cut hf hc := by
    have hf := ha.fair.1 hf
    have hle := h.mark
    have hcon := ha.consumed
    rcases h.cut hf hc with hlt | hst
    · exact .inl (by omega)
    · rcases ha.stay hf with hlt | ⟨-, hstuck⟩
      · exact .inl (by omega)
      · exact .inr (hstuck hst)
  told ht := Nat.lt_of_lt_of_le (h.told ht) ha.errors
  deep d hd hf := by
    rw [ha.file]
    exact h.deep d hd (ha.fair.1 hf)

/-- Another knowledge that says no more of the way. -/
theorem Know.Kept.of_le (h : m.Kept b n s) (hrank : k.rank = m.rank)
    (hmoved : k.moved = true → m.moved = true)
    (hcut : k.cut = true → m.cut = true) (htold : k.told = true → m.told = true) :
    k.Kept b n s where
  mark := h.mark
  moved hf hm := h.moved hf (hmoved hm)
  cut hf hc := h.cut hf (hcut hc)
  told ht := h.told (htold ht)
  deep d hd hf := hrank ▸ h.deep d hd hf

/-- Nothing has happened since the mark. -/
theorem Know.Kept.start {rank : Nat} (next : Next)
    (hdeep : ∀ d ∈ n, s.Fair → partsPerToken * s.lexer.file.left s.consumed + rank ≤ d) :
    Know.Kept s.consumed n { rank := rank, next := next } s where
  mark := Nat.le_refl _
  moved _ := by simp
  cut _ := by simp
  told := by simp
  deep := hdeep

theorem Know.Holds.of_le (h : m.Holds b n s) (hle : k.Le m) : k.Holds b n s where
  toFits := h.toFits.of_le hle
  toKept := h.toKept.of_le hle.rank hle.moved hle.cut hle.told
  again hf u hu := by
    rcases hle.next with hn | hn
    · rw [hn] at hu; cases hu
    · exact h.again hf u (hn ▸ hu)

/-- Nothing is known of the next token. -/
theorem Know.Holds.blank (hk : k.Kept b n s) (hn : k.next = .unknown)
    (hl : ∀ sp, k.last = some sp → s.lastSpan = sp) : k.Holds b n s where
  toFits := ⟨fun u hu => absurd hu (by rw [hn]; simp), hl⟩
  toKept := hk
  again _ u hu := by rw [hn] at hu; cases hu

/-- The next token has been looked at. -/
theorem Know.Holds.see (h : k.Holds b n s) (ha : Advances s t) {tok : Token}
    (hheld : t.lexer.held = some tok) (hlast : t.lastSpan = s.lastSpan) :
    (k.see tok).Holds b n t where
  toFits := h.toFits.see hheld hlast
  toKept := (h.toKept.along ha).of_le rfl id id id
  again _ _ := by simp

/-- Behind something that may have consumed the next token. -/
theorem Know.Holds.later (h : k.Holds b n s) (ha : Advances s t) : k.later.Holds b n t where
  toFits := .blank (Next.later_ne_is _) rfl
  toKept := (h.toKept.along ha).of_le rfl id id id
  again hf u hu := by
    have hf := ha.fair.1 hf
    have hmark := h.mark
    have hcon := ha.consumed
    rcases ha.stay hf with hlt | ⟨hre, -⟩
    · exact .inl (by omega)
    · cases hn : k.next with
      | unknown => simp [Know.later, hn, Next.later] at hu
      | is v =>
        obtain rfl : v = u := by simpa [Know.later, hn, Next.later] using hu
        right
        rwa [State.front_of_held (h.next v hn)] at hre
      | again v =>
        obtain rfl : v = u := by simpa [Know.later, hn, Next.later] using hu
        rcases h.again hf v hn with hlt | hre'
        · exact .inl (by omega)
        · exact .inr (hre'.trans hre)

/-- The place of the parse is the same. -/
theorem Know.Holds.still (h : k.Holds b n s) (hs : s.Sound) (hr : t.reading = s.reading)
    (he : s.errors ≤ t.errors) : k.Holds b n t where
  toFits := by
    simp only [State.reading, Prod.mk.injEq] at hr
    exact h.toFits.of_eq (by rw [hr.1]) hr.2.2.1
  toKept := h.toKept.along (.of_reading hs hr he)
  again hf u hu := by
    have hc := (Advances.of_reading hs hr he).consumed
    have hf := (Advances.of_reading hs hr he).fair.1 hf
    simp only [State.reading, Prod.mk.injEq] at hr
    rcases h.again hf u hu with hlt | hre
    · exact .inl (by omega)
    · exact .inr (by rwa [State.front, hr.1])

/-! ## Outcomes -/

/-- The outcome of a parser that starts in `s` and keeps the discipline. -/
def Outcome.Runs (q : Bool) (b : Nat) (n : Option Nat) (s : State) (Q : α → Know → Prop) :
    Outcome α → Prop
  | .ok a t => Advances s t ∧ ∃ m, Q a m ∧ m.Holds b n t
  | .fail c t => Advances s t ∧ (c = .reported → 0 < t.errors) ∧ (c = .otherReading → q = true)
  | .halt .errorLimit _ => True
  | .halt .noProgress t => s.Fair → t.Stuck
  | .halt .outOfSteps _ => n.isSome = true → ¬s.Fair

theorem Outcome.Runs.trans {q : Bool} {Q : α → Know → Prop} {o : Outcome α} (ha : Advances s t)
    (h : o.Runs q b n t Q) : o.Runs q b n s Q := by
  cases o with
  | ok a u => exact ⟨ha.trans h.1, h.2⟩
  | fail c u => exact ⟨ha.trans h.1, h.2⟩
  | halt w u =>
    cases w with
    | errorLimit => trivial
    | noProgress => exact fun hf => h (ha.fair.2 hf)
    | outOfSteps => exact fun hn hf => h hn (ha.fair.2 hf)

theorem Outcome.Runs.mono {q : Bool} {Q R : α → Know → Prop} {o : Outcome α} (h : o.Runs q b n s Q)
    (hQ : ∀ a m, Q a m → R a m) : o.Runs q b n s R := by
  cases o with
  | ok a u =>
    obtain ⟨ha, m, hm, hholds⟩ := h
    exact ⟨ha, m, hQ a m hm, hholds⟩
  | fail c u => exact h
  | halt w u => cases w <;> exact h

theorem runs_bind {q : Bool} {p : Parser α} {f : α → Parser β} {R : α → Know → Prop}
    {Q : β → Know → Prop} (hp : (p s).Runs q b n s R)
    (hf : ∀ a m t, R a m → m.Holds b n t → Advances s t → (f a t).Runs q b n t Q) :
    ((p >>= f) s).Runs q b n s Q := by
  show (Parser.bind p f s).Runs q b n s Q
  unfold Parser.bind
  cases h : p s with
  | ok a t =>
    rw [h] at hp
    obtain ⟨ha, m, hm, hholds⟩ := hp
    exact .trans ha (hf a m t hm hholds ha)
  | fail c t => rw [h] at hp; exact hp
  | halt w t => rw [h] at hp; cases w <;> exact hp

/-- An operation that reads nothing. -/
theorem runs_still {q : Bool} {Q : α → Know → Prop} {o : Outcome α} (hs : s.Sound)
    (hk : k.Holds b n s)
    (ho : (∃ a t, o = .ok a t ∧ t.reading = s.reading ∧ s.errors ≤ t.errors ∧
      ∃ m, Q a m ∧ m.rank = k.rank ∧ m.next = k.next ∧ m.last = k.last ∧
        (m.moved = true → k.moved = true) ∧
        (m.cut = true → k.cut = true) ∧ (m.told = true → k.told = true ∨ 0 < t.errors)) ∨
      ∃ t, o = .halt .errorLimit t) : o.Runs q b n s Q := by
  rcases ho with ⟨a, t, rfl, hr, he, m, hm, hrank, hn, hl, hmoved, hcut, htold⟩ | ⟨t, rfl⟩
  · have hk' := hk.still hs hr he
    refine ⟨.of_reading hs hr he, m, hm, ?_⟩
    exact
      { next := fun u hu => hk'.next u (hn ▸ hu)
        last := fun sp hsp => hk'.last sp (hl ▸ hsp)
        mark := hk'.mark
        moved := fun hf h => hk'.moved hf (hmoved h)
        cut := fun hf h => hk'.cut hf (hcut h)
        told := fun h => (htold h).elim hk'.told id
        deep := fun d hd hf => hrank ▸ hk'.deep d hd hf
        again := fun hf u hu => hk'.again hf u (hn ▸ hu) }
  · trivial

/-! ## Operations -/

theorem runs_peek {q : Bool} {Q : Token → Know → Prop} (hs : s.Sound) (hk : k.Holds b n s)
    (hQ : ∀ u, (∀ v, k.next = .is v → u = v) → Q u (k.see u)) : (peek s).Runs q b n s Q := by
  obtain ⟨t, hrun, ha, hheld, hlast⟩ := hs.peek
  rw [hrun]
  refine ⟨ha, _, hQ _ fun v hv => ?_, hk.see ha hheld hlast⟩
  exact State.front_of_held (hk.next v hv)

theorem runs_peekAgain {q : Bool} {v : Token} {Q : Token → Know → Prop} (hs : s.Sound)
    (hk : k.Holds b n s) (hv : k.next = .again v) (hmoved : ∀ u, Q u { k.see u with moved := true })
    (hstay : ∀ u, Reread v u → Q u (k.see u)) : (peek s).Runs q b n s Q := by
  obtain ⟨t, hrun, ha, hheld, hlast⟩ := hs.peek
  have hsee := hk.see ha hheld hlast
  rw [hrun]
  by_cases hre : Reread v s.front
  · exact ⟨ha, _, hstay _ hre, hsee⟩
  · refine ⟨ha, _, hmoved _, ⟨hsee.next, hsee.last⟩, ?_, fun _ _ => (by simp)⟩
    refine ⟨hsee.mark, fun hf _ => ?_, hsee.cut, hsee.told, hsee.deep⟩
    have hc := ha.consumed
    have := (hk.again (ha.fair.1 hf) v hv).resolve_right hre
    omega

theorem runs_advance {q : Bool} {Q : Token → Know → Prop} (hs : s.Sound) (hk : k.Holds b n s)
    (hQ : ∀ u, (∀ v, k.next = .is v → u = v) → Q u (k.take u)) : (advance s).Runs q b n s Q := by
  obtain ⟨t, hrun, ha, hend, htaken, htold⟩ := hs.advance
  rw [hrun]
  have hkept := hk.toKept.along ha
  refine ⟨ha, _, hQ _ fun v hv => ?_,
    .blank ⟨hkept.mark, fun hf hm => ?_, hkept.cut, fun ht => ?_, hkept.deep⟩ rfl
    fun sp hsp => ?_⟩
  · exact State.front_of_held (hk.next v hv)
  · simp only [Know.take, Bool.or_eq_true, bne_iff_ne, ne_eq] at hm
    rcases hm with hm | hm
    · exact hkept.moved hf hm
    · have hreads := hs.reads
      have hlt := hreads.moves (ha.fair.1 hf) hm
      have hafter := hreads.after
      have hmark := hk.mark
      have hstop : t.consumed = s.front.span.stop := by rw [State.consumed, htaken hm]
      omega
  · simp only [Know.take, Bool.or_eq_true, beq_iff_eq] at ht
    exact ht.elim hkept.told htold
  · rcases Know.last_take hsp with ⟨he, hlast⟩ | ⟨he, rfl⟩
    · rw [hend he]
      exact hk.last sp hlast
    · exact htaken he

theorem State.noteAll_withLexer (ds : List Diagnostic) (s : State) (lx : Lexer) :
    { s.noteAll ds with lexer := lx } = State.noteAll { s with lexer := lx } ds := by
  induction ds generalizing s with
  | nil => rfl
  | cons d ds ih => exact ih (s.note d)

/-- Reading a token and making it the next one. -/
theorem lex_push_eq (read : Lexer → Lexer.Result) (f : Token → Parser α) (s : State) :
    (lex read >>= fun tok => push tok >>= fun _ => f tok) s =
      f (read s.lexer).1 (State.noteAll
        { s with lexer := (read s.lexer).2.1.push (read s.lexer).1 } (read s.lexer).2.2) := by
  rw [← State.noteAll_withLexer _ { s with lexer := (read s.lexer).2.1 }]
  show f _ { State.noteAll _ _ with lexer := (State.noteAll _ _).lexer.push _ } = _
  rw [State.noteAll_lexer]

theorem splitLess_eq (tok : Token) (s : State) : splitLess tok s =
    .ok () (State.noteAll
      { s with lexer := (s.lexer.rereadLess tok).2.1.push (s.lexer.rereadLess tok).1 }
      (s.lexer.rereadLess tok).2.2) :=
  lex_push_eq (fun lx => lx.rereadLess tok) (fun _ => pure ()) s

theorem joinGreater_eq (tok : Token) (s : State) : joinGreater tok s =
    .ok (s.lexer.rereadGreater tok).1 (State.noteAll
      { s with lexer := (s.lexer.rereadGreater tok).2.1.push (s.lexer.rereadGreater tok).1 }
      (s.lexer.rereadGreater tok).2.2) :=
  lex_push_eq (fun lx => lx.rereadGreater tok) pure s

theorem rereadSlash_kind (lx : Lexer) (tok : Token) :
    (lx.rereadSlash tok).1.kind = .regExpLit ∨ (lx.rereadSlash tok).1.kind = .invalid := by
  show (Lexeme.regExp _).kind = _ ∨ (Lexeme.regExp _).kind = _
  unfold Lexeme.regExp
  split
  · exact .inl rfl
  · exact .inr rfl

theorem rereadTemplate_kind (lx : Lexer) (tok : Token) :
    (lx.rereadTemplate tok).1.kind = .templateMiddle ∨
      (lx.rereadTemplate tok).1.kind = .templateTail ∨
        (lx.rereadTemplate tok).1.kind = .invalid := by
  show (Lexeme.template false _).kind = _ ∨ (Lexeme.template false _).kind = _ ∨
    (Lexeme.template false _).kind = _
  unfold Lexeme.template
  split
  · exact .inr (.inl rfl)
  · exact .inl rfl
  · exact .inr (.inr rfl)

/-- The token read ahead is read again, and stays in front. -/
theorem runs_reread {q : Bool} {tok : Token} {r : Lexer.Result} {a : α} {Q : α → Know → Prop}
    {o : Outcome α} (hs : s.Sound) (hk : k.Holds b n s) (hn : k.next = .is tok)
    (hr : s.lexer.Rereads tok r)
    (ho : o = .ok a (State.noteAll { s with lexer := r.2.1.push r.1 } r.2.2))
    (hQ : Q a (k.see r.1)) : o.Runs q b n s Q := by
  have ha := Advances.reread hs (hk.next tok hn) hr
  rw [ho]
  refine ⟨ha, _, hQ, hk.see ha ?_ (by simp)⟩
  rw [State.noteAll_lexer]
  rfl

/-- The token read ahead is read again, and taken. -/
theorem runs_retake {q : Bool} {tok : Token} {r : Lexer.Result} {Q : Token → Know → Prop}
    {o : Outcome Token} {told : Bool} (hs : s.Sound) (hk : k.Holds b n s) (hn : k.next = .is tok)
    (hr : s.lexer.Gives tok.span.start r) (hmoves : tok.span.start < r.1.span.stop)
    (hkind : r.1.kind ≠ .eof) (htold : told = true → r.1.kind = .invalid)
    (ho : o = consume r.1 (State.noteAll { s with lexer := r.2.1 } r.2.2))
    (hQ : Q r.1 { k.past with told := k.told || told }) : o.Runs q b n s Q := by
  have hheld := hk.next tok hn
  have ha := Advances.retake hs hheld hr hmoves
  have hafter := (hs.held tok hheld).1.after
  have hmark := hk.mark
  have hkept := hk.toKept.along ha
  rw [ho, consume_taken hkind]
  refine ⟨ha, _, hQ, .blank ⟨hkept.mark, fun _ _ => ?_, hkept.cut, fun ht => ?_, hkept.deep⟩ rfl
    (by simp)⟩
  · show b < r.1.span.stop
    omega
  · simp only [Bool.or_eq_true] at ht
    rcases ht with ht | ht
    · exact hkept.told ht
    · show 0 < (State.noteAll { s with lexer := r.2.1 } r.2.2).errors
      rw [State.noteAll_errors]
      have := countP_isError_pos hr.errors (hr.told (htold ht))
      omega

theorem runs_errorAt {q : Bool} {span : Span} {code : Code} {message : Bytes}
    {Q : Unit → Know → Prop} (hs : s.Sound) (hk : k.Holds b n s) (hQ : Q () k.tell) :
    (errorAt span code message s).Runs q b n s Q := by
  have he : s.errors < (s.note (Diagnostic.error code span message)).errors := by
    simp [State.note, Diagnostic.isError, Diagnostic.error, Severity.isError, Severity.error]
  refine runs_still hs hk ?_
  rcases errorAt_cases span code message s with h | ⟨-, h⟩ <;> rw [h]
  · exact .inl
      ⟨_, _, rfl, rfl, Nat.le_of_lt he, k.tell, hQ, rfl, rfl, rfl, id, id, fun _ => .inr (by omega)⟩
  · exact .inr ⟨_, rfl⟩

/-! ### Operations that read nothing -/

/-- An operation reads nothing: the parse stands where it stood, or the limit of errors is
reached. -/
def Outcome.Stays (s : State) : Outcome Unit → Prop
  | .ok _ t => t.reading = s.reading ∧ s.errors ≤ t.errors
  | .halt .errorLimit _ => True
  | _ => False

theorem errorAt_stays (span : Span) (code : Code) (message : Bytes) (s : State) :
    (errorAt span code message s).Stays s := by
  rcases errorAt_cases span code message s with h | ⟨-, h⟩ <;> rw [h]
  · refine ⟨rfl, ?_⟩
    simp only [State.note]
    split <;> omega
  · trivial

theorem addLeading_stays (tok : Token) (s : State) : (addLeading tok s).Stays s := by
  unfold addLeading modify
  dsimp only
  split
  · exact ⟨rfl, Nat.le_refl _⟩
  · exact ⟨rfl, Nat.le_refl _⟩

theorem addDanglingOf_stays (tok : Token) (s : State) : (addDanglingOf tok s).Stays s := by
  unfold addDanglingOf modify
  dsimp only
  split
  · exact ⟨rfl, Nat.le_refl _⟩
  · exact ⟨rfl, Nat.le_refl _⟩

theorem declare_stays (lexical : Bool) (name : Node) (s : State) :
    (declare lexical name s).Stays s := by
  rcases declare_cases lexical name s with h | ⟨-, ⟨scope, outer, -, h⟩ | h⟩ <;> rw [h]
  · exact ⟨rfl, Nat.le_refl _⟩
  · exact ⟨rfl, Nat.le_refl _⟩
  · exact errorAt_stays _ _ _ s

theorem requireTypes_stays (tok : Token) (s : State) : (requireTypes tok s).Stays s := by
  rcases requireTypes_cases tok s with h | ⟨-, h⟩ | ⟨-, h⟩ <;> rw [h]
  · exact ⟨rfl, Nat.le_refl _⟩
  · exact ⟨rfl, Nat.le_refl _⟩
  · exact errorAt_stays _ _ _ s

theorem runs_stays {q : Bool} {Q : Unit → Know → Prop} {o : Outcome Unit} (hs : s.Sound)
    (hk : k.Holds b n s) (ho : o.Stays s) (hQ : Q () k) : o.Runs q b n s Q := by
  cases o with
  | ok a t =>
    exact runs_still hs hk (.inl ⟨_, _, rfl, ho.1, ho.2, k, hQ, rfl, rfl, rfl, id, id, .inl⟩)
  | fail c t => exact ho.elim
  | halt w t =>
    cases w with
    | errorLimit => trivial
    | noProgress => exact ho.elim
    | outOfSteps => exact ho.elim

/-! ## Control -/

/-- How many more rounds of a repetition can consume something. -/
def State.left (s : State) : Nat := s.lexer.file.left s.consumed

theorem State.Sound.left_pos (hs : s.Sound) : 0 < s.left := by
  have := hs.inside
  unfold State.left SourceFile.left SourceFile.stop at *
  omega

theorem Advances.left_lt (h : Advances s t) (hlt : s.consumed < t.consumed) :
    t.left < s.left := by
  have h1 := h.sound.inside
  have h2 := h.sound.base_le
  unfold State.left SourceFile.left SourceFile.stop at *
  rw [h.file] at *
  omega

/-- A repetition: each round starts from a mark of its own. -/
theorem runs_loopFrom {q : Bool} {step : σ → Parser (σ ⊕ α)} {Q : α → Know → Prop}
    (hstep : ∀ a t, t.Sound → Advances s t →
      (step a t).Runs q t.consumed n t (k.RoundEnds Q))
    (hk : k.Holds b n s) (rounds : Nat) (init : σ) (ht : t.Sound) (ha : Advances s t)
    (hleft : t.left ≤ rounds) :
    (loopFrom step rounds init t).Runs q b n s Q := by
  induction rounds generalizing init t with
  | zero => exact absurd hleft (Nat.not_le.2 ht.left_pos)
  | succ rounds ih =>
    have h := hstep init t ht ha
    unfold loopFrom
    cases hrun : step init t with
    | ok x u =>
      rw [hrun] at h
      obtain ⟨hau, m, hm, hholds⟩ := h
      cases x with
      | inl a =>
        dsimp only
        split
        · rename_i hlt
          have := hau.left_lt hlt
          exact ih a hau.sound (ha.trans hau) (by omega)
        · rename_i hlt
          intro hf
          have hfu := (ha.trans hau).fair.2 hf
          rcases hm with hm | hm
          · exact absurd (hholds.moved hfu hm) hlt
          · exact (hholds.cut hfu hm).resolve_left hlt
      | inr c =>
        have hau' := ha.trans hau
        have hlater := hk.later hau'
        have hkept := hk.toKept.along hau'
        refine ⟨hau', _, hm, ⟨fun v hv => absurd hv (Next.later_ne_is _ _), hholds.last⟩, ?_,
          hlater.again⟩
        refine ⟨hkept.mark, fun hf hmv => ?_, hkept.cut, hholds.told, hkept.deep⟩
        simp only [Know.behind, Bool.or_eq_true] at hmv
        rcases hmv with hmv | hmv
        · exact hkept.moved hf hmv
        · have hlt := hholds.moved hf hmv
          have hmark := hk.mark
          have hc := ha.consumed
          omega
    | fail c u =>
      rw [hrun] at h
      exact ⟨ha.trans h.1, h.2⟩
    | halt w u =>
      rw [hrun] at h
      cases w with
      | errorLimit => trivial
      | noProgress => exact fun hf => h (ha.fair.2 hf)
      | outOfSteps => exact fun hn hf => h hn (ha.fair.2 hf)

theorem Framing.enter_reading {enter : State → State} {leave : State → State → State}
    (hfr : Framing enter leave) (s : State) :
    (enter s).reading = s.reading ∧ (enter s).errors = s.errors := by
  rw [hfr.enter_eq s]
  exact ⟨rfl, rfl⟩

theorem Framing.leave_reading {enter : State → State} {leave : State → State → State}
    (hfr : Framing enter leave) (s t : State) :
    (leave s t).reading = t.reading ∧ (leave s t).errors = t.errors := by
  rw [hfr.leave_eq s t]
  exact ⟨rfl, rfl⟩

theorem Advances.same {s' t' : State} (h : Advances s t) (hs : s.reading = s'.reading)
    (ht : t'.reading = t.reading) (hse : s'.errors ≤ s.errors) (hte : t.errors ≤ t'.errors)
    (hsound : s'.Sound) : Advances s' t' :=
  ((Advances.of_reading hsound hs hse).trans h).trans (.of_reading h.sound ht hte)

theorem State.Stuck.of_reading (h : s.Stuck) (hr : t.reading = s.reading) : t.Stuck := by
  simp only [State.reading, Prod.mk.injEq] at hr
  obtain ⟨hlex, htok, hspan, -⟩ := hr
  exact ⟨htok ▸ h.kind, hspan ▸ h.empty, by rw [hlex, hspan]; exact h.escape⟩

theorem runs_bracket {q : Bool} {enter : State → State} {leave : State → State → State}
    {p : Parser α} {Q : α → Know → Prop} (hfr : Framing enter leave) (hs : s.Sound)
    (hp : (p (enter s)).Runs q b n (enter s) Q) : (bracket enter leave p s).Runs q b n s Q := by
  obtain ⟨hr, he⟩ := hfr.enter_reading s
  have hfair : (enter s).Fair ↔ s.Fair := (Advances.of_reading hs hr (Nat.le_of_eq he.symm)).fair
  have hback {t : State} (ha : Advances (enter s) t) : Advances s (leave s t) :=
    ha.same hr (hfr.leave_reading s t).1 (Nat.le_of_eq he.symm)
      (Nat.le_of_eq (hfr.leave_reading s t).2.symm) hs
  unfold bracket
  cases h : p (enter s) with
  | ok a t =>
    rw [h] at hp
    obtain ⟨ha, m, hm, hholds⟩ := hp
    exact ⟨hback ha, m, hm, hholds.still ha.sound (hfr.leave_reading s t).1
      (Nat.le_of_eq (hfr.leave_reading s t).2.symm)⟩
  | fail c t =>
    rw [h] at hp
    exact ⟨hback hp.1, fun hc => by rw [(hfr.leave_reading s t).2]; exact hp.2.1 hc, hp.2.2⟩
  | halt w t =>
    rw [h] at hp
    cases w with
    | errorLimit => trivial
    | noProgress => exact fun hf => (hp (hfair.2 hf)).of_reading (hfr.leave_reading s t).1
    | outOfSteps => exact fun hn hf => hp hn (hfair.2 hf)

theorem runs_attempt {q : Bool} {p : Parser α} {Q : Option α → Know → Prop} (hk : k.Holds b n s)
    (hp : (p s).Runs q b n s fun a m => Q (some a) m) (hnone : Q none k.later) :
    (attempt p s).Runs q b n s Q := by
  unfold attempt
  cases h : p s with
  | ok a t => rw [h] at hp; exact hp
  | fail c t =>
    rw [h] at hp
    exact ⟨hp.1, _, hnone, hk.later hp.1⟩
  | halt w t => rw [h] at hp; cases w <;> exact hp

theorem runs_speculate {q : Bool} {p : Parser α} {Q : Option α → Know → Prop} (hs : s.Sound)
    (hk : k.Holds b n s) (hframe : (p s.enterTry).Framed s.enterTry)
    (hp : (p s.enterTry).Runs true b n s.enterTry fun a m => Q (some a) m) (hnone : Q none k) :
    (speculate p s).Runs q b n s Q := by
  have h := speculate_tried p s
  generalize speculate p s = o at h ⊢
  cases h with
  | kept hrun _ ht =>
    rw [hrun] at hp
    obtain ⟨ha, m, hm, hholds⟩ := hp
    have hr : State.reading _ = State.reading _ := congrArg State.reading ht.eq
    exact ⟨ha.same rfl hr (Nat.le_refl _) ht.errors hs, m, hm, hholds.still ha.sound hr ht.errors⟩
  | limit => trivial
  | undone hu =>
    rw [undoTry_eq (hframe.endsIn hu)]
    exact ⟨.refl hs, k, hnone, hk⟩
  | @stopped w u hw hrun =>
    rw [hrun] at hp
    cases w <;> trivial

theorem runs_lookahead {q : Bool} {p : Parser Bool} {Q : Bool → Know → Prop} (hs : s.Sound)
    (hk : k.Holds b n s) (hframe : (p s.enterTry).Framed s.enterTry)
    (hp : (p s.enterTry).Runs true b n s.enterTry fun _ _ => True) (hQ : ∀ a, Q a k) :
    (lookahead p s).Runs q b n s Q := by
  have h := lookahead_looked p s
  generalize lookahead p s = o at h ⊢
  cases h with
  | undone hu =>
    rw [undoTry_eq (hframe.endsIn hu)]
    exact ⟨.refl hs, k, hQ _, hk⟩
  | @stopped w u hw hrun =>
    rw [hrun] at hp
    cases w <;> trivial

/-! ## Every rule -/

/-- A parser for the parts of the grammar keeps the discipline when it is tied to a depth. -/
def Rules.Run (n : Option Nat) (g : Rules) : Prop :=
  ∀ part s, s.Sound → part.Opens s →
    (∀ d ∈ n, s.Fair → partsPerToken * s.left + part.rank < d) →
    (g part s).Runs false s.consumed n s fun node m => m.moved = true ∧ part.Ends node m

theorem runs_part {q : Bool} {g : Rules} {part : Part} {Q : Node → Know → Prop} (hg : g.Run n)
    (hs : s.Sound) (hk : k.Holds b n s) (hreads : k.Reads part.rank)
    (hsees : part = .construct → k.Sees)
    (hQ : ∀ node m, k.past.Le m → part.Ends node m → Q node m) :
    (g part s).Runs q b n s Q := by
  have hopens : part.Opens s := fun hc => by
    obtain ⟨tok, ht, hne⟩ := hsees hc
    exact ⟨tok, hk.next tok ht, hne⟩
  have hdeep (d : Nat) (hn : d ∈ n) (hf : s.Fair) : partsPerToken * s.left + part.rank < d := by
    have hd := hk.deep d hn hf
    have hmark := hk.mark
    have hrank := part.rank_lt
    have hin := hs.inside
    have hbase := hs.base_le
    unfold State.left SourceFile.left SourceFile.stop partsPerToken at *
    rcases hreads with hmoved | hlt
    · have := hk.moved hf hmoved
      omega
    · omega
  have hrun := hg part s hs hopens hdeep
  cases h : g part s with
  | ok node t =>
    rw [h] at hrun
    obtain ⟨ha, m, ⟨hmoved, hends⟩, hholds⟩ := hrun
    have hkept := hk.toKept.along ha
    have hmark := hk.mark
    refine ⟨ha, { k.past with last := m.last }, hQ _ _ ⟨rfl, id, id, .inl rfl, id, .inl rfl, rfl⟩
      (hends.of_last rfl),
        .blank ⟨hkept.mark, fun hf _ => ?_, hkept.cut, hkept.told, hkept.deep⟩ rfl
      hholds.last⟩
    have := hholds.moved hf hmoved
    omega
  | fail c t =>
    rw [h] at hrun
    exact ⟨hrun.1, hrun.2.1, fun hc => absurd (hrun.2.2 hc) (by simp)⟩
  | halt w t => rw [h] at hrun; cases w <;> exact hrun

/-- What is known at the start of a round of a repetition. -/
theorem Know.Holds.round (hk : k.Holds b n s) (ha : Advances s t) :
    k.round.Holds t.consumed n t := by
  have hkept := hk.toKept.along ha
  refine .blank ⟨Nat.le_refl _, fun _ => (by simp), fun _ => (by simp), hkept.told,
    fun d hn hf => ?_⟩ rfl (by simp)
  have hd := hkept.deep d hn hf
  have hmark := hkept.mark
  have hin := ha.sound.inside
  have hbase := ha.sound.base_le
  unfold SourceFile.left SourceFile.stop at *
  simp only
  by_cases hm : k.moved = true
  · have := hkept.moved hf hm
    rw [if_pos hm]
    unfold partsPerToken at *
    omega
  · rw [if_neg hm]
    unfold partsPerToken at *
    omega

/-- What is put together from the operations of a parser keeps what the discipline promises. -/
theorem Obeys.runs {g : Rules} (hframe : g.Framed) (hg : g.Run n) {q : Bool} {p : Parser α}
    {Q : α → Know → Prop} (h : Obeys g q k p Q) (hs : s.Sound) (hk : k.Holds b n s) :
    (p s).Runs q b n s Q := by
  induction h generalizing s b with
  | pure hQ => exact ⟨.refl hs, _, hQ, hk⟩
  | bind _ _ ihp ihf =>
    exact runs_bind (ihp hs hk) fun a m t hm hholds ha => ihf a m hm ha.sound hholds
  | mono _ hmono ih => exact (ih hs hk).mono hmono
  | forget _ hle ih => exact ih hs (hk.of_le hle)
  | fail htold hq => exact ⟨.refl hs, fun hc => hk.told (htold hc), hq⟩
  | view hQ =>
    refine ⟨.refl hs, _, hQ s.view hk.last, ⟨hk.next, fun _ h => Option.some.inj h⟩, ?_, hk.again⟩
    exact hk.toKept.of_le rfl id id id
  | peek hQ => exact runs_peek hs hk hQ
  | peekAgain hv hmoved hstay => exact runs_peekAgain hs hk hv hmoved hstay
  | peek2 hQ => exact ⟨.refl hs, _, hQ _, hk⟩
  | advance hQ => exact runs_advance hs hk hQ
  | splitLess hn ht hQ =>
    have hstands := (hs.held _ (hk.next _ hn)).1.stands
    exact runs_reread hs hk hn (Lexer.rereadLess_rereads hstands (ht.imp id .inl))
      (splitLess_eq _ s)
      (hQ _ (rereadLess_kind ht))
  | joinGreater hn ht hQ =>
    have hstands := (hs.held _ (hk.next _ hn)).1.stands
    exact runs_reread hs hk hn (Lexer.rereadGreater_rereads hstands ht) (joinGreater_eq _ s)
      (hQ _ (rereadGreater_ne_eof ht))
  | readRegExp hn ht hQ =>
    have hstands := (hs.held _ (hk.next _ hn)).1.stands
    obtain ⟨hgives, hmoves⟩ := Lexer.rereadSlash_gives hstands
      (by rcases ht with ht | ht <;> rw [ht] <;> simp)
    refine runs_retake hs hk hn hgives hmoves ?_ (fun h => ?_) rfl (hQ _)
    · rcases rereadSlash_kind s.lexer _ with hk | hk <;> rw [hk] <;> simp
    · exact (rereadSlash_kind s.lexer _).resolve_left (by simpa using h)
  | readTemplate hn ht hQ =>
    have hstands := (hs.held _ (hk.next _ hn)).1.stands
    obtain ⟨hgives, hmoves⟩ := Lexer.rereadTemplate_gives hstands (by rw [ht]; simp)
    refine runs_retake hs hk hn hgives hmoves ?_ (fun h => ?_) rfl (hQ _)
    · rcases rereadTemplate_kind s.lexer _ with hk | hk | hk <;> rw [hk] <;> simp
    · simp only [Bool.and_eq_true, bne_iff_ne, ne_eq] at h
      exact ((rereadTemplate_kind s.lexer _).resolve_left h.1).resolve_left h.2
  | readTagName hn ht hQ =>
    obtain ⟨u, t, hrun, ha, hcut⟩ := hs.readTagName (hk.next _ hn) ht
    have hkept := hk.toKept.along ha
    have hmark := hk.mark
    rw [hrun]
    refine ⟨ha, _, hQ u,
      .blank ⟨hkept.mark, hkept.moved, fun hf _ => ?_, hkept.told, hkept.deep⟩ rfl (by simp)⟩
    exact (hcut (ha.fair.1 hf)).imp (Nat.lt_of_le_of_lt hmark) id
  | readChild _ hQ =>
    obtain ⟨u, t, hrun, ha, hmoves⟩ := hs.readChild
    have hkept := hk.toKept.along ha
    have hmark := hk.mark
    rw [hrun]
    refine ⟨ha, _, hQ u, .blank ⟨hkept.mark, fun hf hm => ?_, hkept.cut, hkept.told, hkept.deep⟩ rfl
      (by simp)⟩
    simp only [Bool.or_eq_true, bne_iff_ne, ne_eq] at hm
    rcases hm with hm | hm
    · exact hkept.moved hf hm
    · exact Nat.lt_of_le_of_lt hmark (hmoves hm)
  | peekAttributeValue hQ =>
    obtain ⟨u, t, hrun, ha, hheld, hlast, -, -⟩ := hs.peekAttributeValue
    rw [hrun]
    exact ⟨ha, _, hQ u, hk.see ha hheld hlast⟩
  | errorAt hQ => exact runs_errorAt hs hk hQ
  | addLeading _ hQ => exact runs_stays hs hk (addLeading_stays _ s) hQ
  | addDanglingOf _ hQ => exact runs_stays hs hk (addDanglingOf_stays _ s) hQ
  | declare hQ => exact runs_stays hs hk (declare_stays _ _ s) hQ
  | requireTypes hQ => exact runs_stays hs hk (requireTypes_stays _ s) hQ
  | part hreads hsees hQ => exact runs_part hg hs hk hreads hsees hQ
  | bracket hfr _ ih =>
    obtain ⟨hr, he⟩ := hfr.enter_reading s
    exact runs_bracket hfr hs
      (ih (hs.of_reading hr (Nat.le_of_eq he.symm)) (hk.still hs hr (Nat.le_of_eq he.symm)))
  | loop _ ih =>
    refine runs_loopFrom (fun a t ht ha => ih a ht (hk.round ha)) hk _ _ hs (.refl hs) ?_
    unfold State.left SourceFile.left SourceFile.stop
    omega
  | attempt _ hnone ih => exact runs_attempt hk (ih hs hk) hnone
  | speculate hp hnone ih =>
    have hin := hk.still (t := s.enterTry) hs rfl (Nat.le_refl _)
    exact runs_speculate hs hk (hp.framed hframe hin.toFits).1
      (ih (hs.of_reading rfl (Nat.le_refl _)) hin) hnone
  | lookahead hp hQ ih =>
    have hin := hk.still (t := s.enterTry) hs rfl (Nat.le_refl _)
    exact runs_lookahead hs hk (hp.framed hframe hin.toFits).1
      (ih (hs.of_reading rfl (Nat.le_refl _)) hin) hQ

theorem Outcome.Runs.deeper {q : Bool} {n' : Option Nat} {Q : α → Know → Prop} {o : Outcome α}
    (h : o.Runs q b n s Q) (hle : ∀ d ∈ n', ∃ e ∈ n, e ≤ d) : o.Runs q b n' s Q := by
  cases o with
  | ok a u =>
    obtain ⟨ha, m, hm, hholds⟩ := h
    refine ⟨ha, m, hm, hholds.toFits, ?_, hholds.again⟩
    refine ⟨hholds.mark, hholds.moved, hholds.cut, hholds.told, fun d hd hf => ?_⟩
    obtain ⟨e, he, hed⟩ := hle d hd
    exact Nat.le_trans (hholds.deep e he hf) hed
  | fail c u => exact h
  | halt w u =>
    cases w with
    | errorLimit => trivial
    | noProgress => exact h
    | outOfSteps =>
      intro hn
      obtain ⟨d, hd⟩ := Option.isSome_iff_exists.1 hn
      obtain ⟨e, he, -⟩ := hle d hd
      exact h (Option.isSome_iff_exists.2 ⟨e, he⟩)

/-- The rules of the grammar keep the discipline, however deep the knot is tied. -/
theorem rules_run {depth : Nat} (hle : ∀ d ∈ n, d ≤ depth) : (rules depth).Run n := by
  induction depth generalizing n with
  | zero =>
    intro part s hs _ hdeep hn hf
    obtain ⟨d, hd⟩ := Option.isSome_iff_exists.1 hn
    have := hdeep d hd hf
    have := hle d hd
    omega
  | succ depth ih =>
    intro part s hs hopen hdeep
    have hbelow : ∀ e ∈ n.map Nat.pred, ∃ d ∈ n, e = d - 1 := by
      intro e he
      obtain ⟨d, hd, rfl⟩ := Option.map_eq_some_iff.1 he
      exact ⟨d, hd, rfl⟩
    have hkept (next : Next) :
        Know.Kept s.consumed (n.map Nat.pred) { rank := part.rank, next := next } s := by
      refine .start next fun e he hf => ?_
      obtain ⟨d, hd, rfl⟩ := hbelow e he
      exact Nat.le_sub_one_of_lt (hdeep d hd hf)
    have hrun : (rules depth).Run (n.map Nat.pred) := by
      refine ih fun e he => ?_
      obtain ⟨d, hd, rfl⟩ := hbelow e he
      have := hle d hd
      omega
    have hpart {k : Know} (hk : k.Holds s.consumed (n.map Nat.pred) s) (hrank : part.rank ≤ k.rank)
        (hsees : part = .construct → k.Sees) :
        (rules (depth + 1) part s).Runs false s.consumed n s fun node m =>
          m.moved = true ∧ part.Ends node m := by
      have h := (rule_obeys (q := false) hrank hsees).runs (rules_framed depth) hrun hs hk
      refine (h.mono fun node m hm => ⟨hm.1.moved rfl, hm.2⟩).deeper fun d hd => ?_
      exact ⟨d - 1, Option.map_eq_some_iff.2 ⟨d, hd, rfl⟩, Nat.sub_le d 1⟩
    by_cases hc : part = .construct
    · obtain ⟨tok, hheld, hne⟩ := hopen hc
      have hk : Know.Holds s.consumed (n.map Nat.pred) { rank := part.rank, next := .is tok } s :=
        ⟨⟨fun u hu => by cases hu; exact hheld, (by simp)⟩, hkept _, fun _ _ => (by simp)⟩
      exact hpart hk (Nat.le_refl _) fun _ => ⟨tok, rfl, hne⟩
    · have hk : Know.Holds s.consumed (n.map Nat.pred) { rank := part.rank } s :=
        .blank (hkept _) rfl (by simp)
      exact hpart hk (Nat.le_refl _) fun h => absurd h hc

end

end ScriptLower.Parse
