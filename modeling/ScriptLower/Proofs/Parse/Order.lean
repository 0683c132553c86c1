import ScriptLower.Proofs.Parse.Runs

/-!
# The order of the tokens

The tokens a rule takes stand where the token in front of it stands, or behind. Only what is read
between two tags could stand before that token, because the blanks there count; but nothing of that
kind is read before the rule has taken a token.
-/

namespace ScriptLower.Parse

open ScriptLower

/-- The parse has gone on from `s` to `t`, and it has taken no token that begins before `p`. -/
structure Passes (p : Nat) (s t : State) : Prop extends Advances s t where
  /-- The token in front begins at the place or behind it. -/
  ahead : p ≤ t.front.span.start
  /-- So does every token kept on the way. -/
  kept : ∃ new, t.tokens = s.tokens ++ new ∧ ∀ u ∈ new, p ≤ u.span.start
  /-- The place is passed, or the token in front stays. -/
  still : p ≤ t.consumed ∨ Reread s.front t.front
  /-- The last token consumed is another one, which begins at the place or behind it, or it
  stays. -/
  last : t.lastSpan = s.lastSpan ∨ p ≤ t.lastSpan.start

/-- A token is taken: it is the last one now and may be kept, unless the text ends there. -/
structure Took (tok : Token) (s t : State) : Prop where
  last : t.lastSpan = s.lastSpan ∨ t.lastSpan = tok.span
  tokens : t.tokens = s.tokens ∨ t.tokens = s.tokens ++ [tok]

/-- What is known of the way past the place `p`. -/
structure Know.Placed (p : Nat) (k : Know) (s : State) : Prop extends Know.Fits k s where
  /-- A token is consumed since the enclosing part began, which was not before the place. -/
  begun : k.Begun → p ≤ s.consumed
  /-- The place is passed, or the token in front stands where the other stood. -/
  again : ∀ u, k.next = .again u → p ≤ s.consumed ∨ Reread u s.front

section

variable {s t u : State} {k m : Know} {p : Nat} {α β σ : Type}

theorem Passes.refl (hs : s.Sound) (hp : p ≤ s.front.span.start) : Passes p s s where
  toAdvances := .refl hs
  ahead := hp
  kept := ⟨[], (List.append_nil _).symm, (by simp)⟩
  still := .inr (.refl _)
  last := .inl rfl

theorem Passes.trans (h : Passes p s t) (h' : Passes p t u) : Passes p s u where
  toAdvances := h.toAdvances.trans h'.toAdvances
  ahead := h'.ahead
  kept := by
    obtain ⟨new, hnew, hall⟩ := h.kept
    obtain ⟨new', hnew', hall'⟩ := h'.kept
    refine ⟨new ++ new', by rw [hnew', hnew, List.append_assoc], fun u hu => ?_⟩
    exact (List.mem_append.1 hu).elim (hall u) (hall' u)
  still := by
    rcases h.still with hp | hre
    · exact .inl (Nat.le_trans hp h'.consumed)
    · exact h'.still.imp id hre.trans
  last := by
    rcases h'.last with heq | hp
    · rw [heq]
      exact h.last
    · exact .inr hp

/-- What does not begin before a place does not begin before an earlier one. -/
theorem Passes.of_le {r : Nat} (h : Passes p s t) (hr : r ≤ p) : Passes r s t where
  toAdvances := h.toAdvances
  ahead := Nat.le_trans hr h.ahead
  kept := h.kept.imp fun _ hnew => hnew.imp id fun hall u hu => Nat.le_trans hr (hall u hu)
  still := h.still.imp (Nat.le_trans hr) id
  last := h.last.imp id (Nat.le_trans hr)

/-- Operations that read nothing. -/
theorem Passes.of_reading (hs : s.Sound) (hp : p ≤ s.front.span.start) (hr : t.reading = s.reading)
    (he : s.errors ≤ t.errors) : Passes p s t := by
  have hr' := hr
  simp only [State.reading, Prod.mk.injEq] at hr'
  obtain ⟨hlex, -, hlast, htoks⟩ := hr'
  have hfront : t.front = s.front := by rw [State.front, State.front, hlex]
  refine ⟨.of_reading hs hr he, by rw [hfront]; exact hp,
    ⟨[], by rw [htoks, List.append_nil], (by simp)⟩, .inr ?_, .inl hlast⟩
  rw [hfront]
  exact .refl _

/-- The token in front is read again, or only looked at. -/
theorem Passes.hold (ha : Advances s t) (hp : p ≤ s.front.span.start) (hre : Reread s.front t.front)
    (htoks : t.tokens = s.tokens) (hlast : t.lastSpan = s.lastSpan) : Passes p s t where
  toAdvances := ha
  ahead := hre.start ▸ hp
  kept := ⟨[], by rw [htoks, List.append_nil], (by simp)⟩
  still := .inr hre
  last := .inl hlast

/-- A token is taken that does not begin before the place. -/
theorem Passes.take {tok : Token} (ha : Advances s t) (hp : p ≤ tok.span.start)
    (hc : p ≤ t.consumed) (htook : Took tok s t) : Passes p s t where
  toAdvances := ha
  ahead := Nat.le_trans hc ha.sound.reads.after
  kept := by
    rcases htook.tokens with htoks | htoks
    · exact ⟨[], by rw [htoks, List.append_nil], (by simp)⟩
    · refine ⟨[tok], htoks, fun u hu => ?_⟩
      rw [List.mem_singleton.1 hu]
      exact hp
  still := .inl hc
  last := htook.last.imp id fun hlast => by rw [hlast]; exact hp

/-! ## Knowledge of the place -/

theorem Know.Begun.of_le (h : k.Begun) (hle : k.Le m) : m.Begun :=
  h.imp hle.moved fun hr => hle.rank ▸ hr

theorem Know.Placed.of_le (h : m.Placed p s) (hle : k.Le m) : k.Placed p s where
  toFits := h.toFits.of_le hle
  begun hb := h.begun (hb.of_le hle)
  again u hu := by
    rcases hle.next with hn | hn
    · rw [hn] at hu; cases hu
    · exact h.again u (hn ▸ hu)

/-- Nothing is known of the next token. -/
theorem Know.Placed.blank (hn : k.next = .unknown) (hl : ∀ sp, k.last = some sp → s.lastSpan = sp)
    (hb : k.Begun → p ≤ s.consumed) : k.Placed p s where
  toFits := ⟨fun u hu => absurd hu (by rw [hn]; simp), hl⟩
  begun := hb
  again u hu := by rw [hn] at hu; cases hu

theorem Know.Placed.see (h : k.Placed p s) (ha : Passes p s t) {tok : Token}
    (hheld : t.lexer.held = some tok) (hlast : t.lastSpan = s.lastSpan) :
    (k.see tok).Placed p t where
  toFits := h.toFits.see hheld hlast
  begun hb := Nat.le_trans (h.begun hb) ha.consumed
  again _ := by simp

theorem Know.Placed.later (h : k.Placed p s) (ha : Passes p s t) : k.later.Placed p t where
  toFits := .blank (Next.later_ne_is _) rfl
  begun hb := Nat.le_trans (h.begun hb) ha.consumed
  again v hv := by
    rcases ha.still with hp | hre
    · exact .inl hp
    · cases hn : k.next with
      | unknown => simp [Know.later, hn, Next.later] at hv
      | is w =>
        obtain rfl : w = v := by simpa [Know.later, hn, Next.later] using hv
        rw [State.front_of_held (h.next w hn)] at hre
        exact .inr hre
      | again w =>
        obtain rfl : w = v := by simpa [Know.later, hn, Next.later] using hv
        rcases h.again w hn with hp | hre'
        · exact .inl (Nat.le_trans hp ha.consumed)
        · exact .inr (hre'.trans hre)

theorem Know.Placed.round (h : k.Placed p s) (ha : Passes p s t) : k.round.Placed p t := by
  refine .blank rfl (by simp) fun hb => Nat.le_trans (h.begun ?_) ha.consumed
  rcases hb with hb | hb
  · cases hb
  · simp only at hb
    split at hb
    · exact .inl ‹_›
    · exact .inr hb

/-- The place of the parse is the same. -/
theorem Know.Placed.still (h : k.Placed p s) (hr : t.reading = s.reading) : k.Placed p t := by
  simp only [State.reading, Prod.mk.injEq] at hr
  obtain ⟨hlex, -, hspan, -⟩ := hr
  have hc : t.consumed = s.consumed := by rw [State.consumed, State.consumed, hspan]
  refine ⟨h.toFits.of_eq (by rw [hlex]) hspan, fun hb => hc ▸ h.begun hb, fun u hu => ?_⟩
  rw [hc, State.front, hlex]
  exact h.again u hu

/-! ## Outcomes -/

/-- The outcome of a parser that starts in `s` and takes no token before `p`. -/
def Outcome.Passes (p : Nat) (s : State) (Q : α → Know → Prop) : Outcome α → Prop
  | .ok a t => Parse.Passes p s t ∧ ∃ m, Q a m ∧ m.Placed p t
  | .fail _ t => Parse.Passes p s t
  | .halt _ _ => True

theorem Outcome.Passes.trans {Q : α → Know → Prop} {o : Outcome α} (ha : Parse.Passes p s t)
    (h : o.Passes p t Q) : o.Passes p s Q := by
  cases o with
  | ok a u => exact ⟨ha.trans h.1, h.2⟩
  | fail c u => exact ha.trans h
  | halt w u => trivial

theorem Outcome.Passes.mono {Q R : α → Know → Prop} {o : Outcome α} (h : o.Passes p s Q)
    (hQ : ∀ a m, Q a m → R a m) : o.Passes p s R := by
  cases o with
  | ok a u =>
    obtain ⟨ha, m, hm, hplaced⟩ := h
    exact ⟨ha, m, hQ a m hm, hplaced⟩
  | fail c u => exact h
  | halt w u => trivial

theorem passes_bind {f : α → Parser β} {q : Parser α} {R : α → Know → Prop} {Q : β → Know → Prop}
    (hq : (q s).Passes p s R)
    (hf : ∀ a m t, R a m → m.Placed p t → Passes p s t → (f a t).Passes p t Q) :
    ((q >>= f) s).Passes p s Q := by
  show (Parser.bind q f s).Passes p s Q
  unfold Parser.bind
  cases h : q s with
  | ok a t =>
    rw [h] at hq
    obtain ⟨ha, m, hm, hplaced⟩ := hq
    exact .trans ha (hf a m t hm hplaced ha)
  | fail c t => rw [h] at hq; exact hq
  | halt w t => trivial

/-- An operation that reads nothing. -/
theorem passes_stays {Q : Unit → Know → Prop} {o : Outcome Unit} (hs : s.Sound)
    (hp : p ≤ s.front.span.start) (hk : k.Placed p s) (ho : o.Stays s) (hQ : Q () k) :
    o.Passes p s Q := by
  cases o with
  | ok a t => exact ⟨.of_reading hs hp ho.1 ho.2, k, hQ, hk.still ho.1⟩
  | fail c t => exact ho.elim
  | halt w t => trivial

/-! ## Operations -/

theorem consume_took {tok a : Token} (h : consume tok s = .ok a t) : Took tok s t := by
  unfold consume at h
  split at h
  · obtain rfl := (Outcome.ok.inj h).2
    exact ⟨.inl rfl, .inl rfl⟩
  · obtain rfl := (Outcome.ok.inj h).2
    refine ⟨.inr rfl, ?_⟩
    by_cases hcap : s.capture = true
    · exact .inr (by simp only [hcap, if_true])
    · exact .inl (by simp only [hcap]; rfl)

/-- What a reading of the lexer leaves when its token is taken. -/
theorem lex_consume_took {read : Lexer → Lexer.Result} {a : Token}
    (h : (lex read >>= consume) s = .ok a t) : Took (read s.lexer).1 s t := by
  have h' : consume (read s.lexer).1 (State.noteAll { s with lexer := (read s.lexer).2.1 }
      (read s.lexer).2.2) = .ok a t := h
  have htook := consume_took h'
  exact ⟨by simpa using htook.last, by simpa using htook.tokens⟩

theorem lex_tokens {read : Lexer → Lexer.Result} {a : Token} (h : lex read s = .ok a t) :
    t.tokens = s.tokens := by
  have h' : State.noteAll { s with lexer := (read s.lexer).2.1 } (read s.lexer).2.2 = t :=
    (Outcome.ok.inj h).2
  rw [← h', State.noteAll_tokens]

/-- Behind the end of the text the end of the text is in front again. -/
theorem front_behind_end (hs : s.Sound) (ht : t.Sound) (hfile : t.lexer.file = s.lexer.file)
    (hk : s.front.kind = .eof) (hlex : t.lexer = s.lexer.next.2.1) : Reread s.front t.front := by
  have hreads := hs.reads
  have hend := start_eq_stop_of_nil hreads.stands (hreads.stands.heads.eof.1 hk)
  have hheld : t.lexer.held = none := by rw [hlex, hreads.behind]
  have hfront : t.front = t.lexer.scan.1 := by
    unfold State.front Lexer.next
    rw [hheld]
  have hafter := (Lexer.scan_scans ht.inFile hheld).after
  have hoff : t.lexer.offset = s.front.span.stop - s.lexer.file.base := by rw [hlex, hreads.behind]
  have hb := hreads.stands.base_le
  have ho := hreads.stands.ordered
  have ho' := ht.reads.stands.ordered
  have hst' := ht.reads.stands.stop_le
  rw [← hfront, hfile, hoff] at hafter
  rw [hfile] at hst'
  exact .of_stands hreads.stands (hfile ▸ ht.reads.stands) (by omega)

theorem Passes.peek (hs : s.Sound) (hp : p ≤ s.front.span.start) :
    ∃ t, peek s = .ok s.front t ∧ Passes p s t ∧ t.lexer.held = some s.front ∧
      t.lastSpan = s.lastSpan := by
  obtain ⟨t, hrun, ha, hheld, hlast⟩ := hs.peek
  refine ⟨t, hrun, .hold ha hp ?_ (lex_tokens hrun) hlast, hheld, hlast⟩
  rw [State.front_of_held hheld]
  exact .refl _

theorem Passes.advance (hs : s.Sound) (hp : p ≤ s.front.span.start) :
    ∃ t, advance s = .ok s.front t ∧ Passes p s t ∧
      (s.front.kind = .eof → t.lastSpan = s.lastSpan) ∧
      (s.front.kind ≠ .eof → t.lastSpan = s.front.span ∧ p ≤ t.consumed) := by
  obtain ⟨t, hrun, ha, hend, htaken, -⟩ := hs.advance
  by_cases hk : s.front.kind = .eof
  · have hlex : t = State.noteAll { s with lexer := s.lexer.next.2.1 } s.lexer.next.2.2 := by
      have h :
          consume s.front (State.noteAll { s with lexer := s.lexer.next.2.1 } s.lexer.next.2.2) =
          .ok s.front t := hrun
      rw [consume_eof hk] at h
      exact (Outcome.ok.inj h).2.symm
    refine ⟨t, hrun, .hold ha hp ?_ ?_ (hend hk), hend, fun h => absurd hk h⟩
    · exact front_behind_end hs ha.sound ha.file hk (by rw [hlex, State.noteAll_lexer])
    · rw [hlex, State.noteAll_tokens]
  · have hc : p ≤ t.consumed := by
      rw [State.consumed, htaken hk]
      exact Nat.le_trans hp hs.reads.stands.ordered
    exact ⟨t, hrun, .take ha hp hc (lex_consume_took hrun), hend, fun h => ⟨htaken h, hc⟩⟩

/-- The token read ahead is read again, and stays in front. -/
theorem Passes.reread {tok : Token} {r : Lexer.Result} (hs : s.Sound)
    (hp : p ≤ s.front.span.start) (hheld : s.lexer.held = some tok) (hr : s.lexer.Rereads tok r) :
    Passes p s (State.noteAll { s with lexer := r.2.1.push r.1 } r.2.2) := by
  have hahead := (hs.held tok hheld).1
  refine .hold (.reread hs hheld hr) hp ?_ (State.noteAll_tokens _ _) (by simp)
  rw [State.front_of_held hheld, State.front_of_held (t := r.1) (by rw [State.noteAll_lexer]; rfl)]
  exact .of_stands hahead.stands ⟨hr.lies, hr.start.symm ▸ hr.heads⟩ hr.start

/-- The token read ahead is read again, and taken. -/
theorem Passes.retake {tok : Token} {r : Lexer.Result} {a : Token} (hs : s.Sound)
    (hp : p ≤ s.front.span.start) (hheld : s.lexer.held = some tok)
    (hr : s.lexer.Gives tok.span.start r) (hmoves : tok.span.start < r.1.span.stop)
    (hrun : consume r.1 (State.noteAll { s with lexer := r.2.1 } r.2.2) = .ok a t)
    (hkind : r.1.kind ≠ .eof) : Passes p s t ∧ p ≤ t.consumed := by
  have htook := consume_took hrun
  rw [consume_taken hkind] at hrun
  obtain rfl := (Outcome.ok.inj hrun).2
  rw [State.front_of_held hheld] at hp
  have hc : p ≤ r.1.span.stop := by omega
  refine ⟨.take (.retake hs hheld hr hmoves) (by rw [hr.start]; exact hp) hc ?_, hc⟩
  exact ⟨by simpa using htook.last, by simpa using htook.tokens⟩

/-- A name in a tag is taken. -/
theorem Passes.readTagName {tok : Token} (hs : s.Sound) (hp : p ≤ s.front.span.start)
    (hheld : s.lexer.held = some tok) (hk : tok.kind.isPropertyName = true) :
    ∃ a t, readTagName tok s = .ok a t ∧ Passes p s t ∧ p ≤ t.consumed := by
  have hahead := (hs.held tok hheld).1
  obtain ⟨hgives, hkind, hpos⟩ := Lexer.rereadTagName_gives hahead.stands hk
  rw [State.front_of_held hheld] at hp
  have hstart := hgives.start
  obtain ⟨a, t, hrun, ha, -⟩ := hs.readTagName hheld hk
  have htook := @lex_consume_took s t (fun lx => lx.rereadTagName tok) a hrun
  have hc : p ≤ t.consumed := by
    rw [readTagName_eq rfl hkind] at hrun
    obtain rfl := (Outcome.ok.inj hrun).2
    exact Nat.le_trans hp (hstart ▸ hgives.lies.ordered)
  exact ⟨a, t, hrun, .take ha (by rw [hstart]; exact hp) hc htook, hc⟩

/-- What follows between two tags is taken, behind the place. -/
theorem Passes.readChild (hs : s.Sound) (hp : p ≤ s.consumed) :
    ∃ a t, readChild s = .ok a t ∧ Passes p s t := by
  obtain ⟨a, t, hrun, ha, -⟩ := hs.readChild
  have hlast : s.lastToken.span.stop = s.consumed := by rw [hs.last]; rfl
  have hgives := (Lexer.nextChild_gives s.lexer s.lastToken (by rw [hlast]; exact hs.inside)).1
  have htook := @lex_consume_took s t (fun lx => lx.nextChild s.lastToken) a hrun
  refine ⟨a, t, hrun, .take ha ?_ (Nat.le_trans hp ha.consumed) htook⟩
  rw [hgives.start, hlast]
  omega

theorem Passes.peekAttributeValue (hs : s.Sound) (hp : p ≤ s.front.span.start) :
    ∃ a t, peekAttributeValue s = .ok a t ∧ Passes p s t ∧ t.lexer.held = some a ∧
      t.lastSpan = s.lastSpan := by
  obtain ⟨a, t, hrun, ha, hheld, hlast, hre, htoks⟩ := hs.peekAttributeValue
  refine ⟨a, t, hrun, .hold ha hp ?_ htoks hlast, hheld, hlast⟩
  rw [State.front_of_held hheld]
  exact hre

/-! ## Control -/

theorem passes_loopFrom {step : σ → Parser (σ ⊕ α)} {Q : α → Know → Prop}
    (hstep : ∀ a t, Passes p s t → (step a t).Passes p t (k.RoundEnds Q)) (hk : k.Placed p s)
    (rounds : Nat) (init : σ) (ht : Passes p s t) : (loopFrom step rounds init t).Passes p s Q := by
  induction rounds generalizing init t with
  | zero => trivial
  | succ rounds ih =>
    have h := hstep init t ht
    unfold loopFrom
    cases hrun : step init t with
    | ok x u =>
      rw [hrun] at h
      obtain ⟨hu, m, hm, hplaced⟩ := h
      cases x with
      | inl a =>
        dsimp only
        split
        · exact ih a (ht.trans hu)
        · trivial
      | inr c =>
        have hlater := hk.later (ht.trans hu)
        refine ⟨ht.trans hu, _, hm,
          ⟨fun v hv => absurd hv (Next.later_ne_is _ _), hplaced.last⟩, ?_,
          hlater.again⟩
        rintro (hb | hb)
        · simp only [Know.behind, Bool.or_eq_true] at hb
          rcases hb with hb | hb
          · exact hlater.begun (.inl hb)
          · exact hplaced.begun (.inl hb)
        · exact hlater.begun (.inr hb)
    | fail c u => rw [hrun] at h; exact ht.trans h
    | halt w u => trivial

theorem passes_bracket {enter : State → State} {leave : State → State → State} {q : Parser α}
    {Q : α → Know → Prop} (hfr : Framing enter leave) (hs : s.Sound) (hp : p ≤ s.front.span.start)
    (hq : (q (enter s)).Passes p (enter s) Q) : (bracket enter leave q s).Passes p s Q := by
  obtain ⟨hr, he⟩ := hfr.enter_reading s
  have hin : Passes p s (enter s) := .of_reading hs hp hr (Nat.le_of_eq he.symm)
  have hback {t : State} (ht : Passes p (enter s) t) : Passes p s (leave s t) := by
    obtain ⟨hr', he'⟩ := hfr.leave_reading s t
    exact (hin.trans ht).trans (.of_reading ht.sound ht.ahead hr' (Nat.le_of_eq he'.symm))
  unfold bracket
  cases h : q (enter s) with
  | ok a t =>
    rw [h] at hq
    obtain ⟨ht, m, hm, hplaced⟩ := hq
    exact ⟨hback ht, m, hm, hplaced.still (hfr.leave_reading s t).1⟩
  | fail c t => rw [h] at hq; exact hback hq
  | halt w t => trivial

theorem passes_attempt {q : Parser α} {Q : Option α → Know → Prop} (hk : k.Placed p s)
    (hq : (q s).Passes p s fun a m => Q (some a) m) (hnone : Q none k.later) :
    (attempt q s).Passes p s Q := by
  unfold attempt
  cases h : q s with
  | ok a t => rw [h] at hq; exact hq
  | fail c t =>
    rw [h] at hq
    exact ⟨hq, _, hnone, hk.later hq⟩
  | halt w t => trivial

theorem passes_speculate {q : Parser α} {Q : Option α → Know → Prop} (hs : s.Sound)
    (hp : p ≤ s.front.span.start) (hk : k.Placed p s) (hframe : (q s.enterTry).Framed s.enterTry)
    (hq : (q s.enterTry).Passes p s.enterTry fun a m => Q (some a) m) (hnone : Q none k) :
    (speculate q s).Passes p s Q := by
  have hin : Passes p s s.enterTry := .of_reading hs hp rfl (Nat.le_refl _)
  have h := speculate_tried q s
  generalize speculate q s = o at h ⊢
  cases h with
  | kept hrun _ ht =>
    rw [hrun] at hq
    obtain ⟨hpass, m, hm, hplaced⟩ := hq
    have hr : State.reading _ = State.reading _ := congrArg State.reading ht.eq
    exact ⟨(hin.trans hpass).trans (.of_reading hpass.sound hpass.ahead hr ht.errors), m, hm,
      hplaced.still hr⟩
  | limit => trivial
  | undone hu =>
    rw [undoTry_eq (hframe.endsIn hu)]
    exact ⟨.refl hs hp, k, hnone, hk⟩
  | stopped => trivial

theorem passes_lookahead {q : Parser Bool} {Q : Bool → Know → Prop} (hs : s.Sound)
    (hp : p ≤ s.front.span.start) (hk : k.Placed p s) (hframe : (q s.enterTry).Framed s.enterTry)
    (hQ : ∀ a, Q a k) : (lookahead q s).Passes p s Q := by
  have h := lookahead_looked q s
  generalize lookahead q s = o at h ⊢
  cases h with
  | undone hu =>
    rw [undoTry_eq (hframe.endsIn hu)]
    exact ⟨.refl hs hp, k, hQ _, hk⟩
  | stopped => trivial

/-! ## Every rule -/

/-- A parser for the parts of the grammar takes no token before the one in front. -/
def Rules.Pass (g : Rules) : Prop :=
  ∀ p part s, s.Sound → part.Opens s → p ≤ s.front.span.start →
    (g part s).Passes p s fun node m => m.moved = true ∧ part.Ends node m

/-- A token is taken: behind it the place is passed. -/
theorem Know.Placed.past (hc : p ≤ t.consumed) (hn : m.next = .unknown) (hl : m.last = none) :
    m.Placed p t := .blank hn (fun sp hsp => by rw [hl] at hsp; cases hsp) fun _ => hc

/-- What is put together from the operations of a parser takes no token before the one in front. -/
theorem Obeys.passes {g : Rules} (hframe : g.Framed) (hg : g.Pass) {q : Bool} {r : Parser α}
    {Q : α → Know → Prop} (h : Obeys g q k r Q) (hs : s.Sound) (hp : p ≤ s.front.span.start)
    (hk : k.Placed p s) : (r s).Passes p s Q := by
  induction h generalizing s with
  | pure hQ => exact ⟨.refl hs hp, _, hQ, hk⟩
  | bind _ _ ihp ihf =>
    exact passes_bind (ihp hs hp hk) fun a m t hm hplaced ht => ihf a m hm ht.sound ht.ahead hplaced
  | mono _ hmono ih => exact (ih hs hp hk).mono hmono
  | forget _ hle ih => exact ih hs hp (hk.of_le hle)
  | fail => exact .refl hs hp
  | view hQ =>
    exact ⟨.refl hs hp, _, hQ s.view hk.last, ⟨hk.next, fun _ h => Option.some.inj h⟩,
      hk.begun, hk.again⟩
  | peek hQ =>
    obtain ⟨t, hrun, ht, hheld, hlast⟩ := Passes.peek hs hp
    rw [hrun]
    exact ⟨ht, _, hQ _ fun v hv => State.front_of_held (hk.next v hv), hk.see ht hheld hlast⟩
  | @peekAgain q k v Q hv hmoved hstay =>
    obtain ⟨t, hrun, ht, hheld, hlast⟩ := Passes.peek hs hp
    have hsee := hk.see ht hheld hlast
    rw [hrun]
    by_cases hre : Reread v s.front
    · exact ⟨ht, _, hstay _ hre, hsee⟩
    · have hc := (hk.again v hv).resolve_right hre
      exact ⟨ht, _, hmoved _, ⟨hsee.next, hsee.last⟩, fun _ => Nat.le_trans hc ht.consumed,
        fun _ => (by simp)⟩
  | peek2 hQ => exact ⟨.refl hs hp, _, hQ _, hk⟩
  | @advance q k Q hQ =>
    obtain ⟨t, hrun, ht, hend, htaken⟩ := Passes.advance hs hp
    rw [hrun]
    refine ⟨ht, _, hQ _ fun v hv => State.front_of_held (hk.next v hv),
      .blank rfl (fun sp hsp => ?_) ?_⟩
    · rcases Know.last_take hsp with ⟨he, hlast⟩ | ⟨he, rfl⟩
      · rw [hend he]
        exact hk.last sp hlast
      · exact (htaken he).1
    · by_cases he : s.front.kind = .eof
      · intro hb
        have hb : k.Begun := by simpa [Know.Begun, Know.Reads, Know.take, he] using hb
        exact Nat.le_trans (hk.begun hb) ht.consumed
      · exact fun _ => (htaken he).2
  | splitLess hn ht hQ =>
    have hheld := hk.next _ hn
    have hre := Lexer.rereadLess_rereads (hs.held _ hheld).1.stands (ht.imp id .inl)
    have hpass := Passes.reread hs hp hheld hre
    rw [splitLess_eq]
    exact ⟨hpass, _, hQ _ (rereadLess_kind ht),
      hk.see hpass (by rw [State.noteAll_lexer]; rfl) (by simp)⟩
  | joinGreater hn ht hQ =>
    have hheld := hk.next _ hn
    have hre := Lexer.rereadGreater_rereads (hs.held _ hheld).1.stands ht
    have hpass := Passes.reread hs hp hheld hre
    rw [joinGreater_eq]
    exact ⟨hpass, _, hQ _ (rereadGreater_ne_eof ht),
      hk.see hpass (by rw [State.noteAll_lexer]; rfl) (by simp)⟩
  | @readRegExp q k tok Q hn ht hQ =>
    have hheld := hk.next _ hn
    obtain ⟨hgives, hmoves⟩ := Lexer.rereadSlash_gives (hs.held _ hheld).1.stands
      (by rcases ht with ht | ht <;> rw [ht] <;> simp)
    have hkind : (s.lexer.rereadSlash tok).1.kind ≠ .eof := by
      rcases rereadSlash_kind s.lexer tok with hk | hk <;> rw [hk] <;> simp
    have hrun : Parse.readRegExp tok s = _ := consume_taken hkind _
    obtain ⟨hpass, hc⟩ := Passes.retake hs hp hheld hgives hmoves hrun hkind
    rw [hrun]
    exact ⟨hpass, _, hQ _, .past hc rfl rfl⟩
  | @readTemplate q k tok Q hn ht hQ =>
    have hheld := hk.next _ hn
    obtain ⟨hgives, hmoves⟩ := Lexer.rereadTemplate_gives (hs.held _ hheld).1.stands
      (by rw [ht]; simp)
    have hkind : (s.lexer.rereadTemplate tok).1.kind ≠ .eof := by
      rcases rereadTemplate_kind s.lexer tok with hk | hk | hk <;> rw [hk] <;> simp
    have hrun : Parse.readTemplate tok s = _ := consume_taken hkind _
    obtain ⟨hpass, hc⟩ := Passes.retake hs hp hheld hgives hmoves hrun hkind
    rw [hrun]
    exact ⟨hpass, _, hQ _, .past hc rfl rfl⟩
  | readTagName hn ht hQ =>
    obtain ⟨a, t, hrun, hpass, hc⟩ := Passes.readTagName hs hp (hk.next _ hn) ht
    rw [hrun]
    exact ⟨hpass, _, hQ a, .past hc rfl rfl⟩
  | readChild hb hQ =>
    obtain ⟨a, t, hrun, hpass⟩ := Passes.readChild hs (hk.begun hb)
    rw [hrun]
    exact ⟨hpass, _, hQ a, .past (Nat.le_trans (hk.begun hb) hpass.consumed) rfl rfl⟩
  | peekAttributeValue hQ =>
    obtain ⟨a, t, hrun, hpass, hheld, hlast⟩ := Passes.peekAttributeValue hs hp
    rw [hrun]
    exact ⟨hpass, _, hQ a, hk.see hpass hheld hlast⟩
  | @errorAt q k span code message Q hQ =>
    have hk : k.tell.Placed p s := ⟨⟨hk.next, hk.last⟩, hk.begun, hk.again⟩
    exact passes_stays hs hp hk (errorAt_stays _ _ _ s) hQ
  | addLeading _ hQ => exact passes_stays hs hp hk (addLeading_stays _ s) hQ
  | addDanglingOf _ hQ => exact passes_stays hs hp hk (addDanglingOf_stays _ s) hQ
  | declare hQ => exact passes_stays hs hp hk (declare_stays _ _ s) hQ
  | requireTypes hQ => exact passes_stays hs hp hk (requireTypes_stays _ s) hQ
  | @part q k part Q hreads hsees hQ =>
    have hopens : part.Opens s := fun hc => by
      obtain ⟨tok, ht, hne⟩ := hsees hc
      exact ⟨tok, hk.next tok ht, hne⟩
    have hpart := hg p part s hs hopens hp
    cases h : g part s with
    | ok node t =>
      rw [h] at hpart
      obtain ⟨hpass, m, ⟨hmoved, hends⟩, hplaced⟩ := hpart
      refine ⟨hpass, { k.past with last := m.last },
        hQ _ _ ⟨rfl, id, id, .inl rfl, id, .inl rfl, rfl⟩
        (hends.of_last rfl), .blank rfl hplaced.last fun _ => hplaced.begun (.inl hmoved)⟩
    | fail c t => rw [h] at hpart; exact hpart
    | halt w t => trivial
  | bracket hfr _ ih =>
    obtain ⟨hr, he⟩ := hfr.enter_reading s
    have hin : Passes p s _ := .of_reading hs hp hr (Nat.le_of_eq he.symm)
    exact passes_bracket hfr hs hp (ih hin.sound hin.ahead (hk.still hr))
  | loop _ ih =>
    exact passes_loopFrom (fun a t ht => ih a ht.sound ht.ahead (hk.round ht)) hk _ _ (.refl hs hp)
  | attempt _ hnone ih => exact passes_attempt hk (ih hs hp hk) hnone
  | speculate hq hnone ih =>
    have hin : Passes p s s.enterTry := .of_reading hs hp rfl (Nat.le_refl _)
    have hk' := hk.still (t := s.enterTry) rfl
    exact passes_speculate hs hp hk (hq.framed hframe hk'.toFits).1
      (ih hin.sound hin.ahead hk') hnone
  | lookahead hq hQ _ =>
    have hk' := hk.still (t := s.enterTry) rfl
    exact passes_lookahead hs hp hk (hq.framed hframe hk'.toFits).1 hQ

/-- The rules of the grammar take no token before the one in front. -/
theorem rules_pass (depth : Nat) : (rules depth).Pass := by
  induction depth with
  | zero => exact fun _ _ _ _ _ _ => trivial
  | succ depth ih =>
    intro p part s hs hopen hp
    -- a part begins without a consumed token, and its rank allows no part of every rank
    have hfresh (next : Next) : ¬Know.Begun { rank := part.rank, next := next } := by
      rintro (hb | hb)
      · cases hb
      · exact absurd hb (Nat.not_lt.2 (Nat.le_sub_one_of_lt part.rank_lt))
    have hpart {k : Know} (hk : k.Placed p s) (hrank : part.rank ≤ k.rank)
        (hsees : part = .construct → k.Sees) : (rules (depth + 1) part s).Passes p s fun node m =>
          m.moved = true ∧ part.Ends node m :=
      ((rule_obeys (q := false) hrank hsees).passes (rules_framed depth) ih hs hp hk).mono
        fun node m hm => ⟨hm.1.moved rfl, hm.2⟩
    by_cases hc : part = .construct
    · obtain ⟨tok, hheld, hne⟩ := hopen hc
      have hk : Know.Placed p { rank := part.rank, next := .is tok } s :=
        ⟨⟨fun u hu => by cases hu; exact hheld, (by simp)⟩, fun hb => absurd hb (hfresh _),
          fun _ => (by simp)⟩
      exact hpart hk (Nat.le_refl _) fun _ => ⟨tok, rfl, hne⟩
    · have hk : Know.Placed p { rank := part.rank } s :=
        .blank rfl (by simp) fun hb => absurd hb (hfresh _)
      exact hpart hk (Nat.le_refl _) fun h => absurd h hc

end

end ScriptLower.Parse
