import ScriptLower.Proofs.Parse.Frame

/-!
# Tries that are undone

What every rule leaves alone follows from the discipline by induction: one case for each operation.
A rule relies on what it knows of the next token and of the last one, so the induction carries that
this fits the state.

A try that gives nothing, and a look ahead whatever it gives, then leave the whole state as it was.
-/

namespace ScriptLower.Parse

open ScriptLower

variable {s t u : State} {α β σ : Type}

/-! ## What is known of the place -/

/-- What is known of the place fits a state. -/
structure Know.Fits (k : Know) (s : State) : Prop where
  /-- The next token has been looked at. -/
  next : ∀ t, k.next = .is t → s.lexer.held = some t
  /-- The last token was consumed there. -/
  last : ∀ sp, k.last = some sp → s.lastSpan = sp

/-- Where a part may be read: a construction only in front of its keyword. -/
def Part.Opens (part : Part) (s : State) : Prop :=
  part = .construct → ∃ t, s.lexer.held = some t ∧ t.kind ≠ .eof

/-- What is known behind a parser fits the state. -/
def Outcome.Finds (Q : α → Know → Prop) : Outcome α → Prop
  | .ok a t => ∃ m, Q a m ∧ m.Fits t
  | _ => True

theorem Know.Fits.of_eq {k : Know} (h : k.Fits s) (hl : t.lexer.held = s.lexer.held)
    (hs : t.lastSpan = s.lastSpan) : k.Fits t :=
  ⟨fun u hu => hl.trans (h.next u hu), fun sp hsp => hs.trans (h.last sp hsp)⟩

theorem Know.Fits.of_le {k m : Know} (h : m.Fits s) (hle : k.Le m) : k.Fits s where
  next t ht := by
    rcases hle.next with hn | hn
    · rw [hn] at ht; cases ht
    · exact h.next t (hn ▸ ht)
  last sp hsp := by
    rcases hle.last with hl | hl
    · rw [hl] at hsp; cases hsp
    · exact h.last sp (hl ▸ hsp)

/-- Nothing is known of the next token, nor of the last one. -/
theorem Know.Fits.blank {k : Know} (hn : ∀ t, k.next ≠ .is t) (hl : k.last = none) : k.Fits s :=
  ⟨fun t ht => absurd ht (hn t), fun sp hsp => by rw [hl] at hsp; cases hsp⟩

theorem Know.round_fits (k : Know) (s : State) : k.round.Fits s := .blank (by simp) rfl

theorem Know.Fits.see {k : Know} (h : k.Fits s) {u : Token} (hu : t.lexer.held = some u)
    (hs : t.lastSpan = s.lastSpan) : (k.see u).Fits t where
  next v hv := by cases hv; exact hu
  last sp hsp := hs.trans (h.last sp hsp)

theorem Outcome.Finds.mono {Q R : α → Know → Prop} {o : Outcome α} (h : o.Finds Q)
    (hQ : ∀ a m, Q a m → R a m) : o.Finds R := by
  cases o with
  | ok a t =>
    obtain ⟨m, hm, hfit⟩ := h
    exact ⟨m, hQ a m hm, hfit⟩
  | fail c t => trivial
  | halt w t => trivial

/-- An operation that reads nothing keeps what is known of the place. -/
theorem Outcome.Finds.still {k m : Know} {Q : α → Know → Prop} {o : Outcome α} (hk : k.Fits s)
    (ho : ∀ a t, o = .ok a t → t.lexer = s.lexer ∧ t.lastSpan = s.lastSpan)
    (hn : m.next = k.next) (hl : m.last = k.last) (hQ : ∀ a, Q a m) : o.Finds Q := by
  cases o with
  | ok a t =>
    obtain ⟨hlex, hlast⟩ := ho a t rfl
    refine ⟨m, hQ a, fun u hu => ?_, fun sp hsp => ?_⟩
    · rw [hlex]
      exact hk.next u (hn ▸ hu)
    · rw [hlast]
      exact hk.last sp (hl ▸ hsp)
  | fail c t => trivial
  | halt w t => trivial

theorem Next.later_ne_is (x : Next) (t : Token) : x.later ≠ .is t := by
  cases x <;> simp [later]

/-! ## Operations -/

theorem errorAt_still {span : Span} {code : Code} {message : Bytes} {a : Unit}
    (h : errorAt span code message s = .ok a t) : t.lexer = s.lexer ∧ t.lastSpan = s.lastSpan := by
  rcases errorAt_cases span code message s with he | ⟨-, he⟩ <;> rw [he] at h <;> cases h
  exact ⟨rfl, rfl⟩

theorem declare_still {lexical : Bool} {n : Node} {a : Unit} (h : declare lexical n s = .ok a t) :
    t.lexer = s.lexer ∧ t.lastSpan = s.lastSpan := by
  rcases declare_cases lexical n s with hc | ⟨-, ⟨scope, outer, -, hc⟩ | hc⟩ <;> rw [hc] at h
  · cases h; exact ⟨rfl, rfl⟩
  · cases h; exact ⟨rfl, rfl⟩
  · exact errorAt_still h

theorem requireTypes_still {tok : Token} {a : Unit} (h : requireTypes tok s = .ok a t) :
    t.lexer = s.lexer ∧ t.lastSpan = s.lastSpan := by
  rcases requireTypes_cases tok s with hc | ⟨-, hc⟩ | ⟨-, hc⟩ <;> rw [hc] at h
  · cases h; exact ⟨rfl, rfl⟩
  · cases h; exact ⟨rfl, rfl⟩
  · exact errorAt_still h

theorem addLeading_still {tok : Token} {a : Unit} (h : addLeading tok s = .ok a t) :
    t.lexer = s.lexer ∧ t.lastSpan = s.lastSpan := by
  cases h
  dsimp only
  split <;> exact ⟨rfl, rfl⟩

theorem addDanglingOf_still {tok : Token} {a : Unit} (h : addDanglingOf tok s = .ok a t) :
    t.lexer = s.lexer ∧ t.lastSpan = s.lastSpan := by
  cases h
  dsimp only
  split <;> exact ⟨rfl, rfl⟩

theorem Framing.enter_still {enter : State → State} {leave : State → State → State}
    (hfr : Framing enter leave) (s : State) :
    (enter s).lexer = s.lexer ∧ (enter s).lastSpan = s.lastSpan := by
  rw [hfr.enter_eq s]
  exact ⟨rfl, rfl⟩

theorem Framing.leave_still {enter : State → State} {leave : State → State → State}
    (hfr : Framing enter leave) (s t : State) :
    (leave s t).lexer = t.lexer ∧ (leave s t).lastSpan = t.lastSpan := by
  rw [hfr.leave_eq s t]
  exact ⟨rfl, rfl⟩

theorem rereadLess_kind {lx : Lexer} {tok : Token} (h : tok.kind = .shl ∨ tok.kind = .ltEq) :
    (lx.rereadLess tok).1.kind = .lt := by
  unfold Lexer.rereadLess
  rw [if_pos (by rcases h with h | h <;> rw [h] <;> rfl)]
  rfl

theorem rereadGreater_ne_eof {lx : Lexer} {tok : Token} (h : tok.kind = .gt) :
    (lx.rereadGreater tok).1.kind ≠ .eof := by
  unfold Lexer.rereadGreater
  rw [if_pos (by rw [h]; rfl)]
  show (Lexeme.greater _).kind ≠ .eof
  unfold Lexeme.greater
  split
  · rename_i m kind hfind
    have hmem := List.mem_of_find?_eq_some hfind
    simp only [Lexeme.greaterMarks, List.mem_cons, Prod.mk.injEq, List.not_mem_nil,
      or_false] at hmem
    rcases hmem with ⟨-, rfl⟩ | ⟨-, rfl⟩ | ⟨-, rfl⟩ | ⟨-, rfl⟩ | ⟨-, rfl⟩ <;> simp
  · simp

theorem next_held {lx : Lexer} {t : Token} (h : lx.held = some t) :
    lx.next = (t, { lx with held := none }, []) := by
  unfold Lexer.next
  rw [h]

/-- Behind a token that is taken the last place is that of the token, but for the end of the
text. -/
theorem Know.last_take {k : Know} {t : Token} {sp : Span} (h : (k.take t).last = some sp) :
    t.kind = .eof ∧ k.last = some sp ∨ t.kind ≠ .eof ∧ t.span = sp := by
  by_cases he : t.kind = .eof <;> simpa [Know.take, he] using h

theorem consume_finds {k : Know} {tok : Token} {Q : Token → Know → Prop} (hk : k.Fits s)
    (hl : t.lastSpan = s.lastSpan) (hQ : Q tok (k.take tok)) : (consume tok t).Finds Q := by
  unfold consume
  split
  · rename_i he
    refine ⟨_, hQ, (by intro u hu; cases hu), fun sp hsp => hl.trans (hk.last sp ?_)⟩
    simpa only [Know.take, he, if_true] using hsp
  · rename_i he
    refine ⟨_, hQ, (by intro u hu; cases hu), fun sp hsp => ?_⟩
    simpa only [Know.take, he, if_false, Option.some.injEq, Bool.false_eq_true] using hsp

/-- Behind a consumed token nothing is known of the place. -/
theorem consume_finds_blank {m : Know} {tok : Token} {Q : Token → Know → Prop}
    (hn : m.next = .unknown) (hl : m.last = none) (hQ : Q tok m) : (consume tok t).Finds Q := by
  have hm (u : State) : m.Fits u := .blank (fun _ => by rw [hn]; simp) hl
  unfold consume
  split <;> exact ⟨m, hQ, hm _⟩

theorem peekAttributeValue_finds {k : Know} {Q : Token → Know → Prop} (hk : k.Fits s)
    (hQ : ∀ tok, Q tok (k.see tok)) : (peekAttributeValue s).Finds Q := by
  unfold peekAttributeValue
  split
  rename_i tok lx ds hpeek
  have hheld : lx.held = some tok := by
    have hlx : lx = s.lexer.peek.2.1 := by rw [hpeek]
    have htok : tok = s.lexer.peek.1 := by rw [hpeek]
    rw [hlx, htok]
    rfl
  split
  · exact ⟨_, hQ _, hk.see (by simp [Lexer.push]) (by simp)⟩
  · exact ⟨_, hQ _, hk.see (by simpa using hheld) (by simp)⟩

theorem lookahead_finds {k : Know} {p : Parser Bool} {Q : Bool → Know → Prop} (hk : k.Fits s)
    (hp : (p s.enterTry).Framed s.enterTry) (hQ : ∀ b, Q b k) : (lookahead p s).Finds Q := by
  have h := lookahead_looked p s
  generalize lookahead p s = o at h ⊢
  cases h with
  | undone hu =>
    rw [undoTry_eq (hp.endsIn hu)]
    exact ⟨k, hQ _, hk⟩
  | stopped => trivial

theorem bracket_finds {enter : State → State} {leave : State → State → State}
    {p : Parser α} {Q : α → Know → Prop} (hfr : Framing enter leave)
    (hfind : (p (enter s)).Finds Q) :
    (bracket enter leave p s).Finds Q := by
  unfold bracket
  cases h : p (enter s) with
  | ok a t =>
    rw [h] at hfind
    obtain ⟨m, hm, hfit⟩ := hfind
    obtain ⟨hlex, hlast⟩ := hfr.leave_still s t
    refine ⟨m, hm, hfit.of_eq (by rw [hlex]) hlast⟩
  | fail c t => trivial
  | halt w t => trivial

theorem speculate_finds {k : Know} {p : Parser α} {Q : Option α → Know → Prop} (hk : k.Fits s)
    (hp : (p s.enterTry).Framed s.enterTry) (hfind : (p s.enterTry).Finds fun a m => Q (some a) m)
    (hnone : Q none k) : (speculate p s).Finds Q := by
  have h := speculate_tried p s
  generalize speculate p s = o at h ⊢
  cases h with
  | kept hrun _ ht =>
    rw [hrun] at hfind
    obtain ⟨m, hm, hfit⟩ := hfind
    rw [ht.eq]
    exact ⟨m, hm, hfit.of_eq rfl rfl⟩
  | limit => trivial
  | undone hu =>
    rw [undoTry_eq (hp.endsIn hu)]
    exact ⟨k, hnone, hk⟩
  | stopped => trivial

/-- What is known behind the last round of a repetition is known behind the repetition. -/
theorem loopFrom_finds {k : Know} {step : σ → Parser (σ ⊕ α)} {Q : α → Know → Prop}
    (hstep : ∀ a s, (step a s).Finds (k.RoundEnds Q))
    (n : Nat) (init : σ) (s : State) : (loopFrom step n init s).Finds Q := by
  induction n generalizing init s with
  | zero => trivial
  | succ n ih =>
    have h := hstep init s
    unfold loopFrom
    cases hs : step init s with
    | ok x t =>
      rw [hs] at h
      cases x with
      | inl a =>
        dsimp only
        split
        · exact ih a t
        · trivial
      | inr b =>
        obtain ⟨m, hm, hfit⟩ := h
        exact ⟨_, hm, fun u hu => absurd hu (Next.later_ne_is _ _), hfit.last⟩
    | fail c t => trivial
    | halt w t => trivial

theorem Part.Ends.of_last {part : Part} {n : Node} {k m : Know} (h : part.Ends n k)
    (hl : m.last = k.last) : part.Ends n m := by
  cases part with
  | namespaceFrom start flags =>
    obtain ⟨hp, sp, hsp, hspan⟩ := h
    exact ⟨hp, sp, hl.trans hsp, hspan⟩
  | _ => trivial

/-- A parser for the parts of the grammar leaves alone what a rule leaves alone. -/
def Rules.Framed (g : Rules) : Prop :=
  ∀ part s, part.Opens s → (g part s).Framed s ∧ (g part s).Finds part.Ends

/-- What is put together from the operations of a parser leaves alone what they leave alone. -/
theorem Obeys.framed {g : Rules} (hg : g.Framed) {q : Bool} {k : Know} {p : Parser α}
    {Q : α → Know → Prop} (h : Obeys g q k p Q) (hk : k.Fits s) :
    (p s).Framed s ∧ (p s).Finds Q := by
  induction h generalizing s with
  | pure hQ => exact ⟨Frame.refl s, _, hQ, hk⟩
  | bind _ _ ihp ihf =>
    obtain ⟨hframe, hfind⟩ := ihp hk
    show (Parser.bind _ _ s).Framed s ∧ (Parser.bind _ _ s).Finds _
    unfold Parser.bind
    split
    · rename_i a t hrun
      rw [hrun] at hframe hfind
      obtain ⟨m, hm, hfit⟩ := hfind
      obtain ⟨hframe', hfind'⟩ := ihf a m hm hfit
      exact ⟨Outcome.Framed.trans hframe hframe', hfind'⟩
    · rename_i c t hrun
      rw [hrun] at hframe
      exact ⟨hframe, trivial⟩
    · rename_i w t hrun
      rw [hrun] at hframe
      cases w <;> exact ⟨hframe, trivial⟩
  | mono _ hmono ih =>
    obtain ⟨hframe, hfind⟩ := ih hk
    exact ⟨hframe, hfind.mono hmono⟩
  | forget _ hle ih => exact ih (hk.of_le hle)
  | fail => exact ⟨Frame.refl s, trivial⟩
  | view hQ => exact ⟨Frame.refl s, _, hQ s.view hk.last, hk.next, fun _ h => Option.some.inj h⟩
  | peek hQ =>
    refine ⟨framed_lex (next_stays _).1 (next_stays _).2, _, hQ _ fun u hu => ?_, hk.see ?_ ?_⟩
    · exact congrArg Prod.fst (next_held (hk.next u hu))
    · simp [Lexer.push]
    · simp
  | peekAgain _ hQ _ =>
    refine ⟨framed_lex (next_stays _).1 (next_stays _).2, _, hQ _, ?_, fun sp hsp => ?_⟩
    · intro u hu
      cases hu
      simp [Lexer.push]
    · simpa using hk.last sp hsp
  | peek2 hQ => exact ⟨Frame.refl s, _, hQ _, hk⟩
  | advance hQ =>
    refine ⟨framed_bind (framed_lex (next_stays _).1 (next_stays _).2) framed_consume, ?_⟩
    refine consume_finds hk (by simp) (hQ _ fun u hu => ?_)
    exact congrArg Prod.fst (next_held (hk.next u hu))
  | splitLess _ ht hQ =>
    refine ⟨framed_bind (framed_lex (reread_stays _ _ _ _).1 (reread_stays _ _ _ _).2) framed_push,
      _, hQ _ (rereadLess_kind ht), hk.see rfl (by simp)⟩
  | joinGreater _ ht hQ =>
    refine ⟨?_, _, hQ _ (rereadGreater_ne_eof ht), hk.see rfl (by simp)⟩
    refine framed_bind (framed_lex (reread_stays _ _ _ _).1 (reread_stays _ _ _ _).2) fun u t => ?_
    exact framed_bind (framed_push u t) fun _ t => Frame.refl t
  | readRegExp _ _ hQ =>
    exact ⟨framed_bind (framed_lex rfl rfl) framed_consume, consume_finds_blank rfl rfl (hQ _)⟩
  | readTemplate _ _ hQ =>
    exact ⟨framed_bind (framed_lex rfl rfl) framed_consume, consume_finds_blank rfl rfl (hQ _)⟩
  | readTagName _ _ hQ =>
    exact ⟨framed_bind (framed_lex (reread_stays _ _ _ _).1 (reread_stays _ _ _ _).2)
      framed_consume,
      consume_finds_blank rfl rfl (hQ _)⟩
  | readChild _ hQ =>
    refine ⟨framed_bind (Frame.refl s) fun _ t => ?_, consume_finds_blank rfl rfl (hQ _)⟩
    exact framed_bind (framed_lex rfl rfl) framed_consume
  | peekAttributeValue hQ => exact ⟨framed_peekAttributeValue s, peekAttributeValue_finds hk hQ⟩
  | errorAt hQ =>
    exact ⟨framed_errorAt _ _ _ s,
      .still (m := Know.tell _) hk (fun _ _ => errorAt_still) rfl rfl fun _ => hQ⟩
  | addLeading _ hQ =>
    exact ⟨framed_comments _ (fun c => c.sub_addLeading _ _) s,
      .still hk (fun _ _ => addLeading_still) rfl rfl fun _ => hQ⟩
  | addDanglingOf _ hQ =>
    exact ⟨framed_comments _ (fun c => c.sub_addDangling _ _) s,
      .still hk (fun _ _ => addDanglingOf_still) rfl rfl fun _ => hQ⟩
  | declare hQ =>
    exact ⟨framed_declare _ _ s, .still hk (fun _ _ => declare_still) rfl rfl fun _ => hQ⟩
  | requireTypes hQ =>
    exact ⟨framed_requireTypes _ s, .still hk (fun _ _ => requireTypes_still) rfl rfl fun _ => hQ⟩
  | part _ hsees hQ =>
    obtain ⟨hframe, hfind⟩ := hg _ s fun hc => by
      obtain ⟨t, ht, hne⟩ := hsees hc
      exact ⟨t, hk.next t ht, hne⟩
    refine ⟨hframe, ?_⟩
    cases hrun : g _ s with
    | ok n t =>
      rw [hrun] at hfind
      obtain ⟨m, hends, hfit⟩ := hfind
      -- of what the part knows only the place of the last token is of use here
      refine ⟨_, hQ n { Know.past _ with last := m.last } ⟨rfl, id, id, .inl rfl, id, .inl rfl, rfl⟩
        (hends.of_last rfl), (by simp), hfit.last⟩
    | fail c t => trivial
    | halt w t => trivial
  | bracket hfr _ ih =>
    obtain ⟨hframe, hfind⟩ :=
      ih (hk.of_eq (congrArg Lexer.held (hfr.enter_still s).1) (hfr.enter_still s).2)
    exact ⟨framed_bracket hfr hframe, bracket_finds hfr hfind⟩
  | loop _ ih =>
    exact ⟨framed_loopFrom (fun a s => (ih a (Know.round_fits _ s)).1) _ _ s,
      loopFrom_finds (fun a s => (ih a (Know.round_fits _ s)).2) _ _ s⟩
  | attempt _ hnone ih =>
    obtain ⟨hframe, hfind⟩ := ih hk
    refine ⟨framed_attempt hframe, ?_⟩
    unfold Parse.attempt
    split
    · rename_i hrun; rw [hrun] at hfind; exact hfind
    · exact ⟨_, hnone, .blank (Next.later_ne_is _) rfl⟩
    · trivial
  | speculate _ hnone ih =>
    obtain ⟨hframe, hfind⟩ := ih (s := s.enterTry) (hk.of_eq rfl rfl)
    exact ⟨framed_speculate hframe, speculate_finds hk hframe hfind hnone⟩
  | lookahead _ hQ ih =>
    obtain ⟨hframe, -⟩ := ih (s := s.enterTry) (hk.of_eq rfl rfl)
    exact ⟨framed_lookahead hframe, lookahead_finds hk hframe hQ⟩

/-- Where a part may be read, what is known of the next token is enough to read it. -/
theorem Part.Opens.obeys {part : Part} (h : part.Opens s) (g : Rules) (strict : Bool) :
    ∃ k : Know, k.Fits s ∧ k.strict = strict ∧
      Obeys g false k (rule g part) fun n m => k.past.Le m ∧ part.Ends n m := by
  by_cases hc : part = .construct
  · obtain ⟨tok, hheld, hne⟩ := h hc
    exact ⟨{ rank := part.rank, next := .is tok, strict := strict },
      ⟨fun u hu => by cases hu; exact hheld, by simp⟩, rfl,
      rule_obeys (Nat.le_refl _) fun _ => ⟨tok, rfl, hne⟩⟩
  · exact ⟨{ rank := part.rank, strict := strict }, .blank (by simp) rfl, rfl,
      rule_obeys (Nat.le_refl _) fun h => absurd h hc⟩

/-- The rules of the grammar leave alone what a rule leaves alone, however deep the knot is tied. -/
theorem rules_framed (n : Nat) : (rules n).Framed := by
  induction n with
  | zero => exact fun _ _ _ => ⟨trivial, trivial⟩
  | succ n ih =>
    intro part s hopen
    obtain ⟨k, hk, -, hobeys⟩ := hopen.obeys (rules n) false
    obtain ⟨hframe, hfind⟩ := hobeys.framed ih hk
    exact ⟨hframe, hfind.mono fun _ _ h => h.2⟩

/-! ## Tries that are undone -/

/-- Behind a try that gives nothing the state is the one in front of it. -/
theorem speculate_none {p : Parser α} (hp : (p s.enterTry).Framed s.enterTry)
    (h : speculate p s = .ok none t) : t = s := by
  have htried := speculate_tried p s
  rw [h] at htried
  cases htried with
  | undone hu => exact undoTry_eq (hp.endsIn hu)

theorem lookahead_eq {p : Parser Bool} {b : Bool} (hp : (p s.enterTry).Framed s.enterTry)
    (h : lookahead p s = .ok b t) : t = s := by
  have hlooked := lookahead_looked p s
  rw [h] at hlooked
  cases hlooked with
  | undone hu => exact undoTry_eq (hp.endsIn hu)

/-- A try leaves no trace unless it is kept, and a look ahead never does. What is tried is any part
of the grammar, or any parser put together from the operations and the parts, in any state where it
may be read. -/
theorem undone_try_leaves_no_trace (n : Nat) :
    (∀ (part : Part) (s t : State), part.Opens s → speculate (rules n part) s = .ok none t →
      t = s) ∧
    (∀ {α : Type} {q : Bool} {k : Know} {p : Parser α} {Q : α → Know → Prop} (s t : State),
      Obeys (rules n) q k p Q → k.Fits s → speculate p s = .ok none t → t = s) ∧
    (∀ {q : Bool} {k : Know} {p : Parser Bool} {Q : Bool → Know → Prop} (b : Bool) (s t : State),
      Obeys (rules n) q k p Q → k.Fits s → lookahead p s = .ok b t → t = s) := by
  refine ⟨fun part s t hopen => ?_, fun s t hp hk => ?_, fun b s t hp hk => ?_⟩
  · exact speculate_none (rules_framed n part s.enterTry hopen).1
  · have hin := hk.of_eq (t := s.enterTry) rfl rfl
    exact speculate_none (hp.framed (rules_framed n) hin).1
  · have hin := hk.of_eq (t := s.enterTry) rfl rfl
    exact lookahead_eq (hp.framed (rules_framed n) hin).1

end ScriptLower.Parse
