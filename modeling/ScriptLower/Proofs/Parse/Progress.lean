import ScriptLower.Proofs.Parse.Tries
import ScriptLower.Proofs.Token.Place

/-!
# How far a parse has come

Between any two operations a parse stands at a place of its file: what is consumed ends there, the
token read ahead stands behind it, and the lexer behind that token. The parse only goes on. When it
has not, the same token is still in front of it, perhaps read under another grammar.

There is one place a parse may fail to get past: a name in a tag that begins with an escape. Such a
name is taken as one without a character, and then stands in front of the parse again.
-/

namespace ScriptLower.Parse

open ScriptLower

/-- Every backslash of the text opens an escape. -/
def State.Fair (s : State) : Prop := s.lexer.file.content.escapesOnly = true

/-- The token in front of the parse. -/
def State.front (s : State) : Token := s.lexer.next.1

theorem State.front_of_held {s : State} {t : Token} (h : s.lexer.held = some t) : s.front = t := by
  rw [State.front, next_held h]

/-- A name without a character is taken in front of an escape. -/
structure State.Stuck (s : State) : Prop where
  /-- The last token is a name. -/
  kind : s.lastToken.kind = .ident
  /-- It has no character. -/
  empty : s.lastSpan.start = s.lastSpan.stop
  /-- An escape stands there. -/
  escape : (s.lexer.file.bytesAt s.lastSpan.stop).head? = some 92

/-! ## Running a parser -/

theorem Parser.bind_ok {α β : Type} {p : Parser α} {f : α → Parser β} {s t : State} {a : α}
    (h : p s = .ok a t) : (p >>= f) s = f a t := by
  show Parser.bind p f s = _
  unfold Parser.bind
  rw [h]

theorem Parser.bind_fail {α β : Type} {p : Parser α} {f : α → Parser β} {s t : State} {c : Cause}
    (h : p s = .fail c t) : (p >>= f) s = .fail c t := by
  show Parser.bind p f s = _
  unfold Parser.bind
  rw [h]

theorem Parser.bind_halt {α β : Type} {p : Parser α} {f : α → Parser β} {s t : State} {w : Stop}
    (h : p s = .halt w t) : (p >>= f) s = .halt w t := by
  show Parser.bind p f s = _
  unfold Parser.bind
  rw [h]

theorem Parser.bind_assoc {α β γ : Type} (p : Parser α) (f : α → Parser β) (g : β → Parser γ) :
    p >>= f >>= g = p >>= fun a => f a >>= g := by
  funext s
  show Parser.bind (Parser.bind p f) g s = Parser.bind p (fun a => Parser.bind (f a) g) s
  unfold Parser.bind
  cases p s <;> rfl

theorem loopFrom_again {σ α : Type} {step : σ → Parser (σ ⊕ α)} {a a' : σ} {s t : State}
    (h : step a s = .ok (.inl a') t) (n : Nat) : loopFrom step (n + 1) a s =
      if s.consumed < t.consumed then loopFrom step n a' t else .halt .noProgress t := by
  rw [loopFrom]
  dsimp only
  rw [h]

/-- The state behind a look at the next token. -/
def State.peeked (s : State) : State :=
  State.noteAll { s with lexer := s.lexer.next.2.1.push s.front } s.lexer.next.2.2

theorem peek_eq (s : State) : peek s = .ok s.front s.peeked := rfl

theorem State.peeked_held (s : State) : s.peeked.lexer.held = some s.front := by
  rw [State.peeked, State.noteAll_lexer]
  rfl

/-- A second look changes nothing. -/
theorem peek_peeked (s : State) : peek s.peeked = .ok s.front s.peeked := by
  have hheld := s.peeked_held
  generalize s.peeked = t at hheld ⊢
  have hnext := next_held hheld
  show Outcome.ok t.lexer.next.1
    (State.noteAll { t with lexer := t.lexer.next.2.1.push t.lexer.next.1 } t.lexer.next.2.2) = _
  rw [hnext]
  simp only [Lexer.push, ← hheld]
  rfl

/-! ## Places -/

/-- What is known of a token that is read ahead. -/
structure State.Ahead (s : State) (t : Token) : Prop where
  /-- It stands in the file. -/
  stands : t.Stands s.lexer.file
  /-- It stands behind what is consumed. -/
  after : s.consumed ≤ t.span.start
  /-- What is no token is reported. -/
  told : t.kind = .invalid → 0 < s.errors
  /-- It takes a byte. -/
  moves : s.Fair → t.kind ≠ .eof → t.span.start < t.span.stop

/-- A state stands at a place of its file. -/
structure State.Sound (s : State) : Prop where
  /-- The lexer stands in the file. -/
  inFile : s.lexer.InFile
  /-- The last token is the one whose place is kept. -/
  last : s.lastToken.span = s.lastSpan
  /-- Nothing is consumed, or the last token lies in the file. -/
  begun : s.lastSpan = {} ∨ s.lastToken.Lies s.lexer.file
  /-- What is consumed lies in the file. -/
  inside : s.consumed ≤ s.lexer.file.stop
  /-- Without a token read ahead, the lexer stands behind what is consumed. -/
  free : s.lexer.held = none → s.consumed ≤ s.lexer.file.base + s.lexer.offset
  /-- A token read ahead stands behind what is consumed, and the lexer behind it. -/
  held : ∀ t, s.lexer.held = some t →
    s.Ahead t ∧ t.span.stop = s.lexer.file.base + s.lexer.offset

/-- The parse has gone on from `s` to `t`. -/
structure Advances (s t : State) : Prop where
  /-- It stands at a place of its file. -/
  sound : t.Sound
  /-- It is the same file. -/
  file : t.lexer.file = s.lexer.file
  /-- Errors stay counted. -/
  errors : s.errors ≤ t.errors
  /-- What is consumed stays consumed. -/
  consumed : s.consumed ≤ t.consumed
  /-- The tokens kept on the way stand between the two places. -/
  tokens : ∃ new, t.tokens = s.tokens ++ new ∧
    ∀ u ∈ new, s.consumed ≤ u.span.start ∧ u.span.stop ≤ t.consumed
  /-- When nothing is consumed, the token in front stays. -/
  stay : s.Fair → s.consumed < t.consumed ∨ Reread s.front t.front ∧ (s.Stuck → t.Stuck)

section

variable {s t u : State}

theorem State.Sound.base_le (h : s.Sound) : s.consumed = 0 ∨ s.lexer.file.base ≤ s.consumed := by
  refine h.begun.imp (fun hnone => by rw [State.consumed, hnone]) fun hlies => ?_
  rw [State.consumed, ← h.last]
  exact Nat.le_trans hlies.base_le hlies.ordered

/-! ## Going on -/

theorem Advances.refl (h : s.Sound) : Advances s s where
  sound := h
  file := rfl
  errors := Nat.le_refl _
  consumed := Nat.le_refl _
  tokens := ⟨[], (List.append_nil _).symm, (by simp)⟩
  stay _ := .inr ⟨.refl _, id⟩

theorem Advances.fair (h : Advances s t) : t.Fair ↔ s.Fair := by rw [State.Fair, State.Fair, h.file]

theorem Advances.trans (h : Advances s t) (h' : Advances t u) : Advances s u where
  sound := h'.sound
  file := h'.file.trans h.file
  errors := Nat.le_trans h.errors h'.errors
  consumed := Nat.le_trans h.consumed h'.consumed
  tokens := by
    obtain ⟨new, hnew, hall⟩ := h.tokens
    obtain ⟨new', hnew', hall'⟩ := h'.tokens
    refine ⟨new ++ new', by rw [hnew', hnew, List.append_assoc], fun u hu => ?_⟩
    have hc := h.consumed
    have hc' := h'.consumed
    rcases List.mem_append.1 hu with hu | hu
    · have := hall u hu
      omega
    · have := hall' u hu
      omega
  stay hf := by
    have hc := h.consumed
    have hc' := h'.consumed
    rcases h.stay hf with hlt | ⟨hre, hst⟩
    · exact .inl (by omega)
    · rcases h'.stay (h.fair.2 hf) with hlt | ⟨hre', hst'⟩
      · exact .inl (by omega)
      · exact .inr ⟨hre.trans hre', fun hs => hst' (hst hs)⟩

/-- The places of a state that say how far the parse has come. -/
def State.reading (s : State) := (s.lexer, s.lastToken, s.lastSpan, s.tokens)

theorem State.Ahead.of_reading {tok : Token} (h : s.Ahead tok) (hr : t.reading = s.reading)
    (he : s.errors ≤ t.errors) : t.Ahead tok := by
  simp only [State.reading, Prod.mk.injEq] at hr
  obtain ⟨hlex, -, hspan, -⟩ := hr
  refine ⟨hlex ▸ h.stands, ?_, fun hk => Nat.lt_of_lt_of_le (h.told hk) he, ?_⟩
  · rw [State.consumed, hspan]
    exact h.after
  · rw [State.Fair, hlex]
    exact h.moves

theorem State.Sound.of_reading (h : s.Sound) (hr : t.reading = s.reading)
    (he : s.errors ≤ t.errors) : t.Sound := by
  have hahead {tok : Token} (h : s.Ahead tok) : t.Ahead tok := h.of_reading hr he
  simp only [State.reading, Prod.mk.injEq] at hr
  obtain ⟨hlex, htok, hspan, -⟩ := hr
  have hc : t.consumed = s.consumed := by rw [State.consumed, State.consumed, hspan]
  exact
    { inFile := hlex ▸ h.inFile
      last := by rw [htok, hspan, h.last]
      begun := by rw [hspan, hlex, htok]; exact h.begun
      inside := by rw [hc, hlex]; exact h.inside
      free := by rw [hc, hlex]; exact h.free
      held := fun tok ht => by
        rw [hlex] at ht ⊢
        exact ⟨hahead (h.held tok ht).1, (h.held tok ht).2⟩ }

/-- Operations that read nothing leave the parse where it stands. -/
theorem Advances.of_reading (h : s.Sound) (hr : t.reading = s.reading) (he : s.errors ≤ t.errors) :
    Advances s t := by
  have hsound := h.of_reading hr he
  simp only [State.reading, Prod.mk.injEq] at hr
  obtain ⟨hlex, htok, hspan, htoks⟩ := hr
  have hc : t.consumed = s.consumed := by rw [State.consumed, State.consumed, hspan]
  exact
    { sound := hsound
      file := by rw [hlex]
      errors := he
      consumed := Nat.le_of_eq hc.symm
      tokens := ⟨[], by rw [htoks, List.append_nil], (by simp)⟩
      stay := fun _ => .inr ⟨by rw [State.front, State.front, hlex]; exact .refl _, fun hst =>
        ⟨by rw [htok]; exact hst.kind, by rw [hspan]; exact hst.empty,
          by rw [hlex, hspan]; exact hst.escape⟩⟩ }

/-! ## Diagnostics -/

theorem State.noteAll_errors (ds : List Diagnostic) (s : State) :
    (s.noteAll ds).errors = s.errors + ds.countP (·.isError) := by
  induction ds generalizing s with
  | nil => rfl
  | cons d ds ih =>
    show ((s.note d).noteAll ds).errors = _
    rw [ih, State.note, List.countP_cons]
    dsimp only
    split <;> omega

theorem countP_isError_pos {ds : List Diagnostic} (herr : ∀ d ∈ ds, d.isError = true)
    (hne : ds ≠ []) : 0 < ds.countP (·.isError) := by
  obtain ⟨d, hd⟩ := List.exists_mem_of_ne_nil ds hne
  exact List.countP_pos_iff.2 ⟨d, hd, herr d hd⟩

/-! ## The token in front -/

/-- Two tokens at one place are readings of each other. -/
theorem Reread.of_stands {f : SourceFile} {a b : Token} (ha : a.Stands f) (hb : b.Stands f)
    (h : b.span.start = a.span.start) : Reread a b := by
  have hheads := hb.heads
  rw [h] at hheads
  obtain ⟨heof, hbrace⟩ := ha.heads.agree hheads
  exact ⟨h, heof, hbrace⟩

/-- What reading the next token does. -/
structure State.Reads (s : State) : Prop where
  /-- The token stands in the file. -/
  stands : s.front.Stands s.lexer.file
  /-- It stands behind what is consumed. -/
  after : s.consumed ≤ s.front.span.start
  /-- It takes a byte. -/
  moves : s.Fair → s.front.kind ≠ .eof → s.front.span.start < s.front.span.stop
  /-- The lexer then stands behind it. -/
  behind : s.lexer.next.2.1 =
    { s.lexer with offset := s.front.span.stop - s.lexer.file.base, held := none }
  /-- What is no token is reported. -/
  told : s.front.kind = .invalid → 0 < s.errors + s.lexer.next.2.2.countP (·.isError)

theorem State.Sound.reads (h : s.Sound) : s.Reads := by
  cases hheld : s.lexer.held with
  | some tok =>
    obtain ⟨hahead, hstop⟩ := h.held tok hheld
    have hnext := next_held hheld
    have hfront : s.front = tok := State.front_of_held hheld
    refine ⟨hfront ▸ hahead.stands, hfront ▸ hahead.after, hfront ▸ hahead.moves, ?_, ?_⟩
    · rw [hnext, hfront, hstop, Nat.add_sub_cancel_left]
    · rw [hfront, hnext]
      exact fun hk => Nat.lt_of_lt_of_le (hahead.told hk) (Nat.le_add_right _ _)
  | none =>
    have hscan : s.lexer.next = s.lexer.scan := by unfold Lexer.next; rw [hheld]
    have hscans := Lexer.scan_scans h.inFile hheld
    have hfront : s.front = s.lexer.scan.1 := by rw [State.front, hscan]
    rw [← hscan] at hscans
    refine ⟨⟨hscans.lies, hscans.heads⟩, ?_, hscans.moves, hscans.behind, fun hk => ?_⟩
    · exact Nat.le_trans (h.free hheld) hscans.after
    · exact Nat.lt_of_lt_of_le (countP_isError_pos hscans.errors (hscans.told hk))
        (Nat.le_add_left _ _)

/-- A token is read ahead, and is a reading of the one that was in front. -/
theorem Advances.hold {lx : Lexer} {r : Lexer.Result} (hs : s.Sound)
    (hfile : lx.file = s.lexer.file)
    (hstands : r.1.Stands s.lexer.file)
    (hbehind : r.2.1 = { lx with offset := r.1.span.stop - lx.file.base, held := none })
    (hafter : s.consumed ≤ r.1.span.start)
    (htold : r.1.kind = .invalid → 0 < s.errors + r.2.2.countP (·.isError))
    (hmoves : s.Fair → r.1.kind ≠ .eof → r.1.span.start < r.1.span.stop)
    (hre : Reread s.front r.1) :
    Advances s (State.noteAll { s with lexer := r.2.1.push r.1 } r.2.2) := by
  have hb := hstands.base_le
  have ho := hstands.ordered
  have hst := hstands.stop_le
  unfold SourceFile.stop at hst
  obtain ⟨hnote, herr⟩ := State.noteAll_eq r.2.2 { s with lexer := r.2.1.push r.1 }
  have herrs := State.noteAll_errors r.2.2 { s with lexer := r.2.1.push r.1 }
  generalize htt : State.noteAll { s with lexer := r.2.1.push r.1 } r.2.2 = t at *
  have hlex : t.lexer =
      { lx with offset := r.1.span.stop - lx.file.base, held := some r.1 } := by
    rw [hnote]
    simp only [Lexer.push, hbehind]
  have hlf : t.lexer.file = s.lexer.file := by rw [hlex]; exact hfile
  have hlast : t.lastSpan = s.lastSpan := by rw [hnote]
  have htok : t.lastToken = s.lastToken := by rw [hnote]
  have hc : t.consumed = s.consumed := by rw [State.consumed, State.consumed, hlast]
  have hoff : t.lexer.offset = r.1.span.stop - s.lexer.file.base := by rw [hlex, ← hfile]
  have hheld : t.lexer.held = some r.1 := by rw [hlex]
  exact
    { sound :=
        { inFile := by
            simp only [Lexer.InFile, hoff, hlf]
            omega
          last := by rw [htok, hlast, hs.last]
          begun := by rw [hlast, hlf, htok]; exact hs.begun
          inside := by rw [hc, hlf]; exact hs.inside
          free := fun h => by rw [hheld] at h; cases h
          held := fun tok h => by
            obtain rfl : r.1 = tok := by rw [hheld] at h; exact Option.some.inj h
            refine ⟨⟨hlf ▸ hstands, hc ▸ hafter, fun hk => herrs ▸ htold hk, ?_⟩, ?_⟩
            · rw [State.Fair, hlf]
              exact hmoves
            · rw [hlf, hoff]
              omega }
      file := hlf
      errors := herr
      consumed := Nat.le_of_eq hc.symm
      tokens := ⟨[], by rw [hnote]; simp, (by simp)⟩
      stay := fun _ => by
        refine .inr ⟨?_, fun h => ⟨htok ▸ h.kind, hlast ▸ h.empty, ?_⟩⟩
        · show Reread s.front t.lexer.next.1
          rw [next_held hheld]
          exact hre
        · rw [hlf, hlast]
          exact h.escape }

/-! ## Taking a token -/

/-- The state behind a token that is taken. -/
def State.taken (s : State) (tok : Token) : State :=
  { s with
    lastSpan := tok.span
    lastToken := tok
    tokens := if s.capture then s.tokens ++ [tok] else s.tokens }

theorem consume_eof {tok : Token} (h : tok.kind = .eof) (s : State) :
    consume tok s = .ok tok s := by
  unfold consume
  rw [if_pos (by rw [h]; rfl)]

theorem consume_taken {tok : Token} (h : tok.kind ≠ .eof) (s : State) :
    consume tok s = .ok tok (s.taken tok) := by
  unfold consume
  rw [if_neg (by simpa using h)]
  rfl

/-- A token is taken that lies behind what was consumed. -/
theorem Advances.take {r : Lexer.Result} (hlies : r.1.Lies s.lexer.file)
    (hbehind : r.2.1 =
      { s.lexer with offset := r.1.span.stop - s.lexer.file.base, held := none })
    (hafter : s.consumed ≤ r.1.span.start)
    (hmoves : s.Fair → s.consumed < r.1.span.stop ∨
      Reread s.front ((State.noteAll { s with lexer := r.2.1 } r.2.2).taken r.1).front ∧
        ((State.noteAll { s with lexer := r.2.1 } r.2.2).taken r.1).Stuck) :
    Advances s ((State.noteAll { s with lexer := r.2.1 } r.2.2).taken r.1) := by
  have hb := hlies.base_le
  have ho := hlies.ordered
  have hst := hlies.stop_le
  have hst' := hst
  unfold SourceFile.stop at hst'
  obtain ⟨hnote, herr⟩ := State.noteAll_eq r.2.2 { s with lexer := r.2.1 }
  generalize htt : State.noteAll { s with lexer := r.2.1 } r.2.2 = t at *
  have hlex : t.lexer =
      { s.lexer with offset := r.1.span.stop - s.lexer.file.base, held := none } := by
    rw [hnote]
    exact hbehind
  have hc : (t.taken r.1).consumed = r.1.span.stop := rfl
  have hlf : (t.taken r.1).lexer.file = s.lexer.file := by simp only [State.taken, hlex]
  have hoff : (t.taken r.1).lexer.offset = r.1.span.stop - s.lexer.file.base := by
    simp only [State.taken, hlex]
  have hheld : (t.taken r.1).lexer.held = none := by simp only [State.taken, hlex]
  exact
    { sound :=
        { inFile := by
            simp only [Lexer.InFile, hoff, hlf]
            omega
          last := rfl
          begun := by rw [hlf]; exact .inr hlies
          inside := by rw [hc, hlf]; exact hst
          free := fun _ => by rw [hc, hlf, hoff]; omega
          held := fun tok h => by rw [hheld] at h; cases h }
      file := hlf
      errors := herr
      consumed := by rw [hc]; omega
      tokens := by
        have htoks : t.tokens = s.tokens := by rw [hnote]
        by_cases hcap : t.capture = true
        · refine ⟨[r.1], by simp only [State.taken, hcap, if_true, htoks], fun u hu => ?_⟩
          obtain rfl := List.mem_singleton.1 hu
          exact ⟨hafter, Nat.le_refl _⟩
        · exact ⟨[], by simp [State.taken, hcap, htoks], (by simp)⟩
      stay := fun hf => (hmoves hf).imp id fun h => ⟨h.1, fun _ => h.2⟩ }

/-- At the end of the text the lexer comes to stand behind the last byte, and nothing is taken. -/
theorem Advances.atEnd {r : Lexer.Result} (hs : s.Sound)
    (hend : s.front.span.start = s.lexer.file.stop)
    (hbehind : r.2.1 = { s.lexer with offset := s.lexer.file.content.length, held := none }) :
    Advances s (State.noteAll { s with lexer := r.2.1 } r.2.2) := by
  have hreads := hs.reads
  have hinside := hs.inside
  obtain ⟨hnote, herr⟩ := State.noteAll_eq r.2.2 { s with lexer := r.2.1 }
  generalize htt : State.noteAll { s with lexer := r.2.1 } r.2.2 = t at *
  have hlex : t.lexer = { s.lexer with offset := s.lexer.file.content.length, held := none } := by
    rw [hnote]
    exact hbehind
  have hlast : t.lastSpan = s.lastSpan := by rw [hnote]
  have htok : t.lastToken = s.lastToken := by rw [hnote]
  have hc : t.consumed = s.consumed := by rw [State.consumed, State.consumed, hlast]
  have hlf : t.lexer.file = s.lexer.file := by rw [hlex]
  have hoff : t.lexer.offset = s.lexer.file.content.length := by rw [hlex]
  have hheld : t.lexer.held = none := by rw [hlex]
  have hsound : t.Sound :=
    { inFile := Nat.le_of_eq (by rw [hoff, hlf])
      last := by rw [htok, hlast, hs.last]
      begun := by rw [hlast, hlf, htok]; exact hs.begun
      inside := by rw [hc, hlf]; exact hs.inside
      free := fun _ => by rw [hc, hlf, hoff]; exact hinside
      held := fun tok h => by rw [hheld] at h; cases h }
  refine ⟨hsound, hlf, herr, Nat.le_of_eq hc.symm, ⟨[], by rw [hnote]; simp, (by simp)⟩,
    fun _ => ?_⟩
  refine .inr ⟨?_, fun h => ⟨htok ▸ h.kind, hlast ▸ h.empty, by rw [hlf, hlast]; exact h.escape⟩⟩
  -- the token in front is the end of the text before and behind
  have hreads' := hsound.reads
  refine .of_stands hreads.stands (hlf ▸ hreads'.stands) ?_
  have hafter := (Lexer.scan_scans hsound.inFile hheld).after
  have hfront : t.front = t.lexer.scan.1 := by
    unfold State.front Lexer.next
    rw [hheld]
  have ho := hreads'.stands.ordered
  have hst := hreads'.stands.stop_le
  rw [← hfront, hlf, hoff] at hafter
  rw [hlf] at hst
  rw [hend]
  unfold SourceFile.stop at *
  omega

/-- A token that stands at the end of the text stands behind the last byte. -/
theorem start_eq_stop_of_nil {f : SourceFile} {tok : Token} (h : tok.Stands f)
    (hnil : f.bytesAt tok.span.start = []) : tok.span.start = f.stop := by
  have hlen := congrArg List.length hnil
  have hb := h.base_le
  have ho := h.ordered
  have hst := h.stop_le
  simp only [SourceFile.bytesAt, List.length_drop, List.length_nil] at hlen
  unfold SourceFile.stop at *
  omega

/-! ## Operations -/

theorem State.Sound.peek (hs : s.Sound) :
    ∃ t, peek s = .ok s.front t ∧ Advances s t ∧ t.lexer.held = some s.front ∧
      t.lastSpan = s.lastSpan := by
  have hreads := hs.reads
  refine ⟨_, rfl, ?_, by rw [State.noteAll_lexer]; rfl, by simp⟩
  exact .hold hs rfl hreads.stands hreads.behind hreads.after hreads.told hreads.moves (.refl _)

/-- Taking the token in front; at the end of the text nothing is taken. -/
theorem State.Sound.advance (hs : s.Sound) :
    ∃ t, advance s = .ok s.front t ∧ Advances s t ∧
      (s.front.kind = .eof → t.lastSpan = s.lastSpan) ∧
      (s.front.kind ≠ .eof → t.lastSpan = s.front.span) ∧
      (s.front.kind = .invalid → 0 < t.errors) := by
  have hreads := hs.reads
  show ∃ t, consume s.front (State.noteAll { s with lexer := s.lexer.next.2.1 } s.lexer.next.2.2) =
    .ok s.front t ∧ _
  by_cases hk : s.front.kind = .eof
  · have hend := start_eq_stop_of_nil hreads.stands (hreads.stands.heads.eof.1 hk)
    have hbehind : s.lexer.next.2.1 =
        { s.lexer with offset := s.lexer.file.content.length, held := none } := by
      have ho := hreads.stands.ordered
      have hst := hreads.stands.stop_le
      rw [hreads.behind, show s.front.span.stop = s.lexer.file.stop by omega, SourceFile.stop,
        Nat.add_sub_cancel_left]
    refine ⟨_, consume_eof hk _, .atEnd hs hend hbehind, fun _ => by
      simp, fun h => absurd hk h, fun h => ?_⟩
    rw [hk] at h
    cases h
  · refine ⟨_, consume_taken hk _, ?_, fun h => absurd h hk, fun _ => rfl, fun h => ?_⟩
    · refine .take (r := s.lexer.next) hreads.stands.toLies hreads.behind hreads.after fun hf =>
        .inl ?_
      exact Nat.lt_of_le_of_lt hreads.after (hreads.moves hf hk)
    · show 0 < (State.noteAll { s with lexer := s.lexer.next.2.1 } s.lexer.next.2.2).errors
      rw [State.noteAll_errors]
      exact hreads.told h

/-- A token read ahead is read again. -/
theorem Advances.reread {tok : Token} {r : Lexer.Result} (hs : s.Sound)
    (hheld : s.lexer.held = some tok) (hr : s.lexer.Rereads tok r) :
    Advances s (State.noteAll { s with lexer := r.2.1.push r.1 } r.2.2) := by
  obtain ⟨hahead, -⟩ := hs.held tok hheld
  have hfront : s.front = tok := State.front_of_held hheld
  have hstart := hr.start
  have hstands : r.1.Stands s.lexer.file := ⟨hr.lies, hstart.symm ▸ hr.heads⟩
  refine .hold hs rfl hstands hr.behind (hstart.symm ▸ hahead.after) (fun hk => ?_)
    (fun _ _ => ?_) ?_
  · exact Nat.lt_of_lt_of_le (countP_isError_pos hr.errors (hr.told hk)) (Nat.le_add_left _ _)
  · rw [hstart]
    exact hr.moves
  · rw [hfront]
    exact .of_stands hahead.stands hstands hstart

/-- A token read ahead is read again and taken. -/
theorem Advances.retake {tok : Token} {r : Lexer.Result} (hs : s.Sound)
    (hheld : s.lexer.held = some tok) (hr : s.lexer.Gives tok.span.start r)
    (hmoves : tok.span.start < r.1.span.stop) :
    Advances s ((State.noteAll { s with lexer := r.2.1 } r.2.2).taken r.1) := by
  obtain ⟨hahead, -⟩ := hs.held tok hheld
  have hafter := hahead.after
  refine .take hr.lies hr.behind (by rw [hr.start]; exact hafter) fun _ => .inl ?_
  omega

/-- A lexer that stands in front of an escape reads the token there. -/
theorem front_of_escape {tok : Token} (hstands : tok.Stands t.lexer.file)
    (hheld : t.lexer.held = none)
    (hoff : t.lexer.offset = tok.span.start - t.lexer.file.base)
    (hesc : (t.lexer.file.bytesAt tok.span.start).head? = some 92) : Reread tok t.front := by
  have hb := hstands.base_le
  have ho := hstands.ordered
  have hst := hstands.stop_le
  have hin : t.lexer.InFile := by
    unfold SourceFile.stop at hst
    rw [Lexer.InFile, hoff]
    omega
  have hfront : t.front = t.lexer.scan.1 := by
    unfold State.front Lexer.next
    rw [hheld]
  have hscans := Lexer.scan_scans hin hheld
  have hstart := Lexer.scan_start_of_escape t.lexer (by rw [Lexer.rest, hoff]; exact hesc)
  rw [hfront]
  refine .of_stands hstands ⟨hscans.lies, hscans.heads⟩ ?_
  rw [hstart, hoff]
  omega

/-- A name in a tag is taken where the lexer reads it again. -/
theorem readTagName_eq {tok : Token} {r : Lexer.Result} (hr : s.lexer.rereadTagName tok = r)
    (hk : r.1.kind = .ident) : Parse.readTagName tok s =
      .ok r.1 ((State.noteAll { s with lexer := r.2.1 } r.2.2).taken r.1) := by
  have h : Parse.readTagName tok s = consume (s.lexer.rereadTagName tok).1
      (State.noteAll { s with lexer := (s.lexer.rereadTagName tok).2.1 }
        (s.lexer.rereadTagName tok).2.2) := rfl
  rw [h, hr, consume_taken (by rw [hk]; simp)]

/-- In front of an escape a name without a character is taken, and the lexer stands there again. -/
theorem State.Sound.readTagName_escape {tok : Token} (hs : s.Sound)
    (hheld : s.lexer.held = some tok)
    (hk : tok.kind.isPropertyName = true)
    (hesc : (s.lexer.file.bytesAt tok.span.start).head? = some 92) :
    ∃ u t, readTagName tok s = .ok u t ∧ Advances s t ∧ t.Stuck ∧ t.consumed = tok.span.start ∧
      t.lexer = { s.lexer with offset := tok.span.start - s.lexer.file.base, held := none } := by
  obtain ⟨hahead, -⟩ := hs.held tok hheld
  obtain ⟨hgives, hkind, hpos⟩ := Lexer.rereadTagName_gives hahead.stands hk
  generalize hr : s.lexer.rereadTagName tok = r at hgives hkind hpos
  have hrun := readTagName_eq hr hkind
  have hstart := hgives.start
  have hafter := hahead.after
  have hempty : r.1.span.stop = tok.span.start := by
    have ho := hgives.lies.ordered
    have hnot : ¬tok.span.start < r.1.span.stop := fun h => hpos.1 h hesc
    omega
  have hlex : ((State.noteAll { s with lexer := r.2.1 } r.2.2).taken r.1).lexer =
      { s.lexer with offset := tok.span.start - s.lexer.file.base, held := none } := by
    rw [← hempty, ← hgives.behind]
    simp [State.taken]
  generalize ht : (State.noteAll { s with lexer := r.2.1 } r.2.2).taken r.1 = t at hrun hlex
  have hspan : t.lastSpan = r.1.span := by rw [← ht]; rfl
  have hstuck : t.Stuck :=
    { kind := by rw [← ht]; exact hkind
      empty := by rw [hspan, hstart, hempty]
      escape := by rw [hlex, hspan, hempty]; exact hesc }
  -- the lexer stands in front of the escape again
  have hre : Reread s.front t.front := by
    rw [State.front_of_held hheld]
    exact front_of_escape (by rw [hlex]; exact hahead.stands) (by rw [hlex]) (by rw [hlex])
      (by rw [hlex]; exact hesc)
  refine ⟨r.1, t, hrun, ?_, hstuck, by rw [State.consumed, hspan, hempty], hlex⟩
  rw [← ht] at hre hstuck ⊢
  exact .take hgives.lies hgives.behind (by omega) fun _ => .inr ⟨hre, hstuck⟩

/-- A name in a tag is taken. In front of an escape it has no character, and the parse is stuck. -/
theorem State.Sound.readTagName {tok : Token} (hs : s.Sound) (hheld : s.lexer.held = some tok)
    (hk : tok.kind.isPropertyName = true) :
    ∃ u t, readTagName tok s = .ok u t ∧ Advances s t ∧
      (s.Fair → s.consumed < t.consumed ∨ t.Stuck) := by
  by_cases hesc : (s.lexer.file.bytesAt tok.span.start).head? = some 92
  · obtain ⟨u, t, hrun, ha, hstuck, -, -⟩ := hs.readTagName_escape hheld hk hesc
    exact ⟨u, t, hrun, ha, fun _ => .inr hstuck⟩
  · obtain ⟨hahead, -⟩ := hs.held tok hheld
    obtain ⟨hgives, hkind, hpos⟩ := Lexer.rereadTagName_gives hahead.stands hk
    refine ⟨_, _, readTagName_eq rfl hkind, .retake hs hheld hgives (hpos.2 hesc), fun _ => .inl ?_⟩
    exact Nat.lt_of_le_of_lt hahead.after (hpos.2 hesc)

/-- What follows between two tags is taken, from the end of the last token on. -/
theorem State.Sound.readChild (hs : s.Sound) :
    ∃ u t, readChild s = .ok u t ∧ Advances s t ∧
      (u.kind ≠ .eof → s.consumed < t.consumed) := by
  have hlast : s.lastToken.span.stop = s.consumed := by rw [hs.last]; rfl
  obtain ⟨hgives, heof, hmoves⟩ := Lexer.nextChild_gives s.lexer s.lastToken
    (by rw [hlast]; exact hs.inside)
  rw [hlast] at hgives heof hmoves
  generalize hr : s.lexer.nextChild s.lastToken = r at hgives heof hmoves
  have hrun : Parse.readChild s = consume r.1 (State.noteAll { s with lexer := r.2.1 } r.2.2) := by
    have h : Parse.readChild s = consume (s.lexer.nextChild s.lastToken).1
        (State.noteAll { s with lexer := (s.lexer.nextChild s.lastToken).2.1 }
          (s.lexer.nextChild s.lastToken).2.2) := rfl
    rw [h, hr]
  have hstart := hgives.start
  by_cases hk : r.1.kind = .eof
  · have hreads := hs.reads
    have hlen := congrArg List.length (heof.1 hk)
    simp only [SourceFile.bytesAt, List.length_drop, List.length_nil] at hlen
    have hb := hreads.stands.base_le
    have ho := hreads.stands.ordered
    have hst := hreads.stands.stop_le
    have hafter := hreads.after
    have hro := hgives.lies.ordered
    have hrst := hgives.lies.stop_le
    refine ⟨r.1, _, hrun.trans (consume_eof hk _), .atEnd hs ?_ ?_, fun h => absurd hk h⟩
    · unfold SourceFile.stop at *
      omega
    · rw [hgives.behind]
      unfold SourceFile.stop at *
      congr 1
      omega
  · have hlt : s.consumed < r.1.span.stop := by
      have := hmoves hk
      omega
    refine ⟨r.1, _, hrun.trans (consume_taken hk _), ?_, fun _ => hlt⟩
    exact .take hgives.lies hgives.behind (by omega) fun _ => .inl hlt

theorem startsQuoted_kind {tok : Token} (h : startsQuoted tok = true) :
    tok.kind = .stringLit ∨ tok.kind = .invalid := by
  simp only [startsQuoted, Bool.or_eq_true, Bool.and_eq_true, beq_iff_eq] at h
  exact h.imp id (·.1)

theorem startsQuoted_opens {f : SourceFile} {tok : Token} (h : startsQuoted tok = true)
    (hstands : tok.Stands f) : Lexeme.OpensString (f.bytesAt tok.span.start) := by
  simp only [startsQuoted, Bool.or_eq_true, Bool.and_eq_true, beq_iff_eq] at h
  rcases h with h | ⟨-, h⟩
  · exact hstands.heads.string h
  · -- the text of the token is a prefix of the text there
    obtain ⟨rest, hrest⟩ := hstands.text
    rw [← hrest]
    cases htext : tok.text with
    | nil => simp [htext] at h
    | cons b bs =>
      rw [htext] at h
      exact h

/-- The next token in front of an attribute's value. -/
theorem State.Sound.peekAttributeValue (hs : s.Sound) :
    ∃ u t, peekAttributeValue s = .ok u t ∧ Advances s t ∧ t.lexer.held = some u ∧
      t.lastSpan = s.lastSpan ∧ Reread s.front u ∧ t.tokens = s.tokens := by
  have hreads := hs.reads
  have hpeek : s.lexer.peek = (s.front, s.lexer.next.2.1.push s.front, s.lexer.next.2.2) := rfl
  by_cases hq : startsQuoted s.front = true
  · have hfile : (s.lexer.next.2.1.push s.front).file = s.lexer.file := by rw [hreads.behind]; rfl
    have hkind := startsQuoted_kind hq
    have hopen := startsQuoted_opens hq hreads.stands
    have hre : (s.lexer.next.2.1.push s.front).Rereads s.front
        ((s.lexer.next.2.1.push s.front).rereadAttribute s.front) :=
      Lexer.rereadAttribute_rereads (hfile ▸ hreads.stands) hkind (hfile ▸ hopen)
    have hrun : Parse.peekAttributeValue s =
        .ok ((s.lexer.next.2.1.push s.front).rereadAttribute s.front).1
          (State.noteAll
            { s with
              lexer := ((s.lexer.next.2.1.push s.front).rereadAttribute s.front).2.1.push
                ((s.lexer.next.2.1.push s.front).rereadAttribute s.front).1 }
            ((s.lexer.next.2.1.push s.front).rereadAttribute s.front).2.2) := by
      unfold Parse.peekAttributeValue
      rw [hpeek]
      simp only [hq, if_true]
    generalize (s.lexer.next.2.1.push s.front).rereadAttribute s.front = r at hre hrun
    have hstart := hre.start
    have hstands : r.1.Stands s.lexer.file :=
      ⟨hfile ▸ hre.lies, by rw [hstart, ← hfile]; exact hre.heads⟩
    have hsame : Reread s.front r.1 := .of_stands hreads.stands hstands hstart
    refine ⟨r.1, _, hrun, ?_, by rw [State.noteAll_lexer]; rfl, by simp, hsame, by simp⟩
    refine .hold hs hfile hstands hre.behind (by rw [hstart]; exact hreads.after) (fun hk => ?_)
      (fun _ _ => by rw [hstart]; exact hre.moves) hsame
    exact Nat.lt_of_lt_of_le (countP_isError_pos hre.errors (hre.told hk)) (Nat.le_add_left _ _)
  · obtain ⟨t, hrun, hadv, hheld, hlast⟩ := hs.peek
    have htoks : t.tokens = s.tokens := by
      rw [← (Outcome.ok.inj hrun).2, State.noteAll_tokens]
    refine ⟨s.front, t, ?_, hadv, hheld, hlast, .refl _, htoks⟩
    rw [← hrun]
    unfold Parse.peekAttributeValue
    rw [hpeek]
    simp only [hq]
    rfl

end

end ScriptLower.Parse
