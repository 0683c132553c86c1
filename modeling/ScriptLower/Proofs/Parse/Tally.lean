import ScriptLower.Proofs.Parse.Ending

/-!
# The tally of a parse

Everything that the lexer or a rule reports is an error, and every error reported is counted: the
number of errors is the number of diagnostics. A try that is undone takes back both, and one that is
kept has reported nothing.

So a file is read into a tree exactly when nothing is reported, unless the parse never ends.
-/

namespace ScriptLower

/-! ## Faults of tokens -/

section

variable {lx : Lexer} {t : Token}

/-- Only errors are found by reading a token. -/
def Lexer.Result.Faults (r : Lexer.Result) : Prop := ∀ d ∈ r.2.2, d.isError = true

theorem Lexer.diagnose_errors (at_ : Nat) (faults : List Lexeme.Fault) :
    ∀ d ∈ lx.diagnose at_ faults, d.isError = true := by
  intro d hd
  obtain ⟨f, -, rfl⟩ := List.mem_map.1 hd
  rfl

theorem Lexer.accept_faults (l : Lexeme) (leading : List Trivia) (newline : Bool) :
    (lx.accept l leading newline).Faults := diagnose_errors _ _

theorem Lexer.placeTrivia_errors (lx : Lexer) (ps : List TriviaRun.Piece) :
    ∀ d ∈ (lx.placeTrivia ps).2.2, d.isError = true := by
  induction ps generalizing lx with
  | nil => exact fun _ h => by cases h
  | cons p ps ih => exact List.forall_mem_append.2 ⟨diagnose_errors _ _, ih _⟩

theorem Lexer.next_faults (lx : Lexer) : lx.next.Faults := by
  unfold Lexer.next
  split
  · exact fun _ h => by cases h
  · exact List.forall_mem_append.2 ⟨placeTrivia_errors _ _, diagnose_errors _ _⟩

theorem Lexer.peek_faults (lx : Lexer) : lx.peek.Faults := lx.next_faults

/-- Reading a token again under a condition. -/
theorem Lexer.reread_faults (read : Bytes → Lexeme) (c : Bool) :
    Lexer.Result.Faults (if c then lx.reread t read else (t, lx, [])) := by
  cases c
  · exact fun _ h => by cases h
  · exact accept_faults _ _ _

theorem Lexer.rereadAttribute_faults : (lx.rereadAttribute t).Faults := by
  unfold Lexer.rereadAttribute
  split
  · dsimp only
    split
    · exact fun _ h => by cases h
    · split <;> exact accept_faults _ _ _
  · exact fun _ h => by cases h

end

namespace Parse

/-! ## The tally -/

/-- What is reported between two states are errors, and each of them is counted. -/
def Tally (s t : State) : Prop :=
  ∃ new, t.reports = s.reports ++ new ∧ t.errors = s.errors + new.length ∧
    ∀ d ∈ new, d.isError = true

section

variable {s t u : State} {α β σ : Type}

theorem Tally.of_eq (hr : t.reports = s.reports) (he : t.errors = s.errors) : Tally s t :=
  ⟨[], by simp [hr], by simp [he], fun _ h => by cases h⟩

theorem Tally.refl (s : State) : Tally s s := .of_eq rfl rfl

theorem Tally.trans (h : Tally s t) (h' : Tally t u) : Tally s u := by
  obtain ⟨new, hr, he, hnew⟩ := h
  obtain ⟨more, hr', he', hmore⟩ := h'
  refine ⟨new ++ more, by
    rw [hr', hr, List.append_assoc], ?_, List.forall_mem_append.2 ⟨hnew, hmore⟩⟩
  rw [he', he, List.length_append, Nat.add_assoc]

/-- Only reports and errors matter, in front as well as behind. -/
theorem Tally.congr {s' t' : State} (h : Tally s t) (hr : s'.reports = s.reports)
    (he : s'.errors = s.errors) (hr' : t'.reports = t.reports) (he' : t'.errors = t.errors) :
    Tally s' t' := by
  obtain ⟨new, hnew, hcount, herr⟩ := h
  exact ⟨new, by rw [hr', hr, hnew], by rw [he', he, hcount], herr⟩

theorem Tally.note (s : State) {d : Diagnostic} (hd : d.isError = true) : Tally s (s.note d) :=
  ⟨[d], rfl, by simp [State.note, hd], by simpa using hd⟩

theorem Tally.noteAll {ds : List Diagnostic} (hds : ∀ d ∈ ds, d.isError = true) (s : State) :
    Tally s (s.noteAll ds) := by
  induction ds generalizing s with
  | nil => exact .refl s
  | cons d ds ih =>
    obtain ⟨hd, hrest⟩ := List.forall_mem_cons.1 hds
    exact (Tally.note s hd).trans (ih hrest _)

/-- The tally of an outcome. A parse that stops at the limit of errors has counted one; one that
goes nowhere has none. -/
def Outcome.Tallied (s : State) : Outcome α → Prop
  | .ok _ t => Tally s t
  | .fail _ t => Tally s t
  | .halt .errorLimit t => Tally s t ∧ 0 < t.errors
  | .halt _ _ => True

theorem Outcome.Tallied.trans {o : Outcome α} (h : Tally s t) (h' : o.Tallied t) : o.Tallied s := by
  cases o with
  | ok a u => exact h.trans h'
  | fail c u => exact h.trans h'
  | halt w u =>
    cases w with
    | errorLimit => exact ⟨h.trans h'.1, h'.2⟩
    | noProgress => trivial
    | outOfSteps => trivial

theorem tallied_bind {p : Parser α} {f : α → Parser β} (hp : (p s).Tallied s)
    (hf : ∀ a t, p s = .ok a t → (f a t).Tallied t) : ((p >>= f) s).Tallied s := by
  show (Parser.bind p f s).Tallied s
  unfold Parser.bind
  cases h : p s with
  | ok a t =>
    rw [h] at hp
    exact Outcome.Tallied.trans hp (hf a t h)
  | fail c t => rw [h] at hp; exact hp
  | halt w t => rw [h] at hp; cases w <;> exact hp

/-! ## Operations -/

theorem tallied_errorAt (span : Span) (code : Code) (message : Bytes) (s : State) :
    (errorAt span code message s).Tallied s := by
  have hnote : Tally s (s.note (Diagnostic.error code span message)) := .note s rfl
  rcases errorAt_cases span code message s with h | ⟨-, h⟩ <;> rw [h]
  · exact hnote
  · exact ⟨hnote, Nat.succ_pos _⟩

theorem tallied_lex {read : Lexer → Lexer.Result} (h : (read s.lexer).Faults) :
    (lex read s).Tallied s :=
  (Tally.noteAll h { s with lexer := (read s.lexer).2.1 }).congr rfl rfl rfl rfl

theorem tallied_consume (t : Token) (s : State) : (consume t s).Tallied s := by
  unfold consume
  split
  · exact Tally.refl s
  · exact Tally.of_eq rfl rfl

/-- A token that is read and then taken. -/
theorem tallied_take {read : Lexer → Lexer.Result} (h : (read s.lexer).Faults) :
    ((lex read >>= consume) s).Tallied s :=
  tallied_bind (tallied_lex h) fun tok t _ => tallied_consume tok t

theorem tallied_peekAttributeValue (s : State) : (peekAttributeValue s).Tallied s := by
  unfold peekAttributeValue
  split
  rename_i tok lx ds hpeek
  split
  · split
    rename_i tok' lx' ds' hre
    have hfaults : ∀ d ∈ ds', d.isError = true := by
      have hreread : (lx.rereadAttribute tok).Faults := Lexer.rereadAttribute_faults
      rwa [hre] at hreread
    exact (Tally.noteAll hfaults { s with lexer := lx'.push tok' }).congr rfl rfl rfl rfl
  · have hfaults : ∀ d ∈ ds, d.isError = true := by
      have := s.lexer.peek_faults
      rwa [hpeek] at this
    exact (Tally.noteAll hfaults { s with lexer := lx }).congr rfl rfl rfl rfl

theorem tallied_declare (lexical : Bool) (n : Node) (s : State) :
    (declare lexical n s).Tallied s := by
  rcases declare_cases lexical n s with h | ⟨-, ⟨scope, outer, -, h⟩ | h⟩ <;> rw [h]
  · exact Tally.refl s
  · exact Tally.of_eq rfl rfl
  · exact tallied_errorAt _ _ _ s

theorem tallied_requireTypes (t : Token) (s : State) : (requireTypes t s).Tallied s := by
  rcases requireTypes_cases t s with h | ⟨-, h⟩ | ⟨-, h⟩ <;> rw [h]
  · exact Tally.refl s
  · exact Tally.of_eq rfl rfl
  · exact tallied_errorAt _ _ _ s

/-- Recording comments reports nothing. -/
theorem tally_comments (add : CommentTable → CommentTable) (s : State) :
    Tally s (if 0 < s.depth then s else { s with comments := add s.comments }) := by
  split
  · exact .refl s
  · exact .of_eq rfl rfl

/-! ## Control -/

theorem tallied_loopFrom {step : σ → Parser (σ ⊕ α)} (hstep : ∀ a s, (step a s).Tallied s) (n : Nat)
    (init : σ) (s : State) : (loopFrom step n init s).Tallied s := by
  induction n generalizing init s with
  | zero => trivial
  | succ n ih =>
    have h := hstep init s
    unfold loopFrom
    cases hs : step init s with
    | ok x t =>
      rw [hs] at h
      cases x with
      | inl a =>
        dsimp only
        split
        · exact Outcome.Tallied.trans h (ih a t)
        · trivial
      | inr b => exact h
    | fail c t => rw [hs] at h; exact h
    | halt w t => rw [hs] at h; cases w <;> exact h

theorem tallied_bracket {enter : State → State} {leave : State → State → State} {p : Parser α}
    (hfr : Framing enter leave) (hp : (p (enter s)).Tallied (enter s)) :
    (bracket enter leave p s).Tallied s := by
  have hout {t : State} (h : Tally (enter s) t) : Tally s (leave s t) :=
    h.congr (by rw [hfr.enter_eq]) (by rw [hfr.enter_eq]) (by rw [hfr.leave_eq])
      (by rw [hfr.leave_eq])
  unfold bracket
  cases h : p (enter s) with
  | ok a t => rw [h] at hp; exact hout hp
  | fail c t => rw [h] at hp; exact hout hp
  | halt w t =>
    rw [h] at hp
    cases w with
    | errorLimit => exact ⟨hout hp.1, by rw [hfr.leave_eq]; exact hp.2⟩
    | noProgress => trivial
    | outOfSteps => trivial

theorem tallied_attempt {p : Parser α} (hp : (p s).Tallied s) : (attempt p s).Tallied s := by
  unfold attempt
  cases h : p s with
  | ok a t => rw [h] at hp; exact hp
  | fail c t => rw [h] at hp; exact hp
  | halt w t => rw [h] at hp; cases w <;> exact hp

/-! ## Tries -/

theorem tallied_reportPending (spans : List Span) (s : State) :
    (reportPending spans s).Tallied s := by
  induction spans generalizing s with
  | nil => exact Tally.of_eq rfl rfl
  | cons sp spans ih => exact tallied_bind (tallied_errorAt _ _ _ s) fun _ t _ => ih t

theorem tallied_keepTry (a : α) (s : State) : (keepTry a s).Tallied s := by
  refine tallied_bind (Tally.refl s) fun t u _ => ?_
  split
  · exact tallied_bind (tallied_reportPending _ u) fun _ v _ => Tally.refl v
  · exact Tally.refl u

/-- A try that is undone takes back what it counted with what it reported. -/
theorem tally_undoTry (s t : State) : Tally s (s.undoTry t) := .of_eq rfl rfl

/-- A try that reported nothing counted nothing. -/
theorem tally_leaveTry (h : Tally s.enterTry t) (hr : t.reports = []) : Tally s (s.leaveTry t) := by
  obtain ⟨new, hreports, herrors, -⟩ := h
  rw [hr] at hreports
  obtain ⟨-, rfl⟩ := List.append_eq_nil_iff.1 hreports.symm
  exact .of_eq rfl herrors

theorem tallied_speculate {p : Parser α} (hp : (p s.enterTry).Tallied s.enterTry) :
    (speculate p s).Tallied s := by
  unfold speculate
  cases h : p s.enterTry with
  | ok a t =>
    rw [h] at hp
    dsimp only
    split
    · rename_i hr
      exact Outcome.Tallied.trans (tally_leaveTry hp (List.isEmpty_iff.1 hr)) (tallied_keepTry a _)
    · exact tally_undoTry s t
  | fail c t => exact tally_undoTry s t
  | halt w t =>
    cases w with
    | errorLimit => exact tally_undoTry s t
    | noProgress => trivial
    | outOfSteps => trivial

theorem tallied_lookahead (p : Parser Bool) (s : State) : (lookahead p s).Tallied s := by
  unfold lookahead
  cases h : p s.enterTry with
  | ok b t => exact tally_undoTry s t
  | fail c t => exact tally_undoTry s t
  | halt w t =>
    cases w with
    | errorLimit => exact tally_undoTry s t
    | noProgress => trivial
    | outOfSteps => trivial

/-! ## Rules -/

/-- The parts of the grammar keep the tally. -/
def Rules.Tallied (g : Rules) : Prop := ∀ part s, part.Opens s → (g part s).Tallied s

/-- What is put together from the operations of a parser keeps the tally. -/
theorem Obeys.tallied {g : Rules} (hg : g.Framed) (hn : g.Tallied) {q : Bool} {k : Know}
    {p : Parser α} {Q : α → Know → Prop} (h : Obeys g q k p Q) (hk : k.Fits s) :
    (p s).Tallied s := by
  induction h generalizing s with
  | pure => exact Tally.refl s
  | bind hp _ ihp ihf =>
    -- what is known behind the first step fits the state it leaves
    have hfind := (hp.framed hg hk).2
    refine tallied_bind (ihp hk) fun a t hrun => ?_
    rw [hrun] at hfind
    obtain ⟨m, hm, hfit⟩ := hfind
    exact ihf a m hm hfit
  | mono _ _ ih => exact ih hk
  | forget _ hle ih => exact ih (hk.of_le hle)
  | fail => exact Tally.refl s
  | view => exact Tally.refl s
  | peek => exact tallied_lex (Lexer.peek_faults _)
  | peekAgain => exact tallied_lex (Lexer.peek_faults _)
  | peek2 => exact Tally.refl s
  | advance => exact tallied_take (Lexer.next_faults _)
  | splitLess =>
    exact tallied_bind (tallied_lex (Lexer.reread_faults _ _)) fun _ _ _ => Tally.of_eq rfl rfl
  | joinGreater =>
    refine tallied_bind (tallied_lex (Lexer.reread_faults _ _)) fun _ _ _ => ?_
    exact tallied_bind (Tally.of_eq rfl rfl) fun _ t _ => Tally.refl t
  | readRegExp => exact tallied_take (Lexer.accept_faults _ _ _)
  | readTemplate => exact tallied_take (Lexer.accept_faults _ _ _)
  | readTagName => exact tallied_take (Lexer.reread_faults _ _)
  | readChild =>
    exact tallied_bind (Tally.refl s) fun _ _ _ => tallied_take (Lexer.accept_faults _ _ _)
  | peekAttributeValue => exact tallied_peekAttributeValue s
  | errorAt => exact tallied_errorAt _ _ _ s
  | addLeading => exact tally_comments (fun c => c.addLeading _ _) s
  | addDanglingOf => exact tally_comments (fun c => c.addDangling _ _) s
  | declare => exact tallied_declare _ _ s
  | requireTypes => exact tallied_requireTypes _ s
  | part _ hsees _ =>
    refine hn _ s fun hc => ?_
    obtain ⟨t, ht, hne⟩ := hsees hc
    exact ⟨t, hk.next t ht, hne⟩
  | bracket hfr _ ih =>
    exact tallied_bracket hfr
      (ih (hk.of_eq (congrArg Lexer.held (hfr.enter_still s).1) (hfr.enter_still s).2))
  | loop _ ih => exact tallied_loopFrom (fun a s => ih a (Know.round_fits _ s)) _ _ s
  | attempt _ _ ih => exact tallied_attempt (ih hk)
  | speculate _ _ ih => exact tallied_speculate (ih (s := s.enterTry) (hk.of_eq rfl rfl))
  | lookahead => exact tallied_lookahead _ s

theorem rules_tallied (n : Nat) : (rules n).Tallied := by
  induction n with
  | zero => exact fun _ _ _ => trivial
  | succ n ih =>
    intro part s hopen
    obtain ⟨k, hk, -, hobeys⟩ := hopen.obeys (rules n) false
    exact hobeys.tallied (rules_framed n) ih hk

/-! ## A list of statements never fails -/

/-- The parser comes to a value unless the parse stops. -/
def Steady (p : Parser α) : Prop := ∀ s c t, p s ≠ .fail c t

theorem Steady.bind {p : Parser α} {f : α → Parser β} (hp : Steady p) (hf : ∀ a, Steady (f a)) :
    Steady (p >>= f) := by
  intro s c t h
  change Parser.bind p f s = _ at h
  unfold Parser.bind at h
  split at h
  · exact hf _ _ _ _ h
  · rename_i hrun
    exact hp _ _ _ hrun
  · cases h

theorem steady_pure (a : α) : Steady (pure a) := fun _ _ _ h => by cases h

theorem steady_lex (read : Lexer → Lexer.Result) : Steady (lex read) := fun _ _ _ h => by cases h

theorem steady_advance : Steady advance := by
  refine .bind (steady_lex _) fun tok s c t h => ?_
  unfold consume at h
  split at h <;> cases h

theorem Steady.bracket {enter : State → State} {leave : State → State → State} {p : Parser α}
    (h : Steady p) : Steady (Parse.bracket enter leave p) := by
  intro s c t hrun
  unfold Parse.bracket at hrun
  split at hrun
  · cases hrun
  · rename_i hp
    exact h _ _ _ hp
  · cases hrun

theorem steady_attempt (p : Parser α) : Steady (attempt p) := by
  intro s c t h
  unfold attempt at h
  split at h <;> cases h

theorem Steady.loop {step : σ → Parser (σ ⊕ α)} {init : σ} (h : ∀ a, Steady (step a)) :
    Steady (Parse.loop step init) := by
  intro s c t hrun
  change loopFrom step _ init s = _ at hrun
  generalize s.lexer.file.content.length + 2 = n at hrun
  induction n generalizing init s with
  | zero => cases hrun
  | succ n ih =>
    unfold loopFrom at hrun
    split at hrun
    · split at hrun
      · exact ih _ hrun
      · cases hrun
    · cases hrun
    · rename_i hs
      exact h _ _ _ _ hs
    · cases hrun

theorem steady_resync : Steady resync := by
  refine .loop fun depth => .bind (steady_lex _) fun t => ?_
  have goOn (depth : Nat) : Steady (do
      let _ ← advance
      return (.inl depth : Nat ⊕ Unit)) := .bind steady_advance fun _ => steady_pure _
  have stopBehind : Steady (do
      let _ ← advance
      return (.inr () : Nat ⊕ Unit)) := .bind steady_advance fun _ => steady_pure _
  split
  · exact steady_pure _
  · exact goOn _
  · split
    · exact steady_pure _
    · split
      · exact stopBehind
      · exact goOn _
  · split
    · exact stopBehind
    · exact goOn _
  · split
    · exact steady_pure _
    · exact goOn _

theorem steady_recover (ends : Token → Bool) (before : Nat) : Steady (recover ends before) := by
  refine .bind steady_resync fun _ => .bind (steady_lex _) fun t => ?_
  split
  · exact .bind steady_advance fun _ => steady_pure _
  · exact steady_pure _

theorem steady_at (k : TokenKind) : Steady (at_ k) := .bind (steady_lex _) fun _ => steady_pure _

theorem steady_parseStatementList (g : Rules) (close : TokenKind) (top : Bool) :
    Steady (parseStatementList g close top) := by
  unfold parseStatementList listUntil
  refine .loop fun stmts => .bind (steady_at _) fun closed => .bind (steady_at _) fun ended => ?_
  split
  · exact steady_pure _
  · refine .bind (.bind (steady_lex _) fun t => .bind (steady_attempt _) fun stmt => ?_)
      fun _ => steady_pure _
    split
    · exact steady_pure _
    · exact .bind (steady_recover _ _) fun _ => steady_pure _

theorem steady_parseProgram (g : Rules) : Steady (parseProgram g) := by
  refine .bind (steady_lex _) fun start =>
    .bind (.bracket (steady_parseStatementList _ _ _)) fun stmts => ?_
  refine .bind (steady_lex _) fun eof => .bind (.bind (steady_lex _) fun t => ?_) fun _ =>
    steady_pure _
  exact fun _ _ _ h => by cases h

end

/-! ## A file -/

section

variable {file : SourceFile} {o : Options}

/-- A file whose parse ends is read into a tree, and then nothing is reported and no error is
counted, or into none, and then something is reported. Only errors are. -/
theorem parseFile_tally
    (h : (parseProgram (rules (depthFor file.content.length)) (initial file o)).Ends) :
    (∀ d ∈ (parseFile file o).reports, d.isError = true) ∧
      ((parseFile file o).tree.isSome = true → (parseFile file o).reports = [] ∧
        (parseFile file o).errors = 0) ∧
      ((parseFile file o).tree = none → (parseFile file o).reports ≠ [] ∧
        0 < (parseFile file o).errors) := by
  have htally := (program_obeys (rules (depthFor file.content.length))).tallied (rules_framed _)
    (rules_tallied _) (s := initial file o) (.blank (by simp) rfl)
  have hsteady := steady_parseProgram (rules (depthFor file.content.length)) (initial file o)
  -- the tally begins with nothing
  have hcount {t : State} (h : Tally (initial file o) t) :
      (∀ d ∈ t.reports, d.isError = true) ∧ (t.reports = [] ↔ t.errors = 0) := by
    obtain ⟨new, hr, he, hnew⟩ := h
    have hr : t.reports = new := hr
    have he : t.errors = 0 + new.length := he
    refine ⟨hr ▸ hnew, ?_⟩
    rw [hr, he, Nat.zero_add, List.length_eq_zero_iff]
  unfold parseFile
  dsimp only
  split
  · rename_i n t hrun
    rw [hrun] at htally
    obtain ⟨herr, hnil⟩ := hcount htally
    split
    · rename_i hzero
      exact ⟨herr, fun _ => ⟨hnil.2 hzero, rfl⟩, fun h => by cases h⟩
    · rename_i hpos
      exact ⟨herr, (fun h => by cases h), fun _ => ⟨mt hnil.1 hpos, Nat.pos_of_ne_zero hpos⟩⟩
  · rename_i c t hrun
    exact absurd hrun (hsteady c t)
  · rename_i w t hrun
    rw [hrun] at h htally
    cases w with
    | errorLimit =>
      obtain ⟨htally, hpos⟩ := htally
      obtain ⟨herr, hnil⟩ := hcount htally
      refine ⟨herr, (fun h => by cases h), fun _ => ⟨mt hnil.1 (Nat.ne_of_gt hpos), ?_⟩⟩
      exact Nat.lt_of_lt_of_le hpos (Nat.le_max_left _ _)
    | noProgress => cases h
    | outOfSteps => cases h

end

end Parse

end ScriptLower
