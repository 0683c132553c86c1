import ScriptLower.Proofs.Comment.Growth
import ScriptLower.Proofs.Parse.StatementRules

/-!
# What a parser leaves alone

A rule may set the enclosing function, the labels, the marks for `in`, types and ambient
declarations, and open blocks; on the way out, also when it fails, all of this is as it was. The
tokens kept, the errors counted, the diagnostics and the recorded comments only grow. During a try
the comments and the declared names do not change at all, and the places of type syntax that wait
only grow.

A try saves only the place in the text, the last token, the number of tokens kept and the number of
errors. Together with the above that is enough: a try that is undone leaves no trace.
-/

namespace ScriptLower.Parse

open ScriptLower

/-- The places of a state that every rule leaves as they were. -/
def State.setting (s : State) :=
  (s.lexer.file, s.lexer.strictOctal, s.grammar, s.capture, s.maxErrors, s.depth, s.fn, s.noIn,
    s.typeDepth, s.ambient, s.labels)

/-- How the state behind a rule goes back to the state in front of it. -/
structure Frame (s t : State) : Prop where
  /-- The context is as it was. -/
  setting : t.setting = s.setting
  /-- The outer blocks declare what they did. -/
  outer : t.scopes.tail = s.scopes.tail
  /-- No block is left open, and none is closed. -/
  blocks : t.scopes.length = s.scopes.length
  /-- A try declares nothing. -/
  scopes : 0 < s.depth → t.scopes = s.scopes
  /-- A try records no comment. -/
  comments : 0 < s.depth → t.comments = s.comments
  /-- Recorded comments stay. -/
  recorded : s.comments.Sub t.comments
  /-- A try forgets no place of type syntax. -/
  pending : 0 < s.depth → s.pendingTypes <+: t.pendingTypes
  /-- Kept tokens stay. -/
  tokens : s.tokens <+: t.tokens
  /-- Diagnostics stay. -/
  reports : s.reports <+: t.reports
  /-- Errors stay counted. -/
  errors : s.errors ≤ t.errors

section

variable {s t u : State}

theorem Frame.depth (h : Frame s t) : t.depth = s.depth := by
  have := h.setting
  simp only [State.setting, Prod.mk.injEq] at this
  exact this.2.2.2.2.2.1

theorem Frame.refl (s : State) : Frame s s where
  setting := rfl
  outer := rfl
  blocks := rfl
  scopes _ := rfl
  comments _ := rfl
  recorded := .refl _
  pending _ := List.prefix_refl _
  tokens := List.prefix_refl _
  reports := List.prefix_refl _
  errors := Nat.le_refl _

theorem Frame.trans (h : Frame s t) (h' : Frame t u) : Frame s u where
  setting := h'.setting.trans h.setting
  outer := h'.outer.trans h.outer
  blocks := h'.blocks.trans h.blocks
  scopes hd := (h'.scopes (h.depth ▸ hd)).trans (h.scopes hd)
  comments hd := (h'.comments (h.depth ▸ hd)).trans (h.comments hd)
  recorded := h.recorded.trans h'.recorded
  pending hd := (h.pending hd).trans (h'.pending (h.depth ▸ hd))
  tokens := h.tokens.trans h'.tokens
  reports := h.reports.trans h'.reports
  errors := Nat.le_trans h.errors h'.errors

/-- Only the place in the text, the last token, the tokens kept and the diagnostics differ. -/
theorem Frame.of_reading (hf : t.lexer.file = s.lexer.file)
    (ho : t.lexer.strictOctal = s.lexer.strictOctal) (htok : s.tokens <+: t.tokens)
    (hrep : s.reports <+: t.reports) (herr : s.errors ≤ t.errors)
    (h : t = { s with
      lexer := t.lexer, lastToken := t.lastToken, lastSpan := t.lastSpan, tokens := t.tokens,
      reports := t.reports, errors := t.errors }) : Frame s t := by
  rw [h]
  exact
    { setting := by simp only [State.setting, hf, ho]
      outer := rfl
      blocks := rfl
      scopes := fun _ => rfl
      comments := fun _ => rfl
      recorded := .refl _
      pending := fun _ => List.prefix_refl _
      tokens := htok
      reports := hrep
      errors := herr }

/-! ## Diagnostics -/

theorem State.noteAll_eq (ds : List Diagnostic) (s : State) :
    s.noteAll ds = { s with reports := s.reports ++ ds, errors := (s.noteAll ds).errors } ∧
      s.errors ≤ (s.noteAll ds).errors := by
  induction ds generalizing s with
  | nil => exact ⟨by simp [State.noteAll], Nat.le_refl _⟩
  | cons d ds ih =>
    obtain ⟨he, hle⟩ := ih (s.note d)
    have hnote : s.errors ≤ (s.note d).errors := by
      unfold State.note
      dsimp only
      split <;> omega
    refine ⟨?_, Nat.le_trans hnote hle⟩
    show (s.note d).noteAll ds = _
    rw [he]
    simp [State.note, State.noteAll]

@[simp] theorem State.noteAll_lexer (ds : List Diagnostic) (s : State) :
    (s.noteAll ds).lexer = s.lexer := by rw [(State.noteAll_eq ds s).1]

@[simp] theorem State.noteAll_lastSpan (ds : List Diagnostic) (s : State) :
    (s.noteAll ds).lastSpan = s.lastSpan := by rw [(State.noteAll_eq ds s).1]

@[simp] theorem State.noteAll_tokens (ds : List Diagnostic) (s : State) :
    (s.noteAll ds).tokens = s.tokens := by rw [(State.noteAll_eq ds s).1]

theorem Frame.note (s : State) (d : Diagnostic) : Frame s (s.note d) := by
  refine .of_reading rfl rfl (List.prefix_refl _) (List.prefix_append _ _) ?_ rfl
  exact (State.noteAll_eq [d] s).2

/-! ## Tries that are undone -/

/-- What was saved in front of a try is all that the try changed. -/
theorem undoTry_eq (h : Frame s.enterTry t) : s.undoTry t = s := by
  have hd : 0 < s.enterTry.depth := Nat.succ_pos _
  have hset := h.setting
  simp only [State.setting, State.enterTry, Prod.mk.injEq] at hset
  obtain ⟨hf, ho, hg, hcap, hmax, hdep, hfn, hno, hty, hamb, hlab⟩ := hset
  have htok : t.tokens.take s.tokens.length = s.tokens := List.prefix_iff_eq_take.1 h.tokens |>.symm
  have hpen : t.pendingTypes.take s.pendingTypes.length = s.pendingTypes :=
    List.prefix_iff_eq_take.1 (h.pending hd) |>.symm
  have hsc : t.scopes = s.scopes := h.scopes hd
  have hcom : t.comments = s.comments := h.comments hd
  have hlex :
      ({ t.lexer with offset := s.lexer.offset, held := s.lexer.held } : Lexer) = s.lexer := by
    simp only [hf, ho]
  simp only [State.undoTry, State.leaveTry, State.restore, State.save, htok, hpen,
    hsc, hcom, hlex, hg,
    hcap, hmax, hdep, hfn, hno, hty, hamb, hlab, Nat.add_sub_cancel]

/-- A try that is kept changes what a parser may change. -/
theorem leaveTry_frame (h : Frame s.enterTry t) : Frame s (s.leaveTry t) := by
  have hd : 0 < s.enterTry.depth := Nat.succ_pos _
  have hset := h.setting
  simp only [State.setting, State.enterTry, Prod.mk.injEq] at hset
  exact
    { setting := by simp only [State.setting, State.leaveTry, Prod.mk.injEq]; simp_all
      outer := h.outer
      blocks := h.blocks
      scopes := fun _ => h.scopes hd
      comments := fun _ => h.comments hd
      recorded := h.recorded
      pending := fun _ => h.pending hd
      tokens := h.tokens
      reports := List.prefix_refl _
      errors := h.errors }

/-! ## Outcomes -/

/-- The state behind an outcome goes back to `s`. A parse that cannot go on goes nowhere. -/
def Outcome.Framed {α : Type} (s : State) : Outcome α → Prop
  | .ok _ t => Frame s t
  | .fail _ t => Frame s t
  | .halt .errorLimit t => Frame s t
  | .halt _ _ => True

variable {α β σ : Type}

theorem Outcome.Framed.trans {o : Outcome α} (h : Frame s t) (h' : o.Framed t) : o.Framed s := by
  cases o with
  | ok a u => exact h.trans h'
  | fail c u => exact h.trans h'
  | halt w u =>
    cases w with
    | errorLimit => exact h.trans h'
    | noProgress => trivial
    | outOfSteps => trivial

/-- One parser behind another: the two frames meet in the middle. -/
theorem framed_bind {p : Parser α} {f : α → Parser β} (hp : (p s).Framed s)
    (hf : ∀ a t, (f a t).Framed t) : ((p >>= f) s).Framed s := by
  show (Parser.bind p f s).Framed s
  unfold Parser.bind
  cases h : p s with
  | ok a t =>
    rw [h] at hp
    exact Outcome.Framed.trans hp (hf a t)
  | fail c t => rw [h] at hp; exact hp
  | halt w t => rw [h] at hp; cases w <;> exact hp

/-- An error is noted, and stops the parse when it passes the limit outside tries. -/
theorem errorAt_cases (span : Span) (code : Code) (message : Bytes) (s : State) :
    errorAt span code message s = .ok () (s.note (Diagnostic.error code span message)) ∨
      s.depth = 0 ∧
        errorAt span code message s =
          .halt .errorLimit (s.note (Diagnostic.error code span message)) := by
  unfold errorAt
  dsimp only
  split
  · rename_i h
    simp only [Bool.and_eq_true, beq_iff_eq] at h
    exact .inr ⟨h.1.1, rfl⟩
  · exact .inl rfl

theorem framed_errorAt (span : Span) (code : Code) (message : Bytes) (s : State) :
    (errorAt span code message s).Framed s := by
  rcases errorAt_cases span code message s with h | ⟨-, h⟩ <;> rw [h] <;> exact Frame.note s _

/-! ## The lexer stays in its file -/

theorem placeTrivia_stays (lx : Lexer) (ps : List TriviaRun.Piece) :
    (lx.placeTrivia ps).2.1.file = lx.file ∧
      (lx.placeTrivia ps).2.1.strictOctal = lx.strictOctal := by
  induction ps generalizing lx with
  | nil => exact ⟨rfl, rfl⟩
  | cons p ps ih => exact ih (lx.seek (lx.offset + p.size))

theorem next_stays (lx : Lexer) :
    lx.next.2.1.file = lx.file ∧ lx.next.2.1.strictOctal = lx.strictOctal := by
  unfold Lexer.next
  split
  · exact ⟨rfl, rfl⟩
  · exact placeTrivia_stays lx _

theorem rereadAttribute_stays (lx : Lexer) (t : Token) :
    (lx.rereadAttribute t).2.1.file = lx.file ∧
      (lx.rereadAttribute t).2.1.strictOctal = lx.strictOctal := by
  unfold Lexer.rereadAttribute
  split
  · dsimp only
    split
    · exact ⟨rfl, rfl⟩
    · split <;> exact ⟨rfl, rfl⟩
  · exact ⟨rfl, rfl⟩

/-- Reading a token again under a condition. -/
theorem reread_stays (lx : Lexer) (t : Token) (read : Bytes → Lexeme) (c : Bool) :
    (if c then lx.reread t read else (t, lx, [])).2.1.file = lx.file ∧
      (if c then lx.reread t read else (t, lx, [])).2.1.strictOctal = lx.strictOctal := by
  cases c <;> exact ⟨rfl, rfl⟩

/-- Reading a token changes the place in the text and adds the faults of the token. -/
theorem framed_lex {read : Lexer → Lexer.Result}
    (hf : (read s.lexer).2.1.file = s.lexer.file)
    (ho : (read s.lexer).2.1.strictOctal = s.lexer.strictOctal) : (lex read s).Framed s := by
  obtain ⟨he, hle⟩ := State.noteAll_eq (read s.lexer).2.2 { s with lexer := (read s.lexer).2.1 }
  show Frame s (State.noteAll _ _)
  rw [he]
  exact .of_reading hf ho (List.prefix_refl _) (List.prefix_append _ _) hle rfl

theorem framed_consume (t : Token) (s : State) : (consume t s).Framed s := by
  unfold consume
  split
  · exact Frame.refl s
  · refine Frame.of_reading rfl rfl ?_ (List.prefix_refl _) (Nat.le_refl _) rfl
    dsimp only
    split
    · exact List.prefix_append _ _
    · exact List.prefix_refl _

theorem framed_push (t : Token) (s : State) : (push t s).Framed s :=
  Frame.of_reading rfl rfl (List.prefix_refl _) (List.prefix_refl _) (Nat.le_refl _) rfl

theorem framed_peekAttributeValue (s : State) : (peekAttributeValue s).Framed s := by
  have hp := next_stays s.lexer
  unfold peekAttributeValue
  split
  rename_i t lx ds hpeek
  have hlx : lx.file = s.lexer.file ∧ lx.strictOctal = s.lexer.strictOctal := by
    have : lx = s.lexer.peek.2.1 := by rw [hpeek]
    rw [this]
    exact hp
  split
  · split
    rename_i t' lx' ds' hre
    have hr := rereadAttribute_stays lx t
    rw [hre] at hr
    obtain ⟨he, hle⟩ := State.noteAll_eq ds' { s with lexer := lx'.push t' }
    show Frame s (State.noteAll _ _)
    rw [he]
    exact .of_reading (hr.1.trans hlx.1) (hr.2.trans hlx.2) (List.prefix_refl _)
      (List.prefix_append _ _) hle rfl
  · obtain ⟨he, hle⟩ := State.noteAll_eq ds { s with lexer := lx }
    show Frame s (State.noteAll _ _)
    rw [he]
    exact .of_reading hlx.1 hlx.2 (List.prefix_refl _) (List.prefix_append _ _) hle rfl

/-! ## Effects of the final parse -/

/-- Comments are recorded only outside tries. -/
theorem framed_comments (add : CommentTable → CommentTable)
    (hadd : ∀ c : CommentTable, c.Sub (add c)) (s : State) :
    Frame s (if 0 < s.depth then s else { s with comments := add s.comments }) := by
  split
  · exact .refl s
  · rename_i hd
    exact
      { setting := rfl, outer := rfl, blocks := rfl, scopes := fun _ => rfl
        comments := fun h => absurd h hd
        recorded := hadd _
        pending := fun _ => List.prefix_refl _
        tokens := List.prefix_refl _, reports := List.prefix_refl _, errors := Nat.le_refl _ }

/-- A name is declared in a state that checks names, or reported, or nothing happens. -/
theorem declare_cases (lexical : Bool) (n : Node) (s : State) :
    declare lexical n s = .ok () s ∨
      s.depth = 0 ∧
        ((∃ scope outer, s.scopes = scope :: outer ∧
            declare lexical n s =
              .ok () { s with scopes := ((n.text, lexical) :: scope) :: outer }) ∨
          declare lexical n s = errorAt n.span .duplicateDeclaration
            ("identifier '" ++ n.text ++ "' has already been declared") s) := by
  by_cases hoff :
    (!s.grammar.strictEarlyErrors || 0 < s.depth || 0 < s.ambient || 0 < s.typeDepth) = true
  · left
    simp only [declare, Bind.bind, Parser.bind, get, hoff, if_true]
    rfl
  · have hdepth : s.depth = 0 := by
      simp only [Bool.or_eq_true, decide_eq_true_eq, not_or] at hoff
      omega
    rcases hs : s.scopes with _ | ⟨scope, outer⟩
    · left
      simp only [declare, Bind.bind, Parser.bind, get, hoff, hs]
      rfl
    · have hrun : declare lexical n s = declareIn lexical n scope outer s := by
        simp only [declare, Bind.bind, Parser.bind, get, hoff, hs]
        rfl
      rw [hrun, declareIn]
      rcases hfind : scope.find? (fun d : Bytes × Bool => d.1 == n.text) with _ | ⟨name, before⟩
      · exact .inr ⟨hdepth, .inl ⟨scope, outer, rfl, rfl⟩⟩
      · dsimp only
        by_cases hl : (lexical || before) = true
        · rw [if_pos hl]
          exact .inr ⟨hdepth, .inr rfl⟩
        · rw [if_neg hl]
          exact .inl rfl

theorem framed_declare (lexical : Bool) (n : Node) (s : State) :
    (declare lexical n s).Framed s := by
  rcases declare_cases lexical n s with h | ⟨hd, ⟨scope, outer, hs, h⟩ | h⟩
  · rw [h]
    exact Frame.refl s
  · rw [h]
    exact
      { setting := rfl
        outer := by rw [hs]; rfl
        blocks := by rw [hs]; rfl
        scopes := fun h => absurd hd (Nat.ne_of_gt h)
        comments := fun _ => rfl
        recorded := .refl _
        pending := fun _ => List.prefix_refl _
        tokens := List.prefix_refl _, reports := List.prefix_refl _, errors := Nat.le_refl _ }
  · rw [h]
    exact framed_errorAt _ _ _ s

/-- Type syntax is allowed, or waits for a try to be kept, or is reported. -/
theorem requireTypes_cases (t : Token) (s : State) :
    requireTypes t s = .ok () s ∨
      0 < s.depth ∧
        requireTypes t s = .ok () { s with pendingTypes := s.pendingTypes ++ [t.span] } ∨
      s.depth = 0 ∧ requireTypes t s =
        errorAt t.span .typesInScript "type syntax is only allowed in TypeScript files" s := by
  simp only [requireTypes, Bind.bind, Parser.bind, get]
  by_cases hg : s.grammar.types = true
  · exact .inl (by rw [if_pos hg]; rfl)
  · rw [if_neg hg]
    rcases Nat.eq_zero_or_pos s.depth with hd | hd
    · exact .inr (.inr ⟨hd, by rw [if_neg (by omega)]⟩)
    · exact .inr (.inl ⟨hd, by rw [if_pos hd]; rfl⟩)

theorem framed_requireTypes (t : Token) (s : State) : (requireTypes t s).Framed s := by
  rcases requireTypes_cases t s with h | ⟨-, h⟩ | ⟨-, h⟩ <;> rw [h]
  · exact Frame.refl s
  · exact
        { setting := rfl, outer := rfl, blocks := rfl, scopes := fun _ => rfl
          comments := fun _ => rfl, recorded := .refl _
          pending := fun _ => List.prefix_append _ _
          tokens := List.prefix_refl _, reports := List.prefix_refl _, errors := Nat.le_refl _ }
  · exact framed_errorAt _ _ _ s

/-! ## Control -/

theorem framed_loopFrom {step : σ → Parser (σ ⊕ α)} (hstep : ∀ a s, (step a s).Framed s) (n : Nat)
    (init : σ) (s : State) : (loopFrom step n init s).Framed s := by
  induction n generalizing init s with
  | zero => trivial
  | succ n ih =>
    have h := hstep init s
    unfold loopFrom
    cases hs : step init s with
    | ok x t =>
      rw [hs] at h
      cases x with
      | inl a =>
        dsimp only
        split
        · exact Outcome.Framed.trans h (ih a t)
        · trivial
      | inr b => exact h
    | fail c t => rw [hs] at h; exact h
    | halt w t => rw [hs] at h; cases w <;> exact h

/-- What a context sets on the way in it sets back on the way out. -/
theorem Framing.frame {enter : State → State} {leave : State → State → State}
    (hfr : Framing enter leave) (h : Frame (enter s) t) : Frame s (leave s t) := by
  have hset := h.setting
  rw [hfr.enter_eq s] at hset
  simp only [State.setting, Prod.mk.injEq] at hset
  obtain ⟨hf, ho, hg, hcap, hmax, hdep, hfn, hno, hty, hamb, hlab⟩ := hset
  have he := hfr.enter_eq s
  obtain ⟨hfn, hno, hty, hamb, hlab⟩ := hfr.leave_back s t hfn hno hty hamb hlab
  have hl := hfr.leave_eq s t
  rw [hfn, hno, hty, hamb, hlab] at hl
  have hdepth : (enter s).depth = s.depth := by rw [he]
  have hcomments : (enter s).comments = s.comments := by rw [he]
  have hpending : (enter s).pendingTypes = s.pendingTypes := by rw [he]
  have htokens : (enter s).tokens = s.tokens := by rw [he]
  have hreports : (enter s).reports = s.reports := by rw [he]
  have herrors : (enter s).errors = s.errors := by rw [he]
  -- a block of its own is the innermost one, and the outer ones are not touched
  have hscopes : (leave s t).scopes.tail = s.scopes.tail ∧
      (leave s t).scopes.length = s.scopes.length ∧
      (0 < s.depth → (leave s t).scopes = s.scopes) := by
    rcases hfr.scopes_eq with ⟨hin, hout⟩ | ⟨hin, hout⟩
    · rw [hout]
      exact ⟨hin s ▸ h.outer, hin s ▸ h.blocks, fun hd => hin s ▸ h.scopes (hdepth ▸ hd)⟩
    · have houter : t.scopes.tail = s.scopes := by rw [h.outer, hin]; rfl
      rw [hout, houter]
      exact ⟨rfl, rfl, fun _ => rfl⟩
  rw [hl] at hscopes ⊢
  exact
    { setting := by simp only [State.setting, hf, ho, hg, hcap, hmax, hdep]
      outer := hscopes.1
      blocks := hscopes.2.1
      scopes := hscopes.2.2
      comments := fun hd => hcomments ▸ h.comments (hdepth ▸ hd)
      recorded := hcomments ▸ h.recorded
      pending := fun hd => hpending ▸ h.pending (hdepth ▸ hd)
      tokens := htokens ▸ h.tokens
      reports := hreports ▸ h.reports
      errors := herrors ▸ h.errors }

theorem framed_bracket {enter : State → State} {leave : State → State → State} {p : Parser α}
    (hfr : Framing enter leave) (hp : (p (enter s)).Framed (enter s)) :
    (bracket enter leave p s).Framed s := by
  unfold bracket
  cases h : p (enter s) with
  | ok a t => rw [h] at hp; exact hfr.frame hp
  | fail c t => rw [h] at hp; exact hfr.frame hp
  | halt w t =>
    rw [h] at hp
    cases w with
    | errorLimit => exact hfr.frame hp
    | noProgress => trivial
    | outOfSteps => trivial

theorem framed_attempt {p : Parser α} (hp : (p s).Framed s) : (attempt p s).Framed s := by
  unfold attempt
  cases h : p s with
  | ok a t => rw [h] at hp; exact hp
  | fail c t => rw [h] at hp; exact hp
  | halt w t => rw [h] at hp; cases w <;> exact hp

/-! ## Tries -/

/-- The type syntax that waited is reported; nothing else changes. -/
structure Reported (s t : State) : Prop where
  /-- Only the diagnostics change. -/
  eq : t = { s with reports := t.reports, errors := t.errors, pendingTypes := t.pendingTypes }
  /-- Diagnostics stay. -/
  reports : s.reports <+: t.reports
  /-- Errors stay counted. -/
  errors : s.errors ≤ t.errors
  /-- In an enclosing try the type syntax goes on waiting. -/
  pending : 0 < s.depth → t = s

theorem Reported.frame (h : Reported s t) : Frame s t := by
  have heq := h.eq
  exact
    { setting := by rw [heq]; rfl
      outer := by rw [heq]
      blocks := by rw [heq]
      scopes := fun _ => by rw [heq]
      comments := fun _ => by rw [heq]
      recorded := by rw [heq]; exact .refl _
      pending := fun hd => ⟨[], by rw [h.pending hd, List.append_nil]⟩
      tokens := ⟨[], by rw [heq, List.append_nil]⟩
      reports := h.reports
      errors := h.errors }

theorem reportPending_cases (spans : List Span) (s : State) (hd : s.depth = 0) :
    (∃ t, reportPending spans s = .ok () t ∧ Reported s t) ∨
      ∃ t, reportPending spans s = .halt .errorLimit t ∧ Frame s t := by
  induction spans generalizing s with
  | nil =>
    refine .inl ⟨_, rfl, rfl, List.prefix_refl _, Nat.le_refl _, fun h => ?_⟩
    exact absurd hd (Nat.ne_of_gt h)
  | cons sp spans ih =>
    have hnote := Frame.note s
      (Diagnostic.error .typesInScript sp "type syntax is only allowed in TypeScript files")
    have hrun : reportPending (sp :: spans) s = Parser.bind
        (errorAt sp .typesInScript "type syntax is only allowed in TypeScript files")
        (fun _ => reportPending spans) s := rfl
    rw [hrun, Parser.bind]
    rcases errorAt_cases sp .typesInScript "type syntax is only allowed in TypeScript files" s with
      he | ⟨-, he⟩ <;> rw [he]
    · rcases ih (s.note _) hd with ⟨t, hrun, heq, hrep, herr, -⟩ | ⟨t, hrun, hframe⟩
      · refine .inl ⟨t, hrun, heq, ?_, Nat.le_trans hnote.errors herr, fun h => ?_⟩
        · exact hnote.reports.trans hrep
        · exact absurd hd (Nat.ne_of_gt h)
      · exact .inr ⟨t, hrun, hnote.trans hframe⟩
    · exact .inr ⟨_, rfl, hnote⟩

/-- Keeping a try reports the type syntax found in it, or leaves it to an enclosing try. -/
theorem keepTry_cases (a : α) (s : State) :
    (∃ t, keepTry a s = .ok (some a) t ∧ Reported s t) ∨
      ∃ t, keepTry a s = .halt .errorLimit t ∧ Frame s t := by
  rcases Nat.eq_zero_or_pos s.depth with hd | hd
  · have hrun : keepTry a s = (reportPending s.pendingTypes >>= fun _ => pure (some a)) s := by
      simp only [keepTry, Bind.bind, Parser.bind, get, hd]
      rfl
    rw [hrun]
    show (∃ t, Parser.bind _ _ s = _ ∧ _) ∨ ∃ t, Parser.bind _ _ s = _ ∧ _
    unfold Parser.bind
    rcases reportPending_cases s.pendingTypes s hd with ⟨t, hrun, ht⟩ | ⟨t, hrun, ht⟩
    · exact .inl ⟨t, by rw [hrun]; rfl, ht⟩
    · exact .inr ⟨t, by rw [hrun], ht⟩
  · refine .inl ⟨s, ?_, rfl, List.prefix_refl _, Nat.le_refl _, fun _ => rfl⟩
    simp only [keepTry, Bind.bind, Parser.bind, get, beq_eq_false_iff_ne.2 (Nat.ne_of_gt hd)]
    rfl

/-- The outcome leaves the state `u` behind. -/
def Outcome.EndsIn (u : State) : Outcome α → Prop
  | .ok _ t => t = u
  | .fail _ t => t = u
  | .halt .errorLimit t => t = u
  | .halt _ _ => False

theorem Outcome.Framed.endsIn {o : Outcome α} (h : o.Framed s) (he : o.EndsIn u) : Frame s u := by
  cases o with
  | ok a t => exact he ▸ h
  | fail c t => exact he ▸ h
  | halt w t =>
    cases w with
    | errorLimit => exact he ▸ h
    | noProgress => cases he
    | outOfSteps => cases he

/-- What a try comes to. -/
inductive Tried (p : Parser α) (s : State) : Outcome (Option α) → Prop
  /-- It reports nothing, and is kept. -/
  | kept {a : α} {u t : State} : p s.enterTry = .ok a u → u.reports = [] →
      Reported (s.leaveTry u) t → Tried p s (.ok (some a) t)
  /-- It is kept, and the type syntax found in it passes the limit of errors. -/
  | limit {a : α} {u t : State} : p s.enterTry = .ok a u → u.reports = [] →
      Frame (s.leaveTry u) t → Tried p s (.halt .errorLimit t)
  /-- It is undone. -/
  | undone {u : State} : (p s.enterTry).EndsIn u → Tried p s (.ok none (s.undoTry u))
  /-- The parse goes nowhere. -/
  | stopped {w : Stop} {u : State} : w ≠ .errorLimit → p s.enterTry = .halt w u →
      Tried p s (.halt w u)

theorem speculate_tried (p : Parser α) (s : State) : Tried p s (speculate p s) := by
  have hends {u : State} (h : (p s.enterTry).EndsIn u) : Tried p s (.ok none (s.undoTry u)) :=
    .undone h
  unfold speculate
  cases h : p s.enterTry with
  | ok a u =>
    dsimp only
    split
    · rename_i hr
      rcases keepTry_cases a (s.leaveTry u) with ⟨t, hrun, ht⟩ | ⟨t, hrun, ht⟩
      · rw [hrun]
        exact .kept h (List.isEmpty_iff.1 hr) ht
      · rw [hrun]
        exact .limit h (List.isEmpty_iff.1 hr) ht
    · exact hends (by rw [h]; rfl)
  | fail c u => exact hends (by rw [h]; rfl)
  | halt w u =>
    cases w with
    | errorLimit => exact hends (by rw [h]; rfl)
    | noProgress => exact .stopped (by simp) h
    | outOfSteps => exact .stopped (by simp) h

/-- What looking ahead comes to. -/
inductive Looked (p : Parser Bool) (s : State) : Outcome Bool → Prop
  /-- It is undone, whatever it answers. -/
  | undone {b : Bool} {u : State} : (p s.enterTry).EndsIn u → Looked p s (.ok b (s.undoTry u))
  /-- The parse goes nowhere. -/
  | stopped {w : Stop} {u : State} : w ≠ .errorLimit → p s.enterTry = .halt w u →
      Looked p s (.halt w u)

theorem lookahead_looked (p : Parser Bool) (s : State) : Looked p s (lookahead p s) := by
  have hends {b : Bool} {u : State} (h : (p s.enterTry).EndsIn u) :
      Looked p s (.ok b (s.undoTry u)) := .undone h
  unfold lookahead
  cases h : p s.enterTry with
  | ok b u => exact hends (by rw [h]; rfl)
  | fail c u => exact hends (by rw [h]; rfl)
  | halt w u =>
    cases w with
    | errorLimit => exact hends (by rw [h]; rfl)
    | noProgress => exact .stopped (by simp) h
    | outOfSteps => exact .stopped (by simp) h

theorem framed_speculate {p : Parser α} (hp : (p s.enterTry).Framed s.enterTry) :
    (speculate p s).Framed s := by
  have h := speculate_tried p s
  generalize speculate p s = o at h ⊢
  cases h with
  | kept hrun _ ht =>
    rw [hrun] at hp
    exact (leaveTry_frame hp).trans ht.frame
  | limit hrun _ ht =>
    rw [hrun] at hp
    exact (leaveTry_frame hp).trans ht
  | undone hu =>
    rw [undoTry_eq (hp.endsIn hu)]
    exact Frame.refl s
  | @stopped w u hw _ =>
    cases w with
    | errorLimit => exact absurd rfl hw
    | noProgress => trivial
    | outOfSteps => trivial

theorem framed_lookahead {p : Parser Bool} (hp : (p s.enterTry).Framed s.enterTry) :
    (lookahead p s).Framed s := by
  have h := lookahead_looked p s
  generalize lookahead p s = o at h ⊢
  cases h with
  | undone hu =>
    rw [undoTry_eq (hp.endsIn hu)]
    exact Frame.refl s
  | @stopped w u hw _ =>
    cases w with
    | errorLimit => exact absurd rfl hw
    | noProgress => trivial
    | outOfSteps => trivial

end

end ScriptLower.Parse
