import ScriptLower.Proofs.Parse.Tries

/-!
# Limits of errors

How many errors stop a parse, and whether the consumed tokens are kept, is asked for and has nothing
to do with the text. Two parses that differ in this only go side by side until an error is counted
outside of tries; behind it neither of them comes to a tree. During a try no number of errors stops
a parse.

So the tree of a file does not depend on the limit, nor do the comments that go with it.
-/

namespace ScriptLower.Parse

open ScriptLower

variable {α β σ : Type} {s s' t t' : State}

/-! ## States that differ in what is asked for -/

/-- The state with another limit of errors and other kept tokens. -/
def State.asking (s : State) (capture : Bool) (maxErrors : Nat) (tokens : List Token) : State :=
  { s with capture := capture, maxErrors := maxErrors, tokens := tokens }

/-- Two states differ at most in the limit of errors and the kept tokens. -/
def State.Alike (s s' : State) : Prop := ∃ c m ts, s' = s.asking c m ts

theorem State.Alike.lexer (h : s.Alike s') : s'.lexer = s.lexer := by
  obtain ⟨c, m, ts, rfl⟩ := h
  rfl

theorem State.Alike.lastSpan (h : s.Alike s') : s'.lastSpan = s.lastSpan := by
  obtain ⟨c, m, ts, rfl⟩ := h
  rfl

theorem State.Alike.enterTry (h : s.Alike s') : s.enterTry.Alike s'.enterTry := by
  obtain ⟨c, m, ts, rfl⟩ := h
  exact ⟨c, m, ts, rfl⟩

/-- What is undone is set back to states that differ as before. -/
theorem State.Alike.undoTry (h : s.Alike s') (h' : t.Alike t') :
    (s.undoTry t).Alike (s'.undoTry t') := by
  obtain ⟨c, m, ts, rfl⟩ := h
  obtain ⟨c', m', ts', rfl⟩ := h'
  exact ⟨c', m', _, rfl⟩

theorem State.Alike.leaveTry (h : s.Alike s') (h' : t.Alike t') :
    (s.leaveTry t).Alike (s'.leaveTry t') := by
  obtain ⟨c, m, ts, rfl⟩ := h
  obtain ⟨c', m', ts', rfl⟩ := h'
  exact ⟨c', m', ts', rfl⟩

theorem State.noteAll_asking (ds : List Diagnostic) (s : State) (c : Bool) (m : Nat)
    (ts : List Token) : (s.asking c m ts).noteAll ds = (s.noteAll ds).asking c m ts := by
  induction ds generalizing s with
  | nil => rfl
  | cons d ds ih => exact ih (s.note d)

theorem Know.Fits.alike {k : Know} (hk : k.Fits s) (h : s.Alike s') : k.Fits s' :=
  hk.of_eq (congrArg Lexer.held h.lexer) h.lastSpan

/-! ## Outcomes that differ in what is asked for -/

/-- The same is found, in states that are alike. A parse that goes nowhere leaves no state of
use. -/
inductive Outcome.Alike : Outcome α → Outcome α → Prop
  /-- A value. -/
  | ok {a : α} {t t' : State} (h : t.Alike t') : Alike (.ok a t) (.ok a t')
  /-- A failure. -/
  | fail {c : Cause} {t t' : State} (h : t.Alike t') : Alike (.fail c t) (.fail c t')
  /-- The limit. -/
  | limit {t t' : State} (h : t.Alike t') : Alike (.halt .errorLimit t) (.halt .errorLimit t')
  /-- Another end. -/
  | halt {w : Stop} {t t' : State} (h : w ≠ .errorLimit) : Alike (.halt w t) (.halt w t')

/-- No tree comes of it: an error is counted, or the parse has ended. -/
def Outcome.Lost : Outcome α → Prop
  | .ok _ t => 0 < t.errors
  | .fail _ t => 0 < t.errors
  | .halt _ _ => True

/-- The outcomes are alike, or neither gives a tree, which may happen outside of tries only. -/
def Outcome.Agrees (depth : Nat) (o o' : Outcome α) : Prop :=
  o.Alike o' ∨ depth = 0 ∧ o.Lost ∧ o'.Lost

/-- An error that is counted stays counted. -/
theorem Outcome.Framed.lost {o : Outcome α} (h : o.Framed s) (herr : 0 < s.errors) : o.Lost := by
  cases o with
  | ok a t => exact Nat.lt_of_lt_of_le herr h.errors
  | fail c t => exact Nat.lt_of_lt_of_le herr h.errors
  | halt w t => trivial

/-! ## One parser behind another -/

theorem agrees_bind {p : Parser α} {f : α → Parser β} (hp : (p s).Agrees s.depth (p s'))
    (hf : ∀ a t t', p s = .ok a t → p s' = .ok a t' → t.Alike t' →
      (f a t).Agrees s.depth (f a t'))
    (hframe : ∀ a t, p s = .ok a t → (f a t).Framed t)
    (hframe' : ∀ a t, p s' = .ok a t → (f a t).Framed t) :
    (Parser.bind p f s).Agrees s.depth (Parser.bind p f s') := by
  have hlost (s : State) (hframe : ∀ a t, p s = .ok a t → (f a t).Framed t) (h : (p s).Lost) :
      (Parser.bind p f s).Lost := by
    unfold Parser.bind
    cases hrun : p s with
    | ok a t =>
      rw [hrun] at h
      exact (hframe a t hrun).lost h
    | fail c t =>
      rw [hrun] at h
      exact h
    | halt w t => trivial
  rcases hp with hp | ⟨hd, h, h'⟩
  · unfold Parser.bind
    generalize ho : p s = o at hp hf
    generalize ho' : p s' = o' at hp hf
    cases hp with
    | ok h => exact hf _ _ _ rfl rfl h
    | fail h => exact .inl (.fail h)
    | limit h => exact .inl (.limit h)
    | halt h => exact .inl (.halt h)
  · exact .inr ⟨hd, hlost s hframe h, hlost s' hframe' h'⟩

/-- The same is found in states that are alike. -/
def Follows (p : Parser α) : Prop := ∀ s s', s.Alike s' → (p s).Alike (p s')

theorem Follows.bind {p : Parser α} {f : α → Parser β} (hp : Follows p) (hf : ∀ a, Follows (f a)) :
    Follows (p >>= f) := by
  intro s s' h
  show (Parser.bind p f s).Alike (Parser.bind p f s')
  unfold Parser.bind
  have hps := hp s s' h
  generalize p s = o at hps
  generalize p s' = o' at hps
  cases hps with
  | ok h => exact hf _ _ _ h
  | fail h => exact .fail h
  | limit h => exact .limit h
  | halt h => exact .halt h

theorem follows_pure (a : α) : Follows (pure a : Parser α) := fun _ _ h => .ok h

theorem follows_fail (c : Cause) : Follows (fail c : Parser α) := fun _ _ h => .fail h

theorem follows_lex (read : Lexer → Lexer.Result) : Follows (lex read) := by
  rintro s _ ⟨c, m, ts, rfl⟩
  refine .ok ⟨c, m, ts, ?_⟩
  exact State.noteAll_asking _ { s with lexer := (read s.lexer).2.1 } c m ts

theorem follows_push (t : Token) : Follows (push t) := by
  rintro s _ ⟨c, m, ts, rfl⟩
  exact .ok ⟨c, m, ts, rfl⟩

theorem follows_consume (t : Token) : Follows (consume t) := by
  rintro s _ ⟨c, m, ts, rfl⟩
  unfold consume
  split
  · exact .ok ⟨c, m, ts, rfl⟩
  · exact .ok ⟨c, m, _, rfl⟩

theorem follows_readChild : Follows readChild := by
  rintro s _ ⟨c, m, ts, rfl⟩
  exact (follows_lex fun lx => lx.nextChild s.lastToken).bind follows_consume s _ ⟨c, m, ts, rfl⟩

theorem follows_view : Follows view := by
  rintro s _ ⟨c, m, ts, rfl⟩
  exact .ok ⟨c, m, ts, rfl⟩

theorem follows_peek2 : Follows peek2 := by
  rintro s _ ⟨c, m, ts, rfl⟩
  exact .ok ⟨c, m, ts, rfl⟩

/-- Comments are recorded outside of tries. -/
theorem follows_comments (add : CommentTable → CommentTable) :
    Follows (modify fun s => if 0 < s.depth then s else { s with comments := add s.comments }) := by
  rintro s _ ⟨c, m, ts, rfl⟩
  refine .ok ⟨c, m, ts, ?_⟩
  by_cases hd : 0 < s.depth
  · exact (if_pos hd).trans (congrArg (State.asking · c m ts) (if_pos hd).symm)
  · refine (if_neg hd).trans ?_
    dsimp only
    rw [if_neg hd]
    rfl

theorem follows_peekAttributeValue : Follows peekAttributeValue := by
  rintro s _ ⟨c, m, ts, rfl⟩
  unfold peekAttributeValue
  show Outcome.Alike _ (if startsQuoted s.lexer.peek.1 then _ else _)
  dsimp only
  split
  · exact .ok ⟨c, m, ts, State.noteAll_asking _ { s with lexer := _ } c m ts⟩
  · exact .ok ⟨c, m, ts, State.noteAll_asking _ { s with lexer := _ } c m ts⟩

/-! ## Errors -/

/-- An error is counted, and the limit may be reached outside of tries. -/
theorem agrees_errorAt (span : Span) (code : Code) (message : Bytes) (h : s.Alike s') :
    (errorAt span code message s).Agrees s.depth (errorAt span code message s') := by
  obtain ⟨c, m, ts, rfl⟩ := h
  have hcounts (u : State) : (errorAt span code message u).Lost := by
    have herr : 0 < (u.note (Diagnostic.error code span message)).errors := Nat.succ_pos _
    rcases errorAt_cases span code message u with h | ⟨-, h⟩ <;> rw [h]
    · exact herr
    · trivial
  by_cases hd : s.depth = 0
  · exact .inr ⟨hd, hcounts _, hcounts _⟩
  · have hrun (u : State) (hu : u.depth ≠ 0) :=
      (errorAt_cases span code message u).resolve_right fun h => hu h.1
    refine .inl ?_
    rw [show errorAt span code message s = _ from hrun s hd,
      show errorAt span code message (s.asking c m ts) = _ from hrun _ hd]
    exact .ok ⟨c, m, ts, rfl⟩

/-- What to do is asked of the state, and the answer is the same. -/
theorem agrees_get {f : State → Parser α} (hf : f s' = f s)
    (h : (f s s).Agrees s.depth (f s s')) :
    ((get >>= f : Parser α) s).Agrees s.depth ((get >>= f : Parser α) s') := by
  show (f s s).Agrees s.depth (f s' s')
  rwa [hf]

theorem agrees_declare (lexical : Bool) (n : Node) (h : s.Alike s') :
    (declare lexical n s).Agrees s.depth (declare lexical n s') := by
  have herror := agrees_errorAt n.span .duplicateDeclaration
    ("identifier '" ++ n.text ++ "' has already been declared") h
  obtain ⟨c, m, ts, rfl⟩ := h
  have hdone : Outcome.Agrees s.depth ((pure () : Parser Unit) s)
      ((pure () : Parser Unit) (s.asking c m ts)) :=
    .inl (.ok ⟨c, m, ts, rfl⟩)
  refine agrees_get rfl ?_
  split
  · exact hdone
  · rcases s.scopes with _ | ⟨scope, outer⟩
    · exact hdone
    · dsimp only
      unfold declareIn
      rcases scope.find? (fun d : Bytes × Bool => d.1 == n.text) with _ | ⟨name, before⟩
      · exact .inl (.ok ⟨c, m, ts, rfl⟩)
      · dsimp only
        split
        · exact herror
        · exact hdone

theorem agrees_requireTypes (t : Token) (h : s.Alike s') :
    (requireTypes t s).Agrees s.depth (requireTypes t s') := by
  have herror := agrees_errorAt t.span .typesInScript
    "type syntax is only allowed in TypeScript files" h
  obtain ⟨c, m, ts, rfl⟩ := h
  refine agrees_get rfl ?_
  split
  · exact .inl (.ok ⟨c, m, ts, rfl⟩)
  · split
    · exact .inl (.ok ⟨c, m, ts, rfl⟩)
    · exact herror

/-! ## Control -/

theorem agrees_loopFrom {step : σ → Parser (σ ⊕ α)} (hstep : ∀ a s s', s.Alike s' →
      (step a s).Agrees s.depth (step a s'))
    (hframe : ∀ a s, (step a s).Framed s) (n : Nat) (init : σ) (h : s.Alike s') :
    (loopFrom step n init s).Agrees s.depth (loopFrom step n init s') := by
  induction n generalizing init s s' with
  | zero => exact .inl (.halt (by simp))
  | succ n ih =>
    have hround := hstep init s s' h
    have hlost (s : State) (hs : (step init s).Lost) : (loopFrom step (n + 1) init s).Lost := by
      unfold loopFrom
      cases hrun : step init s with
      | ok x t =>
        rw [hrun] at hs
        cases x with
        | inl a =>
          dsimp only
          split
          · exact (framed_loopFrom hframe n a t).lost hs
          · trivial
        | inr b => exact hs
      | fail c t =>
        rw [hrun] at hs
        exact hs
      | halt w t => trivial
    rcases hround with hround | ⟨hd, hs, hs'⟩
    · have hdepth := hframe init s
      unfold loopFrom
      generalize step init s = o at hround hdepth
      generalize step init s' = o' at hround
      cases hround with
      | @ok x t t' ht =>
        cases x with
        | inl a =>
          dsimp only
          rw [State.consumed, State.consumed, State.consumed, State.consumed,
            h.lastSpan, ht.lastSpan]
          split
          · exact hdepth.depth ▸ ih a ht
          · exact .inl (.halt (by simp))
        | inr b => exact .inl (.ok ht)
      | fail ht => exact .inl (.fail ht)
      | limit ht => exact .inl (.limit ht)
      | halt hw => exact .inl (.halt hw)
    · exact .inr ⟨hd, hlost s hs, hlost s' hs'⟩

theorem agrees_attempt {p : Parser α} (h : (p s).Agrees s.depth (p s')) :
    (attempt p s).Agrees s.depth (attempt p s') := by
  have hlost (s : State) (hs : (p s).Lost) : (attempt p s).Lost := by
    unfold attempt
    cases hrun : p s with
    | ok a t => rwa [hrun] at hs
    | fail c t => rwa [hrun] at hs
    | halt w t => trivial
  rcases h with h | ⟨hd, hs, hs'⟩
  · unfold attempt
    generalize p s = o at h
    generalize p s' = o' at h
    cases h with
    | ok ht => exact .inl (.ok ht)
    | fail ht => exact .inl (.ok ht)
    | limit ht => exact .inl (.limit ht)
    | halt hw => exact .inl (.halt hw)
  · exact .inr ⟨hd, hlost s hs, hlost s' hs'⟩

/-- A context is set in the same way in states that are alike. -/
theorem alike_enter {enter : State → State} {leave : State → State → State}
    (hfr : Framing enter leave) (h : s.Alike s') : (enter s).Alike (enter s') := by
  obtain ⟨c, m, ts, rfl⟩ := h
  have hview := hfr.enter_view s (s.asking c m ts) rfl
  simp only [State.view, View.mk.injEq] at hview
  obtain ⟨-, -, hfn, hno, hty, hamb, hlab⟩ := hview
  have hscopes : (enter (s.asking c m ts)).scopes = (enter s).scopes := by
    rcases hfr.scopes_eq with ⟨hin, -⟩ | ⟨hin, -⟩ <;> rw [hin, hin] <;> rfl
  refine ⟨c, m, ts, ?_⟩
  rw [hfr.enter_eq (s.asking c m ts), hfr.enter_eq s, ← hfn, ← hno, ← hty, ← hamb, ← hlab, hscopes]
  rfl

/-- It is taken back in the same way. -/
theorem alike_leave {enter : State → State} {leave : State → State → State}
    (hfr : Framing enter leave) (h : s.Alike s') (ht : t.Alike t') (hframe : Frame (enter s) t)
    (hframe' : Frame (enter s') t') : (leave s t).Alike (leave s' t') := by
  have hback {s t : State} (hframe : Frame (enter s) t) := by
    have hset := hframe.setting
    simp only [State.setting, Prod.mk.injEq] at hset
    obtain ⟨-, -, -, -, -, -, hfn, hno, hty, hamb, hlab⟩ := hset
    exact hfr.leave_back s t hfn hno hty hamb hlab
  obtain ⟨hfn, hno, hty, hamb, hlab⟩ := hback hframe
  obtain ⟨hfn', hno', hty', hamb', hlab'⟩ := hback hframe'
  obtain ⟨c, m, ts, rfl⟩ := h
  obtain ⟨c', m', ts', rfl⟩ := ht
  have hscopes : (leave (s.asking c m ts) (t.asking c' m' ts')).scopes = (leave s t).scopes := by
    rcases hfr.scopes_eq with ⟨-, hout⟩ | ⟨-, hout⟩ <;> rw [hout, hout] <;> rfl
  refine ⟨c', m', ts', ?_⟩
  rw [hfr.leave_eq (s.asking c m ts), hfr.leave_eq s, hfn, hno, hty, hamb, hlab, hfn', hno', hty',
    hamb', hlab', hscopes]
  rfl

theorem agrees_bracket {enter : State → State} {leave : State → State → State} {p : Parser α}
    (hfr : Framing enter leave) (h : s.Alike s')
    (hp : (p (enter s)).Agrees (enter s).depth (p (enter s')))
    (hframe : (p (enter s)).Framed (enter s)) (hframe' : (p (enter s')).Framed (enter s')) :
    (bracket enter leave p s).Agrees s.depth (bracket enter leave p s') := by
  have hdepth : (enter s).depth = s.depth := by rw [hfr.enter_eq s]
  have herrors (s t : State) : (leave s t).errors = t.errors := by rw [hfr.leave_eq s t]
  have hlost (s : State) (hs : (p (enter s)).Lost) : (bracket enter leave p s).Lost := by
    unfold bracket
    cases hrun : p (enter s) with
    | ok a t =>
      rw [hrun] at hs
      exact Nat.lt_of_lt_of_eq hs (herrors s t).symm
    | fail c t =>
      rw [hrun] at hs
      exact Nat.lt_of_lt_of_eq hs (herrors s t).symm
    | halt w t => trivial
  rcases hp with hp | ⟨hd, hs, hs'⟩
  · unfold bracket
    generalize p (enter s) = o at hp hframe
    generalize p (enter s') = o' at hp hframe'
    cases hp with
    | ok ht => exact .inl (.ok (alike_leave hfr h ht hframe hframe'))
    | fail ht => exact .inl (.fail (alike_leave hfr h ht hframe hframe'))
    | limit ht => exact .inl (.limit (alike_leave hfr h ht hframe hframe'))
    | halt hw => exact .inl (.halt hw)
  · exact .inr ⟨hdepth ▸ hd, hlost s hs, hlost s' hs'⟩

/-! ## Tries -/

theorem framed_reportPending (spans : List Span) (s : State) (hd : s.depth = 0) :
    (reportPending spans s).Framed s := by
  rcases reportPending_cases spans s hd with ⟨t, hrun, ht⟩ | ⟨t, hrun, ht⟩ <;> rw [hrun]
  · exact ht.frame
  · exact ht

theorem agrees_reportPending (spans : List Span) (hd : s.depth = 0) (h : s.Alike s') :
    (reportPending spans s).Agrees s.depth (reportPending spans s') := by
  induction spans generalizing s s' with
  | nil =>
    obtain ⟨c, m, ts, rfl⟩ := h
    exact .inl (.ok ⟨c, m, ts, rfl⟩)
  | cons sp spans ih =>
    have hdepth {s : State} (hd : s.depth = 0) (u : Unit) (t : State)
        (hrun : errorAt sp .typesInScript "type syntax is only allowed in TypeScript files" s =
          .ok u t) : t.depth = 0 := by
      have hframe := framed_errorAt sp .typesInScript
        "type syntax is only allowed in TypeScript files" s
      rw [hrun] at hframe
      exact hframe.depth.trans hd
    have hd' : s'.depth = 0 := by
      obtain ⟨c, m, ts, rfl⟩ := h
      exact hd
    refine agrees_bind (agrees_errorAt _ _ _ h) (fun u t t' hrun _ ht => ?_)
      (fun u t hrun => framed_reportPending spans t (hdepth hd u t hrun))
      fun u t hrun => framed_reportPending spans t (hdepth hd' u t hrun)
    have hdt := hdepth hd u t hrun
    rw [hd, ← hdt]
    exact ih hdt ht

theorem agrees_keepTry (a : α) (h : s.Alike s') :
    (keepTry a s).Agrees s.depth (keepTry a s') := by
  have hpending (hd : s.depth = 0) := agrees_reportPending s.pendingTypes hd h
  obtain ⟨c, m, ts, rfl⟩ := h
  refine agrees_get rfl ?_
  split
  · rename_i hd
    refine agrees_bind (hpending (beq_iff_eq.1 hd)) (fun _ t t' _ _ ht => .inl (.ok ht))
      (fun _ t _ => Frame.refl t) fun _ t _ => Frame.refl t
  · exact .inl (.ok ⟨c, m, ts, rfl⟩)

/-- Within a try the outcomes are alike. -/
theorem Outcome.Agrees.alike {depth : Nat} {o o' : Outcome α} (h : o.Agrees (depth + 1) o') :
    o.Alike o' :=
  h.resolve_right fun h => absurd h.1 (Nat.succ_ne_zero depth)

theorem agrees_speculate {p : Parser α} (h : s.Alike s')
    (hp : (p s.enterTry).Agrees s.enterTry.depth (p s'.enterTry))
    (hframe : (p s.enterTry).Framed s.enterTry) :
    (speculate p s).Agrees s.depth (speculate p s') := by
  have halike : (p s.enterTry).Alike (p s'.enterTry) := hp.alike
  unfold speculate
  generalize p s.enterTry = o at halike hframe
  generalize p s'.enterTry = o' at halike
  cases halike with
  | @ok a t t' ht =>
    have hreports : t'.reports = t.reports := by
      obtain ⟨c, m, ts, rfl⟩ := ht
      rfl
    dsimp only
    rw [hreports]
    split
    · have hdepth : (s.leaveTry t).depth = s.depth := (leaveTry_frame hframe).depth
      exact hdepth ▸ agrees_keepTry a (h.leaveTry ht)
    · exact .inl (.ok (h.undoTry ht))
  | fail ht => exact .inl (.ok (h.undoTry ht))
  | limit ht => exact .inl (.ok (h.undoTry ht))
  | @halt w t t' hw =>
    cases w with
    | errorLimit => exact absurd rfl hw
    | noProgress => exact .inl (.halt hw)
    | outOfSteps => exact .inl (.halt hw)

theorem agrees_lookahead {p : Parser Bool} (h : s.Alike s')
    (hp : (p s.enterTry).Agrees s.enterTry.depth (p s'.enterTry)) :
    (lookahead p s).Agrees s.depth (lookahead p s') := by
  have halike : (p s.enterTry).Alike (p s'.enterTry) := hp.alike
  unfold lookahead
  generalize p s.enterTry = o at halike
  generalize p s'.enterTry = o' at halike
  cases halike with
  | @ok b t t' ht =>
    have hreports : t'.reports = t.reports := by
      obtain ⟨c, m, ts, rfl⟩ := ht
      rfl
    dsimp only
    rw [hreports]
    exact .inl (.ok (h.undoTry ht))
  | fail ht => exact .inl (.ok (h.undoTry ht))
  | limit ht => exact .inl (.ok (h.undoTry ht))
  | @halt w t t' hw =>
    cases w with
    | errorLimit => exact absurd rfl hw
    | noProgress => exact .inl (.halt hw)
    | outOfSteps => exact .inl (.halt hw)

/-! ## Every rule -/

/-- The parts of the grammar go side by side. -/
def Rules.Agree (g : Rules) : Prop :=
  ∀ part s s', part.Opens s → s.Alike s' → (g part s).Agrees s.depth (g part s')

/-- What is put together from the operations of a parser goes side by side. -/
theorem Obeys.agrees {g : Rules} (hg : g.Framed) (hn : g.Agree) {q : Bool} {k : Know}
    {p : Parser α} {Q : α → Know → Prop} (hobeys : Obeys g q k p Q) (hk : k.Fits s)
    (h : s.Alike s') : (p s).Agrees s.depth (p s') := by
  induction hobeys generalizing s s' with
  | pure => exact .inl (follows_pure _ s s' h)
  | @bind q k α β p f R Q hp hf ihp ihf =>
    have hfind {s : State} (hk : k.Fits s) {a : α} {t : State} (hrun : p s = .ok a t) :
        ∃ m, R a m ∧ m.Fits t := by
      have hfind := (hp.framed hg hk).2
      rwa [hrun] at hfind
    have hframe {s : State} (hk : k.Fits s) (a : α) (t : State) (hrun : p s = .ok a t) :
        (f a t).Framed t := by
      obtain ⟨m, hm, hfit⟩ := hfind hk hrun
      exact ((hf a m hm).framed hg hfit).1
    refine agrees_bind (ihp hk h) (fun a t t' hrun hrun' ht => ?_) (hframe hk) (hframe (hk.alike h))
    obtain ⟨m, hm, hfit⟩ := hfind hk hrun
    have hdepth := (hp.framed hg hk).1
    rw [hrun] at hdepth
    exact hdepth.depth ▸ ihf a m hm hfit ht
  | mono _ _ ih => exact ih hk h
  | forget _ hle ih => exact ih (hk.of_le hle) h
  | fail => exact .inl (follows_fail _ s s' h)
  | view => exact .inl (follows_view s s' h)
  | peek => exact .inl (follows_lex _ s s' h)
  | peekAgain => exact .inl (follows_lex _ s s' h)
  | peek2 => exact .inl (follows_peek2 s s' h)
  | advance => exact .inl ((follows_lex _).bind follows_consume s s' h)
  | splitLess => exact .inl ((follows_lex _).bind follows_push s s' h)
  | joinGreater =>
    exact .inl
      ((follows_lex _).bind (fun t => (follows_push t).bind fun _ => follows_pure t) s s' h)
  | readRegExp => exact .inl ((follows_lex _).bind follows_consume s s' h)
  | readTemplate => exact .inl ((follows_lex _).bind follows_consume s s' h)
  | readTagName => exact .inl ((follows_lex _).bind follows_consume s s' h)
  | readChild => exact .inl (follows_readChild s s' h)
  | peekAttributeValue => exact .inl (follows_peekAttributeValue s s' h)
  | errorAt => exact agrees_errorAt _ _ _ h
  | @addLeading q k t Q _ _ =>
    exact .inl (follows_comments (fun c => c.addLeading t.span.start t.leading) s s' h)
  | @addDanglingOf q k t Q _ _ =>
    exact .inl (follows_comments (fun c => c.addDangling t.span.start t.leading) s s' h)
  | declare => exact agrees_declare _ _ h
  | requireTypes => exact agrees_requireTypes _ h
  | part _ hsees _ =>
    refine hn _ s s' (fun hc => ?_) h
    obtain ⟨t, ht, hne⟩ := hsees hc
    exact ⟨t, hk.next t ht, hne⟩
  | @bracket q k α enter leave p Q hfr hp ih =>
    have hin {s : State} (hk : k.Fits s) : k.Fits (enter s) :=
      hk.of_eq (congrArg Lexer.held (hfr.enter_still s).1) (hfr.enter_still s).2
    exact agrees_bracket hfr h (ih (hin hk) (alike_enter hfr h)) (hp.framed hg (hin hk)).1
      (hp.framed hg (hin (hk.alike h))).1
  | loop hstep ih =>
    unfold Parse.loop
    rw [h.lexer]
    exact agrees_loopFrom (fun a s s' h => ih a (Know.round_fits _ s) h)
      (fun a s => ((hstep a).framed hg (Know.round_fits _ s)).1) _ _ h
  | attempt _ _ ih => exact agrees_attempt (ih hk h)
  | speculate hp _ ih =>
    have hin := hk.of_eq (t := s.enterTry) rfl rfl
    exact agrees_speculate h (ih hin h.enterTry) (hp.framed hg hin).1
  | lookahead _ _ ih => exact agrees_lookahead h (ih (hk.of_eq rfl rfl) h.enterTry)

theorem rules_agree (n : Nat) : (rules n).Agree := by
  induction n with
  | zero => exact fun _ _ _ _ _ => .inl (.halt (by simp))
  | succ n ih =>
    intro part s s' hopen h
    obtain ⟨k, hk, -, hobeys⟩ := hopen.obeys (rules n) false
    exact hobeys.agrees (rules_framed n) ih hk h

/-! ## A whole file -/

/-- The tree of a file depends neither on the limit of errors nor on whether the tokens are kept,
and the comments of a tree do not either. -/
theorem parseFile_of_grammar (file : SourceFile) {o o' : Options} (h : o.grammar = o'.grammar) :
    (parseFile file o).tree = (parseFile file o').tree ∧
      ((parseFile file o).tree.isSome = true →
        (parseFile file o).comments = (parseFile file o').comments) := by
  have halike : (initial file o).Alike (initial file o') := by
    refine ⟨o'.capture, o'.maxErrors, [], ?_⟩
    simp only [initial, Options.grammarFor, h]
    rfl
  have hagrees := (program_obeys (rules (depthFor file.content.length))).agrees (rules_framed _)
    (rules_agree _) (.blank (by simp) rfl) halike
  have hlost (o : Options) (hl : (parseProgram (rules (depthFor file.content.length))
      (initial file o)).Lost) : (parseFile file o).tree = none := by
    unfold parseFile
    dsimp only
    cases hrun : parseProgram (rules (depthFor file.content.length)) (initial file o) with
    | ok n t =>
      rw [hrun] at hl
      dsimp only
      rw [if_neg (Nat.ne_of_gt hl)]
    | fail c t => rfl
    | halt w t => rfl
  rcases hagrees with hsame | ⟨-, hl, hl'⟩
  · unfold parseFile
    dsimp only
    generalize parseProgram (rules (depthFor file.content.length)) (initial file o) = out at hsame
    generalize parseProgram (rules (depthFor file.content.length)) (initial file o') = out' at hsame
    cases hsame with
    | @ok n t t' ht =>
      obtain ⟨c, m, ts, rfl⟩ := ht
      dsimp only [State.asking]
      split
      · exact ⟨rfl, fun _ => rfl⟩
      · exact ⟨rfl, fun h => absurd h (by simp)⟩
    | fail _ => exact ⟨rfl, fun h => absurd h (by simp)⟩
    | limit _ => exact ⟨rfl, fun h => absurd h (by simp)⟩
    | halt _ => exact ⟨rfl, fun h => absurd h (by simp)⟩
  · rw [hlost o hl, hlost o' hl']
    exact ⟨rfl, fun h => absurd h (by simp)⟩

end ScriptLower.Parse
