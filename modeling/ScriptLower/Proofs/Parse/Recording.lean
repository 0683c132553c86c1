import ScriptLower.Proofs.Parse.Silence

/-!
# What the final parse records

Comments and declared names are recorded while no try is under way. A statement, a member of a class
or a case of a switch that is read outside of tries has the comments in front of its first token
recorded, and they stay in the table for the rest of the parse.

A try that is kept is not read again. What would have been recorded in it is lost: behind the try
the table and the declared names are those in front of it. So the arguments of a call written with
type arguments, which are read in a try, keep none of the comments in front of their statements.
-/

namespace ScriptLower.Parse

open ScriptLower

variable {s t : State} {α : Type}

/-! ## Tries that are kept -/

/-- Behind a try that is kept no comment is recorded, and no name is declared. -/
theorem speculate_some {p : Parser α} {a : α} (hp : (p s.enterTry).Framed s.enterTry)
    (h : speculate p s = .ok (some a) t) : t.comments = s.comments ∧ t.scopes = s.scopes := by
  have htried := speculate_tried p s
  rw [h] at htried
  cases htried with
  | kept hrun _ hreported =>
    rw [hrun] at hp
    have hpos : 0 < s.enterTry.depth := Nat.succ_pos _
    rw [hreported.eq]
    exact ⟨hp.comments hpos, hp.scopes hpos⟩

/-! ## Comments in front of what is read -/

theorem addLeading_recorded (tok : Token) (hd : s.depth = 0) (hpos : tok.span.start ≠ 0) :
    ∃ u, addLeading tok s = .ok () u ∧
      ∀ c ∈ CommentTable.ofTrivia tok.leading, c ∈ u.comments.leadingAt tok.span.start := by
  refine ⟨{ s with comments := s.comments.addLeading tok.span.start tok.leading },
    ?_, fun c hc => ?_⟩
  · show Outcome.ok () (if 0 < s.depth then s else _) = _
    rw [if_neg (by omega)]
  · show c ∈ (s.comments.addLeading tok.span.start tok.leading).leadingAt tok.span.start
    rw [CommentTable.leadingAt_addLeading _ _ _ hpos, if_pos rfl]
    exact List.mem_append_right _ hc

theorem State.peeked_depth (s : State) : s.peeked.depth = s.depth := by
  rw [State.peeked, (State.noteAll_eq _ _).1]

/-- The comments in front of the next token are recorded before the rest is read, and stay. -/
theorem leading_recorded {rest : Token → Parser α} {a : α} (hd : s.depth = 0)
    (hpos : s.front.span.start ≠ 0)
    (hrest : ∀ u : State, u.lexer.held = some s.front → (rest s.front u).Framed u)
    (h : (peek >>= fun tok => addLeading tok >>= fun _ => rest tok) s = .ok a t) :
    ∀ c ∈ CommentTable.ofTrivia s.front.leading, c ∈ t.comments.leadingAt s.front.span.start := by
  rw [Parser.bind_ok (peek_eq s)] at h
  obtain ⟨u, hadd, hrecorded⟩ := addLeading_recorded (s := s.peeked) s.front
    (s.peeked_depth.trans hd) hpos
  have hheld : u.lexer.held = some s.front := by
    have hstays := addLeading_stays s.front s.peeked
    rw [hadd] at hstays
    have hlex := congrArg (fun r => r.1.held) hstays.1
    exact hlex.trans s.peeked_held
  rw [Parser.bind_ok hadd] at h
  have hframe := hrest u hheld
  rw [h] at hframe
  exact fun c hc => hframe.recorded _ c (hrecorded c hc)

/-- What is put together from the operations and the parts, and reads on from a token looked at,
leaves alone what a rule leaves alone. -/
theorem framed_from {depth : Nat} {q : Bool} {k : Know} {p : Parser α} {Q : α → Know → Prop}
    (tok : Token) (h : Obeys (rules depth) q (k.see tok) p Q) (hl : k.last = none) (u : State)
    (hu : u.lexer.held = some tok) : (p u).Framed u := by
  refine (h.framed (rules_framed depth) ⟨fun v hv => ?_, fun sp hsp => ?_⟩).1
  · cases hv
    exact hu
  · rw [show (k.see tok).last = k.last from rfl, hl] at hsp
    cases hsp

/-! ## Names -/

/-- Where names are checked, a name that the innermost block declares already is reported, unless
neither declaration is lexical; a new one is declared. -/
theorem declare_checks {scope : Scope} {outer : List Scope} (n : Node) (lexical : Bool)
    (hon : s.grammar.strictEarlyErrors = true ∧ s.depth = 0 ∧ s.ambient = 0 ∧ s.typeDepth = 0)
    (hscopes : s.scopes = scope :: outer) :
    (∀ before, scope.find? (fun d => d.1 == n.text) = some before → (lexical || before.2) = true →
      declare lexical n s = errorAt n.span .duplicateDeclaration
        ("identifier '" ++ n.text ++ "' has already been declared") s) ∧
    (scope.find? (fun d => d.1 == n.text) = none →
      declare lexical n s = .ok () { s with scopes := ((n.text, lexical) :: scope) :: outer }) := by
  obtain ⟨hstrict, hdepth, hambient, htypes⟩ := hon
  have hrun : declare lexical n s = declareIn lexical n scope outer s := by
    simp only [declare, Bind.bind, Parser.bind, get, hstrict, hdepth, hambient, htypes, hscopes]
    rfl
  rw [hrun, declareIn]
  refine ⟨fun before hfind hlex => ?_, fun hfind => ?_⟩
  · rw [hfind]
    exact congrFun (if_pos hlex) s
  · rw [hfind]
    rfl

/-! ## What is recorded -/

/-- Outside of tries the comments in front of a statement, a member of a class and a case are
recorded at its first token, and a second declaration of a name is reported. A try that is kept
records no comment and declares no name. -/
theorem recorded_outside_tries (depth : Nat) :
    (∀ (top : Bool) (s t : State) (n : Node), s.depth = 0 → s.front.span.start ≠ 0 →
      parseStatement (rules depth) top s = .ok n t →
        ∀ c ∈ CommentTable.ofTrivia s.front.leading, c ∈ t.comments.leadingAt s.front.span.start) ∧
    (∀ (owner : MethodOwner) (flags : Flags) (s t : State) (n : Node), s.depth = 0 →
      s.front.span.start ≠ 0 → parseClassMember (rules depth) owner flags s = .ok n t →
        ∀ c ∈ CommentTable.ofTrivia s.front.leading, c ∈ t.comments.leadingAt s.front.span.start) ∧
    (∀ (seen : Bool) (s t : State) (n : Node × Bool), s.depth = 0 → s.front.span.start ≠ 0 →
      parseCase (rules depth) seen s = .ok n t →
        ∀ c ∈ CommentTable.ofTrivia s.front.leading, c ∈ t.comments.leadingAt s.front.span.start) ∧
    (∀ (s : State) (scope : Scope) (outer : List Scope) (n : Node) (lexical : Bool)
      (before : Bytes × Bool), s.grammar.strictEarlyErrors = true ∧ s.depth = 0 ∧ s.ambient = 0 ∧
        s.typeDepth = 0 → s.scopes = scope :: outer →
      scope.find? (fun d => d.1 == n.text) = some before → (lexical || before.2) = true →
        (declare lexical n s).state.errors = s.errors + 1) ∧
    (∀ {α : Type} {q : Bool} {k : Know} {p : Parser α} {Q : α → Know → Prop} (s t : State) (a : α),
      Obeys (rules depth) q k p Q → k.Fits s → speculate p s = .ok (some a) t →
        t.comments = s.comments ∧ t.scopes = s.scopes) := by
  refine ⟨fun top s t n hd hpos => ?_, fun owner flags s t n hd hpos => ?_,
    fun seen s t n hd hpos => ?_, fun s scope outer n lexical before hon hscopes hfind hlex => ?_,
    fun s t a hp hk => ?_⟩
  · have hobeys : Obeys (rules depth) false (Know.see { rank := 6 } s.front)
        (parseStatementFrom (rules depth) top s.front) _ :=
      parseStatementFrom_stands (.inr (Nat.lt_succ_self 5))
    exact leading_recorded hd hpos (framed_from s.front hobeys rfl)
  · have hobeys : Obeys (rules depth) false (Know.see { rank := 6 } s.front)
        (parseClassMemberFrom (rules depth) owner flags s.front) _ := parseClassMemberFrom_obeys
    exact leading_recorded hd hpos (framed_from s.front hobeys rfl)
  · have hobeys : Obeys (rules depth) false (Know.see { rank := 6 } s.front)
        (parseCaseFrom (rules depth) seen s.front) _ := parseCaseFrom_obeys
    exact leading_recorded hd hpos (framed_from s.front hobeys rfl)
  · rw [(declare_checks n lexical hon hscopes).1 before hfind hlex]
    unfold errorAt
    dsimp only
    split <;> rfl
  · have hin := hk.of_eq (t := s.enterTry) rfl rfl
    exact speculate_some (hp.framed (rules_framed depth) hin).1

/-- The same argument, once of a plain call and once of a call with type arguments. Behind the plain
call the comment in front of the statement is recorded and a second declaration is reported; behind
the other neither happens. -/
theorem typed_call_records_nothing :
    let read (text : Bytes) (strict : Bool) : Result :=
      parseFile (FileSet.empty.add "a.ts" text true).2
        { grammar := { Grammar.ofDialect .ts with strictEarlyErrors := strict } }
    ((read "f(() => \x7b /*c*/ x; \x7d);" false).errors = 0 ∧
      (read "f(() => \x7b /*c*/ x; \x7d);" false).comments.size = 1) ∧
    ((read "f<T>(() => \x7b /*c*/ x; \x7d);" false).errors = 0 ∧
      (read "f<T>(() => \x7b /*c*/ x; \x7d);" false).comments.size = 0) ∧
    (read "f(function () \x7b let a; let a; \x7d);" true).errors = 1 ∧
    (read "f<T>(function () \x7b let a; let a; \x7d);" true).errors = 0 := by
  decide +kernel

end ScriptLower.Parse
