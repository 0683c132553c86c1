import ScriptLower.Proofs.Parse.Order

/-!
# The rounds of a list of statements

A list of statements is read in rounds. A round begins at the token in front and either reads a
statement or passes over one that fails, up to where the next probably begins. The run of a list is
written down as its rounds (`Rounds`), and what holds of every round then holds of the run.
-/

namespace ScriptLower.Parse

open ScriptLower

/-- A round of a list of statements: its first token and where it ends. -/
inductive Round
  /-- A statement is read. -/
  | read (first : Token) (n : Node) (stop : Nat)
  /-- A statement fails and is passed over. -/
  | passed (first : Token) (why : Cause) (stop : Nat)

namespace Round

/-- The token a round begins with. -/
def first : Round → Token
  | read first _ _ => first
  | passed first _ _ => first

/-- Where a round ends. -/
def stop : Round → Nat
  | read _ _ stop => stop
  | passed _ _ stop => stop

/-- The statement a round reads. -/
def node? : Round → Option Node
  | read _ n _ => some n
  | passed _ _ _ => none

/-- The statements that some rounds read. -/
def nodes (rs : List Round) : List Node := rs.filterMap node?

@[simp] theorem nodes_nil : nodes [] = [] := rfl

@[simp] theorem nodes_read (first : Token) (n : Node) (stop : Nat) (rs : List Round) :
    nodes (read first n stop :: rs) = n :: nodes rs := rfl

@[simp] theorem nodes_passed (first : Token) (why : Cause) (stop : Nat) (rs : List Round) :
    nodes (passed first why stop :: rs) = nodes rs := rfl

/-- A token lies in a round. -/
def Holds (r : Round) (u : Token) : Prop := r.first.span.start ≤ u.span.start ∧ u.span.stop ≤ r.stop

end Round

/-- A list of statements is read from `s` to `t` in the given rounds, and `t` stands in front of a
token that closes the list. Recovery does not pass a token at which `ends` says so. -/
inductive Rounds (statement : Parser Node) (ends closes : Token → Bool) :
    State → List Round → State → Prop
  | done {s : State} : closes s.front = true → Rounds statement ends closes s [] s.peeked
  | read {s t u : State} {n : Node} {rs : List Round} : closes s.front = false →
      statement s.peeked = .ok n t →
      Rounds statement ends closes t rs u →
      Rounds statement ends closes s (.read s.front n t.consumed :: rs) u
  | passed {s t u v : State} {c : Cause} {rs : List Round} : closes s.front = false →
      statement s.peeked = .fail c t → recover ends s.front.span.start t = .ok () u →
      Rounds statement ends closes u rs v →
      Rounds statement ends closes s (.passed s.front c u.consumed :: rs) v

/-! ## From the loop to its rounds -/

section

variable {statement : Parser Node} {ends closes : Token → Bool} {s t : State}

/-- What a turn of the loop comes to. -/
def TurnEnds (statement : Parser Node) (ends closes : Token → Bool) (keeps : Node → Bool)
    (acc : List Node) (s : State) (x : List Node ⊕ List Node) (t : State) : Prop :=
  (closes s.front = true ∧ x = .inr acc ∧ t = s.peeked) ∨
  (closes s.front = false ∧ ∃ n, statement s.peeked = .ok n t ∧
    x = .inl (acc ++ [n].filter keeps)) ∨
  (closes s.front = false ∧ ∃ c u, statement s.peeked = .fail c u ∧
    recover ends s.front.span.start u = .ok () t ∧ x = .inl acc)

theorem rounds_of_loopFrom {turn : List Node → Parser (List Node ⊕ List Node)} {keeps : Node → Bool}
    (hturn : ∀ acc s x t, turn acc s = .ok x t → TurnEnds statement ends closes keeps acc s x t)
    (n : Nat) (acc : List Node) {stmts : List Node} (h : loopFrom turn n acc s = .ok stmts t) :
    ∃ rs, Rounds statement ends closes s rs t ∧
      stmts = acc ++ (Round.nodes rs).filter keeps := by
  induction n generalizing acc s with
  | zero => cases h
  | succ n ih =>
    unfold loopFrom at h
    cases hrun : turn acc s with
    | ok x u =>
      rw [hrun] at h
      rcases hturn acc s x u hrun with ⟨hc, rfl, rfl⟩ | ⟨hc, m, hm, rfl⟩ | ⟨hc, c, v, hv, hrec, rfl⟩
      · obtain ⟨rfl, rfl⟩ := Outcome.ok.inj h
        exact ⟨[], .done hc, by simp⟩
      · dsimp only at h
        split at h
        · obtain ⟨rs, hrs, rfl⟩ := ih _ h
          refine ⟨_, .read hc hm hrs, ?_⟩
          rw [List.append_assoc, ← List.filter_append]
          rfl
        · cases h
      · dsimp only at h
        split at h
        · obtain ⟨rs, hrs, rfl⟩ := ih _ h
          exact ⟨_, .passed hc hv hrec hrs, rfl⟩
        · cases h
    | fail c u => rw [hrun] at h; cases h
    | halt w u => rw [hrun] at h; cases h

theorem at_eq (k : TokenKind) (s : State) : at_ k s = .ok (s.front.kind == k) s.peeked :=
  Parser.bind_ok (peek_eq s)

theorem at_peeked (k : TokenKind) (s : State) : at_ k s.peeked = .ok (s.front.kind == k) s.peeked :=
  Parser.bind_ok (peek_peeked s)

/-- A turn behind the look at the next token, where the list goes on. -/
theorem turnEnds_of_attempt {keeps : Node → Bool} {acc : List Node} {x : List Node ⊕ List Node}
    {f : Option Node → Parser (List Node ⊕ List Node)} (hc : closes s.front = false)
    (hsome : ∀ n u, f (some n) u = .ok (.inl (acc ++ [n].filter keeps)) u)
    (hnone : ∀ u x t, f none u = .ok x t →
      recover ends s.front.span.start u = .ok () t ∧ x = .inl acc)
    (h : (attempt statement >>= f) s.peeked = .ok x t) :
    TurnEnds statement ends closes keeps acc s x t := by
  cases hrun : statement s.peeked with
  | ok n u =>
    have hattempt : attempt statement s.peeked = .ok (some n) u := by rw [attempt, hrun]
    rw [Parser.bind_ok hattempt, hsome] at h
    obtain ⟨rfl, rfl⟩ := Outcome.ok.inj h
    exact .inr (.inl ⟨hc, n, hrun, rfl⟩)
  | fail c u =>
    have hattempt : attempt statement s.peeked = .ok none u := by rw [attempt, hrun]
    rw [Parser.bind_ok hattempt] at h
    exact .inr (.inr ⟨hc, c, u, hrun, hnone u x t h⟩)
  | halt w u =>
    have hattempt : attempt statement s.peeked = .halt w u := by rw [attempt, hrun]
    rw [Parser.bind_halt hattempt] at h
    cases h

/-- Recovery, and then the next turn. -/
theorem recover_turn {before : Nat} {acc : List Node} {x : List Node ⊕ List Node}
    (h : (recover ends before >>= fun _ => pure (.inl acc)) s = .ok x t) :
    recover ends before s = .ok () t ∧ x = .inl acc := by
  cases hrun : recover ends before s with
  | ok a u =>
    rw [Parser.bind_ok hrun] at h
    obtain ⟨rfl, rfl⟩ := Outcome.ok.inj h
    exact ⟨rfl, rfl⟩
  | fail c u =>
    rw [Parser.bind_fail hrun] at h
    cases h
  | halt w u =>
    rw [Parser.bind_halt hrun] at h
    cases h

/-- The rounds of a list of statements. -/
theorem statementList_rounds {g : Rules} {close : TokenKind} {top : Bool} {stmts : List Node}
    (h : parseStatementList g close top s = .ok stmts t) :
    ∃ rs, Rounds (g (.statement top)) (·.kind == close)
        (fun u => u.kind == close || u.kind == .eof) s rs t ∧
      stmts = (Round.nodes rs).filter (·.isPresent) := by
  refine rounds_of_loopFrom (fun acc s x t hturn => ?_) _ [] h
  rw [Parser.bind_ok (at_eq close s), Parser.bind_ok (at_peeked .eof s)] at hturn
  by_cases hc : (s.front.kind == close || s.front.kind == .eof) = true
  · rw [if_pos hc] at hturn
    obtain ⟨rfl, rfl⟩ := Outcome.ok.inj hturn
    exact .inl ⟨hc, rfl, rfl⟩
  · rw [if_neg hc, Parser.bind_assoc, Parser.bind_ok (peek_peeked s), Parser.bind_assoc] at hturn
    refine turnEnds_of_attempt (Bool.eq_false_iff.2 hc) (fun n u => ?_) (fun u x t hu => ?_) hturn
    · show Outcome.ok (Sum.inl (if n.isPresent = true then acc ++ [n] else acc)) u = _
      cases hn : n.isPresent <;> simp [hn]
    · rw [Parser.bind_assoc] at hu
      exact recover_turn hu

end

end ScriptLower.Parse
