import ScriptLower.Proofs.Parse.Ending
import ScriptLower.Proofs.Parse.Rounds

/-!
# Failures that no diagnostic tells of

A rule that fails has counted an error, except where an array or an object in parentheses is
assigned to and where the text ends inside the name of a tag or an attribute. Behind such a failure
a list of statements goes on as behind any other, so what stood there is dropped, and a program that
is read without an error may lack it.

Apart from that nothing is lost. Every token taken belongs to a round of the list, and the span of a
statement reaches over its round, but for the semicolon behind `debugger` and the decorators in
front of an export.
-/

namespace ScriptLower.Parse

open ScriptLower

/-! ## Silent failures -/

/-- No diagnostic tells of the failure. -/
def Cause.Silent (c : Cause) : Prop := c = .wrappedTarget ∨ c = .cutName

instance (c : Cause) : Decidable c.Silent := inferInstanceAs (Decidable (_ ∨ _))

theorem Outcome.Runs.told_or_silent {α : Type} {b : Nat} {n : Option Nat} {s t : State} {c : Cause}
    {Q : α → Know → Prop} {o : Outcome α} (h : o.Runs false b n s Q) (ho : o = .fail c t) :
    0 < t.errors ∨ c.Silent := by
  subst ho
  obtain ⟨-, htold, hother⟩ := h
  cases c with
  | reported => exact .inl (htold rfl)
  | wrappedTarget => exact .inr (.inl rfl)
  | cutName => exact .inr (.inr rfl)
  | otherReading => exact absurd (hother rfl) (by simp)

/-- Nothing is known, and nothing promised of the depth. -/
theorem Know.Holds.nothing (rank : Nat) (s : State) :
    Know.Holds s.consumed none { rank := rank } s :=
  .blank ⟨Nat.le_refl _, fun _ => (by simp), fun _ => (by simp), (by simp), fun _ => (by simp)⟩ rfl
    (by simp)

/-- The rules keep the discipline where nothing is promised of the depth. -/
theorem rules_run_any (depth : Nat) : (rules depth).Run none := rules_run (by simp)

/-- Whatever is put together from the operations and the parts fails with an error, or in
silence. -/
theorem Obeys.told_or_silent {α : Type} {depth rank : Nat} {p : Parser α} {Q : α → Know → Prop}
    {s t : State} {c : Cause} (h : Obeys (rules depth) false { rank := rank } p Q) (hs : s.Sound)
    (hp : p s = .fail c t) : 0 < t.errors ∨ c.Silent :=
  (h.runs (rules_framed depth) (rules_run_any depth) hs (.nothing rank s)).told_or_silent hp

/-! ## What is refused in silence -/

/-- The wrappers of an expression that can be assigned to. -/
def targetWrappers : List NodeKind := [.paren, .asExpr, .satisfies, .nonNull, .typeAssert]

/-- An array or an object stands inside some wrappers. -/
inductive WrapsLiteral : Node → Prop
  | here {h : Head} {n : Node} {ks ds : List Node} {t a x : Node} : h.kind ∈ targetWrappers →
      n.kind = .array ∨ n.kind = .object → WrapsLiteral (.mk h (n :: ks) ds t a x)
  | inside {h : Head} {n : Node} {ks ds : List Node} {t a x : Node} : h.kind ∈ targetWrappers →
      WrapsLiteral n → WrapsLiteral (.mk h (n :: ks) ds t a x)

theorem WrapsLiteral.kind {n : Node} (h : WrapsLiteral n) : n.kind ∈ targetWrappers := by
  cases h with
  | here hk => exact hk
  | inside hk => exact hk

theorem wrapsLiteral_mk {h : Head} {ks ds : List Node} {t a x : Node}
    (hk : h.kind ∈ targetWrappers) :
    WrapsLiteral (.mk h ks ds t a x) ↔
      ∃ n r, ks = n :: r ∧ (n.kind = .array ∨ n.kind = .object ∨ WrapsLiteral n) := by
  constructor
  · intro hw
    cases hw with
    | here _ hn => exact ⟨_, _, rfl, hn.imp id .inl⟩
    | inside _ hn => exact ⟨_, _, rfl, .inr (.inr hn)⟩
  · rintro ⟨n, r, rfl, hn | hn | hn⟩
    · exact .here hk (.inl hn)
    · exact .here hk (.inr hn)
    · exact .inside hk hn

mutual

theorem targetFault_wrapped_iff : ∀ n : Node, targetFault n = .wrapped ↔ WrapsLiteral n
  | .absent => ⟨nofun, nofun⟩
  | .mk h ks ds t a x => by
    by_cases hk : h.kind ∈ targetWrappers
    · rw [wrapsLiteral_mk hk, ← targetFaultFirst_wrapped_iff ks]
      simp only [targetWrappers, List.mem_cons, List.not_mem_nil, or_false] at hk
      rcases hk with hk | hk | hk | hk | hk <;> simp only [targetFault, hk]
    · refine ⟨fun hf => ?_, fun hw => absurd hw.kind hk⟩
      unfold targetFault at hf
      split at hf
      · cases hf
      · split at hf <;> cases hf
      · split at hf <;> cases hf
      iterate 5 exact absurd (by simp [targetWrappers, *]) hk
      · cases hf

theorem targetFaultFirst_wrapped_iff : ∀ ks : List Node, targetFaultFirst ks = .wrapped ↔
    ∃ n r, ks = n :: r ∧ (n.kind = .array ∨ n.kind = .object ∨ WrapsLiteral n)
  | [] => ⟨nofun, nofun⟩
  | n :: r => by
    have ih := targetFault_wrapped_iff n
    by_cases hk : n.kind = .array ∨ n.kind = .object
    · rw [targetFaultFirst, if_pos (by simpa using hk)]
      exact ⟨fun _ => ⟨n, r, rfl, or_assoc.1 (.inl hk)⟩, fun _ => rfl⟩
    · rw [targetFaultFirst, if_neg (by simpa using hk), ih]
      constructor
      · exact fun hw => ⟨n, r, rfl, .inr (.inr hw)⟩
      · rintro ⟨m, r', h, hm⟩
        obtain ⟨rfl, rfl⟩ := List.cons.inj h
        exact (or_assoc.2 hm).resolve_left hk

end

section

variable {depth : Nat} {top : Bool} {s t u : State} {n : Node} {c : Cause}

/-- How a round of a list of statements goes from the state `s` to the state `t`. -/
structure RoundRuns (s t : State) (r : Round) : Prop extends Passes s.front.span.start s t where
  /-- The round begins with the token in front. -/
  first : r.first = s.front
  /-- It ends with the last token consumed. -/
  stop : r.stop = t.consumed

/-- The tokens kept on the way lie in the round. -/
theorem RoundRuns.holds {r : Round} (h : RoundRuns s t r) :
    ∃ new, t.tokens = s.tokens ++ new ∧ ∀ u ∈ new, r.Holds u := by
  obtain ⟨new, hnew, hall⟩ := h.tokens
  obtain ⟨new', hnew', hall'⟩ := h.kept
  obtain rfl : new = new' := List.append_cancel_left (hnew.symm.trans hnew')
  refine ⟨new, hnew, fun u hu => ⟨?_, ?_⟩⟩
  · rw [h.first]; exact hall' u hu
  · rw [h.stop]; exact (hall u hu).2

theorem passes_peeked (hs : s.Sound) : Passes s.front.span.start s s.peeked := by
  obtain ⟨t, hrun, hpass, -⟩ := Passes.peek hs (Nat.le_refl _)
  rw [peek_eq] at hrun
  exact (Outcome.ok.inj hrun).2 ▸ hpass

/-- What is known in front of a statement whose first token has been looked at. -/
theorem placed_peeked (s : State) (rank : Nat) (hr : rank < partsPerToken) :
    Know.Placed s.front.span.start { rank := rank, next := .is s.front } s.peeked := by
  refine ⟨⟨fun u hu => ?_, (by simp)⟩, ?_, fun _ => (by simp)⟩
  · cases hu
    exact s.peeked_held
  · rintro (hb | hb)
    · cases hb
    · exact absurd hb (Nat.not_lt.2 (Nat.le_sub_one_of_lt hr))

/-- Where the statement of a round stands. It stretches over the round, with two exceptions: a
debugger statement is its keyword alone, and a decorated export begins at the word `export`. -/
def Round.Covers (r : Round) (n : Node) : Prop :=
  (∃ last : Span, last.stop = r.stop ∧ n.span = r.first.span.cover last) ∨
    (r.first.kind = .kwDebugger ∧ n.span = r.first.span) ∨
    (r.first.kind = .atSign ∧ ∃ (u : Token) (last : Span), u.kind = .kwExport ∧
      last.stop = r.stop ∧ n.span = u.span.cover last)

/-- A statement is read, and stands at its first token. -/
theorem statement_stands (hs : s.Sound) (h : rules depth (.statement top) s.peeked = .ok n t) :
    Passes s.front.span.start s t ∧
      ∃ m : Know, Stands s.front n m ∧ m.Placed s.front.span.start t := by
  cases depth with
  | zero => cases h
  | succ d =>
    have hpeek := passes_peeked hs
    have hobeys : Obeys (rules d) false { rank := 6, next := .is s.front }
        (parseStatement (rules d) top) _ := parseStatement_stands (.inr (Nat.lt_succ_self 5))
    have hpass := hobeys.passes (rules_framed d) (rules_pass d) hpeek.sound hpeek.ahead
      (placed_peeked s 6 (by decide))
    rw [show parseStatement (rules d) top s.peeked = .ok n t from h] at hpass
    obtain ⟨hpass, m, ⟨-, tok, htok, hstands⟩, hplaced⟩ := hpass
    obtain rfl : tok = s.front := htok _ rfl
    exact ⟨hpeek.trans hpass, m, hstands, hplaced⟩

/-- A statement fails, with an error or in silence, and recovery goes on behind it. -/
theorem recovery_runs {ends : Token → Bool} (hs : s.Sound) (he : s.front.kind ≠ .eof)
    (hends : ∀ u, Reread s.front u → ends u = false)
    (h : rules depth (.statement top) s.peeked = .fail c t)
    (hrec : recover ends s.front.span.start t = .ok () u) :
    RoundRuns s u (.passed s.front c u.consumed) ∧ (0 < u.errors ∨ c.Silent) := by
  have hpeek := passes_peeked hs
  have hfail := rules_pass depth _ (.statement top) _ hpeek.sound nofun hpeek.ahead
  rw [h] at hfail
  have hk : Know.Placed s.front.span.start { rank := 6, next := .again s.front } t := by
    refine ⟨⟨(by simp), (by simp)⟩, ?_, fun tok htok => ?_⟩
    · rintro (hb | hb)
      · cases hb
      · exact absurd hb (Nat.not_lt.2 (by decide : 6 ≤ partsPerToken - 1))
    · cases htok
      have hfront : s.peeked.front = s.front := State.front_of_held s.peeked_held
      have hstill := hfail.still
      rwa [hfront] at hstill
  have hobeys : Obeys (rules depth) false { rank := 6, next := .again s.front }
      (recover ends s.front.span.start) Moves := recover_obeys rfl he hends
  have hpass := hobeys.passes (rules_framed depth) (rules_pass depth) hfail.sound hfail.ahead hk
  rw [hrec] at hpass
  refine ⟨⟨(hpeek.trans hfail).trans hpass.1, rfl, rfl⟩, ?_⟩
  have hrun := rules_run_any depth (.statement top) s.peeked hpeek.sound nofun nofun
  exact (hrun.told_or_silent h).imp (fun htold => Nat.lt_of_lt_of_le htold hpass.1.errors) id

/-- What holds of the rounds of a list of statements that is read without an error: a round that is
passed over fails in silence, a statement stands where its round is, and every token kept lies in a
round. -/
structure ReadInRounds (rs : List Round) (s t : State) : Prop extends Advances s t where
  /-- What is passed over fails in silence. -/
  silent : t.errors = 0 → ∀ first why stop, Round.passed first why stop ∈ rs → why.Silent
  /-- A statement stands where its round is. -/
  covers : ∀ first n stop, Round.read first n stop ∈ rs → (Round.read first n stop).Covers n
  /-- Every token kept lies in a round. -/
  kept : ∃ new, t.tokens = s.tokens ++ new ∧ ∀ u ∈ new, ∃ r ∈ rs, r.Holds u

theorem ReadInRounds.cons {r : Round} {rs : List Round} (hr : RoundRuns s t r)
    (hsilent : ∀ first why stop, r = .passed first why stop → 0 < t.errors ∨ why.Silent)
    (hcovers : ∀ first n stop, r = .read first n stop → r.Covers n)
    (h : ReadInRounds rs t u) : ReadInRounds (r :: rs) s u where
  toAdvances := hr.toAdvances.trans h.toAdvances
  silent he first why stop hmem := by
    rcases List.mem_cons.1 hmem with heq | hmem
    · have := h.errors
      exact (hsilent first why stop heq.symm).resolve_left (by omega)
    · exact h.silent he first why stop hmem
  covers first n stop hmem := by
    rcases List.mem_cons.1 hmem with heq | hmem
    · rw [heq]
      exact hcovers first n stop heq.symm
    · exact h.covers first n stop hmem
  kept := by
    obtain ⟨new, hnew, hall⟩ := hr.holds
    obtain ⟨new', hnew', hall'⟩ := h.kept
    refine ⟨new ++ new', by rw [hnew', hnew, List.append_assoc], fun v hv => ?_⟩
    rcases List.mem_append.1 hv with hv | hv
    · exact ⟨r, List.mem_cons_self, hall v hv⟩
    · obtain ⟨r', hr', hholds⟩ := hall' v hv
      exact ⟨r', List.mem_cons_of_mem _ hr', hholds⟩

end

/-! ## A whole file -/

theorem peek_held {s : State} {tok : Token} (h : s.lexer.held = some tok) : peek s = .ok tok s := by
  have hnext := next_held h
  show Outcome.ok s.lexer.next.1
    (State.noteAll { s with lexer := s.lexer.next.2.1.push s.lexer.next.1 } s.lexer.next.2.2) = _
  rw [hnext]
  simp only [Lexer.push, ← h]
  rfl

/-- A list ends in front of a token that closes it. -/
theorem Rounds.ends_closed {statement : Parser Node} {ends closes : Token → Bool} {s t : State}
    {rs : List Round} (h : Rounds statement ends closes s rs t) :
    ∃ tok, t.lexer.held = some tok ∧ closes tok = true := by
  induction h with
  | done hc => exact ⟨_, State.peeked_held _, hc⟩
  | read _ _ _ ih => exact ih
  | passed _ _ _ _ ih => exact ih

/-- The state inside a block of its own. -/
def State.opened (s : State) : State := { s with scopes := [] :: s.scopes }

theorem inScope_ok {α : Type} {p : Parser α} {s t : State} {a : α} (h : inScope p s = .ok a t) :
    ∃ u, p s.opened = .ok a u ∧ t = { u with scopes := u.scopes.tail } := by
  unfold inScope bracket at h
  cases hrun : p s.opened with
  | ok b u =>
    rw [show p { s with scopes := [] :: s.scopes } = .ok b u from hrun] at h
    obtain ⟨rfl, rfl⟩ := Outcome.ok.inj h
    exact ⟨u, rfl, rfl⟩
  | fail c u => rw [show p { s with scopes := [] :: s.scopes } = .fail c u from hrun] at h; cases h
  | halt w u => rw [show p { s with scopes := [] :: s.scopes } = .halt w u from hrun] at h; cases h

/-- A sequence succeeds only through its first part. -/
theorem Parser.of_bind_ok {α β : Type} {p : Parser α} {f : α → Parser β} {s t : State} {b : β}
    (h : (p >>= f) s = .ok b t) : ∃ a u, p s = .ok a u ∧ f a u = .ok b t := by
  cases hrun : p s with
  | ok a u => exact ⟨a, u, rfl, by rwa [Parser.bind_ok hrun] at h⟩
  | fail c u => rw [Parser.bind_fail hrun] at h; cases h
  | halt w u => rw [Parser.bind_halt hrun] at h; cases h

/-- The state in which the list of the statements of a file begins. -/
def listStart (file : SourceFile) (o : Options) : State := (initial file o).peeked.opened

/-- The statements of a file go on up to the end of the text. -/
theorem eof_closes (v w : Token) (hv : (v.kind == .eof || v.kind == .eof) = false)
    (hw : Reread v w) :
    v.kind ≠ .eof ∧ (w.kind == .eof) = false := by
  have hne : v.kind ≠ .eof := by simpa using hv
  exact ⟨hne, beq_false_of_ne fun h => hne (hw.eof.1 h)⟩

/-- The rounds in which the statements of a file are read. The program stretches from the first
token of the file to its end. -/
theorem program_rounds {file : SourceFile} {o : Options} {g : Rules} {n : Node} {t : State}
    (h : parseProgram g (initial file o) = .ok n t) :
    ∃ rs u, Rounds (g (.statement true)) (·.kind == .eof)
    (fun v => v.kind == .eof || v.kind == .eof)
        (listStart file o) rs u ∧
      n.kids = (Round.nodes rs).filter (·.isPresent) ∧
      n.span = (initial file o).front.span.cover u.front.span ∧
      t.errors = u.errors ∧ t.tokens = u.tokens := by
  unfold parseProgram at h
  rw [Parser.bind_ok (peek_eq _)] at h
  obtain ⟨stmts, v, hscope, h⟩ := Parser.of_bind_ok h
  obtain ⟨u, hlist, rfl⟩ := inScope_ok hscope
  obtain ⟨rs, hrounds, hstmts⟩ := statementList_rounds hlist
  obtain ⟨tok, hheld, -⟩ := hrounds.ends_closed
  have hpeek :
      peek { u with scopes := u.scopes.tail } = .ok tok { u with scopes := u.scopes.tail } :=
    peek_held hheld
  rw [Parser.bind_ok hpeek, addDangling, Parser.bind_assoc, Parser.bind_ok hpeek] at h
  obtain ⟨hn, ht⟩ := Outcome.ok.inj h
  refine ⟨rs, u, hrounds, ?_, ?_, ?_, ?_⟩
  · rw [← hn, ← hstmts]
    rfl
  · rw [← hn, State.front_of_held hheld]
    rfl
  · rw [← ht]
    dsimp only
    split <;> rfl
  · rw [← ht]
    dsimp only
    split <;> rfl

/-- A parser comes to a value and a state of a kind. -/
def Outcome.holds {α : Type} (p : α → State → Bool) : Outcome α → Bool
  | ok a t => p a t
  | _ => false

end ScriptLower.Parse
