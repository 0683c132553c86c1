import ScriptLower.Parse.Program
import ScriptLower.Proofs.Parse.Progress
import ScriptLower.Proofs.Print.Outlines

/-!
# Parsing words

A parser in front of words that stand in a text, in code that is not strict, takes the first of them
and leaves the others. What is followed here is which words each rule takes: a rule that takes words
gives a value and reports nothing, or is stopped by a bound on its steps.
-/

namespace ScriptLower

/-- A token is a contextual keyword when its word is. -/
theorem Token.Spells.is {t : Token} {w : Word} (h : t.Spells w) (x : String) :
    t.is x = (w.kind == .ident && w.text == Bytes.ofString x) := by
  rw [Token.is, h.kind, h.text, h.escaped]
  simp

/-- A plain name is read as a name. -/
theorem IsPlainName.kind {ascii : Bool} {x : Bytes} (h : IsPlainName ascii x) :
    (Word.named x).kind = .ident := by
  show (TokenKind.keyword? x).getD .ident = .ident
  rw [h.free]
  rfl

namespace Parse

/-- A parser of a file gives a value, unless it is stopped by a bound on its steps. -/
def Outcome.Lands {α : Type} (file : SourceFile) (Q : α → State → Prop) : Outcome α → Prop
  | .ok a t => Q a t
  | .fail _ _ => False
  | .halt why t => why ≠ .errorLimit ∧ t.lexer.file = file

/-- A parse stands in front of words, outside of ambient declarations, generators and strict code,
and nothing is reported. -/
structure State.Stands (file : SourceFile) (noIn : Bool) (ws : List Word) (s : State) : Prop where
  /-- The lexer stands in front of the words. -/
  reads : s.lexer.Reads file ws
  /-- The words are read as they are written. -/
  sound : ∀ w ∈ ws, w.Sound
  /-- Whether `in` is no operator. -/
  noIn : s.noIn = noIn
  /-- No ambient declaration encloses this place. -/
  runtime : s.ambient = 0
  /-- No generator encloses this place. -/
  plain : s.fn.generator = false
  /-- The code is not strict. -/
  sloppy : s.grammar.strictEarlyErrors = false
  /-- There are no errors. -/
  errors : s.errors = 0
  /-- Nothing is reported. -/
  reports : s.reports = []

/-- A parser in front of some words gives a value and stands in front of others. -/
def Takes {α : Type} (file : SourceFile) (noIn : Bool) (p : Parser α) (ws rest : List Word)
    (Q : α → Prop) : Prop :=
  ∀ s : State, s.Stands file noIn ws → (p s).Lands file fun a t => Q a ∧ t.Stands file noIn rest

/-! ## Steps -/

section

variable {α β σ : Type} {file : SourceFile} {noIn : Bool} {ws vs us : List Word}
    {w : Word} {k : TokenKind}
  {p : Parser α} {Q R : α → Prop} {s : State}

theorem Takes.mono (h : Takes file noIn p ws vs Q) (hle : ∀ a, Q a → R a) :
    Takes file noIn p ws vs R := by
  intro s hs
  have hp := h s hs
  cases hrun : p s with
  | ok a t =>
    rw [hrun] at hp
    exact ⟨hle a hp.1, hp.2⟩
  | fail c t =>
    rw [hrun] at hp
    exact hp
  | halt why t =>
    rw [hrun] at hp
    exact hp

/-- One parser behind another. -/
theorem Takes.bind {f : α → Parser β} {R : β → Prop} (h : Takes file noIn p ws vs Q)
    (hf : ∀ a, Q a → Takes file noIn (f a) vs us R) : Takes file noIn (p >>= f) ws us R := by
  intro s hs
  have hp := h s hs
  show Outcome.Lands file _ (Parser.bind p f s)
  unfold Parser.bind
  cases hrun : p s with
  | ok a t =>
    rw [hrun] at hp
    exact hf a hp.1 t hp.2
  | fail c t =>
    rw [hrun] at hp
    exact hp
  | halt why t =>
    rw [hrun] at hp
    exact hp

theorem takes_pure {a : α} (h : Q a) : Takes file noIn (pure a) ws ws Q := fun _ hs => ⟨h, hs⟩

theorem takes_exhausted : Takes file noIn (exhausted : Parser α) ws vs Q :=
  fun _ hs => ⟨nofun, hs.reads.file⟩

theorem takes_view : Takes file noIn view ws ws fun v => v.noIn = noIn ∧ v.ambient = 0 ∧
    v.fn.generator = false ∧ v.grammar.strictEarlyErrors = false :=
  fun _ hs => ⟨⟨hs.noIn, hs.runtime, hs.plain, hs.sloppy⟩, hs⟩

/-- What is known of the words may be used of a parser in front of them. -/
theorem Takes.of_sound (h : (∀ w ∈ ws, w.Sound) → Takes file noIn p ws vs Q) :
    Takes file noIn p ws vs Q := fun s hs => h hs.sound s hs

theorem takes_peek : Takes file noIn peek ws ws fun t => t.Spells (front ws) := by
  intro s hs
  obtain ⟨t, lx, hnext, ht, -, -, hpush⟩ := hs.reads.next
  have hrun : peek s = .ok t { s with lexer := lx.push t } := by
    unfold peek lex Lexer.peek
    rw [hnext]
    rfl
  rw [hrun]
  exact ⟨ht, hpush, hs.sound, hs.noIn, hs.runtime, hs.plain, hs.sloppy, hs.errors, hs.reports⟩

theorem takes_peek2 : Takes file noIn peek2 ws ws fun t => t.Spells (front ws.tail) := by
  intro s hs
  obtain ⟨t, lx, hnext, -, hreads, -⟩ := hs.reads.next
  obtain ⟨t', lx', hnext', ht', -⟩ := hreads.next
  have hrun : peek2 s = .ok t' s := by
    unfold peek2
    rw [hnext, hnext']
  rw [hrun]
  exact ⟨ht', hs⟩

theorem takes_advance : Takes file noIn advance ws ws.tail fun t => t.Spells (front ws) := by
  intro s hs
  obtain ⟨t, lx, hnext, ht, hreads, -⟩ := hs.reads.next
  have hrun : advance s = consume t { s with lexer := lx } := by
    show Parser.bind (lex Lexer.next) consume s = _
    unfold Parser.bind lex
    rw [hnext]
    rfl
  have hsound : ∀ w ∈ ws.tail, w.Sound := fun w hw => hs.sound w (List.mem_of_mem_tail hw)
  rw [hrun]
  unfold consume
  split <;>
    exact ⟨ht, hreads, hsound, hs.noIn, hs.runtime, hs.plain, hs.sloppy, hs.errors, hs.reports⟩

theorem takes_at (k : TokenKind) :
    Takes file noIn (at_ k) ws ws fun b => b = ((front ws).kind == k) :=
  takes_peek.bind fun t ht => takes_pure (by rw [ht.kind])

theorem takes_atAny (ks : List TokenKind) :
    Takes file noIn (atAny ks) ws ws fun b => b = ks.contains (front ws).kind :=
  takes_peek.bind fun t ht => takes_pure (by rw [ht.kind])

theorem takes_atWord (x : String) : Takes file noIn (atWord x) ws ws fun b =>
    b = ((front ws).kind == .ident && (front ws).text == Bytes.ofString x) :=
  takes_peek.bind fun _ ht => takes_pure (ht.is x)

/-- What comes next is taken when it is of a kind. -/
theorem takes_eat (h : (front ws).kind = k) : Takes file noIn (eat k) ws ws.tail (· = true) := by
  refine (takes_at k).bind fun b hb => ?_
  rw [hb, h, if_pos (by simp)]
  exact takes_advance.bind fun t _ => takes_pure rfl

theorem takes_noEat (h : (front ws).kind ≠ k) : Takes file noIn (eat k) ws ws (· = false) := by
  refine (takes_at k).bind fun b hb => ?_
  rw [hb, if_neg (by simpa using h)]
  exact takes_pure rfl

theorem takes_expect {code : Code} {message : String} (h : (front ws).kind = k) :
    Takes file noIn (expect k code message) ws ws.tail fun t => t.Spells (front ws) := by
  refine (takes_at k).bind fun b hb => ?_
  rw [hb, h, if_pos (by simp)]
  exact takes_advance

/-- A semicolon ends a statement. -/
theorem takes_semicolon (h : (front ws).kind = .semicolon) :
    Takes file noIn semicolon ws ws.tail fun _ => True := by
  refine (takes_eat h).bind fun b hb => ?_
  rw [hb]
  exact takes_pure trivial

/-- A closing brace and the end of the text end a statement. -/
theorem takes_noSemicolon (h : (front ws).kind = .rBrace ∨ (front ws).kind = .eof) :
    Takes file noIn semicolon ws ws fun _ => True := by
  have hne : (front ws).kind ≠ .semicolon := by rcases h with h | h <;> rw [h] <;> decide
  refine (takes_noEat hne).bind fun b hb => ?_
  rw [hb]
  refine takes_peek.bind fun t ht => ?_
  have hends : endsStatement t = true := by
    rw [endsStatement, ht.kind]
    rcases h with h | h <;> rw [h] <;> simp
  rw [if_pos hends]
  exact takes_pure trivial

theorem takes_spanTo (start : Span) : Takes file noIn (spanTo start) ws ws fun _ => True :=
  takes_view.bind fun _ _ => takes_pure trivial

theorem takes_node (kind : NodeKind) (start : Span) (kids : List Node) :
    Takes file noIn (node kind start kids) ws ws fun n => ∃ span, n = Node.new kind span kids :=
  (takes_spanTo start).bind fun span _ => takes_pure ⟨span, rfl⟩

theorem takes_addLeading (t : Token) : Takes file noIn (addLeading t) ws ws fun _ => True := by
  intro s hs
  refine ⟨trivial, ?_⟩
  dsimp only
  split
  · exact hs
  · exact ⟨hs.reads, hs.sound, hs.noIn, hs.runtime, hs.plain, hs.sloppy, hs.errors, hs.reports⟩

theorem takes_addDangling : Takes file noIn addDangling ws ws fun _ => True := by
  refine takes_peek.bind fun t _ s hs => ⟨trivial, ?_⟩
  dsimp only
  split
  · exact hs
  · exact ⟨hs.reads, hs.sound, hs.noIn, hs.runtime, hs.plain, hs.sloppy, hs.errors, hs.reports⟩

theorem takes_checkRuntime (t : Token) : Takes file noIn (checkRuntime t) ws ws fun _ => True := by
  refine takes_view.bind fun v hv => ?_
  rw [if_neg (by simp [hv.2.1])]
  exact takes_pure trivial

/-! ### Contexts -/

theorem takes_withoutIn (h : Takes file true p ws vs Q) :
    Takes file noIn (withoutIn p) ws vs Q := by
  intro s hs
  have hp := h { s with noIn := true }
    ⟨hs.reads, hs.sound, rfl, hs.runtime, hs.plain, hs.sloppy, hs.errors, hs.reports⟩
  unfold withoutIn withNoIn bracket
  cases hrun : p { s with noIn := true } with
  | ok a t =>
    rw [hrun] at hp
    obtain ⟨ha, ht⟩ := hp
    exact ⟨ha, ht.reads, ht.sound, hs.noIn, ht.runtime, ht.plain, ht.sloppy, ht.errors, ht.reports⟩
  | fail c t =>
    rw [hrun] at hp
    exact hp
  | halt why t =>
    rw [hrun] at hp
    exact hp

/-- A change of the state that a parse in front of words does not see. -/
theorem takes_bracket {enter : State → State} {leave : State → State → State}
    (henter : ∀ {s : State}, s.Stands file noIn ws → (enter s).Stands file noIn ws)
    (hleave : ∀ {s t : State}, t.Stands file noIn vs → (leave s t).Stands file noIn vs)
    (hlexer : ∀ s t : State, (leave s t).lexer = t.lexer)
    (h : Takes file noIn p ws vs Q) : Takes file noIn (bracket enter leave p) ws vs Q := by
  intro s hs
  have hp := h (enter s) (henter hs)
  unfold bracket
  cases hrun : p (enter s) with
  | ok a t =>
    rw [hrun] at hp
    exact ⟨hp.1, hleave hp.2⟩
  | fail c t =>
    rw [hrun] at hp
    exact hp
  | halt why t =>
    rw [hrun] at hp
    exact ⟨hp.1, by rw [hlexer]; exact hp.2⟩

theorem takes_inScope (h : Takes file noIn p ws vs Q) : Takes file noIn (inScope p) ws vs Q :=
  takes_bracket
    (fun h => ⟨h.reads, h.sound, h.noIn, h.runtime, h.plain, h.sloppy, h.errors, h.reports⟩)
    (fun h => ⟨h.reads, h.sound, h.noIn, h.runtime, h.plain, h.sloppy, h.errors, h.reports⟩)
    (fun _ _ => rfl) h

theorem takes_inLabel (l : Label) (h : Takes file noIn p ws vs Q) :
    Takes file noIn (inLabel l p) ws vs Q :=
  takes_bracket
    (fun h => ⟨h.reads, h.sound, h.noIn, h.runtime, h.plain, h.sloppy, h.errors, h.reports⟩)
    (fun h => ⟨h.reads, h.sound, h.noIn, h.runtime, h.plain, h.sloppy, h.errors, h.reports⟩)
    (fun _ _ => rfl) h

theorem takes_attempt (h : Takes file noIn p ws vs Q) :
    Takes file noIn (attempt p) ws vs fun o => ∃ a, o = some a ∧ Q a := by
  intro s hs
  have hp := h s hs
  unfold attempt
  cases hrun : p s with
  | ok a t =>
    rw [hrun] at hp
    exact ⟨⟨a, rfl, hp.1⟩, hp.2⟩
  | fail c t =>
    rw [hrun] at hp
    exact hp.elim
  | halt why t =>
    rw [hrun] at hp
    exact hp

/-- Looking ahead takes nothing. -/
theorem takes_lookahead {p : Parser Bool} {Q : Bool → Prop} (h : Takes file noIn p ws vs Q) :
    Takes file noIn (lookahead p) ws ws Q := by
  intro s hs
  have hp :=
    h s.enterTry ⟨hs.reads, hs.sound, hs.noIn, hs.runtime, hs.plain, hs.sloppy, hs.errors, rfl⟩
  unfold lookahead
  cases hrun : p s.enterTry with
  | ok b t =>
    rw [hrun] at hp
    obtain ⟨hb, ht⟩ := hp
    have hlexer : (s.undoTry t).lexer = s.lexer := by
      have hfile := ht.reads.file.trans hs.reads.file.symm
      have hstrict := ht.reads.strict.trans hs.reads.strict.symm
      show Lexer.mk t.lexer.file t.lexer.strictOctal s.lexer.offset s.lexer.held = s.lexer
      rw [hfile, hstrict]
    show Q (b && t.reports.isEmpty) ∧ _
    rw [ht.reports]
    refine ⟨by simpa using hb, ?_, hs.sound, ht.noIn, ht.runtime, ht.plain,
      ht.sloppy, hs.errors, hs.reports⟩
    rw [hlexer]
    exact hs.reads
  | fail c t =>
    rw [hrun] at hp
    exact hp.elim
  | halt why t =>
    rw [hrun] at hp
    cases why with
    | errorLimit => exact absurd rfl hp.1
    | noProgress => exact hp
    | outOfSteps => exact hp

/-! ### Repetitions -/

/-- A repetition lands when each number of rounds does. -/
theorem takes_loop {step : σ → Parser (σ ⊕ α)} {init : σ}
    (h : ∀ rounds, Takes file noIn (loopFrom step rounds init) ws vs Q) :
    Takes file noIn (loop step init) ws vs Q := fun s hs => h _ s hs

/-- One round of a repetition: it goes on or ends. -/
theorem takes_loopFrom {step : σ → Parser (σ ⊕ α)} {init : σ} {rounds : Nat}
    (h : ∀ n, rounds = n + 1 → Takes file noIn (step init) ws vs fun r =>
      (∃ a, r = .inl a ∧ Takes file noIn (loopFrom step n a) vs us Q) ∨
        (∃ b, r = .inr b ∧ vs = us ∧ Q b)) :
    Takes file noIn (loopFrom step rounds init) ws us Q := by
  cases rounds with
  | zero => exact takes_exhausted
  | succ n =>
    intro s hs
    have hp := h n rfl s hs
    rw [loopFrom]
    dsimp only
    cases hrun : step init s with
    | ok r t =>
      rw [hrun] at hp
      obtain ⟨⟨a, rfl, ha⟩ | ⟨b, rfl, rfl, hb⟩, ht⟩ := hp
      · dsimp only
        split
        · exact ha t ht
        · exact ⟨by decide, ht.reads.file⟩
      · exact ⟨hb, ht⟩
    | fail c t =>
      rw [hrun] at hp
      exact hp
    | halt why t =>
      rw [hrun] at hp
      exact hp

/-- A round with which a repetition goes on. -/
theorem takes_nextRound {step : σ → Parser (σ ⊕ α)} {init : σ} {next : σ → Prop}
    (h : Takes file noIn (step init) ws vs fun r => ∃ a, r = .inl a ∧ next a)
    (hrest : ∀ n a, next a → Takes file noIn (loopFrom step n a) vs us Q) (rounds : Nat) :
    Takes file noIn (loopFrom step rounds init) ws us Q :=
  takes_loopFrom fun n _ => h.mono fun _ hr => .inl (hr.imp fun a ha => ⟨ha.1, hrest n a ha.2⟩)

/-- A round that ends a repetition. -/
theorem takes_lastRound {step : σ → Parser (σ ⊕ α)} {init : σ}
    (h : Takes file noIn (step init) ws vs fun r => ∃ b, r = .inr b ∧ Q b) (rounds : Nat) :
    Takes file noIn (loopFrom step rounds init) ws vs Q :=
  takes_loopFrom fun _ _ => h.mono fun _ hr => .inr (hr.imp fun _ hb => ⟨hb.1, rfl, hb.2⟩)

/-- A repetition whose first round is its last. -/
theorem takes_loop_once {step : σ → Parser (σ ⊕ α)} {init : σ}
    (h : Takes file noIn (step init) ws vs fun r => ∃ b, r = .inr b ∧ Q b) :
    Takes file noIn (loop step init) ws vs Q := takes_loop (takes_lastRound h)

end

/-! ## Names as expressions -/

/-- The words that end a name as an expression. -/
def followers (noIn : Bool) : List Word :=
  [Word.rParen, .rBrace, .semi, .stop, .named "of"] ++ if noIn then [Word.named "in"] else []

/-- A word that is read as it is written is no arrow. -/
theorem kind_ne_arrow {w : Word} (h : w.Sound) : w.kind ≠ .arrow := by
  cases h with
  | named h =>
    rename_i x
    intro harrow
    have hname := Lexeme.isPropertyName_getD x
    rw [show (TokenKind.keyword? x).getD .ident = .arrow from harrow] at hname
    cases hname
  | mark h =>
    have hmarks : ∀ w ∈ Word.marks, w.kind ≠ .arrow := by decide
    exact hmarks w h

section

variable {file : SourceFile} {noIn ascii : Bool} {ws : List Word} {x : Bytes} {g : Rules} {n : Nat}

/-- A word behind a name neither continues it nor is an operator. -/
theorem followers_kind : ∀ noIn, ∀ w ∈ followers noIn,
    w.kind ∈ ([.rParen, .rBrace, .semicolon, .eof, .ident, .kwIn] : List TokenKind) ∧
      (w.kind = .ident → w.text = Bytes.ofString "of") ∧ (w.kind = .kwIn → noIn = true) := by
  decide

theorem names_identOf {t : Token} (ht : t.Spells (.named x)) : (identOf t).Names x := ⟨rfl, ht.text⟩

/-- What ends a name is of none of some other kinds. -/
theorem followers_kind_ne (h : front ws ∈ followers noIn) {k : TokenKind}
    (hk : k ∉ ([.rParen, .rBrace, .semicolon, .eof, .ident, .kwIn] : List TokenKind)) :
    (front ws).kind ≠ k := fun he => hk (he ▸ (followers_kind noIn _ h).1)

theorem takes_primary (hx : IsPlainName ascii x) (h : front ws ∈ followers noIn) :
    Takes file noIn (parsePrimary g) (.named x :: ws) ws fun n => n.Names x := by
  refine takes_peek.bind fun t ht => ?_
  rw [show t.kind = .ident from ht.kind.trans hx.kind]
  refine takes_peek2.bind fun next hnext => ?_
  have hno : next.kind ≠ .kwFunction := by
    rw [hnext.kind]
    exact followers_kind_ne h (by decide)
  rw [if_neg (by simp [hno])]
  exact takes_advance.bind fun _ _ => takes_pure (names_identOf ht)

theorem takes_noLink (h : front ws ∈ followers noIn) (allowCall optional : Bool) (base : Node) :
    Takes file noIn (parseLink g allowCall optional base) ws ws (· = none) := by
  refine takes_peek.bind fun t ht => ?_
  have hk := (followers_kind noIn _ h).1
  rw [← ht.kind] at hk
  simp only [List.mem_cons, List.not_mem_nil, or_false] at hk
  rcases hk with hk | hk | hk | hk | hk | hk <;> rw [hk] <;> exact takes_pure rfl

theorem takes_callTail (h : front ws ∈ followers noIn) (allowCall : Bool) {base : Node}
    (hbase : base.Names x) :
    Takes file noIn (parseCallTail g allowCall base) ws ws fun n => n.Names x := by
  refine Takes.bind (?_ : Takes file noIn _ ws ws (· = (base, false))) fun r hr => ?_
  · refine takes_loop_once ((takes_noLink h allowCall false base).bind fun o ho => ?_)
    rw [ho]
    exact takes_pure ⟨_, rfl, rfl⟩
  · rw [hr]
    exact takes_pure hbase

theorem takes_lhs (hx : IsPlainName ascii x) (h : front ws ∈ followers noIn) :
    Takes file noIn (rules n .lhs) (.named x :: ws) ws fun n => n.Names x := by
  cases n with
  | zero => exact takes_exhausted
  | succ n =>
    show Takes file noIn (parseLhs (rules n)) _ _ _
    refine (takes_at .kwNew).bind fun b hb => ?_
    have hno : ¬ b = true := by
      rw [hb, show front (.named x :: ws) = .named x from rfl, hx.kind]
      decide
    rw [if_neg hno]
    exact (takes_primary hx h).bind fun base hbase => takes_callTail h true hbase

theorem takes_unary (hx : IsPlainName ascii x) (h : front ws ∈ followers noIn) :
    Takes file noIn (rules n .unary) (.named x :: ws) ws fun n => n.Names x := by
  cases n with
  | zero => exact takes_exhausted
  | succ n =>
    show Takes file noIn (parseUnary (rules n)) _ _ _
    have hpostfix : Takes file noIn (parsePostfix (rules n)) (.named x :: ws) ws fun n =>
        n.Names x := by
      refine (takes_lhs hx h).bind fun e he => takes_peek.bind fun t ht => ?_
      have hplus : t.kind ≠ .plusPlus := by rw [ht.kind]; exact followers_kind_ne h (by decide)
      have hminus : t.kind ≠ .minusMinus := by rw [ht.kind]; exact followers_kind_ne h (by decide)
      rw [if_neg (by simp [hplus, hminus])]
      exact takes_pure he
    refine takes_peek.bind fun t ht => takes_view.bind fun v _ => ?_
    have hawait : t.is "await" = false := by
      rw [ht.is]
      simpa [front, Word.named] using fun _ => hx.await
    rw [show t.kind = .ident from ht.kind.trans hx.kind, hawait]
    exact hpostfix

theorem takes_binaryRest (h : front ws ∈ followers noIn) (above : Nat) {left : Node}
    (hleft : left.Names x) :
    Takes file noIn (parseBinaryRest g above left) ws ws fun n => n.Names x := by
  have hoperator : Takes file noIn peekOperator ws ws fun t => t.Spells (front ws) := by
    refine takes_peek.bind fun t ht => ?_
    have hno : t.kind ≠ .gt := by rw [ht.kind]; exact followers_kind_ne h (by decide)
    rw [if_pos (by simpa using hno)]
    exact takes_pure ht
  refine takes_loop_once (hoperator.bind fun t ht => ?_)
  obtain ⟨hkind, hof, hin⟩ := followers_kind noIn _ h
  have hword (y : String) (hy : Bytes.ofString "of" ≠ Bytes.ofString y) : t.is y = false := by
    rw [ht.is, Bool.and_eq_false_iff, beq_eq_false_iff_ne, beq_eq_false_iff_ne]
    by_cases hk : (front ws).kind = .ident
    · exact .inr (by rw [hof hk]; exact hy)
    · exact .inl hk
  rw [hword "as" (by decide), hword "satisfies" (by decide)]
  refine takes_view.bind fun v hv => ?_
  have hprec : (if (t.kind == .kwIn && v.noIn) = true then 0 else t.kind.precedence) = 0 := by
    rw [ht.kind, hv.1]
    simp only [List.mem_cons, List.not_mem_nil, or_false] at hkind
    rcases hkind with hk | hk | hk | hk | hk | hk <;> rw [hk]
    iterate 5 rfl
    rw [hin hk]
    rfl
  rw [hprec]
  exact takes_pure ⟨left, rfl, hleft⟩

theorem takes_binary (hx : IsPlainName ascii x) (h : front ws ∈ followers noIn) (above : Nat) :
    Takes file noIn (rules n (.binary above)) (.named x :: ws) ws fun n => n.Names x := by
  cases n with
  | zero => exact takes_exhausted
  | succ n => exact (takes_unary hx h).bind fun left hleft => takes_binaryRest h above hleft

theorem takes_conditional (hx : IsPlainName ascii x) (h : front ws ∈ followers noIn) :
    Takes file noIn (parseConditional (rules n)) (.named x :: ws) ws fun n => n.Names x := by
  refine (takes_binary hx h 0).bind fun test htest => ?_
  refine (takes_noEat (followers_kind_ne h (by decide))).bind fun b hb => ?_
  rw [hb]
  exact takes_pure htest

/-- No arrow follows, since words are no arrows. -/
theorem takes_isAsyncNameArrow : Takes file noIn isAsyncNameArrow ws ws (· = false) := by
  refine takes_lookahead (takes_advance.bind fun _ _ => takes_advance.bind fun _ _ =>
    Takes.of_sound fun hsound => takes_peek.bind fun t ht => takes_pure ?_)
  have hno : t.kind ≠ .arrow := by
    rw [ht.kind]
    cases hws : ws.tail.tail with
    | nil => decide
    | cons w vs => exact kind_ne_arrow (hsound w (by rw [hws]; exact List.mem_cons_self))
  simp [hno]

theorem takes_noArrow (hx : IsPlainName ascii x) (h : front ws ∈ followers noIn) :
    Takes file noIn (tryArrow g) (.named x :: ws) (.named x :: ws) (· = none) := by
  refine takes_peek.bind fun t ht => ?_
  rw [show t.kind = .ident from ht.kind.trans hx.kind]
  refine takes_peek2.bind fun next hnext => ?_
  have hno : next.kind ≠ .arrow := by
    rw [hnext.kind]
    exact followers_kind_ne h (by decide)
  rw [if_neg (by simp [hno])]
  split
  · exact takes_pure rfl
  · have hk := (followers_kind noIn _ h).1
    rw [show (front ws).kind = next.kind from hnext.kind.symm] at hk
    simp only [List.mem_cons, List.not_mem_nil, or_false] at hk
    rcases hk with hk | hk | hk | hk | hk | hk <;> rw [hk]
    iterate 4 exact takes_pure rfl
    · refine takes_isAsyncNameArrow.bind fun b hb => ?_
      rw [hb]
      exact takes_pure rfl
    · exact takes_pure rfl

/-- A plain name is taken as an expression. -/
theorem takes_assign (hx : IsPlainName ascii x) (h : front ws ∈ followers noIn) :
    Takes file noIn (rules n .assign) (.named x :: ws) ws fun n => n.Names x := by
  cases n with
  | zero => exact takes_exhausted
  | succ n =>
    refine takes_peek.bind fun t _ => takes_view.bind fun v hv => ?_
    rw [if_neg (by simp [hv.2.2.1])]
    refine (takes_noArrow hx h).bind fun o ho => ?_
    rw [ho]
    refine (takes_conditional hx h).bind fun left hleft => takes_peek.bind fun op hop => ?_
    have hno : op.kind.isAssign = false := by
      have hk := (followers_kind noIn _ h).1
      rw [← hop.kind] at hk
      simp only [List.mem_cons, List.not_mem_nil, or_false] at hk
      rcases hk with hk | hk | hk | hk | hk | hk <;> rw [hk] <;> rfl
    rw [hno]
    exact takes_pure hleft

theorem takes_expression (hx : IsPlainName ascii x) (h : front ws ∈ followers noIn) :
    Takes file noIn (parseExpression (rules n)) (.named x :: ws) ws fun n => n.Names x := by
  refine (takes_assign hx h).bind fun first hfirst => (takes_at .comma).bind fun b hb => ?_
  have hno : b = false := by
    rw [hb, beq_eq_false_iff_ne]
    exact followers_kind_ne h (by decide)
  rw [hno]
  exact takes_pure hfirst

/-- A name in parentheses. -/
theorem takes_parenExpr (hx : IsPlainName ascii x) :
    Takes file noIn (parseParenExpr (rules n)) (.lParen :: .named x :: .rParen :: ws) ws
      fun n => n.Names x := by
  have hends : front (.rParen :: ws) ∈ followers noIn := by simp [followers, front]
  exact (takes_expect rfl).bind fun _ _ => (takes_expression hx hends).bind fun e he =>
    (takes_expect rfl).bind fun _ _ => takes_pure he

end

end Parse

end ScriptLower
