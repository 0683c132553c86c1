import ScriptLower.Parse.Program

/-!
# The discipline of the grammar's rules

Every rule of the grammar is put together from a few operations: looking at the next token, taking
it, reading it again, reporting, failing, changing the context for a while, repeating, trying, and
reading another part of the grammar. `Obeys g q k p Q` says that `p` is put together in this way,
and keeps three promises on top:

* a part of the grammar is read only behind a consumed token, or when its rank lies below that of
  the part being read, so the knot of the rules unwinds;
* a repetition that is to be repeated has consumed a token;
* a failure is preceded by an error, unless it is one of the failures that say nothing.

What a rule may rely on is written down in a `Know`: which token is next, whether anything is
consumed, whether an error is counted. `Q` says what is known behind `p`, for each value.

That a rule obeys is shown once, by following its text. What every rule does to the state (which
places it leaves alone, how far it reads, whether it fails in silence) then follows by induction,
one case for each operation.
-/

namespace ScriptLower.Parse

open ScriptLower

/-! ## Ranks -/

/-- How many parts can open one inside the other in front of the same token. -/
def Part.rank : Part → Nat
  | .statement _ => 6
  | .assign => 5
  | .binary _ => 4
  | .unary => 3
  | .lhs => 2
  | .construct => 1
  | .type _ => 2
  | .typeOperator _ => 1
  | .binding => 0
  | .element _ => 0
  | .namespaceFrom _ _ => 0

theorem Part.rank_lt (part : Part) : part.rank < partsPerToken := by
  cases part <;> simp [Part.rank, partsPerToken]

/-! ## Knowledge -/

/-- `u` stands where `t` stood: the same place in the text, perhaps read under another grammar. No
reading turns another token into a closing brace or the end of the text, or one of these into
another token. -/
structure Reread (t u : Token) : Prop where
  /-- It starts at the same place. -/
  start : u.span.start = t.span.start
  /-- The end of the text stays the end of the text. -/
  eof : u.kind = .eof ↔ t.kind = .eof
  /-- A closing brace stays one. -/
  brace : u.kind = .rBrace ↔ t.kind = .rBrace

theorem Reread.refl (t : Token) : Reread t t := ⟨rfl, Iff.rfl, Iff.rfl⟩

theorem Reread.trans {t u v : Token} (h : Reread t u) (h' : Reread u v) : Reread t v :=
  ⟨h'.start.trans h.start, h'.eof.trans h.eof, h'.brace.trans h.brace⟩

/-- What is known of the next token. -/
inductive Next
  /-- Nothing. -/
  | unknown
  /-- It has been looked at. -/
  | is (t : Token)
  /-- Unless a token was consumed since, it stands where `t` stood. -/
  | again (t : Token)

/-- What is left of the knowledge of the next token behind something that may have consumed it. -/
def Next.later : Next → Next
  | unknown => unknown
  | is t => again t
  | again t => again t

/-- What a rule may rely on at a place of its text. -/
structure Know where
  /-- Parts of a lower rank may be read before a token is consumed. -/
  rank : Nat
  /-- A token is consumed. -/
  moved : Bool := false
  /-- A token is consumed, or the parse stands in front of a name that it cannot get past. -/
  cut : Bool := false
  /-- The next token. -/
  next : Next := .unknown
  /-- An error is counted. -/
  told : Bool := false
  /-- The place of the last consumed token. -/
  last : Option Span := none
  /-- Comments are recorded of the next token only. This is asked, and never changes. -/
  strict : Bool := false

namespace Know

/-- Nothing is known of the place any more. -/
@[reducible] def loose (k : Know) : Know := { k with next := .unknown, last := none }

/-- A token is consumed. -/
@[reducible] def past (k : Know) : Know := { k with next := .unknown, moved := true, last := none }

/-- A token is consumed, unless the parse cannot get past this place. -/
@[reducible] def cutOff (k : Know) : Know := { k with next := .unknown, cut := true, last := none }

/-- The next token is `t`. -/
@[reducible] def see (k : Know) (t : Token) : Know := { k with next := .is t }

/-- The token `t` is taken. At the end of the text nothing is consumed, and the lexer has reported
a token that is none. -/
def take (k : Know) (t : Token) : Know :=
  { k with
    next := .unknown
    moved := k.moved || t.kind != .eof
    told := k.told || t.kind == .invalid
    last := if t.kind == .eof then k.last else some t.span }

/-- An error is counted. -/
@[reducible] def tell (k : Know) : Know := { k with told := true }

/-- The last consumed token stands at `sp`. -/
@[reducible] def endsAt (k : Know) (sp : Span) : Know := { k with last := some sp }

/-- Something was read that may have consumed the next token. -/
def later (k : Know) : Know := { k with next := k.next.later, last := none }

/-- What is known at the start of each round of a repetition. Behind a consumed token every part may
be read. -/
@[reducible] def round (k : Know) : Know :=
  { rank := if k.moved then partsPerToken else k.rank, told := k.told, strict := k.strict }

/-- What is known behind a repetition whose last round ends with `m`. -/
def behind (k m : Know) : Know :=
  { rank := k.rank
    moved := k.moved || m.moved
    cut := k.cut
    next := k.next.later
    told := m.told
    last := m.last
    strict := k.strict }

/-- `k` tells no more than `m`. -/
structure Le (k m : Know) : Prop where
  rank : k.rank = m.rank
  moved : k.moved = true → m.moved = true
  cut : k.cut = true → m.cut = true
  next : k.next = .unknown ∨ k.next = m.next
  told : k.told = true → m.told = true
  last : k.last = none ∨ k.last = m.last
  strict : k.strict = m.strict

/-- The next token is known, and is not the end of the text. -/
def Sees (k : Know) : Prop := ∃ t, k.next = .is t ∧ t.kind ≠ .eof

/-- Parts up to a rank may be read here. -/
def Reads (k : Know) (rank : Nat) : Prop := k.moved = true ∨ rank < k.rank

/-- Every part may be read here, so a token is consumed since the enclosing part began. -/
def Begun (k : Know) : Prop := k.Reads (partsPerToken - 1)

end Know

/-- Behind the parser at least `m` is known, whatever its value. -/
def Gives {α : Type} (m : Know) : α → Know → Prop := fun _ k => m.Le k

/-- There is a node, and it stretches from the token `start` to the last consumed token. -/
def Stretches (start : Token) (n : Node) (k : Know) : Prop :=
  n.isPresent = true ∧ ∃ sp, k.last = some sp ∧ n.span = start.span.cover sp

/-- Behind the parser at least `m` is known, and its node stretches from `start` up to here. -/
def Spans (m : Know) (start : Token) : Node → Know → Prop := fun n k => m.Le k ∧ Stretches start n k

/-- What holds of the node of a part, besides that a token is consumed. -/
def Part.Ends : Part → Node → Know → Prop
  | .namespaceFrom start _, n, k => Stretches start n k
  | _, _, _ => True

/-- How a round of a repetition ends: behind a consumed token another one follows, and the last one
leaves what is known behind the repetition. -/
def Know.RoundEnds {σ α : Type} (k : Know) (Q : α → Know → Prop) : σ ⊕ α → Know → Prop
  | .inl _, m => m.moved = true ∨ m.cut = true
  | .inr b, m => Q b (k.behind m)

/-- A change of the state and its way back touch only the context: what the enclosing function
allows, the labels, the scopes and the marks for `in`, types and ambient declarations. -/
structure Framing (enter : State → State) (leave : State → State → State) : Prop where
  /-- The way in changes nothing but the context. -/
  enter_eq : ∀ s, enter s =
    { s with
      fn := (enter s).fn, noIn := (enter s).noIn, typeDepth := (enter s).typeDepth,
      ambient := (enter s).ambient, labels := (enter s).labels, scopes := (enter s).scopes }
  /-- What it sets depends on what a rule may ask only. -/
  enter_view : ∀ s s', s.view = s'.view → (enter s).view = (enter s').view
  /-- The way out changes nothing but the context. -/
  leave_eq : ∀ s t, leave s t =
    { t with
      fn := (leave s t).fn, noIn := (leave s t).noIn, typeDepth := (leave s t).typeDepth,
      ambient := (leave s t).ambient, labels := (leave s t).labels, scopes := (leave s t).scopes }
  /-- It sets the context back to what it was on the way in. -/
  leave_back : ∀ s t, t.fn = (enter s).fn → t.noIn = (enter s).noIn →
    t.typeDepth = (enter s).typeDepth → t.ambient = (enter s).ambient →
    t.labels = (enter s).labels →
    (leave s t).fn = s.fn ∧ (leave s t).noIn = s.noIn ∧ (leave s t).typeDepth = s.typeDepth ∧
      (leave s t).ambient = s.ambient ∧ (leave s t).labels = s.labels
  /-- The scopes stay as they are, or a block of its own is opened and closed. -/
  scopes_eq : (∀ s, (enter s).scopes = s.scopes) ∧ (∀ s t, (leave s t).scopes = t.scopes) ∨
    (∀ s, (enter s).scopes = [] :: s.scopes) ∧ (∀ s t, (leave s t).scopes = t.scopes.tail)

/-! ## The judgement -/

/-- `p` is put together from the operations of a parser and keeps the discipline. `g` reads the
parts of the grammar, the mark `q` says that a failure may mean another reading, `k` is what is
known in front of `p`, and `Q` what is known behind it. -/
inductive Obeys (g : Rules) : Bool → Know → {α : Type} → Parser α → (α → Know → Prop) → Prop
  | pure {q k} {α : Type} {a : α} {Q : α → Know → Prop} : Q a k → Obeys g q k (pure a) Q
  | bind {q k} {α β : Type} {p : Parser α} {f : α → Parser β} {R : α → Know → Prop}
      {Q : β → Know → Prop} :
      Obeys g q k p R → (∀ a m, R a m → Obeys g q m (f a) Q) → Obeys g q k (p >>= f) Q
  | mono {q k} {α : Type} {p : Parser α} {R Q : α → Know → Prop} :
      Obeys g q k p R → (∀ a m, R a m → Q a m) → Obeys g q k p Q
  | forget {q k m} {α : Type} {p : Parser α} {Q : α → Know → Prop} :
      Obeys g q k p Q → k.Le m → Obeys g q m p Q
  | fail {q k} {α : Type} {c : Cause} {Q : α → Know → Prop} :
      (c = .reported → k.told = true) → (c = .otherReading → q = true) →
      Obeys g q k (fail c) Q
  | view {q k} {Q : View → Know → Prop} :
      (∀ v, (∀ sp, k.last = some sp → v.lastSpan = sp) → Q v (k.endsAt v.lastSpan)) →
      Obeys g q k view Q
  | peek {q k} {Q : Token → Know → Prop} :
      (∀ t, (∀ u, k.next = .is u → t = u) → Q t (k.see t)) → Obeys g q k peek Q
  | peekAgain {q k u} {Q : Token → Know → Prop} : k.next = .again u →
      (∀ t, Q t { k.see t with moved := true }) → (∀ t, Reread u t → Q t (k.see t)) →
      Obeys g q k peek Q
  | peek2 {q k} {Q : Token → Know → Prop} : (∀ t, Q t k) → Obeys g q k peek2 Q
  | advance {q k} {Q : Token → Know → Prop} :
      (∀ t, (∀ u, k.next = .is u → t = u) → Q t (k.take t)) → Obeys g q k advance Q
  | splitLess {q k t} {Q : Unit → Know → Prop} : k.next = .is t →
      t.kind = .shl ∨ t.kind = .ltEq → (∀ u, u.kind = .lt → Q () (k.see u)) →
      Obeys g q k (splitLess t) Q
  | joinGreater {q k t} {Q : Token → Know → Prop} : k.next = .is t → t.kind = .gt →
      (∀ u, u.kind ≠ .eof → Q u (k.see u)) → Obeys g q k (joinGreater t) Q
  | readRegExp {q k t} {Q : Token → Know → Prop} : k.next = .is t →
      t.kind = .slash ∨ t.kind = .slashAssign →
      (∀ u, Q u { k.past with told := k.told || u.kind != .regExpLit }) →
      Obeys g q k (readRegExp t) Q
  | readTemplate {q k t} {Q : Token → Know → Prop} : k.next = .is t → t.kind = .rBrace →
      (∀ u, Q u { k.past with
        told := k.told || (u.kind != .templateMiddle && u.kind != .templateTail) }) →
      Obeys g q k (readTemplate t) Q
  | readTagName {q k t} {Q : Token → Know → Prop} : k.next = .is t →
      t.kind.isPropertyName = true → (∀ u, Q u k.cutOff) →
      Obeys g q k (readTagName t) Q
  | readChild {q k} {Q : Token → Know → Prop} : k.Begun →
      (∀ u, Q u { k.loose with moved := k.moved || u.kind != .eof }) → Obeys g q k readChild Q
  | peekAttributeValue {q k} {Q : Token → Know → Prop} :
      (∀ u, Q u (k.see u)) → Obeys g q k peekAttributeValue Q
  | errorAt {q k span code message} {Q : Unit → Know → Prop} :
      Q () k.tell → Obeys g q k (errorAt span code message) Q
  | addLeading {q k t} {Q : Unit → Know → Prop} : (k.strict = true → k.next = .is t) → Q () k →
      Obeys g q k (addLeading t) Q
  | addDanglingOf {q k t} {Q : Unit → Know → Prop} : (k.strict = true → k.next = .is t) → Q () k →
      Obeys g q k (addDanglingOf t) Q
  | declare {q k lexical n} {Q : Unit → Know → Prop} : Q () k → Obeys g q k (declare lexical n) Q
  | requireTypes {q k t} {Q : Unit → Know → Prop} : Q () k → Obeys g q k (requireTypes t) Q
  | part {q k part} {Q : Node → Know → Prop} : k.Reads part.rank →
      (part = .construct → k.Sees) → (∀ n m, k.past.Le m → part.Ends n m → Q n m) →
      Obeys g q k (g part) Q
  | bracket {q k} {α : Type} {enter leave} {p : Parser α} {Q : α → Know → Prop} :
      Framing enter leave → Obeys g q k p Q → Obeys g q k (bracket enter leave p) Q
  | loop {q k} {σ α : Type} {step : σ → Parser (σ ⊕ α)} {init : σ} {Q : α → Know → Prop} :
      (∀ a, Obeys g q k.round (step a) (k.RoundEnds Q)) →
      Obeys g q k (loop step init) Q
  | attempt {q k} {α : Type} {p : Parser α} {Q : Option α → Know → Prop} :
      Obeys g q k p (fun a m => Q (some a) m) → Q none k.later → Obeys g q k (attempt p) Q
  | speculate {q k} {α : Type} {p : Parser α} {Q : Option α → Know → Prop} :
      Obeys g true k p (fun a m => Q (some a) m) → Q none k → Obeys g q k (speculate p) Q
  | lookahead {q k} {p : Parser Bool} {Q : Bool → Know → Prop} :
      Obeys g true k p (fun _ _ => True) → (∀ b, Q b k) → Obeys g q k (lookahead p) Q

end ScriptLower.Parse
