import ScriptLower.Proofs.Tree.Grown
import ScriptLower.Proofs.Parse.Silence

/-!
# What a parser forms

`Forms f Q p` says that `p`, started at a place of the file `f`, stops at a place of it again, also
when it fails, and that every value of `p` satisfies `Q`. With it the rules are shown to form trees
that fit their places and are read from the file: a span begins at a token or at a node already read
and ends at the last consumed token, so it lies in the file and keeps its order.

A step whose value does not matter is skipped. That it stops at a place of the file is then all
there is to say of it, and follows for what is put together from the operations.
-/

namespace ScriptLower.Parse

open ScriptLower

/-- A state stands at a place of a file. -/
structure State.At (f : SourceFile) (s : State) : Prop where
  /-- It stands at a place of its file. -/
  sound : s.Sound
  /-- This is its file. -/
  file : s.lexer.file = f

/-- The parse stands at a place of the file behind it, and its value satisfies `Q`. -/
def Outcome.Forms {α : Type} (f : SourceFile) (Q : α → Prop) : Outcome α → Prop
  | .ok a t => t.At f ∧ Q a
  | .fail _ t => t.At f
  | .halt _ _ => True

/-- Every value of `p` satisfies `Q`, and `p` goes from places of the file to places of it. -/
def Forms {α : Type} (f : SourceFile) (Q : α → Prop) (p : Parser α) : Prop :=
  ∀ s, s.At f → (p s).Forms f Q

/-- The rules of the grammar go on from places of a file to places of it. -/
class Rules.Orderly (g : Rules) : Prop where
  framed : g.Framed
  run : g.Run none

instance (depth : Nat) : (rules depth).Orderly := ⟨rules_framed depth, rules_run_any depth⟩

/-- From places of a file `p` goes to places of it. -/
class Keeps {α : Type} (p : Parser α) : Prop where
  keeps : ∀ f, Forms f (fun _ => True) p

section

variable {f : SourceFile} {s t : State} {α β σ : Type} {Q : β → Prop} {R : α → Prop}

theorem State.At.along (h : s.At f) (ha : Advances s t) : t.At f :=
  ⟨ha.sound, ha.file.trans h.file⟩

theorem State.At.of_reading (h : s.At f) (hr : t.reading = s.reading) (he : s.errors ≤ t.errors) :
    t.At f := h.along (.of_reading h.sound hr he)

theorem spans_lies {tok : Token} (h : tok.Lies f) : f.spans tok.span = true :=
  SourceFile.spans_iff.2 (.inr ⟨h.file, h.base_le, h.ordered, h.stop_le⟩)

/-- The last consumed token stands in the file. -/
theorem State.At.last (h : s.At f) : f.spans s.lastSpan = true := by
  rcases h.sound.begun with hnone | hlies
  · rw [hnone]
    rfl
  · rw [← h.sound.last, ← h.file]
    exact spans_lies hlies

/-! ## Steps -/

theorem Outcome.Forms.mono {Q' : β → Prop} {o : Outcome β} (h : o.Forms f Q)
    (hq : ∀ b, Q b → Q' b) :
    o.Forms f Q' := by
  cases o with
  | ok b t => exact ⟨h.1, hq b h.2⟩
  | fail c t => exact h
  | halt w t => trivial

theorem Forms.mono {Q' : β → Prop} {p : Parser β} (h : Forms f Q p) (hq : ∀ b, Q b → Q' b) :
    Forms f Q' p := fun s hs => (h s hs).mono hq

/-- What fits a place fits one that allows more. -/
theorem Forms.le {p q : Place} {a : Parser Node} (h : Forms f (Formed f p) a) (hp : p.Le q) :
    Forms f (Formed f q) a := h.mono fun _ hn => hn.le hp

/-- What fits a place is read from the file. -/
theorem Forms.grown {p : Place} {a : Parser Node} (h : Forms f (Formed f p) a) :
    Forms f (Grown f) a := h.mono fun _ hn => hn.grown

theorem Forms.pure {b : β} (h : Q b) : Forms f Q (pure b) := fun _ hs => ⟨hs, h⟩

theorem Forms.bind {p : Parser α} {k : α → Parser β} (hp : Forms f R p)
    (hk : ∀ a, R a → Forms f Q (k a)) : Forms f Q (p >>= k) := by
  intro s hs
  have h := hp s hs
  show (Parser.bind p k s).Forms f Q
  unfold Parser.bind
  cases hrun : p s with
  | ok a t =>
    rw [hrun] at h
    exact hk a h.2 t h.1
  | fail c t =>
    rw [hrun] at h
    exact h
  | halt w t => trivial

protected theorem Forms.none : Forms f (fun o : Option β => ∀ b ∈ o, Q b) (Pure.pure Option.none) :=
    .pure (by simp)

protected theorem Forms.some {b : β} (h : Q b) :
    Forms f (fun o : Option β => ∀ b ∈ o, Q b) (Pure.pure (Option.some b)) :=
  .pure (by rintro _ ⟨⟩; exact h)

/-- What is found is what reading gives. -/
theorem Forms.found {p : Parser β} (h : Forms f Q p) :
    Forms f (fun o => ∀ b ∈ o, Q b) (do return Option.some (← p)) := .bind h fun _ hb => .some hb

/-- The value does not matter. -/
theorem Forms.skip {p : Parser α} [hp : Keeps p] {k : α → Parser β} (hk : ∀ a, Forms f Q (k a)) :
    Forms f Q (p >>= k) := .bind (hp.keeps f) fun a _ => hk a

theorem Forms.pure_then {a : α} {k : α → Parser β} (h : Forms f Q (k a)) :
    Forms f Q (Pure.pure a >>= k) := h

theorem Forms.fail {c : Cause} : Forms f Q (Parse.fail c) := fun _ hs => hs

theorem Forms.fail_then {c : Cause} {k : α → Parser β} : Forms f Q (Parse.fail c >>= k) :=
  .bind (R := fun _ => False) .fail fun _ h => h.elim

/-- A report, and then nothing. -/
theorem Forms.refuse {p : Parser α} [Keeps p] {c : Cause} :
    Forms f Q (p >>= fun _ => Parse.fail c) := .skip fun _ => .fail

theorem Forms.refuse_then {γ : Type} {p : Parser γ} [Keeps p] {c : Cause} {k : α → Parser β} :
    Forms f Q (p >>= fun _ => Parse.fail c >>= k) := .skip fun _ => .fail_then

theorem Forms.exhausted : Forms f Q Parse.exhausted := fun _ _ => trivial

theorem Forms.branch {c : Prop} [Decidable c] {p p' : Parser β} (yes : Forms f Q p)
    (no : Forms f Q p') : Forms f Q (if c then p else p') := by
  split
  · exact yes
  · exact no

/-- Each branch may rely on how the question was answered. -/
theorem Forms.choose {c : Prop} [Decidable c] {p p' : Parser β} (yes : c → Forms f Q p)
    (no : ¬c → Forms f Q p') : Forms f Q (if c then p else p') := by
  split
  · exact yes ‹_›
  · exact no ‹_›

/-- One of two steps, and then the same in either case. -/
theorem Forms.either {c : Prop} [Decidable c] {p p' : Parser α} {k : α → Parser β}
    (yes : Forms f R p) (no : Forms f R p') (hk : ∀ a, R a → Forms f Q (k a)) :
    Forms f Q (if c then p >>= k else p' >>= k) :=
  .branch (.bind yes hk) (.bind no hk)

/-- What reads nothing. -/
theorem Forms.still {p : Parser β}
    (h : ∀ s, (∃ b t, p s = .ok b t ∧ t.reading = s.reading ∧ s.errors ≤ t.errors ∧ Q b) ∨
      ∃ w t, p s = .halt w t) : Forms f Q p := by
  intro s hs
  rcases h s with ⟨b, t, hrun, hr, he, hb⟩ | ⟨w, t, hrun⟩
  · rw [hrun]
    exact ⟨hs.of_reading hr he, hb⟩
  · rw [hrun]
    trivial

theorem Forms.bracket {enter : State → State} {leave : State → State → State} {p : Parser β}
    (hfr : Framing enter leave) (h : Forms f Q p) : Forms f Q (Parse.bracket enter leave p) := by
  intro s hs
  obtain ⟨hr, he⟩ := hfr.enter_reading s
  have hin := h (enter s) (hs.of_reading hr (Nat.le_of_eq he.symm))
  have hout {t : State} (ht : t.At f) : (leave s t).At f :=
    ht.of_reading (hfr.leave_reading s t).1 (Nat.le_of_eq (hfr.leave_reading s t).2.symm)
  unfold Parse.bracket
  cases hrun : p (enter s) with
  | ok b t =>
    rw [hrun] at hin
    exact ⟨hout hin.1, hin.2⟩
  | fail c t =>
    rw [hrun] at hin
    exact hout hin
  | halt w t => trivial

theorem Forms.attempt {p : Parser β} (h : Forms f Q p) :
    Forms f (fun o => ∀ b ∈ o, Q b) (Parse.attempt p) := by
  intro s hs
  have hin := h s hs
  unfold Parse.attempt
  cases hrun : p s with
  | ok b t =>
    rw [hrun] at hin
    refine ⟨hin.1, fun b' hb' => ?_⟩
    obtain rfl := Option.mem_some.1 hb'
    exact hin.2
  | fail c t =>
    rw [hrun] at hin
    exact ⟨hin, fun b hb => by cases hb⟩
  | halt w t => trivial

/-- A try that leaves alone what a rule leaves alone. -/
theorem Forms.speculate {p : Parser β} (hframe : ∀ s, (p s).Framed s) (h : Forms f Q p) :
    Forms f (fun o => ∀ b ∈ o, Q b) (Parse.speculate p) := by
  intro s hs
  have htried := speculate_tried p s
  generalize Parse.speculate p s = o at htried ⊢
  cases htried with
  | kept hrun _ hreported =>
    have hin := h s.enterTry (hs.of_reading rfl (Nat.le_refl _))
    rw [hrun] at hin
    have hr : State.reading _ = State.reading _ := congrArg State.reading hreported.eq
    refine ⟨hin.1.of_reading hr hreported.errors, fun b hb => ?_⟩
    obtain rfl := Option.mem_some.1 hb
    exact hin.2
  | limit => trivial
  | undone hu =>
    rw [undoTry_eq ((hframe _).endsIn hu)]
    exact ⟨hs, fun b hb => by cases hb⟩
  | stopped => trivial

/-! ### Repetitions

What is handed from round to round keeps an invariant. -/

variable {I : σ → Prop}

theorem Forms.again {a : σ} (h : I a) : Forms f (Sum.elim I Q) (Pure.pure (.inl a)) := .pure h

theorem Forms.leave {b : β} (h : Q b) : Forms f (Sum.elim I Q) (Pure.pure (.inr b)) := .pure h

theorem Forms.loopFrom {step : σ → Parser (σ ⊕ β)}
    (h : ∀ a, I a → Forms f (Sum.elim I Q) (step a)) :
    ∀ n a, I a → Forms f Q (Parse.loopFrom step n a) := by
  intro n
  induction n with
  | zero => exact fun _ _ => .exhausted
  | succ n ih =>
    intro a ha s hs
    have hstep := h a ha s hs
    unfold Parse.loopFrom
    cases hrun : step a s with
    | ok r t =>
      rw [hrun] at hstep
      cases r with
      | inl a' =>
        show Outcome.Forms f Q (if _ then _ else _)
        split
        · exact ih a' hstep.2 t hstep.1
        · trivial
      | inr b => exact hstep
    | fail c t =>
      rw [hrun] at hstep
      exact hstep
    | halt w t => trivial

theorem Forms.loop {step : σ → Parser (σ ⊕ β)} {init : σ} (hi : I init)
    (h : ∀ a, I a → Forms f (Sum.elim I Q) (step a)) : Forms f Q (Parse.loop step init) :=
  fun s hs => Forms.loopFrom h _ init hi s hs

end

/-! ## Operations -/

section

variable {f : SourceFile} {α β : Type} {Q : β → Prop}

/-- What is put together from the operations and the parts keeps to the file. -/
theorem Keeps.of_obeys {g : Rules} [hg : g.Orderly] {p : Parser α} {R : α → Know → Prop}
    (h : Obeys g true { rank := partsPerToken } p R) : Keeps p := by
  refine ⟨fun f s hs => ?_⟩
  have hruns := h.runs hg.framed hg.run hs.sound (.nothing partsPerToken s)
  cases hrun : p s with
  | ok a t =>
    rw [hrun] at hruns
    exact ⟨hs.along hruns.1, trivial⟩
  | fail c t =>
    rw [hrun] at hruns
    exact hs.along hruns.1
  | halt w t => trivial

/-- What stretches from a token of the file to the last one consumed begins in the file. -/
theorem Forms.begins {g : Rules} [hg : g.Orderly] {p : Parser Node} {Q : Node → Prop} {q : Bool}
    {k m : Know} {start : Token} (hp : Forms f Q p) (h : Obeys g q k p (Spans m start))
    (hk : k.next = .unknown) (hl : k.last = none) (hs : f.base ≤ start.span.start) :
    Forms f (fun n => Q n ∧ f.base ≤ n.span.start) p := by
  intro s hat
  have hforms := hp s hat
  have hfinds := (h.framed hg.framed (.blank (by simp [hk]) hl) (s := s)).2
  cases hrun : p s with
  | ok n t =>
    rw [hrun] at hforms hfinds
    obtain ⟨k', ⟨-, -, sp, hsp, hspan⟩, hfits⟩ := hfinds
    refine ⟨hforms.1, hforms.2, ?_⟩
    rw [hspan, ← hfits.last sp hsp]
    exact SourceFile.base_le_cover hs hforms.1.last
  | fail c t =>
    rw [hrun] at hforms
    exact hforms
  | halt w t => trivial

/-- It leaves alone what a rule leaves alone. -/
theorem framed_of_obeys {g : Rules} [hg : g.Orderly] {q : Bool} {p : Parser α}
    {R : α → Know → Prop} (h : Obeys g q { rank := partsPerToken } p R) (s : State) :
    (p s).Framed s :=
  (h.framed hg.framed (.blank (by simp) rfl)).1

instance {p : Parser α} {k : α → Parser β} [hp : Keeps p] [hk : ∀ a, Keeps (k a)] :
    Keeps (p >>= k) := ⟨fun f => .skip fun a => (hk a).keeps f⟩

instance {a : α} : Keeps (Pure.pure a : Parser α) := ⟨fun _ => .pure trivial⟩

instance {c : Cause} : Keeps (Parse.fail c : Parser α) := ⟨fun _ => .fail⟩

instance {c : Prop} [Decidable c] {p p' : Parser α} [hp : Keeps p] [hp' : Keeps p'] :
    Keeps (if c then p else p') := ⟨fun f => .branch (hp.keeps f) (hp'.keeps f)⟩

/-! ### Tokens -/

theorem Forms.peek : Forms f (fun t => t.Stands f) Parse.peek := by
  intro s hs
  obtain ⟨t, hrun, ha, -⟩ := hs.sound.peek
  rw [hrun]
  exact ⟨hs.along ha, hs.file ▸ hs.sound.reads.stands⟩

/-- The next token. -/
theorem Forms.peek_then {k : Token → Parser β} (hk : ∀ t, t.Stands f → Forms f Q (k t)) :
    Forms f Q (Parse.peek >>= k) := .bind .peek hk

theorem Forms.advance : Forms f (fun t => t.Lies f) Parse.advance := by
  intro s hs
  obtain ⟨t, hrun, ha, -⟩ := hs.sound.advance
  rw [hrun]
  exact ⟨hs.along ha, hs.file ▸ hs.sound.reads.stands.toLies⟩

/-- The value of `p` is a token of the file. -/
class Fetches (p : Parser Token) : Prop where
  fetches : ∀ f, Forms f (fun t => f.spans t.span = true) p

instance : Fetches Parse.peek := ⟨fun _ => Forms.peek.mono fun _ h => spans_lies h.toLies⟩

instance : Fetches Parse.advance := ⟨fun _ => Forms.advance.mono fun _ h => spans_lies h⟩

instance {p : Parser Token} [hp : Fetches p] : Keeps p :=
  ⟨fun f => (hp.fetches f).mono fun _ _ => trivial⟩

/-- A token of the file. -/
theorem Forms.fetch {p : Parser Token} [hp : Fetches p] {k : Token → Parser β}
    (hk : ∀ t, f.spans t.span = true → Forms f Q (k t)) : Forms f Q (p >>= k) :=
  .bind (hp.fetches f) hk

instance {p : Parser α} {k : α → Parser Token} [hp : Keeps p] [hk : ∀ a, Fetches (k a)] :
    Fetches (p >>= k) := ⟨fun f => .skip fun a => (hk a).fetches f⟩

/-- A token that is kept as the next or the last one is a token of the file. -/
theorem Fetches.of_obeys {g : Rules} [hg : g.Orderly] {p : Parser Token}
    {R : Token → Know → Prop} (h : Obeys g true { rank := partsPerToken } p R)
    (hR : ∀ t m, R t m → m.next = .is t) : Fetches p := by
  refine ⟨fun f s hs => ?_⟩
  have hruns := h.runs hg.framed hg.run hs.sound (.nothing partsPerToken s)
  cases hrun : p s with
  | ok tok t =>
    rw [hrun] at hruns
    obtain ⟨ha, m, hm, hholds⟩ := hruns
    have ht := hs.along ha
    have hahead := (ht.sound.held tok (hholds.next tok (hR tok m hm))).1
    exact ⟨ht, spans_lies (ht.file ▸ hahead.stands.toLies)⟩
  | fail c t =>
    rw [hrun] at hruns
    exact hs.along hruns.1
  | halt w t => trivial

/-- A token is read from its place on, and taken. -/
theorem Forms.retake {read : Lexer → Lexer.Result} (h : ∀ lx : Lexer, lx.file = f →
      (∃ start, lx.Gives start (read lx)) ∧ (read lx).1.kind ≠ .eof) :
    Forms f (fun t => f.spans t.span = true) (lex read >>= consume) := by
  intro s hs
  obtain ⟨⟨start, hgives⟩, hk⟩ := h s.lexer hs.file
  generalize hr : read s.lexer = r at hgives hk
  have hrun : (lex read >>= consume) s =
      .ok r.1 ((State.noteAll { s with lexer := r.2.1 } r.2.2).taken r.1) := by
    have h : (lex read >>= consume) s =
      consume (read s.lexer).1
        (State.noteAll { s with lexer := (read s.lexer).2.1 } (read s.lexer).2.2) := rfl
    rw [h, hr, consume_taken hk]
  rw [hrun]
  have hlies := hgives.lies
  have hb := hlies.base_le
  have ho := hlies.ordered
  have hst := hlies.stop_le
  have hlex : ((State.noteAll { s with lexer := r.2.1 } r.2.2).taken r.1).lexer =
      { s.lexer with offset := r.1.span.stop - s.lexer.file.base, held := none } := by
    rw [← hgives.behind]
    simp [State.taken]
  refine ⟨⟨⟨?_, rfl, .inr ?_, ?_, fun _ => ?_, fun t ht => ?_⟩, ?_⟩, ?_⟩
  · rw [Lexer.InFile, hlex]
    unfold SourceFile.stop at hst
    show r.1.span.stop - s.lexer.file.base ≤ s.lexer.file.content.length
    omega
  · rw [hlex]
    exact hlies
  · rw [hlex]
    exact hst
  · rw [hlex]
    show r.1.span.stop ≤ s.lexer.file.base + (r.1.span.stop - s.lexer.file.base)
    omega
  · rw [hlex] at ht
    cases ht
  · rw [hlex]
    exact hs.file
  · exact spans_lies (hs.file ▸ hlies)

theorem Forms.readRegExp {t : Token} (ht : t.Stands f) (hk : t.kind ≠ .eof) :
    Forms f (fun t => f.spans t.span = true) (Parse.readRegExp t) :=
  .retake fun lx hlx => ⟨⟨_, (Lexer.rereadSlash_gives (hlx ▸ ht) hk).1⟩, by
    rcases rereadSlash_kind lx t with h | h <;> rw [h] <;> simp⟩

theorem Forms.readTemplate {t : Token} (ht : t.Stands f) (hk : t.kind ≠ .eof) :
    Forms f (fun t => f.spans t.span = true) (Parse.readTemplate t) :=
  .retake fun lx hlx => ⟨⟨_, (Lexer.rereadTemplate_gives (hlx ▸ ht) hk).1⟩, by
    rcases rereadTemplate_kind lx t with h | h | h <;> rw [h] <;> simp⟩

theorem Forms.readTagName {t : Token} (ht : t.Stands f) (hk : t.kind.isPropertyName = true) :
    Forms f (fun t => f.spans t.span = true) (Parse.readTagName t) :=
  .retake fun lx hlx => by
    obtain ⟨hgives, hkind, -⟩ := Lexer.rereadTagName_gives (hlx ▸ ht) hk
    exact ⟨⟨_, hgives⟩, by rw [hkind]; simp⟩

theorem consume_value {t u : Token} {s v : State} (h : consume t s = .ok u v) : u = t := by
  unfold consume at h
  split at h
  · exact (Outcome.ok.inj h).1.symm
  · exact (Outcome.ok.inj h).1.symm

instance : Fetches Parse.readChild := by
  refine ⟨fun f s hs => ?_⟩
  obtain ⟨u, t, hrun, ha, -⟩ := hs.sound.readChild
  rw [hrun]
  refine ⟨hs.along ha, ?_⟩
  have hlast : s.lastToken.span.stop ≤ s.lexer.file.stop := by
    rw [hs.sound.last]
    exact hs.sound.inside
  obtain ⟨hgives, -⟩ := Lexer.nextChild_gives s.lexer s.lastToken hlast
  obtain rfl : u = (s.lexer.nextChild s.lastToken).1 := consume_value hrun
  exact spans_lies (hs.file ▸ hgives.lies)

instance : Fetches Parse.peekAttributeValue :=
  .of_obeys (g := rules 0) (.peekAttributeValue (Q := fun t m => m.next = .is t) fun _ => rfl)
    fun _ _ => id

instance : Fetches peekOperator :=
  .of_obeys (g := rules 0) peekOperator_obeys fun t m hm => by rw [hm]

instance {c : Cause} : Fetches (Parse.fail c) := ⟨fun _ => .fail⟩

instance {c : Prop} [Decidable c] {p p' : Parser Token} [hp : Fetches p] [hp' : Fetches p'] :
    Fetches (if c then p else p') := ⟨fun f => .branch (hp.fetches f) (hp'.fetches f)⟩

instance : Keeps Parse.peek2 := ⟨fun _ _ hs => ⟨hs, trivial⟩⟩

instance : Keeps Parse.view := ⟨fun _ _ hs => ⟨hs, trivial⟩⟩

instance {k : TokenKind} : Keeps (at_ k) := inferInstanceAs (Keeps (Parse.peek >>= fun _ => _))

instance {ks : List TokenKind} : Keeps (atAny ks) :=
  inferInstanceAs (Keeps (Parse.peek >>= fun _ => _))

instance {w : String} : Keeps (atWord w) := inferInstanceAs (Keeps (Parse.peek >>= fun _ => _))

instance {k : TokenKind} : Keeps (eat k) := inferInstanceAs (Keeps (at_ k >>= fun _ => _))

instance {w : String} : Keeps (eatWord w) := inferInstanceAs (Keeps (atWord w >>= fun _ => _))

theorem Forms.errorAt {span : Span} {code : Code} {message : Bytes} :
    Forms f (fun _ => True) (Parse.errorAt span code message) := by
  refine .still fun s => ?_
  unfold Parse.errorAt
  dsimp only
  split
  · exact .inr ⟨_, _, rfl⟩
  · refine .inl ⟨_, _, rfl, rfl, ?_, trivial⟩
    unfold State.note
    dsimp only
    split <;> omega

instance {span : Span} {code : Code} {message : Bytes} : Keeps (errorAt span code message) :=
  ⟨fun _ => .errorAt⟩

instance : Keeps errorSpan := inferInstanceAs (Keeps (Parse.peek >>= fun _ => _))

instance {code : Code} {message : Bytes} : Keeps (error code message) :=
  inferInstanceAs (Keeps (errorSpan >>= fun _ => _))

instance {k : TokenKind} {code : Code} {message : String} : Fetches (expect k code message) :=
  inferInstanceAs (Fetches (at_ k >>= fun _ => _))

instance : Fetches expectGreater := inferInstanceAs (Fetches (expect _ _ _))

instance : Fetches expectRParen := inferInstanceAs (Fetches (expect _ _ _))

instance : Fetches expectRBracket := inferInstanceAs (Fetches (expect _ _ _))

instance : Fetches expectRBrace := inferInstanceAs (Fetches (expect _ _ _))

theorem Forms.unexpected {what : Bytes} : Forms f Q (Parse.unexpected what) := by
  refine .skip fun t => ?_
  split <;> exact .skip fun _ => .fail

instance {w : String} : Fetches (expectWord w) :=
  ⟨fun f => .skip fun _ => .branch (Fetches.fetches f) .unexpected⟩

instance {atEnd : Parser Token} [hend : Fetches atEnd] : Fetches (parseTagPart atEnd) := by
  refine ⟨fun f => .peek_then fun t ht => .choose (fun hk => .readTagName ht hk) fun _ => ?_⟩
  exact .branch (hend.fetches f) (.skip fun _ => .fail)

instance : Keeps canEndStatement := inferInstanceAs (Keeps (Parse.peek >>= fun _ => _))

instance : Keeps semicolon := inferInstanceAs (Keeps (eat .semicolon >>= fun _ => _))

/-- What may stand in any rule keeps to the file. -/
theorem Keeps.of_any {p : Parser α} {R : α → Know → Prop}
    (h : Obeys (rules 0) true { rank := partsPerToken } p R) : Keeps p := .of_obeys h

instance {t : Token} : Keeps (addLeading t) :=
    .of_any (.addLeading (Q := fun _ _ => True) (fun h => by cases h) trivial)

instance {t : Token} : Keeps (addDanglingOf t) :=
  .of_any (.addDanglingOf (Q := fun _ _ => True) (fun h => by cases h) trivial)

instance : Keeps addDangling := inferInstanceAs (Keeps (Parse.peek >>= fun _ => _))

instance {lexical : Bool} {n : Node} : Keeps (declare lexical n) :=
  .of_any (.declare (Q := fun _ _ => True) trivial)

instance {lexical : Bool} {ns : List Node} : Keeps (declareAll lexical ns) :=
  .of_any declareAll_obeys

instance {t : Token} : Keeps (requireTypes t) :=
  .of_any (.requireTypes (Q := fun _ _ => True) trivial)

instance {t : Token} : Keeps (checkRuntime t) :=
  inferInstanceAs (Keeps (Parse.view >>= fun _ => _))

instance : Keeps resync := .of_any resync_obeys

instance {ends : Token → Bool} {before : Nat} : Keeps (recover ends before) :=
  inferInstanceAs (Keeps (resync >>= fun _ => _))

/-! ### Spans and nodes -/

/-- The place of the last consumed token. -/
theorem Forms.look {k : View → Parser β} (hk : ∀ v, f.spans v.lastSpan = true → Forms f Q (k v)) :
    Forms f Q (Parse.view >>= k) :=
  .bind (R := fun v => f.spans v.lastSpan = true) (fun _ hs => ⟨hs, hs.last⟩) hk

theorem Forms.spanTo {start : Span} (hs : f.spans start = true) :
    Forms f (fun s => f.spans s = true) (Parse.spanTo start) :=
  .look fun _ hv => .pure (SourceFile.spans_cover hs hv)

theorem Forms.spanTo_then {start : Span} {k : Span → Parser β} (hs : f.spans start = true)
    (hk : ∀ s, f.spans s = true → Forms f Q (k s)) : Forms f Q (Parse.spanTo start >>= k) :=
  .bind (.spanTo hs) hk

theorem Forms.node {Q : Node → Prop} {kind : NodeKind} {start : Span} {kids : List Node}
    (hs : f.spans start = true) (h : ∀ s, f.spans s = true → Q (Node.new kind s kids)) :
    Forms f Q (Parse.node kind start kids) := .spanTo_then hs fun s hs => .pure (h s hs)

theorem Forms.node_then {kind : NodeKind} {start : Span} {kids : List Node} {k : Node → Parser β}
    (hs : f.spans start = true)
    (hk : ∀ s, f.spans s = true → Forms f Q (k (Node.new kind s kids))) :
    Forms f Q (Parse.node kind start kids >>= k) :=
  .bind (R := fun n => ∃ s, f.spans s = true ∧ n = Node.new kind s kids)
    (.node hs fun s hs => ⟨s, hs, rfl⟩) fun _ ⟨s, hs, hn⟩ => hn ▸ hk s hs

/-- A node of types. -/
theorem Forms.grow {kind : NodeKind} {start : Span} {kids : List Node} (hk : kind.isPlain = true)
    (hs : f.spans start = true) (hks : GrownAll f kids) :
    Forms f (Grown f) (Parse.node kind start kids) := .node hs fun _ hs => .new hk hs hks

theorem Forms.grow_then {kind : NodeKind} {start : Span} {kids : List Node} {k : Node → Parser β}
    (hk : kind.isPlain = true) (hs : f.spans start = true) (hks : GrownAll f kids)
    (h : ∀ n, Grown f n → Forms f Q (k n)) : Forms f Q (Parse.node kind start kids >>= k) :=
  .bind (.grow hk hs hks) h

instance {start : Span} : Keeps (Parse.spanTo start) :=
  inferInstanceAs (Keeps (Parse.view >>= fun _ => _))

/-! ### Lists -/

theorem Forms.listUntil {I : List Node → Prop} {close : TokenKind}
    {step : List Node → Parser (List Node)} (h0 : I []) (h : ∀ acc, I acc → Forms f I (step acc)) :
    Forms f I (Parse.listUntil close step) := by
  refine .loop (I := I) h0 fun acc hacc => ?_
  refine .skip fun closed => .skip fun ended => .branch (.leave hacc) ?_
  exact .bind (h acc hacc) fun more hmore => .again hmore

instance {close : TokenKind} {message : String} : Keeps (separator close message) :=
  inferInstanceAs (Keeps (at_ close >>= fun _ => _))

theorem Forms.commaList {p : Place} {close : TokenKind} {message : String} {item : Parser Node}
    (h : Forms f (Formed f p) item) :
    Forms f (FormedAll f p) (Parse.commaList close message item) :=
  .listUntil .nil fun _ hacc => .bind h fun _ hn => .skip fun _ => .pure (hacc.snoc hn)

theorem Forms.growCommas {close : TokenKind} {message : String} {item : Parser Node}
    (h : Forms f (Grown f) item) : Forms f (GrownAll f) (Parse.commaList close message item) :=
  .listUntil grownAll_nil fun _ hacc => .bind h fun _ hn => .skip fun _ => .pure (hacc.snoc hn)

/-- An operator that begins with an opening sign is split. -/
theorem Forms.splitNext {k : Unit → Parser β} (hk : Forms f Q (k ())) :
    Forms f Q (Parse.peek >>= fun t =>
      if (t.kind == .shl || t.kind == .ltEq) = true then splitLess t >>= k else k ()) := by
  have hsplit : Keeps (Parse.peek >>= fun t =>
      if (t.kind == .shl || t.kind == .ltEq) = true then splitLess t else Pure.pure ()) := by
    refine .of_any (R := fun _ _ => True) (.peek_then fun t => ?_)
    split
    · rename_i ht
      simp only [Bool.or_eq_true, beq_iff_eq] at ht
      exact .splitLess rfl ht fun _ _ => trivial
    · exact .pure trivial
  have hrest (t : Token) :
      (if (t.kind == .shl || t.kind == .ltEq) = true then splitLess t >>= k else k ()) =
        (if (t.kind == .shl || t.kind == .ltEq) = true then splitLess t else Pure.pure ()) >>=
          k := by
    split <;> rfl
  simp only [hrest]
  rw [← Parser.bind_assoc]
  exact .skip fun _ => hk

/-! ### Contexts -/

theorem Forms.withNoIn {noIn : Bool} {p : Parser β} (h : Forms f Q p) :
    Forms f Q (Parse.withNoIn noIn p) := .bracket (withNoIn_framing noIn) h

theorem Forms.withIn {p : Parser β} (h : Forms f Q p) : Forms f Q (Parse.withIn p) := h.withNoIn

theorem Forms.inType {p : Parser β} (h : Forms f Q p) : Forms f Q (Parse.inType p) :=
  .bracket inType_framing h

theorem Forms.inAmbient {p : Parser β} (h : Forms f Q p) : Forms f Q (Parse.inAmbient p) :=
  .bracket (ambient_framing (· + 1)) h

theorem Forms.outsideAmbient {p : Parser β} (h : Forms f Q p) :
    Forms f Q (Parse.outsideAmbient p) :=
  .bracket (ambient_framing fun _ => 0) h

theorem Forms.inScope {p : Parser β} (h : Forms f Q p) : Forms f Q (Parse.inScope p) :=
  .bracket inScope_framing h

theorem Forms.inLabel {l : Label} {p : Parser β} (h : Forms f Q p) :
    Forms f Q (Parse.inLabel l p) := .bracket (inLabel_framing l) h

theorem Forms.keepingFunction {change : FunctionContext → FunctionContext} {p : Parser β}
    (h : Forms f Q p) : Forms f Q (Parse.keepingFunction change p) :=
  .bracket (keepingFunction_framing change) h

theorem Forms.inFunction {flags : Flags} {p : Parser β} (h : Forms f Q p) :
    Forms f Q (Parse.inFunction flags p) := .bracket (inFunction_framing flags) h

instance : Keeps isIndexSignature := .of_any isIndexSignature_obeys

end

end ScriptLower.Parse
