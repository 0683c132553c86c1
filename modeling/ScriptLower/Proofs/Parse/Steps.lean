import ScriptLower.Proofs.Parse.Discipline

/-!
# Steps of a rule

The rules of the judgement in the form in which the text of a parser meets them: an operation, and
what is done with its value. Each of the operations that all rules share, such as taking an expected
token or reading a list, is followed once here.
-/

namespace ScriptLower.Parse

open ScriptLower

/-! ## Evident facts -/

/-- A fact that is read off the shape of what it speaks of. -/
class Evident (p : Prop) : Prop where
  proof : p

instance {α : Type} (a : α) : Evident (a = a) := ⟨rfl⟩

instance (p : Prop) : Evident (p → p) := ⟨id⟩

instance {α : Type} (p : Prop) (a : α) : Evident (p → a = a) := ⟨fun _ => rfl⟩

instance {α : Type} (a : α) (p : Prop) : Evident (a = a ∨ p) := ⟨.inl rfl⟩

instance {α : Type} (p : Prop) (a : α) : Evident (p ∨ a = a) := ⟨.inr rfl⟩

/-- Whether a kind is the end of the text. -/
@[reducible] def isEnd : TokenKind → Bool
  | .eof => true
  | _ => false

instance {x : TokenKind} [h : Evident (isEnd x = false)] : Evident (x ≠ .eof) :=
  ⟨fun e => by rw [e] at h; exact Bool.noConfusion h.proof⟩

/-- Whether a part is a construction. -/
@[reducible] def isConstruct : Part → Bool
  | .construct => true
  | _ => false

instance {part : Part} {p : Prop} [h : Evident (isConstruct part = false)] :
    Evident (part = .construct → p) :=
  ⟨fun e => by rw [e] at h; exact Bool.noConfusion h.proof⟩

instance {r : Nat} [h : Evident (Nat.ble r 15 = true)] : Evident (r < partsPerToken) :=
  ⟨Nat.lt_succ_of_le (Nat.le_of_ble_eq_true h.proof)⟩

instance : Evident (partsPerToken - 1 < partsPerToken) := ⟨by decide⟩

instance (part : Part) : Evident (part.rank < partsPerToken) := ⟨part.rank_lt⟩

/-! ## Comparing knowledge -/

theorem Know.Le.refl (k : Know) : k.Le k := ⟨rfl, id, id, .inr rfl, id, .inr rfl, rfl⟩

theorem Know.Le.trans {k m n : Know} (h : k.Le m) (h' : m.Le n) : k.Le n where
  rank := h.rank.trans h'.rank
  moved := h'.moved ∘ h.moved
  cut := h'.cut ∘ h.cut
  next := by
    rcases h.next with e | e
    · exact .inl e
    · rw [e]; exact h'.next
  told := h'.told ∘ h.told
  last := by
    rcases h.last with e | e
    · exact .inl e
    · rw [e]; exact h'.last
  strict := h.strict.trans h'.strict

theorem Know.loose_le (k : Know) : k.loose.Le k := ⟨rfl, id, id, .inl rfl, id, .inl rfl, rfl⟩

instance {k m : Know} [rank : Evident (k.rank = m.rank)]
    [moved : Evident (k.moved = true → m.moved = true)]
    [cut : Evident (k.cut = true → m.cut = true)]
    [next : Evident (k.next = .unknown ∨ k.next = m.next)]
    [told : Evident (k.told = true → m.told = true)]
    [last : Evident (k.last = none ∨ k.last = m.last)] [strict : Evident (k.strict = m.strict)] :
    Evident (k.Le m) :=
  ⟨rank.proof, moved.proof, cut.proof, next.proof, told.proof, last.proof, strict.proof⟩

theorem Know.loose_le_see (k : Know) (t : Token) : k.loose.Le (k.see t) :=
  ⟨rfl, id, id, .inl rfl, id, .inl rfl, rfl⟩

/-- A token of a kind that is not the end of the text can be taken. -/
theorem Know.sees {k : Know} {t : Token} {x : TokenKind} (h : t.kind = x)
    [hx : Evident (x ≠ .eof)] : (k.see t).Sees := ⟨t, rfl, by rw [h]; exact hx.proof⟩

theorem Know.Reads.see {k : Know} {r : Nat} {t : Token} (h : k.Reads r) : (k.see t).Reads r := h

theorem Know.see_of_next {k : Know} {t : Token} (h : k.next = .is t) : k.see t = k := by
  cases k; cases h; rfl

/-- Inside a repetition the same parts may be read as in front of it. -/
theorem Know.Reads.round {k : Know} {r : Nat} (h : k.Reads r)
    [hr : Evident (r < partsPerToken)] : k.round.Reads r := by
  right
  simp only
  split
  · exact hr.proof
  · rcases h with h | h
    · contradiction
    · exact h

section

variable {g : Rules} {q : Bool} {k m m' : Know} {α β σ : Type}

/-! ## One step behind another -/

theorem Obeys.seq {p : Parser α} {f : α → Parser β} {Q : β → Know → Prop}
    (hp : Obeys g q k p (Gives m)) (hf : ∀ a, Obeys g q m (f a) Q) : Obeys g q k (p >>= f) Q :=
  .bind hp fun a _ h => (hf a).forget h

/-- The last step: what is known is at least what is promised. -/
theorem Obeys.done {a : α}
    [h : Evident (m.Le k)] :
    Obeys g q k (Pure.pure a) (Gives m) := .pure h.proof

theorem Obeys.gives {p : Parser α} (hp : Obeys g q k p (Gives m))
    [h : Evident (m'.Le m)] :
    Obeys g q k p (Gives m') := hp.mono fun _ _ h' => h.proof.trans h'

/-- What holds with less known holds with more known. -/
theorem Obeys.keep {p : Parser α} {Q : α → Know → Prop} (hp : Obeys g q m p Q)
    [h : Evident (m.Le k)] :
    Obeys g q k p Q := hp.forget h.proof

/-- What is asked of the recording of comments never changes. -/
theorem Obeys.strictly {p : Parser α} {Q : α → Know → Prop} (h : Obeys g q k p Q) :
    Obeys g q k p fun a m => Q a m ∧ m.strict = k.strict := by
  induction h with
  | pure hQ => exact .pure ⟨hQ, rfl⟩
  | bind _ _ ihp ihf =>
    exact .bind ihp fun a m hm => (ihf a m hm.1).mono fun _ _ h => ⟨h.1, h.2.trans hm.2⟩
  | mono _ hQ ih => exact ih.mono fun a m h => ⟨hQ a m h.1, h.2⟩
  | forget _ hle ih => exact .forget (ih.mono fun _ _ h => ⟨h.1, h.2.trans hle.strict⟩) hle
  | fail hreported hother => exact .fail hreported hother
  | view hQ => exact .view fun v hv => ⟨hQ v hv, rfl⟩
  | peek hQ => exact .peek fun t ht => ⟨hQ t ht, rfl⟩
  | peekAgain hnext hmoved hagain =>
    exact .peekAgain hnext (fun t => ⟨hmoved t, rfl⟩) fun t ht => ⟨hagain t ht, rfl⟩
  | peek2 hQ => exact .peek2 fun t => ⟨hQ t, rfl⟩
  | advance hQ => exact .advance fun t ht => ⟨hQ t ht, rfl⟩
  | splitLess hnext hk hQ => exact .splitLess hnext hk fun u hu => ⟨hQ u hu, rfl⟩
  | joinGreater hnext hk hQ => exact .joinGreater hnext hk fun u hu => ⟨hQ u hu, rfl⟩
  | readRegExp hnext hk hQ => exact .readRegExp hnext hk fun u => ⟨hQ u, rfl⟩
  | readTemplate hnext hk hQ => exact .readTemplate hnext hk fun u => ⟨hQ u, rfl⟩
  | readTagName hnext hk hQ => exact .readTagName hnext hk fun u => ⟨hQ u, rfl⟩
  | readChild hbegun hQ => exact .readChild hbegun fun u => ⟨hQ u, rfl⟩
  | peekAttributeValue hQ => exact .peekAttributeValue fun u => ⟨hQ u, rfl⟩
  | errorAt hQ => exact .errorAt ⟨hQ, rfl⟩
  | addLeading hnext hQ => exact .addLeading hnext ⟨hQ, rfl⟩
  | addDanglingOf hnext hQ => exact .addDanglingOf hnext ⟨hQ, rfl⟩
  | declare hQ => exact .declare ⟨hQ, rfl⟩
  | requireTypes hQ => exact .requireTypes ⟨hQ, rfl⟩
  | part hreads hsees hQ =>
    exact .part hreads hsees fun n m hle he => ⟨hQ n m hle he, hle.strict.symm⟩
  | bracket hfr _ ih => exact .bracket hfr ih
  | loop _ ih =>
    refine .loop fun a => (ih a).mono fun r m h => ?_
    cases r with
    | inl _ => exact h.1
    | inr _ => exact ⟨h.1, rfl⟩
  | attempt _ hnone ih => exact .attempt ih ⟨hnone, rfl⟩
  | speculate _ hnone ih => exact .speculate ih ⟨hnone, rfl⟩
  | lookahead hp hQ _ => exact .lookahead hp fun b => ⟨hQ b, rfl⟩

/-- Behind the parser a token is consumed. -/
def Moves : α → Know → Prop := fun _ m => m.moved = true

theorem Obeys.pure_then {a : α} {f : α → Parser β} {Q : β → Know → Prop}
    (h : Obeys g q k (f a) Q) : Obeys g q k (Pure.pure a >>= f) Q :=
  .bind (R := fun b m => b = a ∧ m = k) (.pure ⟨rfl, rfl⟩) fun b m h' => by
    obtain ⟨rfl, rfl⟩ := h'
    exact h

/-- One of two ways. -/
theorem Obeys.branch {c : Prop} [Decidable c] {p p' : Parser α} {Q : α → Know → Prop}
    (yes : c → Obeys g q k p Q) (no : ¬c → Obeys g q k p' Q) :
    Obeys g q k (if c then p else p') Q := by
  split
  · exact yes ‹_›
  · exact no ‹_›

/-- One of two steps, and then the same in either case. -/
theorem Obeys.either {c : Prop} [Decidable c] {p p' : Parser α} {f : α → Parser β}
    {Q : β → Know → Prop} (yes : c → Obeys g q k p (Gives m)) (no : ¬c → Obeys g q k p' (Gives m))
    (h : ∀ a, Obeys g q m (f a) Q) : Obeys g q k (if c then p >>= f else p' >>= f) Q := by
  split
  · exact .seq (yes ‹_›) h
  · exact .seq (no ‹_›) h

/-! ## Questions -/

theorem Know.Le.endsAt {sp : Span} (h : ∀ sp', k.last = some sp' → sp = sp') :
    k.Le (k.endsAt sp) where
  rank := rfl
  moved := id
  cut := id
  next := .inr rfl
  told := id
  last := by
    cases e : k.last with
    | none => exact .inl rfl
    | some sp' => rw [← h sp' e]; exact .inr rfl
  strict := rfl

theorem Obeys.view_then {f : View → Parser β} {Q : β → Know → Prop}
    (h : ∀ v, Obeys g q k (f v) Q) : Obeys g q k (Parse.view >>= f) Q := by
  refine .bind (R := fun _ m => k.Le m) (.view fun v hv => ?_) fun v m hm => (h v).forget hm
  exact Know.Le.endsAt hv

theorem Obeys.peek_then {f : Token → Parser β} {Q : β → Know → Prop}
    (h : ∀ t, Obeys g q (k.see t) (f t) Q) : Obeys g q k (Parse.peek >>= f) Q := by
  refine .bind (R := fun t m => m = k.see t) (.peek fun _ _ => rfl) ?_
  rintro t m rfl
  exact h t

/-- A token that has been looked at is still the next one. -/
theorem Obeys.peek_seen {t : Token} {f : Token → Parser β} {Q : β → Know → Prop}
    (ht : k.next = .is t) (h : Obeys g q k (f t) Q) : Obeys g q k (Parse.peek >>= f) Q := by
  refine .bind (R := fun u m => u = t ∧ m = k) (.peek fun u hu => ?_) ?_
  · obtain rfl := hu t ht
    exact ⟨rfl, Know.see_of_next ht⟩
  · rintro u m ⟨rfl, rfl⟩
    exact h

theorem Obeys.peek2_then {f : Token → Parser β} {Q : β → Know → Prop}
    (h : ∀ t, Obeys g q k (f t) Q) : Obeys g q k (Parse.peek2 >>= f) Q := by
  refine .bind (R := fun _ m => m = k) (.peek2 fun _ => rfl) ?_
  rintro t m rfl
  exact h t

theorem Obeys.at_ask {x : TokenKind} {f : Bool → Parser β} {Q : β → Know → Prop}
    (h : ∀ t : Token, Obeys g q (k.see t) (f (t.kind == x)) Q) : Obeys g q k (at_ x >>= f) Q := by
  refine .bind (R := fun b m => ∃ t : Token, m = k.see t ∧ b = (t.kind == x)) ?_ ?_
  · exact .peek_then fun t => .pure ⟨t, rfl, rfl⟩
  · rintro b m ⟨t, rfl, rfl⟩
    exact h t

theorem Obeys.at_then {x : TokenKind} {f : Bool → Parser β} {Q : β → Know → Prop}
    (yes : ∀ t, t.kind = x → Obeys g q (k.see t) (f true) Q)
    (no : ∀ t, t.kind ≠ x → Obeys g q (k.see t) (f false) Q) : Obeys g q k (at_ x >>= f) Q := by
  refine .at_ask fun t => ?_
  by_cases ht : t.kind = x
  · rw [beq_iff_eq.2 ht]; exact yes t ht
  · rw [beq_false_of_ne ht]; exact no t ht

/-- The last step is a question. -/
theorem Obeys.at_last {x : TokenKind} {Q : Bool → Know → Prop}
    (h : ∀ t : Token, Q (t.kind == x) (k.see t)) : Obeys g q k (at_ x) Q :=
  .peek_then fun t => .pure (h t)

theorem Obeys.at_either {x : TokenKind} {p p' : Parser α} {f : α → Parser β} {Q : β → Know → Prop}
    (yes : ∀ t, t.kind = x → Obeys g q (k.see t) p (Gives m))
    (no : ∀ t, t.kind ≠ x → Obeys g q (k.see t) p' (Gives m)) (h : ∀ a, Obeys g q m (f a) Q) :
    Obeys g q k (at_ x >>= fun b => if b = true then p >>= f else p' >>= f) Q :=
  .at_then (fun t ht => .seq (yes t ht) h) fun t ht => .seq (no t ht) h

theorem Obeys.at_seen {t : Token} {x : TokenKind} {f : Bool → Parser β} {Q : β → Know → Prop}
    (ht : k.next = .is t) (h : Obeys g q k (f (t.kind == x)) Q) : Obeys g q k (at_ x >>= f) Q := by
  refine .bind (R := fun b m => b = (t.kind == x) ∧ m = k) (.peek_seen ht (.pure ⟨rfl, rfl⟩)) ?_
  rintro b m ⟨rfl, rfl⟩
  exact h

theorem Obeys.atAny_then {xs : List TokenKind} {f : Bool → Parser β} {Q : β → Know → Prop}
    (h : ∀ t : Token, Obeys g q (k.see t) (f (xs.contains t.kind)) Q) :
    Obeys g q k (atAny xs >>= f) Q := by
  refine .bind (R := fun b m => ∃ t : Token, m = k.see t ∧ b = xs.contains t.kind) ?_ ?_
  · exact .peek_then fun t => .pure ⟨t, rfl, rfl⟩
  · rintro b m ⟨t, rfl, rfl⟩
    exact h t

/-- A contextual keyword is a token. -/
theorem Token.kind_of_is {t : Token} {w : String} (h : t.is w = true) : t.kind = .ident := by
  simp only [Token.is, Bool.and_eq_true, beq_iff_eq] at h
  exact h.1.1

theorem Obeys.atWord_then {w : String} {f : Bool → Parser β} {Q : β → Know → Prop}
    (yes : ∀ t, t.kind = .ident → Obeys g q (k.see t) (f true) Q)
    (no : ∀ t, Obeys g q (k.see t) (f false) Q) : Obeys g q k (atWord w >>= f) Q := by
  refine .bind (R := fun b m => ∃ t : Token, m = k.see t ∧ b = t.is w) ?_ ?_
  · exact .peek_then fun t => .pure ⟨t, rfl, rfl⟩
  · rintro b m ⟨t, rfl, rfl⟩
    cases ht : t.is w with
    | true => exact yes t (Token.kind_of_is ht)
    | false => exact no t

theorem Obeys.atWord_ask {w : String} {f : Bool → Parser β} {Q : β → Know → Prop}
    (h : ∀ t : Token, Obeys g q (k.see t) (f (t.is w)) Q) : Obeys g q k (atWord w >>= f) Q := by
  refine .bind (R := fun b m => ∃ t : Token, m = k.see t ∧ b = t.is w) ?_ ?_
  · exact .peek_then fun t => .pure ⟨t, rfl, rfl⟩
  · rintro b m ⟨t, rfl, rfl⟩
    exact h t

/-! ## Taking tokens -/

theorem Obeys.advance_seen {t : Token} {f : Token → Parser β} {Q : β → Know → Prop}
    (ht : k.next = .is t) (he : t.kind ≠ .eof) (h : Obeys g q (k.past.endsAt t.span) (f t) Q) :
    Obeys g q k (Parse.advance >>= f) Q := by
  refine .bind (R := fun u m => u = t ∧ (k.past.endsAt t.span).Le m) (.advance fun u hu => ?_) ?_
  · obtain rfl := hu t ht
    refine ⟨rfl, rfl, fun _ => ?_, id, .inl rfl, fun h => ?_, .inr ?_, rfl⟩
    · simp [Know.take, he]
    · simp [Know.take, show k.told = true from h]
    · simp [Know.take, he]
  · rintro u m ⟨rfl, hm⟩
    exact h.forget hm

/-- A rule takes the token it begins with. -/
theorem Obeys.start_then {t : Token} {f : Token → Parser β} {Q : β → Know → Prop}
    (ht : k.next = .is t) (he : t.kind ≠ .eof) (h : Obeys g q k.past (f t) Q) :
    Obeys g q k (Parse.advance >>= f) Q := .advance_seen ht he h.keep

theorem Obeys.advance_then {f : Token → Parser β} {Q : β → Know → Prop} (hs : k.Sees)
    (h : ∀ t, Obeys g q k.past (f t) Q) : Obeys g q k (Parse.advance >>= f) Q := by
  obtain ⟨t, ht, he⟩ := hs
  exact .start_then ht he (h t)

/-- Takes a token of which nothing is known. At the end of the text nothing is consumed. -/
theorem Obeys.advance_any {f : Token → Parser β} {Q : β → Know → Prop}
    (h : ∀ t, Obeys g q k.loose (f t) Q) : Obeys g q k (Parse.advance >>= f) Q := by
  refine .bind (R := fun _ m => k.loose.Le m) (.advance fun t _ => ?_) fun t m hm => (h t).forget hm
  refine ⟨rfl, fun h => ?_, id, .inl rfl, fun h => ?_, .inl rfl, rfl⟩
  · simp [Know.take, show k.moved = true from h]
  · simp [Know.take, show k.told = true from h]

theorem advance_obeys (hs : k.Sees) : Obeys g q k advance (Gives k.past) := by
  obtain ⟨t, ht, he⟩ := hs
  refine .advance fun u hu => ?_
  obtain rfl := hu t ht
  refine ⟨rfl, fun _ => ?_, id, .inl rfl, fun h => ?_, .inl rfl, rfl⟩
  · simp [Know.take, he]
  · simp [Know.take, show k.told = true from h]

/-- Behind a token that may be taken: it is consumed, or another one is next. -/
def Taken (k : Know) (x : TokenKind) : Bool → Know → Prop
  | true, m => k.past.Le m
  | false, m => ∃ t : Token, t.kind ≠ x ∧ m = k.see t

theorem Taken.loose {x : TokenKind} {b : Bool} (h : Taken k x b m) : k.loose.Le m := by
  cases b with
  | true => exact .trans (m := k.past) ⟨rfl, fun _ => rfl, id, .inl rfl, id, .inl rfl, rfl⟩ h
  | false =>
    obtain ⟨t, -, rfl⟩ := h
    exact k.loose_le_see t

theorem eat_obeys {x : TokenKind} [hx : Evident (x ≠ .eof)] :
    Obeys g q k (eat x) (Taken k x) := by
  refine .at_then (fun t ht => ?_) fun t ht => .pure ⟨t, ht, rfl⟩
  exact .advance_then (Know.sees ht) fun _ => .pure (Know.Le.refl k.past)

theorem Obeys.eat_then {x : TokenKind} {f : Bool → Parser β} {Q : β → Know → Prop}
    (yes : Obeys g q k.past (f true) Q)
    (no : ∀ t, t.kind ≠ x → Obeys g q (k.see t) (f false) Q) [hx : Evident (x ≠ .eof)] :
    Obeys g q k (eat x >>= f) Q := by
  refine .bind eat_obeys ?_
  rintro (_ | _) m hm
  · obtain ⟨t, ht, rfl⟩ := hm
    exact no t ht
  · exact yes.forget hm

/-- Whether the token is there or not, the same follows. -/
theorem Obeys.eat_any {x : TokenKind} {f : Bool → Parser β} {Q : β → Know → Prop}
    (h : ∀ b, Obeys g q k.loose (f b) Q) [hx : Evident (x ≠ .eof)] :
    Obeys g q k (eat x >>= f) Q := .bind eat_obeys fun b _ hm => (h b).forget hm.loose

theorem Obeys.eat_either {x : TokenKind} {p p' : Parser α} {f : α → Parser β} {Q : β → Know → Prop}
    (yes : Obeys g q k.past p (Gives m)) (no : ∀ t, t.kind ≠ x → Obeys g q (k.see t) p' (Gives m))
    (h : ∀ a, Obeys g q m (f a) Q) [hx : Evident (x ≠ .eof)] :
    Obeys g q k (eat x >>= fun b => if b = true then p >>= f else p' >>= f) Q :=
  .eat_then (.seq yes h) fun t ht => .seq (no t ht) h

theorem Obeys.eatWord_then {w : String} {f : Bool → Parser β} {Q : β → Know → Prop}
    (yes : Obeys g q k.past (f true) Q) (no : ∀ t, Obeys g q (k.see t) (f false) Q) :
    Obeys g q k (eatWord w >>= f) Q := by
  refine .bind (R := fun b m => match b with
    | true => k.past.Le m
    | false => ∃ t : Token, m = k.see t) ?_ ?_
  · refine .atWord_then (fun t ht => ?_) fun t => .pure ⟨t, rfl⟩
    exact .advance_then (Know.sees ht) fun _ => .pure (Know.Le.refl _)
  · rintro (_ | _) m hm
    · obtain ⟨t, rfl⟩ := hm
      exact no t
    · exact yes.forget hm

theorem Obeys.eatWord_any {w : String} {f : Bool → Parser β} {Q : β → Know → Prop}
    (h : ∀ b, Obeys g q k.loose (f b) Q) : Obeys g q k (eatWord w >>= f) Q :=
  .eatWord_then ((h true).forget ⟨rfl, fun _ => rfl, id, .inl rfl, id, .inl rfl, rfl⟩)
    fun t => (h false).forget (k.loose_le_see t)

theorem Obeys.eatWord_either {w : String} {p p' : Parser α} {f : α → Parser β}
    {Q : β → Know → Prop} (yes : Obeys g q k.past p (Gives m))
    (no : ∀ t, Obeys g q (k.see t) p' (Gives m)) (h : ∀ a, Obeys g q m (f a) Q) :
    Obeys g q k (eatWord w >>= fun b => if b = true then p >>= f else p' >>= f) Q :=
  .eatWord_then (.seq yes h) fun t => .seq (no t) h

/-! ## Reporting and failing -/

theorem Obeys.errorAt_then {span : Span} {code : Code} {message : Bytes} {f : Unit → Parser β}
    {Q : β → Know → Prop} (h : Obeys g q k.tell (f ()) Q) :
    Obeys g q k (Parse.errorAt span code message >>= f) Q := by
  refine .bind (R := fun _ m => m = k.tell) (.errorAt rfl) ?_
  rintro _ m rfl
  exact h

/-- Fails behind a report. -/
theorem Obeys.refuse {Q : α → Know → Prop} [h : Evident (k.told = true)] :
    Obeys g q k (Parse.fail .reported) Q := .fail (fun _ => h.proof) (by simp)

theorem Obeys.refuse_then {f : α → Parser β} {Q : β → Know → Prop} [h : Evident (k.told = true)] :
    Obeys g q k (Parse.fail .reported >>= f) Q :=
  .bind (R := fun _ _ => False) .refuse fun _ _ h => h.elim

theorem errorSpan_obeys : Obeys g q k errorSpan fun _ m => ∃ t, (∀ u, k.next = .is u → t = u) ∧
    (k.see t).Le m := by
  refine .bind (R := fun t m => m = k.see t ∧ ∀ u, k.next = .is u → t = u)
    (.peek fun t ht => ⟨rfl, ht⟩) ?_
  rintro t m ⟨rfl, ht⟩
  refine .view_then fun v => ?_
  split <;> exact .pure ⟨t, ht, Know.Le.refl _⟩

theorem Obeys.error_then {code : Code} {message : Bytes} {f : Unit → Parser β}
    {Q : β → Know → Prop} (h : Obeys g q k.loose.tell (f ()) Q) :
    Obeys g q k (error code message >>= f) Q := by
  refine .bind (R := fun _ m => k.loose.tell.Le m) ?_ fun _ _ hm => h.forget hm
  refine .bind errorSpan_obeys ?_
  rintro sp m ⟨t, -, hm⟩
  refine .errorAt ?_
  exact ⟨hm.rank, hm.moved, hm.cut, .inl rfl, fun _ => rfl, .inl rfl, hm.strict⟩

/-- An error at a token that has been looked at leaves it the next one. -/
theorem Obeys.error_seen {t : Token} {code : Code} {message : Bytes} {f : Unit → Parser β}
    {Q : β → Know → Prop} (ht : k.next = .is t) (h : Obeys g q k.tell (f ()) Q) :
    Obeys g q k (error code message >>= f) Q := by
  refine .bind (R := fun _ m => k.tell.Le m) ?_ fun _ _ hm => h.forget hm
  refine .bind errorSpan_obeys ?_
  rintro sp m ⟨u, hu, hm⟩
  obtain rfl := hu t ht
  rw [Know.see_of_next ht] at hm
  exact .errorAt ⟨hm.rank, hm.moved, hm.cut, hm.next, fun _ => rfl, hm.last, hm.strict⟩

theorem unexpected_obeys {what : Bytes} {Q : α → Know → Prop} :
    Obeys g q k (unexpected what) Q := by
  refine .peek_then fun t => ?_
  split
  · exact .error_then .refuse
  · exact .error_then .refuse

theorem Obeys.unexpected_then {what : Bytes} {f : α → Parser β} {Q : β → Know → Prop} :
    Obeys g q k (unexpected what >>= f) Q :=
  .bind (R := fun _ _ => False) unexpected_obeys fun _ _ h => h.elim

/-- An expected token that has been looked at is the token taken. -/
theorem Obeys.expect_seen {t : Token} {x : TokenKind} {code : Code} {message : String}
    {f : Token → Parser β} {Q : β → Know → Prop} (ht : k.next = .is t)
    (h : t.kind = x → Obeys g q (k.past.endsAt t.span) (f t) Q) [hx : Evident (x ≠ .eof)] :
    Obeys g q k (expect x code message >>= f) Q := by
  refine .bind (R := fun u m => u = t ∧ t.kind = x ∧ (k.past.endsAt t.span).Le m) ?_ ?_
  · refine .at_seen ht ?_
    split
    · rename_i hk
      rw [beq_iff_eq] at hk
      refine .advance fun u hu => ?_
      obtain rfl := hu t ht
      refine ⟨rfl, hk, rfl, fun _ => ?_, id, .inl rfl, fun h => ?_, .inr ?_, rfl⟩
      · simp [Know.take, hk, hx.proof]
      · simp [Know.take, show k.told = true from h]
      · simp [Know.take, hk, hx.proof]
    · refine .peek_then fun u => ?_
      refine .bind errorSpan_obeys fun sp m _ => ?_
      exact .errorAt_then .refuse
  · rintro u m ⟨rfl, hk, hm⟩
    exact (h hk).forget hm

theorem expect_obeys {x : TokenKind} {code : Code} {message : String}
    [hx : Evident (x ≠ .eof)] : Obeys g q k (expect x code message) (Gives k.past) := by
  refine .at_then (fun t ht => ?_) fun t _ => ?_
  · exact advance_obeys (Know.sees ht)
  · refine .peek_then fun u => ?_
    refine .bind errorSpan_obeys fun sp m _ => ?_
    exact .errorAt_then .refuse

theorem Obeys.expect_then {x : TokenKind} {code : Code} {message : String} {f : Token → Parser β}
    {Q : β → Know → Prop} (h : ∀ t, Obeys g q k.past (f t) Q) [hx : Evident (x ≠ .eof)] :
    Obeys g q k (expect x code message >>= f) Q := .seq expect_obeys h

theorem expectWord_obeys {w : String} : Obeys g q k (expectWord w) (Gives k.past) :=
  .atWord_then (fun _ ht => advance_obeys (Know.sees ht)) fun _ => unexpected_obeys

theorem canEndStatement_obeys : Obeys g q k canEndStatement fun _ m => ∃ t, m = k.see t :=
  .peek_then fun t => .pure ⟨t, rfl⟩

theorem semicolon_obeys : Obeys g q k semicolon (Gives k.loose) := by
  refine .eat_then .done fun t _ => ?_
  refine .peek_then fun u => ?_
  split
  · exact .done
  · exact .error_then .refuse

theorem Obeys.semicolon_then {f : Unit → Parser β} {Q : β → Know → Prop}
    (h : Obeys g q k.loose (f ()) Q) : Obeys g q k (semicolon >>= f) Q :=
  .seq semicolon_obeys fun _ => h

/-! ## Nodes -/

theorem Obeys.spanTo_then {start : Span} {f : Span → Parser β} {Q : β → Know → Prop}
    (h : ∀ sp, Obeys g q k (f sp) Q) : Obeys g q k (spanTo start >>= f) Q := by
  refine .bind (R := fun _ m => k.Le m) ?_ fun sp m hm => (h sp).forget hm
  exact .view_then fun v => .pure (Know.Le.refl k)

theorem Obeys.node_then {kind : NodeKind} {start : Span} {kids : List Node} {f : Node → Parser β}
    {Q : β → Know → Prop} (h : ∀ n, Obeys g q k (f n) Q) :
    Obeys g q k (node kind start kids >>= f) Q := by
  refine .bind (R := fun _ m => m = k) (.spanTo_then fun _ => .pure rfl) ?_
  rintro n m rfl
  exact h n

theorem node_obeys {kind : NodeKind} {start : Span} {kids : List Node}
    [h : Evident (m.Le k)] :
    Obeys g q k (node kind start kids) (Gives m) := .spanTo_then fun _ => .done

/-- The span up to the last consumed token. -/
theorem Obeys.spanTo_ends {start : Span} {f : Span → Parser β} {Q : β → Know → Prop}
    (h : ∀ sp, Obeys g q (k.endsAt sp) (f (start.cover sp)) Q) :
    Obeys g q k (spanTo start >>= f) Q := by
  refine .bind (R := fun sp m => ∃ sp', m = k.endsAt sp' ∧ sp = start.cover sp') ?_ ?_
  · refine .bind (R := fun v m => m = k.endsAt v.lastSpan) (.view fun _ _ => rfl) ?_
    rintro v m rfl
    exact .pure ⟨v.lastSpan, rfl, rfl⟩
  · rintro sp m ⟨sp', rfl, rfl⟩
    exact h sp'

/-- A node that is made here stretches up to here. -/
theorem Obeys.node_ends {kind : NodeKind} {start : Token} {kids : List Node} {f : Node → Parser β}
    {Q : β → Know → Prop}
    (h : ∀ n sp, n.isPresent = true → n.kind = kind → n.span = start.span.cover sp →
      Obeys g q (k.endsAt sp) (f n) Q) :
    Obeys g q k (node kind start.span kids >>= f) Q := by
  refine .bind (R := fun n m => ∃ sp, m = k.endsAt sp ∧ n.isPresent = true ∧ n.kind = kind ∧
    n.span = start.span.cover sp) (.spanTo_ends fun sp => .pure ⟨sp, rfl, rfl, rfl, rfl⟩) ?_
  rintro n m ⟨sp, rfl, hp, hk, hn⟩
  exact h n sp hp hk hn

/-- The last step makes the node. -/
theorem node_spans {kind : NodeKind} {start : Token} {kids : List Node}
    [h : ∀ sp, Evident (m.Le (k.endsAt sp))] :
    Obeys g q k (node kind start.span kids) (Spans m start) :=
  .spanTo_ends fun sp => .pure ⟨(h sp).proof, rfl, sp, rfl, rfl⟩

/-- The last steps make the node and set its slots. -/
theorem Obeys.node_finish {kind : NodeKind} {start : Token} {kids : List Node} {f : Node → Node}
    (hf : ∀ n, (f n).isPresent = n.isPresent ∧ (f n).span = n.span)
    [h : ∀ sp, Evident (m.Le (k.endsAt sp))] :
    Obeys g q k (node kind start.span kids >>= fun n => Pure.pure (f n)) (Spans m start) := by
  refine .node_ends fun n sp hn _ hs' => .pure ⟨(h sp).proof, ?_, sp, rfl, ?_⟩
  · rw [(hf n).1, hn]
  · rw [(hf n).2, hs']

theorem Obeys.spans {p : Parser Node} {start : Token} (h : Obeys g q k p (Spans m start)) :
    Obeys g q k p (Gives m) := h.mono fun _ _ h => h.1

/-! ## Effects -/

theorem Obeys.addLeading_then {t : Token} {f : Unit → Parser β} {Q : β → Know → Prop}
    (h : Obeys g q k (f ()) Q) [ht : Evident (k.next = .is t)] :
    Obeys g q k (Parse.addLeading t >>= f) Q :=
  .bind (R := fun _ m => m = k) (.addLeading (fun _ => ht.proof) rfl) fun _ _ e => e ▸ h

theorem Obeys.addDangling_then {f : Unit → Parser β} {Q : β → Know → Prop}
    (h : ∀ t, Obeys g q (k.see t) (f ()) Q) : Obeys g q k (addDangling >>= f) Q := by
  refine .bind (R := fun _ m => ∃ t, m = k.see t)
    (.peek_then fun t => .addDanglingOf (fun _ => rfl) ⟨t, rfl⟩) ?_
  rintro _ m ⟨t, rfl⟩
  exact h t

theorem Obeys.declare_then {lexical : Bool} {n : Node} {f : Unit → Parser β} {Q : β → Know → Prop}
    (h : Obeys g q k (f ()) Q) : Obeys g q k (Parse.declare lexical n >>= f) Q :=
  .bind (R := fun _ m => m = k) (.declare rfl) fun _ _ e => e ▸ h

theorem declareAll_obeys {lexical : Bool} {ns : List Node} :
    Obeys g q k (declareAll lexical ns) (Gives k) := by
  induction ns with
  | nil => exact .pure (Know.Le.refl k)
  | cons n ns ih => exact .declare_then ih

theorem Obeys.requireTypes_then {t : Token} {f : Unit → Parser β} {Q : β → Know → Prop}
    (h : Obeys g q k (f ()) Q) : Obeys g q k (Parse.requireTypes t >>= f) Q :=
  .bind (R := fun _ m => m = k) (.requireTypes rfl) fun _ _ e => e ▸ h

theorem checkRuntime_obeys {t : Token} : Obeys g q k (checkRuntime t) (Gives k) := by
  refine .view_then fun v => ?_
  split
  · exact .errorAt ⟨rfl, id, id, .inr rfl, fun _ => rfl, .inr rfl, rfl⟩
  · exact .pure (Know.Le.refl k)

theorem Obeys.checkRuntime_then {t : Token} {f : Unit → Parser β} {Q : β → Know → Prop}
    (h : Obeys g q k (f ()) Q) : Obeys g q k (checkRuntime t >>= f) Q :=
  .seq checkRuntime_obeys fun _ => h

/-! ## Contexts -/

theorem withNoIn_framing (b : Bool) :
    Framing (fun s => { s with noIn := b }) fun s t => { t with noIn := s.noIn } where
  enter_eq _ := rfl
  enter_view s s' h := by simp_all [State.view]
  leave_eq _ _ := rfl
  leave_back _ _ h _ h₁ h₂ h₃ := ⟨h, rfl, h₁, h₂, h₃⟩
  scopes_eq := .inl ⟨fun _ => rfl, fun _ _ => rfl⟩

theorem inType_framing :
    Framing (fun s => { s with typeDepth := s.typeDepth + 1 })
      fun s t => { t with typeDepth := s.typeDepth } where
  enter_eq _ := rfl
  enter_view s s' h := by simp_all [State.view]
  leave_eq _ _ := rfl
  leave_back _ _ h h₁ _ h₂ h₃ := ⟨h, h₁, rfl, h₂, h₃⟩
  scopes_eq := .inl ⟨fun _ => rfl, fun _ _ => rfl⟩

/-- The number of enclosing ambient declarations is changed and set back. -/
theorem ambient_framing (f : Nat → Nat) :
    Framing (fun s => { s with ambient := f s.ambient }) fun s t =>
    { t with ambient := s.ambient } where
  enter_eq _ := rfl
  enter_view s s' h := by simp_all [State.view]
  leave_eq _ _ := rfl
  leave_back _ _ h h₁ h₂ _ h₃ := ⟨h, h₁, h₂, rfl, h₃⟩
  scopes_eq := .inl ⟨fun _ => rfl, fun _ _ => rfl⟩

theorem inScope_framing :
    Framing (fun s => { s with scopes := [] :: s.scopes })
      fun _ t => { t with scopes := t.scopes.tail } where
  enter_eq _ := rfl
  enter_view _ _ h := h
  leave_eq _ _ := rfl
  leave_back _ _ h h₁ h₂ h₃ h₄ := ⟨h, h₁, h₂, h₃, h₄⟩
  scopes_eq := .inr ⟨fun _ => rfl, fun _ _ => rfl⟩

theorem inLabel_framing (l : Label) :
    Framing (fun s => { s with labels := l :: s.labels }) fun s t =>
    { t with labels := s.labels } where
  enter_eq _ := rfl
  enter_view s s' h := by simp_all [State.view]
  leave_eq _ _ := rfl
  leave_back _ _ h h₁ h₂ h₃ _ := ⟨h, h₁, h₂, h₃, rfl⟩
  scopes_eq := .inl ⟨fun _ => rfl, fun _ _ => rfl⟩

theorem keepingFunction_framing (change : FunctionContext → FunctionContext) :
    Framing (fun s => { s with fn := change s.fn }) fun s t => { t with fn := s.fn } where
  enter_eq _ := rfl
  enter_view s s' h := by simp_all [State.view]
  leave_eq _ _ := rfl
  leave_back _ _ _ h h₁ h₂ h₃ := ⟨rfl, h, h₁, h₂, h₃⟩
  scopes_eq := .inl ⟨fun _ => rfl, fun _ _ => rfl⟩

theorem inFunction_framing (flags : Flags) :
    Framing
      (fun s => { s with
        fn := { async := flags.async, generator := flags.generator, inFunction := true,
                inClass := s.fn.inClass }
        labels := []
        noIn := false
        scopes := [] :: s.scopes })
      fun s t => { t with fn := s.fn, labels := s.labels, noIn := s.noIn, scopes := t.scopes.tail }
        where
  enter_eq _ := rfl
  enter_view s s' h := by simp_all [State.view]
  leave_eq _ _ := rfl
  leave_back _ _ _ _ h h₁ _ := ⟨rfl, rfl, h, h₁, rfl⟩
  scopes_eq := .inr ⟨fun _ => rfl, fun _ _ => rfl⟩

section

variable {p : Parser α} {Q : α → Know → Prop}

theorem Obeys.withNoIn {b : Bool} (h : Obeys g q k p Q) : Obeys g q k (Parse.withNoIn b p) Q :=
  .bracket (withNoIn_framing b) h

theorem Obeys.withIn (h : Obeys g q k p Q) : Obeys g q k (Parse.withIn p) Q := h.withNoIn

theorem Obeys.withoutIn (h : Obeys g q k p Q) : Obeys g q k (Parse.withoutIn p) Q := h.withNoIn

theorem Obeys.inType (h : Obeys g q k p Q) : Obeys g q k (Parse.inType p) Q :=
  .bracket inType_framing h

theorem Obeys.inAmbient (h : Obeys g q k p Q) : Obeys g q k (Parse.inAmbient p) Q :=
  .bracket (ambient_framing (· + 1)) h

theorem Obeys.outsideAmbient (h : Obeys g q k p Q) : Obeys g q k (Parse.outsideAmbient p) Q :=
  .bracket (ambient_framing fun _ => 0) h

theorem Obeys.inScope (h : Obeys g q k p Q) : Obeys g q k (Parse.inScope p) Q :=
  .bracket inScope_framing h

theorem Obeys.inLabel {l : Label} (h : Obeys g q k p Q) : Obeys g q k (Parse.inLabel l p) Q :=
  .bracket (inLabel_framing l) h

theorem Obeys.keepingFunction {change : FunctionContext → FunctionContext}
    (h : Obeys g q k p Q) : Obeys g q k (Parse.keepingFunction change p) Q :=
  .bracket (keepingFunction_framing change) h

theorem Obeys.inFunction {flags : Flags} (h : Obeys g q k p Q) :
    Obeys g q k (Parse.inFunction flags p) Q := .bracket (inFunction_framing flags) h

end

/-! ## Parts of the grammar -/

theorem part_obeys {part : Part} (h : k.Reads part.rank)
    [hc : Evident (part = .construct → k.Sees)] : Obeys g q k (g part) (Gives k.past) :=
  .part h hc.proof fun _ _ hm _ => hm

theorem Obeys.part_then {part : Part} {f : Node → Parser β} {Q : β → Know → Prop}
    (h : k.Reads part.rank) (hf : ∀ n, Obeys g q k.past (f n) Q)
    [hc : Evident (part = .construct → k.Sees)] : Obeys g q k (g part >>= f) Q :=
  .seq (part_obeys h) hf

/-! ## Repetitions -/

/-- A round of a repetition ends well: another one follows only behind a consumed token, and the
last one leaves at least `exit`. -/
def Turns (exit : Know) : σ ⊕ α → Know → Prop
  | .inl _, m => m.moved = true ∨ m.cut = true
  | .inr _, m => exit.Le m

theorem Obeys.again {a : σ} [h : Evident (k.moved = true)] :
    Obeys g q k (Pure.pure (Sum.inl a : σ ⊕ α)) (Turns m) := .pure (.inl h.proof)

theorem Obeys.leave {b : α}
    [h : Evident (m.Le k)] :
    Obeys g q k (Pure.pure (Sum.inr b : σ ⊕ α)) (Turns m) := .pure h.proof

theorem Obeys.repeat {step : σ → Parser (σ ⊕ α)} {init : σ}
    (h : ∀ a, Obeys g q k.round (step a) (Turns k.round)) :
    Obeys g q k (Parse.loop step init) (Gives k.loose) := by
  refine .loop fun a => (h a).mono ?_
  rintro (_ | b) m hm
  · exact hm
  · refine ⟨rfl, fun h => ?_, id, .inl rfl, hm.told, .inl rfl, rfl⟩
    simp [Know.behind, show k.moved = true from h]

/-- A repetition whose last round, too, consumes a token. -/
theorem Obeys.repeat_past {step : σ → Parser (σ ⊕ α)} {init : σ}
    (h : ∀ a, Obeys g q k.round (step a) (Turns k.round.past)) :
    Obeys g q k (Parse.loop step init) (Gives k.past) := by
  refine .loop fun a => (h a).mono ?_
  rintro (_ | b) m hm
  · exact hm
  · refine ⟨rfl, fun _ => ?_, id, .inl rfl, hm.told, .inl rfl, rfl⟩
    simp [Know.behind, hm.moved rfl]

theorem listUntil_obeys {close : TokenKind} {step : List α → Parser (List α)}
    (h : ∀ xs t, t.kind ≠ close → t.kind ≠ .eof → Obeys g q (k.round.see t) (step xs) Moves) :
    Obeys g q k (listUntil close step) (Gives k.loose) := by
  refine .repeat fun xs => ?_
  refine .at_then (fun t ht => ?_) fun t ht => ?_
  · exact .at_seen rfl .leave
  · refine .at_seen rfl ?_
    split
    · exact .leave
    · rename_i he
      refine .bind (h xs t ht fun h => he ?_) fun _ m hm => .pure (.inl hm)
      simp [h]

theorem separator_obeys {close : TokenKind} {message : String} :
    Obeys g q k (separator close message) (Gives k.loose) :=
  .at_then (fun _ _ => .done) fun _ _ => .expect_then fun _ => .done

theorem commaList_obeys {close : TokenKind} {message : String} {item : Parser α}
    (h : ∀ t, t.kind ≠ close → t.kind ≠ .eof →
      Obeys g q (k.round.see t) item (Gives k.round.past)) :
    Obeys g q k (commaList close message item) (Gives k.loose) :=
  listUntil_obeys fun _ t ht he => .seq (h t ht he) fun _ => .seq separator_obeys fun _ => .pure rfl

/-! ## Recovery -/

theorem resync_obeys : Obeys g q k resync (Gives k.later) := by
  refine .loop fun depth => ?_
  have hgo (t : Token) (d : Nat) (ht : t.kind ≠ .eof) : Obeys g q (k.round.see t)
      (advance >>= fun _ => Pure.pure (Sum.inl d : Nat ⊕ Unit)) (Turns k.round) :=
    .advance_then ⟨t, rfl, ht⟩ fun _ => .again
  have hbehind (t : Token) (ht : t.kind ≠ .eof) : Obeys g q (k.round.see t)
      (advance >>= fun _ => Pure.pure (Sum.inr () : Nat ⊕ Unit)) (Turns k.round) :=
    .advance_then ⟨t, rfl, ht⟩ fun _ => .leave
  refine Obeys.mono (R := Turns k.round) ?_ ?_
  · refine .peek_then fun t => ?_
    split
    · exact .leave
    · exact hgo t _ (by simp [*])
    · split
      · exact .leave
      · split
        · exact hbehind t (by simp [*])
        · exact hgo t _ (by simp [*])
    · split
      · exact hbehind t (by simp [*])
      · exact hgo t _ (by simp [*])
    · split
      · exact .leave
      · exact hgo t _ ‹_›
  · rintro (_ | _) m hm
    · exact hm
    · refine ⟨rfl, fun h => ?_, id, .inr rfl, hm.told, .inl rfl, rfl⟩
      simp [Know.behind, show k.moved = true from h]

/-- Recovery gets past the token that a failed statement began with: either something is consumed
already, or that token is still there and is taken. -/
theorem recover_obeys {ends : Token → Bool} {t : Token} (ht : k.next = .again t)
    (he : t.kind ≠ .eof) (hends : ∀ u, Reread t u → ends u = false) :
    Obeys g q k (recover ends t.span.start) Moves := by
  refine .seq resync_obeys fun _ => ?_
  have hnext : k.later.next = .again t := by simp [Know.later, Next.later, ht]
  refine .bind (R := fun u m => m.moved = true ∨ (Reread t u ∧ m = k.later.see u))
    (.peekAgain hnext (fun _ => .inl rfl) fun u hu => .inr ⟨hu, rfl⟩) ?_
  rintro u m (hm | ⟨hu, rfl⟩)
  · -- something is consumed already, so one more token does no harm
    split
    · refine .bind (R := fun _ m => m.moved = true) (.advance fun v _ => ?_) fun _ _ h => .pure h
      simp [Know.take, hm]
    · exact .pure hm
  · have hu' : u.kind ≠ .eof := fun h => he (hu.eof.1 h)
    rw [if_pos]
    · exact .advance_then ⟨u, rfl, hu'⟩ fun _ => .pure rfl
    · simp [hu.start, hends u hu, hu']

end

end ScriptLower.Parse
