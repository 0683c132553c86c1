import ScriptLower.Proofs.Token.Extent

/-!
# What stands at the head of a token

The first byte of a token says much about its kind. The end of the text is a token of its own, which
no byte begins; a closing brace begins nothing but a closing brace; a name begins with a character
that may continue a name, or with a backslash; a string begins with a quote.

So two readings of one place, under whatever grammar, agree on these kinds.
-/

namespace ScriptLower.Lexeme

open ScriptLower

/-- A text at which a name may stand. -/
def OpensName (s : Bytes) : Prop :=
  s.head? = some 92 ∨ s ≠ [] ∧ CharClass.isNamePart (Utf8.decode s).1 = true

/-- A text at which a string may stand. -/
def OpensString (s : Bytes) : Prop := s.head? = some 34 ∨ s.head? = some 39

/-- The kind of a token fits the text it is read from. -/
structure Heads (s : Bytes) (k : TokenKind) : Prop where
  /-- Only the end of the text ends it. -/
  eof : k = .eof ↔ s = []
  /-- A closing brace stands only at a closing brace. -/
  brace : k = .rBrace ↔ s.head? = some 0x7D
  /-- A name begins as names do. -/
  name : k.isPropertyName = true → OpensName s
  /-- A string begins with a quote. -/
  string : k = .stringLit → OpensString s

theorem isNamePart_of_isNameStart {c : Nat} (h : CharClass.isNameStart c = true) :
    CharClass.isNamePart c = true := by
  unfold CharClass.isNamePart
  split <;> simp [h]

theorem decode_ascii {b : UInt8} (r : Bytes) (h : b < 0x80) : Utf8.decode (b :: r) = (b.toNat, 1) :=
  if_pos h

/-- A byte that may start a name is a character that may start one. -/
theorem isNameStart_of_byte {b : UInt8} (h : isNameStartByte b = true) :
    b < 0x80 ∧ CharClass.isNameStart b.toNat = true := by
  simp only [isNameStartByte, Bytes.isAlpha, Bool.or_eq_true, Bool.and_eq_true, beq_iff_eq,
    decide_eq_true_eq, UInt8.le_iff_toNat_le, ← UInt8.toNat_inj, UInt8.reduceToNat] at h
  have hlow : b.toNat < 0x80 := by omega
  refine ⟨UInt8.lt_iff_toNat_lt.2 hlow, ?_⟩
  simp only [CharClass.isNameStart, hlow, if_true, Bool.or_eq_true, Bool.and_eq_true, beq_iff_eq,
    decide_eq_true_eq]
  omega

/-! ## Kinds of each reader -/

theorem isPropertyName_getD (w : Bytes) :
    ((TokenKind.keyword? w).getD .ident).isPropertyName = true := by
  have hall : ∀ p ∈ TokenKind.keywords, p.2.isPropertyName = true := by decide
  unfold TokenKind.keyword?
  cases hfind : TokenKind.keywords.find? fun p => Bytes.ofString p.1 == w with
  | none => rfl
  | some p => exact hall p (List.mem_of_find?_eq_some hfind)

theorem name_kind (s : Bytes) : (name s).kind.isPropertyName = true ∨ (name s).kind = .invalid := by
  unfold name
  split
  · exact .inl rfl
  · exact .inl (isPropertyName_getD _)
  · exact .inr rfl
  · exact .inr rfl

theorem numberTail_kind (l : Lexeme) (s : Bytes) : (numberTail l s).kind = l.kind := by
  unfold numberTail
  dsimp only
  split <;> rfl

theorem finishNumber_kind (integer : Bool) (size : Nat) (faults : List Fault) (s : Bytes) :
    (finishNumber integer size faults s).kind = .numberLit ∨
      (finishNumber integer size faults s).kind = .bigIntLit := by
  unfold finishNumber
  split <;> rw [numberTail_kind]
  · exact .inr rfl
  · exact .inl rfl

theorem decimalNumber_kind (s : Bytes) :
    (decimalNumber s).kind = .numberLit ∨ (decimalNumber s).kind = .bigIntLit := by
  fun_cases decimalNumber s with
  | case1 => exact finishNumber_kind _ _ _ _
  | case2 => exact .inl rfl
  | case3 => exact finishNumber_kind _ _ _ _

theorem number_kind (strict : Bool) (s : Bytes) :
    (number strict s).kind = .numberLit ∨ (number strict s).kind = .bigIntLit := by
  unfold number
  split
  · split
    · exact finishNumber_kind _ _ _ _
    · exact finishNumber_kind _ _ _ _
    · exact finishNumber_kind _ _ _ _
    · split
      · rw [numberTail_kind]
        exact .inl rfl
      · exact decimalNumber_kind _
  · exact decimalNumber_kind _

theorem string_kind (strict : Bool) (s : Bytes) :
    (string strict s).kind = .stringLit ∨ (string strict s).kind = .invalid := by
  unfold string
  split
  · exact .inr rfl
  · split
    · exact .inl rfl
    · exact .inr rfl
    · exact .inr rfl

theorem template_head_kind (s : Bytes) : (template true s).kind = .noSubstTemplate ∨
    (template true s).kind = .templateHead ∨ (template true s).kind = .invalid := by
  unfold template
  split
  · exact .inl rfl
  · exact .inr (.inl rfl)
  · exact .inr (.inr rfl)

theorem privateName_kind (s : Bytes) :
    (privateName s).kind = .privateName ∨ (privateName s).kind = .invalid := by
  unfold privateName
  dsimp only
  split
  · exact .inr rfl
  · exact .inl rfl

/-- A mark is no name of any kind and no string, and a closing brace only at one. -/
theorem mark_heads (b : UInt8) (r : Bytes) : (mark (b :: r)).kind ≠ .eof ∧
    ((mark (b :: r)).kind = .rBrace ↔ b = 0x7D) ∧
    (mark (b :: r)).kind.isPropertyName = false ∧ (mark (b :: r)).kind ≠ .stringLit ∧
    (mark (b :: r)).kind ≠ .privateName := by
  have hlong : ∀ p ∈ longMarks, p.2 ≠ .eof ∧ p.2 ≠ .rBrace ∧ p.2.isPropertyName = false ∧
      (p.2 ≠ .stringLit ∧ p.2 ≠ .privateName) ∧ (Bytes.ofString p.1).head? ≠ none ∧
      (Bytes.ofString p.1).head? ≠ some 0x7D := by decide
  unfold mark
  split
  · rename_i m kind hfind
    obtain ⟨heof, hbrace, hname, hstring, hne, hhead⟩ := hlong _ (List.mem_of_find?_eq_some hfind)
    refine ⟨heof, ⟨fun h => absurd h hbrace, ?_⟩, hname, hstring⟩
    rintro rfl
    -- the mark would begin with the brace
    have hp := List.find?_some hfind
    have hp : Bytes.ofString m <+: 0x7D :: r := List.isPrefixOf_iff_prefix.1 hp
    dsimp only at hne hhead
    cases hm : Bytes.ofString m with
    | nil => exact absurd (by simp [hm]) hne
    | cons c cs =>
      rw [hm] at hp hhead
      exact absurd (by rw [(List.cons_prefix_cons.1 hp).1]; rfl) hhead
  · dsimp only
    split
    · rename_i hq
      refine ⟨(by simp), ⟨(by simp), ?_⟩, rfl, (by simp), (by simp)⟩
      rintro rfl
      simp at hq
    · split
      · rename_i kind hkind
        unfold shortMark? at hkind
        split at hkind <;> cases hkind <;> simp +decide
      · rename_i hkind
        refine ⟨(by simp), ⟨(by simp), ?_⟩, rfl, (by simp), (by simp)⟩
        rintro rfl
        cases hkind

theorem greater_kind (s : Bytes) : ((greater s).kind ≠ .eof ∧ (greater s).kind ≠ .rBrace ∧
    (greater s).kind.isPropertyName = false) ∧ (greater s).kind ≠ .stringLit := by
  have hmarks : ∀ p ∈ greaterMarks, (p.2 ≠ .eof ∧ p.2 ≠ .rBrace ∧ p.2.isPropertyName = false) ∧
      p.2 ≠ .stringLit := by decide
  unfold greater
  split
  · rename_i hfind
    exact hmarks _ (List.mem_of_find?_eq_some hfind)
  · exact ⟨⟨(by simp), (by simp), rfl⟩, (by simp)⟩

theorem child_eof_iff (s : Bytes) : (child s).kind = .eof ↔ s = [] := by
  unfold child
  split <;> simp
  rename_i h _ _
  exact h

/-- A name in a tag takes a byte unless an escape begins it. -/
theorem tagName_pos_iff {s : Bytes} (h : OpensName s) :
    0 < (tagName s).extent ↔ s.head? ≠ some 92 := by
  cases s with
  | nil => rcases h with h | h <;> simp at h
  | cons b r =>
    simp only [tagName]
    by_cases hb : b = 92
    · subst hb
      rw [run_eq_zero]
      · simp
      · rw [decode_ascii r (by decide)]
        decide
    · have hpart : CharClass.isNamePart (Utf8.decode (b :: r)).1 = true := by
        rcases h with h | h
        · exact absurd (by simpa using h) hb
        · exact h.2
      have := run_pos (p := fun c => CharClass.isNamePart c || c == 45) (b := b) (r := r)
        (by simp [hpart])
      simp [hb, this]

/-! ## The next token -/

theorem Heads.of_kind {b : UInt8} {r : Bytes} {k : TokenKind} (heof : k ≠ .eof)
    (hk : k = .rBrace ↔ b = 0x7D) (hname : k.isPropertyName = true → OpensName (b :: r))
    (hstring : k = .stringLit → OpensString (b :: r)) : Heads (b :: r) k :=
  ⟨⟨fun h => absurd h heof, (by simp)⟩, by simpa using hk, hname, hstring⟩

/-- A token that is no name, no string and no brace. -/
theorem Heads.plain {b : UInt8} {r : Bytes} {k : TokenKind} (hb : b ≠ 0x7D)
    (hk : k ≠ .eof ∧ k ≠ .rBrace ∧ k.isPropertyName = false ∧ k ≠ .stringLit) :
    Heads (b :: r) k := by
  obtain ⟨heof, hbrace, hname, hstring⟩ := hk
  exact .of_kind heof ⟨fun h => absurd h hbrace, fun h => absurd h hb⟩ (by simp [hname])
    fun h => absurd h hstring

/-- A name that is none begins with a character that starts none. -/
theorem name_opens {b : UInt8} {r : Bytes} (hb : isNameStartByte b || b == 92 || 0x80 ≤ b)
    (hk : (name (b :: r)).kind ≠ .invalid) : OpensName (b :: r) := by
  by_cases h92 : b = 92
  · exact .inl (by rw [h92]; rfl)
  right
  refine ⟨List.cons_ne_nil _ _, isNamePart_of_isNameStart ?_⟩
  by_cases hlow : b < 0x80
  · have hstart : isNameStartByte b = true := by
      have hge : ¬(0x80 : UInt8) ≤ b := UInt8.not_le.2 hlow
      simpa [h92, hge] using hb
    rw [decode_ascii r hlow]
    exact (isNameStart_of_byte hstart).2
  · cases hstart : CharClass.isNameStart (Utf8.decode (b :: r)).1 with
    | true => rfl
    | false =>
      have hbad : (nameFrom true 0 0 false (b :: r)).1 = .badStart := by
        unfold nameFrom
        simp [h92, hlow, hstart]
      refine absurd ?_ hk
      unfold name
      split <;> rename_i hrun <;> rw [hrun] at hbad <;> first | rfl | cases hbad

theorem name_heads {b : UInt8} {r : Bytes} (hb : isNameStartByte b || b == 92 || 0x80 ≤ b) :
    Heads (b :: r) (name (b :: r)).kind := by
  have hne : b ≠ 0x7D := by rintro rfl; revert hb; decide
  rcases name_kind (b :: r) with hk | hk
  · have hnot {k : TokenKind} (h : k.isPropertyName = false) : (name (b :: r)).kind ≠ k := by
      rintro rfl
      simp [h] at hk
    exact .of_kind (hnot (by decide)) ⟨fun h => absurd h (hnot (by decide)), fun h => absurd h hne⟩
      (fun _ => name_opens hb (hnot (by decide))) fun h => absurd h (hnot (by decide))
  · rw [hk]
    exact .plain hne (by decide)

/-- The next token fits the text it is read from. -/
theorem next_heads (strict : Bool) (s : Bytes) : Heads s (next strict s).kind := by
  unfold next
  split
  · exact ⟨⟨fun _ => rfl, fun _ => rfl⟩, by simp, fun h => absurd h (by decide), by simp⟩
  · rename_i b r
    split
    · exact name_heads ‹_›
    · split
      · rename_i hb
        have hne : b ≠ 0x7D := by rintro rfl; revert hb; simp [Bytes.isDigit]
        rcases number_kind strict (b :: r) with hk | hk <;> rw [hk] <;> exact .plain hne (by decide)
      · split
        · rename_i hq
          have hne : b ≠ 0x7D := by rintro rfl; revert hq; decide
          rcases string_kind strict (b :: r) with hk | hk <;> rw [hk]
          · refine .of_kind (by simp) ⟨(by simp), fun h => absurd h hne⟩
              (fun h => absurd h (by decide)) fun _ => ?_
            simpa [OpensString] using hq
          · exact .plain hne (by decide)
        · split
          · rename_i hb
            have hne : b ≠ 0x7D := by rintro rfl; revert hb; decide
            rcases template_head_kind (b :: r) with hk | hk | hk <;> rw [hk] <;>
              exact .plain hne (by decide)
          · split
            · rename_i hb
              have hne : b ≠ 0x7D := by rintro rfl; revert hb; decide
              rcases privateName_kind (b :: r) with hk | hk <;> rw [hk] <;>
                exact .plain hne (by decide)
            · obtain ⟨heof, hbrace, hname, hstring, -⟩ := mark_heads b r
              exact .of_kind heof hbrace (fun h => absurd h (by simp [hname])) fun h =>
                absurd h hstring

/-- A text at which neither the end nor a closing brace stands may be read as another token. -/
theorem Heads.again {s : Bytes} {k k' : TokenKind} (h : Heads s k) (hk : k ≠ .eof ∧ k ≠ .rBrace)
    (hk' : k' ≠ .eof ∧ k' ≠ .rBrace ∧ k'.isPropertyName = false)
    (hs : k' = .stringLit → OpensString s) : Heads s k' where
  eof := ⟨fun he => absurd he hk'.1, fun he => absurd (h.eof.2 he) hk.1⟩
  brace := ⟨fun hb => absurd hb hk'.2.1, fun hb => absurd (h.brace.2 hb) hk.2⟩
  name hn := by simp [hk'.2.2] at hn
  string := hs

/-- Two tokens read from one text are both the end of the text or neither is, and both a closing
brace or neither is. -/
theorem Heads.agree {s : Bytes} {k k' : TokenKind} (h : Heads s k) (h' : Heads s k') :
    (k' = .eof ↔ k = .eof) ∧ (k' = .rBrace ↔ k = .rBrace) :=
  ⟨h'.eof.trans h.eof.symm, h'.brace.trans h.brace.symm⟩

end ScriptLower.Lexeme
