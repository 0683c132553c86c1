import ScriptLower.Proofs.Text.Utf8
import ScriptLower.Token.Lexer

/-!
# How far lexemes reach

Every reader of lexemes takes a prefix of the bytes it is given, and its text is a prefix of what it
takes. It takes at least one byte where there is one, except at a backslash that opens no escape:
there the reader of names gives up in front of the backslash. What is no token comes with a fault.

The readers that walk over bytes with a counter are followed by induction on the bytes: the counter
stays between the bytes already counted and these together with the rest.
-/

namespace ScriptLower

/-! ## Runs -/

namespace Lexeme

theorem runFrom_le (p : Nat → Bool) (skip : Nat) (s : Bytes) : runFrom p skip s ≤ s.length := by
  fun_induction runFrom p skip s with
  | case1 => exact Nat.le_refl _
  | case2 skip b r ih => exact Nat.succ_le_succ ih
  | case3 b r c size hdec hp ih => exact Nat.succ_le_succ ih
  | case4 => exact Nat.zero_le _

theorem run_le (p : Nat → Bool) (s : Bytes) : run p s ≤ s.length := runFrom_le p 0 s

theorem run_pos {p : Nat → Bool} {b : UInt8} {r : Bytes} (h : p (Utf8.decode (b :: r)).1 = true) :
    0 < run p (b :: r) := by
  unfold run runFrom
  simp [h]

theorem run_eq_zero {p : Nat → Bool} {b : UInt8} {r : Bytes}
    (h : p (Utf8.decode (b :: r)).1 = false) : run p (b :: r) = 0 := by
  unfold run runFrom
  simp [h]

theorem digitRun_le (ok : UInt8 → Bool) (s : Bytes) : digitRun ok s ≤ s.length := by
  fun_induction digitRun ok s with
  | case1 => exact Nat.le_refl _
  | case2 b r h ih => exact Nat.succ_le_succ ih
  | case3 => exact Nat.zero_le _

theorem unicodeEscape_le (s : Bytes) : (unicodeEscape s).1 ≤ s.length := by
  unfold unicodeEscape
  split
  · rename_i r
    have hn : (r.takeWhile Bytes.isHexDigit).length ≤ r.length :=
      (List.takeWhile_sublist _).length_le
    dsimp only
    split
    · simp
    · split
      · rename_i hdrop
        have := congrArg List.length hdrop
        simp only [List.length_drop, List.length_cons] at this ⊢
        omega
      · simp only [List.length_cons]
        omega
  · rename_i r _
    have hn : ((r.take 4).takeWhile Bytes.isHexDigit).length ≤ r.length :=
      ((List.takeWhile_sublist _).trans (List.take_sublist _ _)).length_le
    simp only [List.length_cons]
    omega
  · simp

/-- Only a backslash that is not followed by the letter `u` opens no escape. -/
theorem unicodeEscape_pos (r : Bytes) (h : r.head? = some 117) :
    2 ≤ (unicodeEscape (92 :: r)).1 := by
  cases r with
  | nil => cases h
  | cons b r =>
    obtain rfl : b = 117 := by simpa using h
    unfold unicodeEscape
    split
    · dsimp only
      split
      · simp
      · split <;> simp
    · simp
    · rename_i h1 h2
      exact absurd rfl (h2 r)

/-! ## Lexemes -/

/-- `l` takes a prefix of `s`, and says what is wrong with it when it is no token. -/
structure Within (s : Bytes) (l : Lexeme) : Prop where
  /-- The text is a prefix of what is taken. -/
  text : l.size ≤ l.extent
  /-- There are as many bytes. -/
  extent : l.extent ≤ s.length
  /-- What is no token comes with a fault. -/
  told : l.kind = .invalid → l.faults ≠ []

/-- The counter of a walk over a name. -/
theorem nameFrom_bounds (first : Bool) (skip n : Nat) (escaped : Bool) (s : Bytes)
    (h : skip ≤ s.length) : n ≤ (nameFrom first skip n escaped s).2.1 ∧
      (nameFrom first skip n escaped s).2.1 + skip ≤ n + s.length := by
  fun_induction nameFrom first skip n escaped s with
  | case1 first skip n escaped =>
    simp only [List.length_nil] at h ⊢
    omega
  | case2 first n escaped b r k ih =>
    simp only [List.length_cons] at h ⊢
    have := ih (by omega)
    omega
  | case3 first n escaped b r hb size hesc ih =>
    have hle := unicodeEscape_le (b :: r)
    simp only [hesc, List.length_cons] at hle ⊢
    have := ih (by omega)
    omega
  | case4 first n escaped b r hb size hesc =>
    have hle := unicodeEscape_le (b :: r)
    simp only [hesc, List.length_cons] at hle ⊢
    omega
  | case5 first n escaped b r hb hlow hpart ih =>
    have := ih (Nat.zero_le _)
    simp only [List.length_cons]
    omega
  | case6 first n escaped b r hb hlow hpart => exact ⟨Nat.le_refl _, Nat.le_add_right _ _⟩
  | case7 first n escaped b r hb hlow c size hdec hpart ih =>
    have hle := Utf8.decode_le (b :: r)
    have hpos := Utf8.decode_pos b r
    simp only [hdec, List.length_cons] at hle hpos ⊢
    have := ih (by omega)
    omega
  | case8 n escaped b r hb hlow c size hdec hpart =>
    have hle := Utf8.decode_le (b :: r)
    simp only [hdec, List.length_cons] at hle ⊢
    omega
  | case9 first n escaped b r hb hlow c size hdec hpart hfirst =>
    exact ⟨Nat.le_refl _, Nat.le_add_right _ _⟩

theorem keyword_ne_invalid (w : Bytes) : (TokenKind.keyword? w).getD .ident ≠ .invalid := by
  have hall : ∀ p ∈ TokenKind.keywords, p.2 ≠ .invalid := by decide
  unfold TokenKind.keyword?
  cases hfind : TokenKind.keywords.find? fun p => Bytes.ofString p.1 == w with
  | none => simp
  | some p => exact hall p (List.mem_of_find?_eq_some hfind)

theorem name_within (s : Bytes) : Within s (name s) := by
  have h := nameFrom_bounds true 0 0 false s (Nat.zero_le _)
  unfold name
  split <;> rename_i n hrun <;> rw [hrun] at h <;> dsimp only at h
  · exact ⟨Nat.le_refl _, by dsimp only; omega, by simp⟩
  · exact ⟨Nat.le_refl _, by dsimp only; omega, fun hk => absurd hk (keyword_ne_invalid _)⟩
  · exact ⟨Nat.le_refl _, by dsimp only; omega, fun _ => List.cons_ne_nil _ _⟩
  · exact ⟨Nat.le_refl _, by dsimp only; omega, fun _ => List.cons_ne_nil _ _⟩

theorem privateName_within (b : UInt8) (r : Bytes) : Within (b :: r) (privateName (b :: r)) := by
  have h := name_within r
  have htext := h.text
  have hext := h.extent
  unfold privateName
  simp only [List.drop_one, List.tail_cons]
  split
  · exact ⟨Nat.le_refl _, by simp, fun _ => List.cons_ne_nil _ _⟩
  · exact ⟨Nat.le_refl _, by simp only [List.length_cons]; omega, by simp⟩

/-! ## Numbers -/

theorem numberTail_within {l : Lexeme} {s : Bytes} (h : Within s l) (hk : l.kind ≠ .invalid)
    (he : l.extent = l.size) : Within s (numberTail l s) := by
  have hsize := h.extent
  unfold numberTail
  dsimp only
  split
  · have hrun := run_le CharClass.isNamePart (s.drop l.size)
    rw [List.length_drop] at hrun
    exact ⟨Nat.le_add_right _ _, by dsimp only; omega, fun hk' => absurd hk' hk⟩
  · exact h

theorem finishNumber_within {integer : Bool} {size : Nat} {faults : List Fault} {s : Bytes}
    (h : size ≤ s.length) : Within s (finishNumber integer size faults s) := by
  unfold finishNumber
  split
  · rename_i hn
    -- the suffix is a byte of the text
    have hlen : size < s.length := by
      rcases Nat.lt_or_ge size s.length with hlt | hge
      · exact hlt
      · rw [List.drop_eq_nil_of_le hge] at hn
        simp at hn
    exact numberTail_within ⟨Nat.le_refl _, hlen, by simp⟩ (by simp) rfl
  · exact numberTail_within ⟨Nat.le_refl _, h, by simp⟩ (by simp) rfl

theorem radixNumber_within {ok : UInt8 → Bool} {s : Bytes} (h : 2 ≤ s.length) :
    Within s (radixNumber ok s) := by
  refine finishNumber_within ?_
  have := digitRun_le ok (s.drop 2)
  rw [List.length_drop] at this
  omega

theorem exponentSign_le (s : Bytes) : exponentSign s ≤ s.length := by
  unfold exponentSign
  split
  · split <;> simp
  · simp

theorem exponent_le (s : Bytes) : ∀ e ∈ exponent s, e.1 ≤ s.length := by
  fun_cases exponent s with
  | case1 b r he sign n hdigits =>
    have hrun := digitRun_le Bytes.isDigit (r.drop sign)
    have hle : sign ≤ r.length := exponentSign_le r
    rw [List.length_drop] at hrun
    simp only [Option.mem_def, Option.some.injEq, forall_eq', List.length_cons]
    omega
  | case2 b r he sign hdigits =>
    have hle : sign ≤ r.length := exponentSign_le r
    simp only [Option.mem_def, Option.some.injEq, forall_eq', List.length_cons]
    omega
  | case3 => simp
  | case4 => simp

theorem mantissa_le (s : Bytes) : (mantissa s).1 ≤ s.length := by
  have hwhole := digitRun_le Bytes.isDigit s
  unfold mantissa
  dsimp only
  split
  · rename_i r hdrop
    have hlen := congrArg List.length hdrop
    have hrun := digitRun_le Bytes.isDigit r
    simp only [List.length_drop, List.length_cons] at hlen
    dsimp only
    omega
  · exact hwhole

theorem decimalNumber_within (s : Bytes) : Within s (decimalNumber s) := by
  have hle {n : Nat} {integer : Bool} (hn : mantissa s = (n, integer)) : n ≤ s.length := by
    have := mantissa_le s
    rwa [hn] at this
  fun_cases decimalNumber s with
  | case1 n integer hn k hexp =>
    have := exponent_le _ _ hexp
    rw [List.length_drop] at this
    have := hle hn
    exact finishNumber_within (by omega)
  | case2 n integer hn k hexp =>
    have := exponent_le _ _ hexp
    rw [List.length_drop] at this
    have := hle hn
    exact ⟨Nat.le_refl _, by dsimp only at *; omega, by simp⟩
  | case3 n integer hn hexp => exact finishNumber_within (hle hn)

theorem number_within (strict : Bool) (s : Bytes) : Within s (number strict s) := by
  unfold number
  split
  · rename_i b r
    have hlen : 2 ≤ (48 :: b :: r).length := by simp
    split
    · exact radixNumber_within hlen
    · exact radixNumber_within hlen
    · exact radixNumber_within hlen
    · split
      · have hrun : ((b :: r).takeWhile Bytes.isDigit).length ≤ (b :: r).length :=
          (List.takeWhile_sublist _).length_le
        refine numberTail_within ⟨Nat.le_refl _, ?_, by simp⟩ (by simp) rfl
        simp only [List.length_cons] at hrun ⊢
        omega
      · exact decimalNumber_within _
  · exact decimalNumber_within _

/-! ## Strings, templates and regular expressions -/

theorem stringEscape_le (strict : Bool) (b : UInt8) (r : Bytes) :
    (stringEscape strict (b :: r)).1 ≤ (b :: r).length := by
  have hesc := unicodeEscape_le (b :: r)
  fun_cases stringEscape strict (b :: r) with
  | case1 => simp
  | case2 c hx h l tail hhex hr | case3 c hx h l tail hhex hr =>
    obtain rfl : r = c :: h :: l :: tail := hr
    simp
  | case4 c tail hr hx hnone =>
    obtain rfl : r = c :: tail := hr
    simp
  | case5 c tail hr hx hu size hrun | case6 c tail hr hx hu size hrun =>
    rw [hrun] at hesc
    exact hesc
  | case7 c tail hr hx hu hoctal =>
    obtain rfl : r = c :: tail := hr
    have hrun : (((c :: tail).take 3).takeWhile Bytes.isDigit).length ≤ (c :: tail).length :=
      ((List.takeWhile_sublist _).trans (List.take_sublist _ _)).length_le
    rw [List.length_cons (a := b)]
    omega
  | case8 c tail hr hx hu hoctal hcr =>
    obtain rfl : r = c :: tail := hr
    cases tail with
    | nil => simp
    | cons d tail =>
      dsimp only
      split <;> simp
  | case9 c tail hr hx hu hoctal hcr =>
    obtain rfl : r = c :: tail := hr
    have hdec := Utf8.decode_le (c :: tail)
    rw [List.length_cons (a := b)]
    omega

/-- The counter of a walk over a string. -/
theorem stringFrom_bounds (strict : Bool) (quote : UInt8) (skip n : Nat) (faults : List Fault)
    (s : Bytes) (h : skip ≤ s.length) :
    n ≤ (stringFrom strict quote skip n faults s).2.1 ∧
      (stringFrom strict quote skip n faults s).2.1 + skip ≤ n + s.length := by
  fun_induction stringFrom strict quote skip n faults s with
  | case1 skip n faults =>
    simp only [List.length_nil] at h ⊢
    omega
  | case2 n faults b r k ih =>
    simp only [List.length_cons] at h ⊢
    have := ih (by omega)
    omega
  | case3 n faults b r hb =>
    simp only [List.length_cons]
    omega
  | case4 n faults b r hb hesc size fault hrun more ih =>
    have hle := stringEscape_le strict b r
    simp only [hrun, List.length_cons] at hle ⊢
    have := ih (by omega)
    omega
  | case5 n faults b r hb hesc hline => exact ⟨Nat.le_refl _, Nat.le_add_right _ _⟩
  | case6 n faults b r hb hesc hline ih =>
    have := ih (Nat.zero_le _)
    simp only [List.length_cons]
    omega

theorem string_within (strict : Bool) (b : UInt8) (r : Bytes) :
    Within (b :: r) (string strict (b :: r)) := by
  have h := stringFrom_bounds strict b 0 1 [] r (Nat.zero_le _)
  unfold string
  dsimp only
  split <;> rename_i n faults hrun <;> rw [hrun] at h <;> dsimp only at h
  · exact ⟨Nat.le_refl _, by simp only [List.length_cons]; omega, by simp⟩
  · exact ⟨Nat.le_refl _, by simp only [List.length_cons]; omega, fun _ => by simp⟩
  · exact ⟨Nat.le_refl _, by simp only [List.length_cons]; omega, fun _ => by simp⟩

theorem attributeString_within {s : Bytes} {l : Lexeme} (h : attributeString s = some l) :
    Within s l := by
  unfold attributeString at h
  split at h
  · rename_i q r
    split at h
    · split at h
      · rename_i i hi
        cases h
        have := (List.findIdx?_eq_some_iff_getElem.1 hi).1
        exact ⟨Nat.le_refl _, by simp only [List.length_cons]; omega, by simp⟩
      · cases h
        exact ⟨Nat.le_refl _, Nat.le_refl _, fun _ => List.cons_ne_nil _ _⟩
    · cases h
  · cases h

/-- Where a quote stands, an attribute value is read. -/
theorem attributeString_some {b : UInt8} {r : Bytes} (h : b = 34 ∨ b = 39) :
    ∃ l, attributeString (b :: r) = some l ∧ (l.kind = .stringLit ∨ l.kind = .invalid) ∧
      0 < l.extent := by
  have hq : (b == 34 || b == 39) = true := by rcases h with rfl | rfl <;> rfl
  simp only [attributeString, hq, if_true]
  split
  · exact ⟨_, rfl, .inl rfl, Nat.succ_pos _⟩
  · exact ⟨_, rfl, .inr rfl, Nat.succ_pos _⟩

theorem templateFrom_bounds (n : Nat) (s : Bytes) :
    n ≤ (templateFrom n s).2 ∧ (templateFrom n s).2 ≤ n + s.length := by
  fun_induction templateFrom n s with
  | case1 => exact ⟨Nat.le_refl _, Nat.le_refl _⟩
  | case2 n r => simp only [List.length_cons]; omega
  | case3 n r => simp only [List.length_cons]; omega
  | case4 n b r ih => simp only [List.length_cons]; omega
  | case5 n b r _ _ _ ih => simp only [List.length_cons]; omega

theorem template_within (head : Bool) (s : Bytes) : Within s (template head s) := by
  have h := templateFrom_bounds (min 1 s.length) (s.drop 1)
  rw [List.length_drop] at h
  unfold template
  split <;> rename_i n hrun <;> rw [hrun] at h <;> dsimp only at h
  · exact ⟨Nat.le_refl _, by dsimp only; omega, by cases head <;> simp⟩
  · exact ⟨Nat.le_refl _, by dsimp only; omega, by cases head <;> simp⟩
  · exact ⟨Nat.le_refl _, by dsimp only; omega, fun _ => List.cons_ne_nil _ _⟩

theorem regExpFrom_bounds (inClass : Bool) (n : Nat) (s : Bytes) :
    n ≤ (regExpFrom inClass n s).2 ∧ (regExpFrom inClass n s).2 ≤ n + s.length := by
  fun_induction regExpFrom inClass n s with
  | case1 => exact ⟨Nat.le_refl _, Nat.le_refl _⟩
  | case2 => exact ⟨Nat.le_refl _, Nat.le_add_right _ _⟩
  | case3 => exact ⟨Nat.le_add_right _ _, Nat.le_refl _⟩
  | case4 => simp only [List.length_cons]; omega
  | case5 => simp only [List.length_cons]; omega
  | case6 => simp only [List.length_cons]; omega
  | case7 => simp only [List.length_cons]; omega

theorem regExp_within (s : Bytes) : Within s (regExp s) := by
  have h := regExpFrom_bounds false (min 1 s.length) (s.drop 1)
  rw [List.length_drop] at h
  unfold regExp
  split <;> rename_i n hrun <;> rw [hrun] at h <;> dsimp only at h
  · have hflags := run_le CharClass.isNamePart (s.drop n)
    rw [List.length_drop] at hflags
    exact ⟨Nat.le_refl _, by dsimp only; omega, by simp⟩
  · exact ⟨Nat.le_refl _, by dsimp only; omega, fun _ => List.cons_ne_nil _ _⟩

/-! ## Marks and elements -/

/-- A mark of a table that stands here is a prefix of the text. -/
theorem markOf_within {table : List (String × TokenKind)} {s : Bytes} {m : String}
    {kind : TokenKind}
    (htable : ∀ p ∈ table, p.2 ≠ .invalid)
    (h : (table.find? fun p => (Bytes.ofString p.1).isPrefixOf s) = some (m, kind)) :
    Within s { kind := kind, size := (Bytes.ofString m).length } := by
  have hmem := List.mem_of_find?_eq_some h
  have hp := List.find?_some h
  exact ⟨Nat.le_refl _, (List.isPrefixOf_iff_prefix.1 hp).length_le, fun hk =>
    absurd hk (htable _ hmem)⟩

theorem mark_within (b : UInt8) (r : Bytes) : Within (b :: r) (mark (b :: r)) := by
  unfold mark
  split
  · rename_i hfind
    exact markOf_within (by decide) hfind
  · dsimp only
    split
    · rename_i hdot
      cases r with
      | nil => simp at hdot
      | cons c r => exact ⟨Nat.le_refl _, by simp, by simp⟩
    · split
      · rename_i kind hkind
        refine ⟨Nat.le_refl _, by simp, fun hk => ?_⟩
        dsimp only at hk
        subst hk
        unfold shortMark? at hkind
        split at hkind <;> cases hkind
      · exact ⟨Nat.le_refl _, by simp, fun _ => List.cons_ne_nil _ _⟩

theorem greater_within (s : Bytes) : Within s (greater s) := by
  unfold greater
  split
  · rename_i hfind
    exact markOf_within (by decide) hfind
  · exact ⟨Nat.le_refl _, Nat.min_le_right _ _, by simp⟩

theorem less_within (s : Bytes) : Within s { kind := .lt, size := min 1 s.length } :=
  ⟨Nat.le_refl _, Nat.min_le_right _ _, by simp⟩

theorem tagName_within (s : Bytes) : Within s (tagName s) :=
  ⟨Nat.le_refl _, run_le _ _, by simp [tagName]⟩

theorem child_within (s : Bytes) : Within s (child s) := by
  unfold child
  split
  · exact ⟨Nat.le_refl _, Nat.le_refl _, by simp⟩
  · exact ⟨Nat.le_refl _, by simp, by simp⟩
  · exact ⟨Nat.le_refl _, by simp, by simp⟩
  · exact ⟨Nat.le_refl _, (List.takeWhile_sublist _).length_le, by simp⟩

/-- The next token takes a prefix of the text. -/
theorem next_within (strict : Bool) (s : Bytes) : Within s (next strict s) := by
  unfold next
  split
  · exact ⟨Nat.le_refl _, Nat.le_refl _, by simp⟩
  · rename_i b r
    split
    · exact name_within _
    · split
      · exact number_within _ _
      · split
        · exact string_within _ _ _
        · split
          · exact template_within _ _
          · split
            · exact privateName_within _ _
            · exact mark_within _ _

/-! ## Lexemes that take a byte -/

theorem Within.pos_of_size {s : Bytes} {l : Lexeme} (h : Within s l) (hs : 0 < l.size) :
    0 < l.extent :=
  Nat.lt_of_lt_of_le hs h.text

/-- A name takes a byte unless a backslash that opens no escape stands first. -/
theorem name_pos (b : UInt8) (r : Bytes) (hb : isNameStartByte b || b == 92 || 0x80 ≤ b)
    (hesc : b = 92 → r.head? = some 117) : 0 < (name (b :: r)).size := by
  have hpos : 0 < (nameFrom true 0 0 false (b :: r)).2.1 := by
    unfold nameFrom
    simp only [if_true]
    split
    · rename_i h92
      obtain rfl : b = 92 := by simpa using h92
      have h2 := unicodeEscape_pos r (hesc rfl)
      have hle := unicodeEscape_le (92 :: r)
      simp only [List.length_cons] at hle
      split
      · rename_i size hrun
        rw [hrun] at h2 hle
        have := (nameFrom_bounds false (size - 1) (0 + size) true r (by dsimp only at hle; omega)).1
        dsimp only at h2
        omega
      · rename_i size hrun
        rw [hrun] at h2
        dsimp only at h2 ⊢
        omega
    · rename_i h92
      have hle := Utf8.decode_le (b :: r)
      have hdec := Utf8.decode_pos b r
      simp only [List.length_cons] at hle
      split
      · rename_i hlow
        have hstart : isNameStartByte b = true := by
          have hge : ¬(0x80 : UInt8) ≤ b := UInt8.not_le.2 hlow
          simpa [h92, hge] using hb
        rw [if_pos hstart]
        have := (nameFrom_bounds false 0 (0 + 1) false r (Nat.zero_le _)).1
        omega
      · split
        · have :=
            (nameFrom_bounds false ((Utf8.decode (b :: r)).2 - 1) (0 + (Utf8.decode (b :: r)).2)
            false r (by omega)).1
          omega
        · exact Nat.lt_of_lt_of_le hdec (Nat.le_add_left _ _)
  unfold name
  split <;> rename_i n hrun <;> rw [hrun] at hpos <;> exact hpos

theorem numberTail_size (l : Lexeme) (s : Bytes) : (numberTail l s).size = l.size := by
  unfold numberTail
  dsimp only
  split <;> rfl

theorem le_finishNumber_size (integer : Bool) (size : Nat) (faults : List Fault) (s : Bytes) :
    size ≤ (finishNumber integer size faults s).size := by
  unfold finishNumber
  split
  · simp [numberTail_size]
  · simp [numberTail_size]

/-- A number begins with a digit, or with the point. -/
theorem mantissa_pos (b : UInt8) (r : Bytes)
    (hb : Bytes.isDigit b || (b == 46 && r.head?.any Bytes.isDigit)) :
    0 < (mantissa (b :: r)).1 := by
  unfold mantissa
  dsimp only
  split
  · dsimp only
    omega
  · rename_i hpoint
    by_cases hd : Bytes.isDigit b = true
    · unfold digitRun
      simp [hd]
    · obtain rfl : b = 46 := by simp [hd] at hb; exact hb.1
      exact absurd (show (46 :: r).drop (digitRun Bytes.isDigit (46 :: r)) = 46 :: r by
        unfold digitRun
        simp [hd]) (hpoint r)

theorem decimalNumber_pos (b : UInt8) (r : Bytes)
    (hb : Bytes.isDigit b || (b == 46 && r.head?.any Bytes.isDigit)) :
    0 < (decimalNumber (b :: r)).size := by
  have hle {n : Nat} {integer : Bool} (hn : mantissa (b :: r) = (n, integer)) : 0 < n := by
    have := mantissa_pos b r hb
    rwa [hn] at this
  fun_cases decimalNumber (b :: r) with
  | case1 n integer hn k hexp =>
    have := le_finishNumber_size false (n + k) [] (b :: r)
    have := hle hn
    omega
  | case2 n integer hn k hexp => exact Nat.lt_of_lt_of_le (hle hn) (Nat.le_add_right _ _)
  | case3 n integer hn hexp =>
    exact Nat.lt_of_lt_of_le (hle hn) (le_finishNumber_size integer n [] (b :: r))

theorem radixNumber_pos (ok : UInt8 → Bool) (s : Bytes) : 0 < (radixNumber ok s).size :=
  Nat.lt_of_lt_of_le (by omega) (le_finishNumber_size _ _ _ _)

theorem number_pos (strict : Bool) (b : UInt8) (r : Bytes)
    (hb : Bytes.isDigit b || (b == 46 && r.head?.any Bytes.isDigit)) :
    0 < (number strict (b :: r)).size := by
  unfold number
  split
  · split
    · exact radixNumber_pos _ _
    · exact radixNumber_pos _ _
    · exact radixNumber_pos _ _
    · split
      · rw [numberTail_size]
        dsimp only
        omega
      · exact decimalNumber_pos _ _ hb
  · exact decimalNumber_pos _ _ hb

theorem string_pos (strict : Bool) (b : UInt8) (r : Bytes) : 0 < (string strict (b :: r)).size := by
  have h := (stringFrom_bounds strict b 0 1 [] r (Nat.zero_le _)).1
  unfold string
  dsimp only
  split <;> rename_i n faults hrun <;> rw [hrun] at h <;> exact h

theorem template_pos (head : Bool) (b : UInt8) (r : Bytes) : 0 < (template head (b :: r)).size := by
  have h := (templateFrom_bounds (min 1 (b :: r).length) ((b :: r).drop 1)).1
  simp only [List.length_cons] at h
  unfold template
  simp only [List.length_cons]
  split <;> rename_i n hrun <;> rw [hrun] at h <;> dsimp only at h ⊢ <;> omega

theorem regExp_pos (b : UInt8) (r : Bytes) : 0 < (regExp (b :: r)).size := by
  have h := (regExpFrom_bounds false (min 1 (b :: r).length) ((b :: r).drop 1)).1
  simp only [List.length_cons] at h
  unfold regExp
  simp only [List.length_cons]
  split <;> rename_i n hrun <;> rw [hrun] at h <;> dsimp only at h ⊢ <;> omega

theorem privateName_pos (s : Bytes) : 0 < (privateName s).size := by
  unfold privateName
  dsimp only
  split <;> exact Nat.succ_pos _

theorem mark_pos (b : UInt8) (r : Bytes) : 0 < (mark (b :: r)).size := by
  have hmarks : ∀ p ∈ longMarks, 0 < (Bytes.ofString p.1).length := by decide
  unfold mark
  split
  · rename_i hfind
    exact hmarks _ (List.mem_of_find?_eq_some hfind)
  · dsimp only
    split
    · exact Nat.succ_pos _
    · split <;> exact Nat.succ_pos _

theorem greater_pos (b : UInt8) (r : Bytes) : 0 < (greater (b :: r)).size := by
  have hmarks : ∀ p ∈ greaterMarks, 0 < (Bytes.ofString p.1).length := by decide
  unfold greater
  split
  · rename_i hfind
    exact hmarks _ (List.mem_of_find?_eq_some hfind)
  · simp only [List.length_cons]
    omega

theorem child_pos (b : UInt8) (r : Bytes) : 0 < (child (b :: r)).size := by
  unfold child
  split
  · rename_i h; cases h
  · exact Nat.succ_pos _
  · exact Nat.succ_pos _
  · rename_i h60 h7B
    have h1 : b ≠ 60 := fun h => h60 r (by rw [h])
    have h2 : b ≠ 0x7B := fun h => h7B r (by rw [h])
    simp [h1, h2]

/-- The next token takes a byte where there is one, unless a backslash that opens no escape stands
there. -/
theorem next_pos (strict : Bool) (b : UInt8) (r : Bytes) (hesc : b = 92 → r.head? = some 117) :
    0 < (next strict (b :: r)).extent := by
  refine (next_within strict (b :: r)).pos_of_size ?_
  unfold next
  dsimp only
  split
  · rename_i hb
    exact name_pos b r hb hesc
  · split
    · rename_i hb
      exact number_pos strict b r hb
    · split
      · exact string_pos _ _ _
      · split
        · exact template_pos _ _ _
        · split
          · exact privateName_pos _
          · exact mark_pos _ _

end Lexeme

end ScriptLower
