import ScriptLower.Proofs.Text.Bodies
import ScriptLower.Proofs.Token.Place

/-!
# Strings that are accepted

The lexer walks over a string escape by escape, and what it takes without a fault is a well-formed
escape and no backslash behind it. So the reader of values follows the walk, and is stopped only by
a number between braces that is no code point: the walk counts digits and does not look at the
number.

What is written for a value is walked over without a fault up to the closing quote, so it is one
token.
-/

/-! ## Walking over escapes -/

namespace ScriptLower.Lexeme

open ScriptLower StringLiteral

variable {b q : UInt8} {n size skip : Nat} {faults : List Fault} {r s : Bytes} {strict : Bool}

/-- What stands behind the backslash of a complete Unicode escape. -/
theorem unicodeEscape_wellFormed (h : unicodeEscape (92 :: r) = (n, true)) :
    ∃ e t, r = e ++ t ∧ n = e.length + 1 ∧ WellFormed e ∧ e.head? = some 117 := by
  unfold unicodeEscape at h
  split at h
  · rename_i r' heq
    obtain rfl := (List.cons.inj heq).2
    have hds : ∀ d ∈ r'.takeWhile Bytes.isHexDigit, Bytes.isHexDigit d = true := fun d hd =>
      List.all_eq_true.1 List.all_takeWhile d hd
    have hsplit := List.prefix_iff_eq_append.1 (List.takeWhile_prefix (l := r') Bytes.isHexDigit)
    generalize r'.takeWhile Bytes.isHexDigit = ds at h hds hsplit
    dsimp only at h
    split at h
    · cases h
    rename_i hpos
    split at h
    · rename_i t hdrop
      cases h
      have hne : ds ≠ [] := by
        rintro rfl
        exact hpos rfl
      refine ⟨117 :: 0x7B :: (ds ++ [0x7D]), t, ?_, by simp, .braced hds hne, rfl⟩
      rw [← hsplit, hdrop]
      simp
    · cases h
  · rename_i r' _ heq
    obtain rfl := (List.cons.inj heq).2
    have hds : ∀ d ∈ (r'.take 4).takeWhile Bytes.isHexDigit, Bytes.isHexDigit d = true :=
      fun d hd =>
      List.all_eq_true.1 List.all_takeWhile d hd
    have hprefix := (List.takeWhile_prefix (l := r'.take 4) Bytes.isHexDigit).trans
      (List.take_prefix 4 r')
    obtain ⟨t, ht⟩ := hprefix
    generalize (r'.take 4).takeWhile Bytes.isHexDigit = ds at h hds ht
    simp only [Prod.mk.injEq, beq_iff_eq] at h
    exact ⟨117 :: ds, t, by rw [← ht]; rfl, by rw [List.length_cons]; omega, .unicode hds h.2, rfl⟩
  · cases h

/-- What stands behind the backslash of an escape that is walked over without a fault. -/
theorem stringEscape_wellFormed (h : stringEscape strict (92 :: r) = (size, none)) (hne : r ≠ []) :
    ∃ e t, r = e ++ t ∧ size = e.length + 1 ∧ WellFormed e := by
  obtain ⟨b, r, rfl⟩ := List.exists_cons_of_ne_nil hne
  unfold stringEscape at h
  rw [List.drop_one, List.tail_cons] at h
  dsimp only at h
  split at h
  · rename_i hx
    rw [eq_of_beq hx]
    split at h
    · rename_i x y t
      split at h
      · rename_i hhex
        cases h
        rw [Bool.and_eq_true] at hhex
        refine ⟨[120, x, y], t, rfl, rfl, .hex ?_ rfl⟩
        simpa using hhex
      · cases h
    · cases h
  split at h
  · rename_i hu
    rw [eq_of_beq hu] at h ⊢
    split at h
    · rename_i k hescape
      cases h
      obtain ⟨e, t, hr, hk, he, -⟩ := unicodeEscape_wellFormed hescape
      exact ⟨e, t, hr, hk, he⟩
    · cases h
  rename_i hx hu
  have hx : b ≠ 120 := fun he => hx (beq_iff_eq.2 he)
  have hu : b ≠ 117 := fun he => hu (beq_iff_eq.2 he)
  split at h
  · -- digits, of which the first is octal
    rename_i hdigits
    have hdigit : Bytes.isDigit b = true := by
      simp only [Bool.or_eq_true, Bool.and_eq_true, decide_eq_true_eq, beq_iff_eq,
        UInt8.le_iff_toNat_le] at hdigits
      simp only [Bytes.isDigit, Bool.and_eq_true, decide_eq_true_eq, UInt8.le_iff_toNat_le]
      rcases hdigits with h | ⟨rfl, -⟩
      · exact ⟨Nat.le_trans (by decide) h.1, Nat.le_trans h.2 (by decide)⟩
      · decide
    rw [List.take_succ_cons, List.takeWhile_cons_of_pos hdigit] at h
    have hds : ∀ d ∈ (r.take 2).takeWhile Bytes.isDigit, Bytes.isDigit d = true := fun d hd =>
      List.all_eq_true.1 List.all_takeWhile d hd
    obtain ⟨t, ht⟩ := (List.takeWhile_prefix (l := r.take 2) Bytes.isDigit).trans
      (List.take_prefix 2 r)
    generalize (r.take 2).takeWhile Bytes.isDigit = ds at h hds ht
    obtain rfl := (Prod.mk.inj h).1
    refine ⟨b :: ds, t, by rw [← ht]; rfl, Nat.add_comm _ _, .plain hx hu fun hmem => ?_⟩
    exact absurd (hds 92 hmem) (by decide)
  split at h
  · rename_i hreturn
    rw [eq_of_beq hreturn]
    split at h
    · rename_i hfeed
      cases h
      obtain ⟨t, rfl⟩ := List.head?_eq_some_iff.1 (eq_of_beq hfeed)
      exact ⟨[13, 10], t, rfl, rfl, .plain (by decide) (by decide) (by decide)⟩
    · cases h
      exact ⟨[13], r, rfl, rfl, .plain (by decide) (by decide) List.not_mem_nil⟩
  · -- one character
    cases h
    have hpos := Utf8.decode_pos b r
    have hle := Utf8.decode_le (b :: r)
    rw [List.length_cons] at hle
    refine ⟨b :: r.take ((Utf8.decode (b :: r)).2 - 1), r.drop ((Utf8.decode (b :: r)).2 - 1),
      ?_, ?_,
      .plain hx hu fun hmem => absurd (Utf8.decode_tail 92 hmem) (by decide)⟩
    · rw [List.cons_append, List.take_append_drop]
    · rw [List.length_cons, List.length_take]
      omega

/-- What is walked over up to the closing quote can be read, or names too large a number. -/
theorem stringFrom_readable {m : Nat} (hq : q ≠ 92)
    (h : stringFrom strict q skip n faults s = (.closed, m, [])) :
    faults = [] ∧ ∃ body rest, s.drop skip = body ++ q :: rest ∧ m = n + body.length + 1 ∧
      (Readable body ↔ ∀ v ∈ bracedEscapes (body ++ [q]), v ≤ 0x10FFFF) := by
  fun_induction stringFrom strict q skip n faults s with
  | case1 skip n faults => cases h
  | case2 n faults b r k ih => exact ih h
  | case3 n faults b r hb =>
    cases h
    refine ⟨rfl, [], r, by rw [eq_of_beq hb]; rfl, rfl, ?_⟩
    rw [List.nil_append, bracedEscapes_cons hq, bracedEscapes_nil]
    exact iff_of_true readable_nil (List.forall_mem_nil _)
  | case4 n faults b r hb hesc size fault hrun more ih =>
    obtain ⟨hmore, body, rest, hdrop, hm, hread⟩ := ih h
    have hfault : fault = none ∧ faults = [] := by
      cases fault with
      | none => exact ⟨rfl, hmore⟩
      | some f => exact absurd hmore (List.append_ne_nil_of_right_ne_nil _ (List.cons_ne_nil _ _))
    have hne : r ≠ [] := by
      rintro rfl
      cases h
    rw [eq_of_beq hesc, hfault.1] at hrun
    obtain ⟨e, t, rfl, rfl, he⟩ := stringEscape_wellFormed hrun hne
    rw [Nat.add_sub_cancel, List.drop_left] at hdrop
    subst hdrop
    refine ⟨hfault.2, 92 :: (e ++ body), rest, ?_, ?_, ?_⟩
    · rw [eq_of_beq hesc]
      simp
    · rw [hm, List.length_cons, List.length_append]
      omega
    · have hall (v : Nat) : v ∈ bracedEscapes (92 :: (e ++ body) ++ [q]) ↔
          v ∈ bracedEscapes (92 :: e) ∨ v ∈ bracedEscapes (body ++ [q]) := by
        rw [List.cons_append, List.append_assoc, (he.read _).2, List.mem_append]
      simp only [(he.read body).1, hread, hall, or_imp, forall_and]
  | case5 n faults b r hb hesc hline => cases h
  | case6 n faults b r hb hesc hline ih =>
    obtain ⟨hfaults, body, rest, hdrop, hm, hread⟩ := ih h
    have hplain : b ≠ 92 := fun he => hesc (beq_iff_eq.2 he)
    have hbehind := readable_append (p := [b]) (s := body) (by simpa using Ne.symm hplain)
    refine ⟨hfaults, b :: body, rest, ?_, ?_, ?_⟩
    · rw [List.drop_zero] at hdrop ⊢
      rw [hdrop, List.cons_append]
    · rw [hm, List.length_cons]
      omega
    · rw [List.cons_append, bracedEscapes_cons hplain, ← hread, ← hbehind, List.singleton_append]

/-- A string token is read as a string, from its opening quote. -/
theorem next_stringLit (h : (next strict s).kind = .stringLit) :
    ∃ q r, s = q :: r ∧ (q = 34 ∨ q = 39) ∧ next strict s = string strict s := by
  cases s with
  | nil => cases h
  | cons q r =>
    unfold next at h ⊢
    dsimp only at h ⊢
    split at h
    · rcases name_kind (q :: r) with hk | hk <;> rw [h] at hk <;> cases hk
    split at h
    · rcases number_kind strict (q :: r) with hk | hk <;> rw [h] at hk <;> cases hk
    rename_i hname hnumber
    split at h
    · rename_i hq
      refine ⟨q, r, rfl, by simpa using hq, ?_⟩
      rw [if_neg hname, if_neg hnumber, if_pos hq]
    split at h
    · rcases template_head_kind (q :: r) with hk | hk | hk <;> rw [h] at hk <;> cases hk
    split at h
    · rcases privateName_kind (q :: r) with hk | hk <;> rw [h] at hk <;> cases hk
    · exact absurd h (mark_heads q r).2.2.2.1

/-- A string token without a fault is a body between two quotes. The body can be read, or names too
large a number between braces. -/
theorem next_quoted (h : (next strict s).kind = .stringLit) (hf : (next strict s).faults = []) :
    ∃ q body, (q = 34 ∨ q = 39) ∧ s.take (next strict s).size = q :: body ++ [q] ∧
      (Readable body ↔ ∀ v ∈ bracedEscapes (body ++ [q]), v ≤ 0x10FFFF) := by
  obtain ⟨q, r, rfl, hq, hnext⟩ := next_stringLit h
  have hback : q ≠ 92 := by
    rcases hq with rfl | rfl <;> decide
  rw [hnext] at h hf ⊢
  unfold string at h hf ⊢
  dsimp only at h hf ⊢
  split at h <;> rename_i m faults hrun
  · obtain rfl : faults = [] := by
      rw [hrun] at hf
      exact hf
    obtain ⟨-, body, rest, hbody, rfl, hread⟩ := stringFrom_readable hback hrun
    rw [List.drop_zero] at hbody
    have hlength : (body ++ [q]).length = 1 + body.length := by
      rw [List.length_append, List.length_singleton, Nat.add_comm]
    refine ⟨q, body, hq, ?_, hread⟩
    rw [hbody, List.append_cons, List.take_succ_cons, List.take_left' hlength, List.cons_append]
  · cases h
  · cases h

/-- A string token without a fault can be read, or names too large a number between braces. -/
theorem next_readable (h : (next strict s).kind = .stringLit) (hf : (next strict s).faults = []) :
    (unquote (s.take (next strict s).size)).isSome = true ↔
      ∀ v ∈ bracedEscapes (s.take (next strict s).size), v ≤ 0x10FFFF := by
  obtain ⟨q, body, hq, htext, hread⟩ := next_quoted h hf
  have hback : q ≠ 92 := by
    rcases hq with rfl | rfl <;> decide
  rw [htext, unquote_quoted hq, cook_isSome, hread, List.cons_append, bracedEscapes_cons hback]

/-! ## Walking over what is written -/

end ScriptLower.Lexeme

/-! ## Accepted strings -/

namespace ScriptLower.Lexer

open ScriptLower StringLiteral

/-- A string that is read without a fault has a value if and only if no escape with braces in it
names a number above the last code point. -/
theorem string_read_iff {lx lx' : Lexer} {t : Token} (hheld : lx.held = none)
    (h : lx.next = (t, lx', [])) (hstring : t.kind = .stringLit) :
    (unquote t.text).isSome = true ↔ ∀ v ∈ bracedEscapes t.text, v ≤ 0x10FFFF := by
  unfold next at h
  rw [hheld] at h
  unfold scan at h
  dsimp only at h
  generalize placeTrivia lx (TriviaRun.pieces (lx.offset == 0) lx.rest) = placed at h
  obtain ⟨leading, at_, faults⟩ := placed
  simp only [accept, Prod.mk.injEq, List.append_eq_nil_iff, diagnose, List.map_eq_nil_iff] at h
  obtain ⟨rfl, -, -, hfaults⟩ := h
  exact Lexeme.next_readable hstring hfaults

/-- A string that names a code point and one that goes on with its digits. -/
theorem string_read_letter :
    let lx : Lexer := { file := { content := "'\\u\x7b41\x7d2' x" } }
    ∃ t lx', lx.next = (t, lx', []) ∧ t.kind = .stringLit ∧
      ((unquote t.text).isSome = true ↔ ∀ v ∈ bracedEscapes t.text, v ≤ 0x10FFFF) := by
  intro lx
  exact ⟨_, _, rfl, rfl, @string_read_iff lx _ _ rfl rfl rfl⟩

/-- A number above the last code point is no fault of the string, which then has no value. -/
theorem string_read_beyond :
    let lx : Lexer := { file := { content := "'\\u\x7b110000\x7d'" } }
    ∃ t lx', lx.next = (t, lx', []) ∧ t.kind = .stringLit ∧ t.text = lx.file.content ∧
      unquote t.text = none := by
  intro lx
  exact ⟨_, _, rfl, rfl, rfl, rfl⟩

end ScriptLower.Lexer
