import Mathlib.Data.List.TakeWhile
import ScriptLower.Proofs.Print.WordEnds
import ScriptLower.Proofs.Source.Lines

/-!
# Words side by side

A regular expression goes on as long as bytes of a name follow its closing slash, and a string ends
at its quote, whatever follows. Together with names and numbers this says when a word is read in a
text as it is read alone: when it does not end in a byte of a name, or no such byte follows.

The condition cannot be dropped for the other words. A regular expression without flags, a number
that ends in a dot and a name that ends in an escape in braces all go on when a name follows.
-/

namespace ScriptLower

/-- Whether a word ends in a byte of a name. Names do, unless their last character is an escape in
braces; numbers do, unless they end in a dot; regular expressions do if they have flags. -/
def Bytes.endsInName (w : Bytes) : Bool := w.getLast?.any Writer.isWordByte

namespace Lexeme

/-! ## Regular expressions -/

section

variable {r s : Bytes}

/-- The bytes that end a line. -/
theorem terminator_ne_zero (b : UInt8) (s : Bytes) : (Lines.terminator (b :: s) != 0) =
    (b == 10 || b == 13 || (b == 0xE2 && s.head? == some 0x80
      && (s.drop 1).head?.any fun c => c == 0xA8 || c == 0xA9)) := by
  generalize ht : b :: s = t
  fun_cases Lines.terminator t with
  | case1 => obtain ⟨rfl, -⟩ := List.cons.inj ht; rfl
  | case2 => obtain ⟨rfl, -⟩ := List.cons.inj ht; rfl
  | case3 => obtain ⟨rfl, -⟩ := List.cons.inj ht; rfl
  | case4 c t' hc =>
    obtain ⟨rfl, rfl⟩ := List.cons.inj ht
    simp [hc]
  | case5 c t' hc =>
    obtain ⟨rfl, rfl⟩ := List.cons.inj ht
    simp [hc]
  | case6 _ h10 _ hcr hwide =>
    subst ht
    have hb10 : b ≠ 10 := fun h => h10 s (by rw [h])
    have hb13 : b ≠ 13 := fun h => hcr s (by rw [h])
    rw [beq_eq_false_iff_ne.2 hb10, beq_eq_false_iff_ne.2 hb13]
    rcases s with _ | ⟨x, _ | ⟨y, t⟩⟩
    · simp
    · simp
    · have hno : ¬(b = 0xE2 ∧ x = 0x80) := fun h => hwide y t (by rw [h.1, h.2])
      simp_all

/-- A line does not end half in a text and half behind it. -/
theorem terminator_apart (b : UInt8) (hr : r.apart = true) :
    (Lines.terminator (b :: s ++ r) != 0) = (Lines.terminator (b :: s) != 0) := by
  have hlow : ∀ c ∈ r.head?, c ≠ 0x80 ∧ c ≠ 0xA8 ∧ c ≠ 0xA9 := by
    intro c hc
    obtain ⟨r', rfl⟩ := List.head?_eq_some_iff.1 hc
    have hlow := (EndsWord.of_apart hr).low
    refine ⟨?_, ?_, ?_⟩ <;> rintro rfl <;> exact absurd hlow (by decide)
  rw [List.cons_append, terminator_ne_zero, terminator_ne_zero]
  cases r with
  | nil => rw [List.append_nil]
  | cons c r =>
    obtain ⟨h80, hA8, hA9⟩ := hlow c rfl
    rcases s with _ | ⟨x, _ | ⟨y, t⟩⟩
    · simp [h80]
    · simp [hA8, hA9]
    · rfl

theorem regExpFrom_apart (inClass : Bool) (n : Nat) (hr : r.apart = true)
    (h : (regExpFrom inClass n s).1 = true) :
    regExpFrom inClass n (s ++ r) = regExpFrom inClass n s := by
  fun_induction regExpFrom inClass n s with
  | case1 => cases h
  | case2 => cases h
  | case3 => cases h
  | case4 => cases h
  | case5 inClass n b hb c t hline' hline ih =>
    rw [← terminator_apart c hr] at hline'
    rw [← terminator_apart b hr] at hline
    rw [List.cons_append, List.cons_append] at hline
    rw [List.cons_append] at hline'
    rw [List.cons_append, List.cons_append, regExpFrom, if_neg hline, if_pos hb, if_neg hline']
    exact ih h
  | case6 inClass n b t hline hb hslash =>
    rw [← terminator_apart b hr] at hline
    rw [List.cons_append] at hline ⊢
    unfold regExpFrom
    rw [if_neg hline, if_neg hb, if_pos hslash]
  | case7 inClass n b t hline hb hslash ih =>
    rw [← terminator_apart b hr] at hline
    rw [List.cons_append] at hline ⊢
    rw [← ih h, regExpFrom.eq_def inClass]
    dsimp only
    rw [if_neg hline, if_neg hb, if_neg hslash]

/-- A regular expression by the way its body ends. -/
theorem regExp_cons (b : UInt8) (t : Bytes) : regExp (b :: t) = match regExpFrom false 1 t with
    | (true, n) => { kind := .regExpLit, size := n + run CharClass.isNamePart ((b :: t).drop n) }
    | (false, n) =>
      { kind := .invalid, size := n
        faults := [⟨.unterminatedRegExp, 0, n, "unterminated regular expression"⟩] } := by
  unfold regExp
  rw [List.length_cons, Nat.min_eq_left (by omega)]
  rfl

/-- A regular expression ends in a text where it ends alone. -/
theorem regExp_apart {b : UInt8} (hr : r.apart = true) (hk : (regExp (b :: s)).kind ≠ .invalid) :
    regExp (b :: s ++ r) = regExp (b :: s) := by
  have hbound := (regExpFrom_bounds false 1 s).2
  have hclosed : (regExpFrom false 1 s).1 = true := by
    unfold regExp at hk
    split at hk
    · rename_i n hrun
      exact congrArg Prod.fst hrun
    · exact absurd rfl hk
  rw [List.cons_append, regExp_cons, regExp_cons, regExpFrom_apart false 1 hr hclosed]
  split
  · rename_i n hrun
    rw [hrun] at hbound
    have hle : n ≤ (b :: s).length := by
      rw [List.length_cons]
      dsimp only at hbound
      omega
    have hrun : run CharClass.isNamePart ((b :: s).drop n ++ r) =
        run CharClass.isNamePart ((b :: s).drop n) :=
      runFrom_apart 0 (Nat.zero_le _) hr
    rw [← List.cons_append, List.drop_append_of_le_length hle, hrun]
  · rfl

end

/-! ## Strings -/

section

variable {r s : Bytes} {q : UInt8}

/-- A run of bytes that ends in front of a quote ends there, whatever follows the quote. -/
theorem takeWhile_before {p : UInt8 → Bool} (hq : q ∈ s) (hp : p q = false) :
    (s ++ r).takeWhile p = s.takeWhile p := by
  rw [List.takeWhile_append, if_neg]
  intro hall
  have hsame : s.takeWhile p = s := (List.takeWhile_prefix p).eq_of_length hall
  rw [← hsame] at hq
  exact Bool.false_ne_true (hp.symm.trans (List.mem_takeWhile_imp hq))

theorem take_takeWhile_before {p : UInt8 → Bool} (k : Nat) (hq : q ∈ s) (hp : p q = false) :
    ((s ++ r).take k).takeWhile p = (s.take k).takeWhile p := by
  rw [List.take_append]
  by_cases hk : k ≤ s.length
  · rw [Nat.sub_eq_zero_of_le hk, List.take_zero, List.append_nil]
  · rw [List.take_of_length_le (by omega)]
    exact takeWhile_before hq hp

/-- What is known of a quote. -/
structure IsQuote (q : UInt8) : Prop where
  /-- It is an ASCII character. -/
  low : q < 0x80
  /-- It is no digit of any radix. -/
  hex : Bytes.isHexDigit q = false
  /-- It is neither a brace, a backslash, a line end nor the letter of an escape. -/
  other : q ∉ [0x7B, 0x7D, 92, 13, 10, 117, 120]

theorem isQuote_of_eq (h : q = 34 ∨ q = 39) : IsQuote q := by
  rcases h with rfl | rfl
  · exact ⟨by decide, by decide, by decide⟩
  · exact ⟨by decide, by decide, by decide⟩

theorem decode_before (b : UInt8) (hq : q ∈ s) (hlow : q < 0x80) :
    Utf8.decode (b :: s ++ r) = Utf8.decode (b :: s) := by
  have htail : Utf8.isTail q = false := by
    simp [Utf8.isTail, UInt8.not_le.2 hlow]
  have hlo (c : Prop) [Decidable c] {d : UInt8} (hd : 0x80 ≤ d) : ¬(if c then d else 0x80) ≤ q := by
    split
    · exact fun h => UInt8.lt_irrefl q (UInt8.lt_of_lt_of_le hlow (UInt8.le_trans hd h))
    · exact UInt8.not_le.2 hlow
  rcases s with _ | ⟨x, _ | ⟨y, _ | ⟨z, t⟩⟩⟩
  · cases hq
  · obtain rfl := List.mem_singleton.1 hq
    rcases r with _ | ⟨y, _ | ⟨z, t⟩⟩ <;> simp [Utf8.decode, htail, hlo]
  · rcases r with _ | ⟨z, t⟩
    · rfl
    · rcases List.mem_cons.1 hq with rfl | hq
      · simp [Utf8.decode, htail, hlo]
      · obtain rfl := List.mem_singleton.1 hq
        simp [Utf8.decode, htail]
  · rfl

theorem unicodeEscape_plain {x : UInt8} (hx : x ≠ 0x7B) (t : Bytes) :
    unicodeEscape (92 :: 117 :: x :: t) =
    ((((x :: t).take 4).takeWhile Bytes.isHexDigit).length + 2,
      (((x :: t).take 4).takeWhile Bytes.isHexDigit).length == 4) := by
  rw [unicodeEscape]
  intro u hu
  exact hx (List.cons.inj hu).1

theorem unicodeEscape_before (hq : q ∈ s) (h : IsQuote q) :
    unicodeEscape (92 :: 117 :: s ++ r) = unicodeEscape (92 :: 117 :: s) := by
  cases s with
  | nil => cases hq
  | cons x t =>
    by_cases hx : x = 0x7B
    · subst hx
      have hqt : q ∈ t := (List.mem_cons.1 hq).resolve_left fun he => h.other (by simp [he])
      have hlt : (t.takeWhile Bytes.isHexDigit).length < t.length := by
        refine Nat.lt_of_le_of_ne (List.takeWhile_prefix _).length_le fun hall => ?_
        have hsame := (List.takeWhile_prefix Bytes.isHexDigit).eq_of_length hall
        rw [← hsame] at hqt
        exact Bool.false_ne_true (h.hex.symm.trans (List.mem_takeWhile_imp hqt))
      obtain ⟨y, u, hrest⟩ :=
        List.exists_cons_of_length_pos (l := t.drop (t.takeWhile Bytes.isHexDigit).length)
        (by rw [List.length_drop]; omega)
      simp only [List.cons_append, unicodeEscape, takeWhile_before hqt h.hex,
        List.drop_append_of_le_length (Nat.le_of_lt hlt), hrest]
      by_cases hy : y = 0x7D
      · subst hy
        rfl
      · simp [hy]
    · have hfour := take_takeWhile_before (r := r) 4 hq h.hex
      rw [List.cons_append] at hfour
      rw [List.cons_append, List.cons_append, List.cons_append, unicodeEscape_plain hx,
        unicodeEscape_plain hx, hfour]

/-- An escape in a string is read the same way, whatever follows the closing quote. -/
theorem stringEscape_before (strict : Bool) (hq : q ∈ s) (h : IsQuote q) :
    stringEscape strict (92 :: s ++ r) = stringEscape strict (92 :: s) := by
  cases s with
  | nil => cases hq
  | cons b t =>
    have hdigit : Bytes.isDigit q = false :=
      (Bool.or_eq_false_iff.1 (Bool.or_eq_false_iff.1 h.hex).1).1
    have hmem (hb : q ≠ b) : q ∈ t := (List.mem_cons.1 hq).resolve_left hb
    have hhead (hb : q ≠ b) : (t ++ r).head? = t.head? := by
      cases t with
      | nil => cases hmem hb
      | cons c t => rfl
    unfold stringEscape
    simp only [List.cons_append, List.drop_succ_cons, List.drop_zero]
    by_cases hx : (b == ascii 'x') = true
    · rw [if_pos hx, if_pos hx]
      have hne : q ≠ b := fun he => h.other (by rw [he, beq_iff_eq.1 hx]; decide)
      -- two bytes stand behind the letter, or the quote alone
      rcases t with _ | ⟨c, _ | ⟨d, t⟩⟩
      · cases hmem hne
      · obtain rfl := List.mem_singleton.1 (hmem hne)
        cases r with
        | nil => rfl
        | cons d r => simp [h.hex]
      · rfl
    rw [if_neg hx, if_neg hx]
    by_cases hu : (b == ascii 'u') = true
    · rw [if_pos hu, if_pos hu]
      have hb : b = 117 := beq_iff_eq.1 hu
      have hne : q ≠ b := fun he => h.other (by rw [he, hb]; decide)
      rw [hb, show (92 :: 117 :: (t ++ r)) = 92 :: 117 :: t ++ r from rfl,
        unicodeEscape_before (hmem hne) h]
    rw [if_neg hu, if_neg hu]
    have hoctal :
        (b == 48 && (t ++ r).head?.any Bytes.isDigit) = (b == 48 && t.head?.any Bytes.isDigit) := by
      cases hb : b == 48 with
      | false => rfl
      | true =>
        have hne : q ≠ b := fun he => absurd hdigit (by rw [he, beq_iff_eq.1 hb]; decide)
        rw [hhead hne]
    rw [hoctal]
    by_cases ho :
      (decide (49 ≤ b) && decide (b ≤ 55) || b == 48 && t.head?.any Bytes.isDigit) = true
    · rw [if_pos ho, if_pos ho, ← List.cons_append, take_takeWhile_before 3 hq hdigit]
    rw [if_neg ho, if_neg ho]
    by_cases hcr : (b == 13) = true
    · have hne : q ≠ b := fun he => h.other (by rw [he, beq_iff_eq.1 hcr]; decide)
      rw [if_pos hcr, if_pos hcr, hhead hne]
    · rw [if_neg hcr, if_neg hcr]
      by_cases hb : q = b
      · subst hb
        rw [decode_ascii _ h.low, decode_ascii _ h.low]
      · rw [← List.cons_append, decode_before b (hmem hb) h.low]

/-- A walk over a string that comes to its closing quote finds one. -/
theorem quote_mem (strict : Bool) (skip n : Nat) (faults : List Fault)
    (h : (stringFrom strict q skip n faults s).1 = .closed) : q ∈ s.drop skip := by
  fun_induction stringFrom strict q skip n faults s with
  | case1 => cases h
  | case2 n faults b t k ih => exact ih h
  | case3 n faults b t hb => exact beq_iff_eq.1 hb ▸ List.mem_cons_self
  | case4 n faults b t hb hesc size fault hrun more ih =>
    exact List.mem_cons_of_mem _ (List.mem_of_mem_drop (ih h))
  | case5 => cases h
  | case6 n faults b t hb hesc hline ih => exact List.mem_cons_of_mem _ (ih h)

theorem stringFrom_closed (strict : Bool) (skip n : Nat) (faults : List Fault) (hq : IsQuote q)
    (h : (stringFrom strict q skip n faults s).1 = .closed) :
    stringFrom strict q skip n faults (s ++ r) = stringFrom strict q skip n faults s := by
  fun_induction stringFrom strict q skip n faults s with
  | case1 => cases h
  | case2 n faults b t k ih => exact ih h
  | case3 n faults b t hb => rw [List.cons_append, stringFrom, if_pos hb]
  | case4 n faults b t hb hesc size fault hrun more ih =>
    have hmem : q ∈ t := List.mem_of_mem_drop (quote_mem strict _ _ _ h)
    rw [List.cons_append, stringFrom, if_neg hb, if_pos hesc, ← List.cons_append]
    have hb92 : b = 92 := beq_iff_eq.1 hesc
    subst hb92
    rw [stringEscape_before strict hmem hq, hrun]
    exact ih h
  | case5 => cases h
  | case6 n faults b t hb hesc hline ih =>
    rw [List.cons_append, stringFrom, if_neg hb, if_neg hesc, if_neg hline]
    exact ih h

/-- A string ends at its quote. -/
theorem string_append (strict : Bool) (hq : q = 34 ∨ q = 39)
    (hk : (string strict (q :: s)).kind = .stringLit) :
    string strict (q :: s ++ r) = string strict (q :: s) := by
  have hclosed : (stringFrom strict q 0 1 [] s).1 = .closed := by
    unfold string at hk
    dsimp only at hk
    split at hk
    · rename_i hrun
      rw [hrun]
    · cases hk
    · cases hk
  rw [List.cons_append, string, string, stringFrom_closed strict 0 1 [] (isQuote_of_eq hq) hclosed]

end

/-! ## Marks -/

/-- The marks that are read at once. -/
def marks : List Bytes :=
  longMarks.map (fun m => Bytes.ofString m.1) ++ [63, 46] ::
    [0x7B, 0x7D, 40, 41, 91, 93, 46, 59, 44, 60, 62, 43, 45, 42, 47, 37, 38, 124,
      94, 33, 126, 63, 58, 64,
      61].map ([·])

/-- Whether one of some longer marks begins with a mark and the byte behind it. -/
def lengthens (ms : List (String × TokenKind)) (w r : Bytes) : Bool :=
  r.head?.any fun b => ms.any fun m => (w ++ [b]).isPrefixOf (Bytes.ofString m.1)

/-- Whether a mark goes on behind it: as a longer mark, or as a number that begins with a dot. A
question mark and a dot are one mark unless a digit follows. -/
def goesOn (w r : Bytes) : Bool :=
  lengthens longMarks w r ||
    (w == [63] && r.head? == some 46 && !(r.drop 1).head?.any Bytes.isDigit)
    || ((w == [46] || w == [63, 46]) && r.head?.any Bytes.isDigit)

section

variable {r w : Bytes} {ms : List (String × TokenKind)}

/-- The longest mark at the head of a text is the longest at the head of its first part, when none
goes on behind that. -/
theorem find_prefix_append (h : lengthens ms w r = false) :
    (ms.find? fun m => (Bytes.ofString m.1).isPrefixOf (w ++ r)) =
      ms.find? fun m => (Bytes.ofString m.1).isPrefixOf w := by
  rw [← List.head?_filter, ← List.head?_filter]
  refine congrArg List.head? (List.filter_congr fun m hm => ?_)
  rw [Bool.eq_iff_iff, List.isPrefixOf_iff_prefix, List.isPrefixOf_iff_prefix]
  refine ⟨fun hp => ?_, fun hp => hp.trans (List.prefix_append _ _)⟩
  rcases List.prefix_or_prefix_of_prefix hp (List.prefix_append w r) with hshort | ⟨t, ht⟩
  · exact hshort
  cases t with
  | nil =>
    rw [List.append_nil] at ht
    exact ht ▸ List.prefix_refl w
  | cons b t =>
    -- the mark is longer than the first part, so the next byte continues it
    rw [← ht, List.prefix_append_right_inj] at hp
    obtain ⟨r', rfl⟩ := hp
    have hlonger : lengthens ms w (b :: t ++ r') = true := by
      refine List.any_eq_true.2 ⟨m, hm, List.isPrefixOf_iff_prefix.2 ⟨t, ?_⟩⟩
      rw [← ht, List.append_assoc]
      rfl
    rw [h] at hlonger
    cases hlonger

/-- A byte that begins a name, a number, a string, a template or a private name. -/
def beginsOther (b : UInt8) : Bool :=
  isNameStartByte b || b == 92 || 0x80 ≤ b || Bytes.isDigit b || b == 34 || b ==
    39 || b == 96 || b == 35

/-- Where nothing else begins, a mark is read. -/
theorem next_eq_mark (strict : Bool) {b : UInt8} {s : Bytes} (hb : beginsOther b = false)
    (hdot : (b == 46 && s.head?.any Bytes.isDigit) = false) :
    next strict (b :: s) = mark (b :: s) := by
  simp only [beginsOther, Bool.or_eq_false_iff] at hb
  obtain ⟨⟨⟨⟨⟨⟨⟨hstart, hescape⟩, hwide⟩, hdigit⟩, hdouble⟩, hsingle⟩, htick⟩, hhash⟩ := hb
  simp [next, hstart, hescape, hwide, hdigit, hdot, hdouble, hsingle, htick, hhash]

theorem mark_append (hw : w ∈ marks) (h : goesOn w r = false) : mark (w ++ r) = mark w := by
  have hshort : ∀ w ∈ marks, longMarks.find? (fun m => (Bytes.ofString m.1).isPrefixOf w) = none →
      w = [63, 46] ∨ w.length = 1 := by decide
  obtain ⟨hlonger, hdigit⟩ := Bool.or_eq_false_iff.1 h
  obtain ⟨hlonger, hquestion⟩ := Bool.or_eq_false_iff.1 hlonger
  unfold mark
  rw [find_prefix_append hlonger]
  split
  · rfl
  · rename_i hnone
    rcases hshort w hw hnone with rfl | hlen
    · have hno : r.head?.any Bytes.isDigit = false := hdigit
      simp [hno]
    · obtain ⟨b, rfl⟩ := List.length_eq_one_iff.1 hlen
      have hno :
          (b == 63 && r.head? == some 46 && !(r.drop 1).head?.any Bytes.isDigit) = false := by
        rw [← hquestion]
        simp
      have halone : (b == 63 && ([] : Bytes).head? == some 46
          && !(([] : Bytes).drop 1).head?.any Bytes.isDigit) = false := by simp
      rw [List.cons_append, List.nil_append]
      dsimp only
      rw [hno, halone]

/-- A mark is read in a text as it is read alone, unless it goes on. -/
theorem next_mark (strict : Bool) (hw : w ∈ marks) (h : goesOn w r = false) :
    next strict (w ++ r) = next strict w := by
  have hheads : ∀ w ∈ marks, w.head?.any beginsOther = false ∧ w ≠ [] ∧
      (w.head? = some 46 → w = [46] ∨ (w.drop 1).head? = some 46) := by decide
  obtain ⟨hfirst, hne, hdots⟩ := hheads w hw
  cases w with
  | nil => exact absurd rfl hne
  | cons b s =>
    have hdot (t : Bytes) (ht : t = [] ∨ t = r) :
        (b == 46 && (s ++ t).head?.any Bytes.isDigit) = false := by
      cases hb : b == 46 with
      | false => rfl
      | true =>
        obtain rfl := beq_iff_eq.1 hb
        rcases hdots rfl with hs | hs
        · obtain rfl := (List.cons.inj hs).2
          rcases ht with rfl | rfl
          · rfl
          · exact (Bool.or_eq_false_iff.1 h).2
        · obtain ⟨s', rfl⟩ := List.head?_eq_some_iff.1 hs
          rfl
    have halone := hdot [] (.inl rfl)
    rw [List.append_nil] at halone
    rw [List.cons_append, next_eq_mark strict hfirst (hdot r (.inr rfl)),
      next_eq_mark strict hfirst halone,
      ← List.cons_append]
    exact mark_append hw h

/-- The marks that begin with a greater-than sign are read at once where a comparison or a shift may
stand. -/
theorem greater_append (hw : w ≠ []) (h : lengthens greaterMarks w r = false) :
    greater (w ++ r) = greater w := by
  unfold greater
  rw [find_prefix_append h]
  split
  · rfl
  · have hlen : 1 ≤ w.length := List.length_pos_iff.2 hw
    rw [List.length_append, Nat.min_eq_left hlen, Nat.min_eq_left (by omega)]

end

/-! ## The next token -/

/-- Names, reserved words, private names and numbers. -/
def isWordKind (k : TokenKind) : Bool :=
  k.isPropertyName || k == .privateName || k == .numberLit || k == .bigIntLit

section

variable {r w : Bytes}

theorem isWordKind_mark (b : UInt8) (s : Bytes) : isWordKind (mark (b :: s)).kind = false := by
  have hlong : ∀ p ∈ longMarks, isWordKind p.2 = false := by decide
  unfold mark
  split
  · rename_i m kind hfind
    exact hlong _ (List.mem_of_find?_eq_some hfind)
  · dsimp only
    split
    · rfl
    · split
      · rename_i kind hkind
        unfold shortMark? at hkind
        split at hkind <;> cases hkind <;> rfl
      · rfl

/-- A name or a number ends in a text where it ends alone, when a byte of another kind follows. -/
theorem next_apart (strict : Bool) (hr : r.apart = true)
    (hword : isWordKind (next strict w).kind = true)
    (hf : (next strict w).faults = [])
    (hdot : (next strict w).kind = .numberLit → r.head? ≠ some 46) :
    next strict (w ++ r) = next strict w := by
  cases w with
  | nil => cases hword
  | cons b s =>
    have hhead : (s ++ r).head?.any Bytes.isDigit = s.head?.any Bytes.isDigit := by
      cases s with
      | cons c s => rfl
      | nil =>
        cases r with
        | nil => rfl
        | cons c r => exact (EndsWord.of_apart hr).digit
    unfold next at hword hf hdot ⊢
    rw [List.cons_append]
    dsimp only at hword hf hdot ⊢
    rw [hhead]
    split
    · rename_i hname
      rw [if_pos hname] at hf
      exact name_apart (s := b :: s) hr fun hk => (name_within (b :: s)).told hk hf
    rename_i hname
    rw [if_neg hname] at hword hf hdot
    split
    · rename_i hnumber
      rw [if_pos hnumber] at hf hdot
      exact number_apart strict hr hdot hf
    rename_i hnumber
    rw [if_neg hnumber] at hword hf
    split
    · rename_i hquote
      rw [if_pos hquote] at hword
      rcases string_kind strict (b :: s) with hk | hk <;> rw [hk] at hword <;> cases hword
    rename_i hquote
    rw [if_neg hquote] at hword hf
    split
    · rename_i htick
      rw [if_pos htick] at hword
      rcases template_head_kind (b :: s) with hk | hk | hk <;> rw [hk] at hword <;> cases hword
    rename_i htick
    rw [if_neg htick] at hword hf
    split
    · rename_i hhash
      rw [if_pos hhash] at hf
      exact privateName_apart hr hf
    · rename_i hhash
      rw [if_neg hhash, isWordKind_mark] at hword
      cases hword

/-- A string ends at its quote, whatever follows. -/
theorem next_string (strict : Bool) (hk : (next strict w).kind = .stringLit) :
    next strict (w ++ r) = next strict w := by
  cases w with
  | nil => cases hk
  | cons b s =>
    have hquote : b = 34 ∨ b = 39 := by
      rcases (next_heads strict (b :: s)).string hk with h | h
      · exact .inl (Option.some.inj h)
      · exact .inr (Option.some.inj h)
    have hnext (t : Bytes) : next strict (b :: t) = string strict (b :: t) := by
      rcases hquote with rfl | rfl <;> rfl
    rw [hnext] at hk
    rw [List.cons_append, hnext, hnext]
    exact string_append strict hquote hk

end

/-! ## Words of a printed text -/

/-- A word and what follows it do not run together. -/
def KeptApart (w r : Bytes) : Prop :=
  ∀ a ∈ w.getLast?, ∀ b ∈ r.head?, Writer.runTogether a b = false

/-- A word is kept apart from what follows it, and read in front of it as it is read alone. For a
word that does not end in a byte of a name this takes that no such byte follows. -/
structure ReadAlike (strict : Bool) (w r : Bytes) : Prop where
  /-- The word and what follows do not run together. -/
  apart : KeptApart w r
  /-- A name or a number. A number goes on at a dot. -/
  word : w.endsInName = true ∨ r.apart = true → isWordKind (next strict w).kind = true →
    (next strict w).faults = [] → ((next strict w).kind = .numberLit → r.head? ≠ some 46) →
    next strict (w ++ r) = next strict w
  /-- A string. -/
  string : (next strict w).kind = .stringLit → next strict (w ++ r) = next strict w
  /-- A regular expression. -/
  regExp : w.endsInName = true ∨ r.apart = true → (regExp w).kind = .regExpLit →
    regExp (w ++ r) = regExp w
  /-- A mark. -/
  mark : w ∈ marks → goesOn w r = false → next strict (w ++ r) = next strict w
  /-- A mark that is read again from its greater-than sign on. -/
  greater : w ≠ [] → lengthens greaterMarks w r = false → greater (w ++ r) = greater w

theorem KeptApart.apart {w r : Bytes} (h : KeptApart w r) (hw : w.endsInName = true) :
    r.apart = true := by
  unfold Bytes.endsInName at hw
  cases hlast : w.getLast? with
  | none =>
    rw [hlast] at hw
    cases hw
  | some a =>
    rw [hlast] at hw
    have ha : Writer.isWordByte a = true := hw
    cases r with
    | nil => rfl
    | cons b r =>
      have hrun := (Bool.or_eq_false_iff.1 (h a hlast b rfl)).1
      rw [ha, Bool.true_and] at hrun
      rw [apart_cons, hrun, Bool.not_false]

theorem KeptApart.readAlike {strict : Bool} {w r : Bytes} (h : KeptApart w r) :
    ReadAlike strict w r where
  apart := h
  word hends hword hf hdot := next_apart strict (hends.elim h.apart id) hword hf hdot
  string hk := next_string strict hk
  regExp hends hk := by
    cases w with
    | nil => cases hk
    | cons b s =>
      refine regExp_apart (hends.elim h.apart id) ?_
      rw [hk]
      decide
  mark hw hgo := next_mark strict hw hgo
  greater hw hgo := greater_append hw hgo

end Lexeme

end ScriptLower
