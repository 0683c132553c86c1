import Mathlib.Algebra.GroupWithZero.Nat
import Mathlib.Data.List.GetD
import Mathlib.Data.Nat.Init
import ScriptLower.Proofs.Source.Positions

/-!
# Lines and positions

A text is its lines one after the other, each but the last with one terminator at its end and none
before. The starts of the lines cut the text into these, and the line of an offset is the last that
starts up to it. So line and column say where an offset is, and no two offsets have them in common.
-/

namespace ScriptLower.Lines

open ScriptLower

/-! ## Terminators -/

/-- The line terminators. -/
def terminators : List Bytes := [[10], [13, 10], [13], [0xE2, 0x80, 0xA8], [0xE2, 0x80, 0xA9]]

/-- No terminator stands anywhere in a text. -/
def Free (s : Bytes) : Prop := ∀ t ∈ terminators, ¬t <:+: s

variable {body r s t : Bytes} {n off : Nat}

/-- Where no terminator is seen, none begins. -/
theorem terminator_eq_zero (h : terminator s = 0) : ∀ t ∈ terminators, ¬t <+: s := by
  intro t ht hbegins
  simp only [terminators, List.mem_cons, List.not_mem_nil, or_false] at ht
  revert h hbegins
  fun_cases terminator s with
  | case1 => exact fun h => absurd h (by decide)
  | case2 => exact fun h => absurd h (by decide)
  | case3 => exact fun h => absurd h (by decide)
  | case4 => exact fun h => absurd h (by decide)
  | case5 c r hc =>
    intro _ hbegins
    rcases ht with rfl | rfl | rfl | rfl | rfl <;> simp_all [List.cons_prefix_cons]
  | case6 _ h10 _ h13 hwide =>
    rintro - ⟨r, rfl⟩
    rcases ht with rfl | rfl | rfl | rfl | rfl
    · exact h10 r rfl
    · exact h13 (10 :: r) rfl
    · exact h13 r rfl
    · exact hwide 0xA8 r rfl
    · exact hwide 0xA9 r rfl

/-- Where a terminator is seen, one begins, and a carriage return is seen alone only if no line feed
stands behind it. -/
theorem terminator_eq_succ (h : terminator s = n + 1) :
    ∃ t ∈ terminators, ∃ r, s = t ++ r ∧ t.length = n + 1 ∧ (t = [13] → r.head? ≠ some 10) := by
  revert h
  fun_cases terminator s with
  | case1 r => exact fun h => ⟨[10], by decide, r, rfl, h, fun he => absurd he (by decide)⟩
  | case2 r => exact fun h => ⟨[13, 10], by decide, r, rfl, h, fun he => absurd he (by decide)⟩
  | case3 r hlf =>
    refine fun h => ⟨[13], by decide, r, rfl, h, fun _ hr => ?_⟩
    obtain ⟨u, hu⟩ := List.head?_eq_some_iff.1 hr
    exact hlf u hu
  | case4 c r hc =>
    refine fun h => ⟨[0xE2, 0x80, c], ?_, r, rfl, h, fun he => absurd he (by simp)⟩
    rw [Bool.or_eq_true, beq_iff_eq, beq_iff_eq] at hc
    rcases hc with rfl | rfl <;> decide
  | case5 => exact fun h => absurd h (Nat.succ_ne_zero n).symm
  | case6 => exact fun h => absurd h (Nat.succ_ne_zero n).symm

/-! ## Cutting a text into lines -/

/-- Bytes that belong to a terminator already seen are passed over. -/
theorem startsFrom_append (off : Nat) (t s : Bytes) :
    startsFrom off t.length (t ++ s) = startsFrom (off + t.length) 0 s := by
  induction t generalizing off with
  | nil => rfl
  | cons b t ih =>
    rw [List.length_cons, List.cons_append, startsFrom, ih]
    congr 1
    omega

theorem startsFrom_zero (off : Nat) (b : UInt8) (r : Bytes) (h : terminator (b :: r) = 0) :
    startsFrom off 0 (b :: r) = startsFrom (off + 1) 0 r := by
  rw [startsFrom, h]

/-- Behind a terminator a line starts. -/
theorem startsFrom_terminator (off : Nat) (ht : terminator (t ++ r) = t.length) (hne : t ≠ []) :
    startsFrom off 0 (t ++ r) = (off + t.length) :: startsFrom (off + t.length) 0 r := by
  obtain ⟨b, t, rfl⟩ := List.exists_cons_of_ne_nil hne
  rw [List.cons_append, List.length_cons] at ht
  rw [List.cons_append, startsFrom, ht]
  dsimp only
  rw [startsFrom_append]
  congr 1
  congr 1
  rw [List.length_cons]
  omega

theorem Free.nil : Free [] := by
  unfold Free
  simp only [List.infix_nil]
  decide

theorem Free.cons {b : UInt8} (h : Free body) (hb : terminator (b :: body ++ r) = 0) :
    Free (b :: body) := by
  intro t ht hinfix
  rcases List.infix_cons_iff.1 hinfix with hbegins | hinfix
  · exact terminator_eq_zero hb t ht (hbegins.trans (List.prefix_append _ _))
  · exact h t ht hinfix

/-- The first line of a text ends with a terminator, behind which the next line starts, or it is the
whole text. -/
theorem startsFrom_cases (off : Nat) (s : Bytes) :
    (startsFrom off 0 s = [] ∧ Free s) ∨
      ∃ body, ∃ t ∈ terminators, ∃ r, s = body ++ t ++ r ∧ Free body ∧
        (t = [13] → r.head? ≠ some 10) ∧
        startsFrom off 0 s = (off + (body ++ t).length) ::
          startsFrom (off + (body ++ t).length) 0 r := by
  induction s generalizing off with
  | nil => exact .inl ⟨rfl, Free.nil⟩
  | cons b s ih =>
    cases hterm : terminator (b :: s) with
    | zero =>
      rw [startsFrom_zero off b s hterm]
      rcases ih (off + 1) with ⟨hnil, hfree⟩ | ⟨body, t, ht, r, rfl, hfree, hlone, hstarts⟩
      · exact .inl ⟨hnil, hfree.cons (r := []) (by rwa [List.append_nil])⟩
      · refine .inr ⟨b :: body, t, ht, r, rfl, hfree.cons (r := t ++ r) ?_, hlone, ?_⟩
        · rwa [List.cons_append, ← List.append_assoc]
        · have hoff : off + 1 + (body ++ t).length = off + (b :: body ++ t).length := by
            rw [List.cons_append, List.length_cons]
            omega
          rw [hstarts, hoff]
    | succ n =>
      obtain ⟨t, ht, r, hs, hlength, hlone⟩ := terminator_eq_succ hterm
      have hne : t ≠ [] := List.ne_nil_of_length_eq_add_one hlength
      refine .inr ⟨[], t, ht, r, hs, Free.nil, hlone, ?_⟩
      rw [List.nil_append, hs, startsFrom_terminator off (by rw [← hs, hterm, hlength]) hne]

/-- The pieces of a text that begins at `off`, cut at further offsets. -/
def cutFrom (off : Nat) : List Nat → Bytes → List Bytes
  | [], s => [s]
  | start :: starts, s => s.take (start - off) :: cutFrom start starts (s.drop (start - off))

/-- The pieces of a text between the starts of its lines. -/
def cut (s : Bytes) : List Bytes := cutFrom 0 (startsFrom 0 0 s) s

/-- A text that begins at an offset is cut into its lines at some further starts. -/
inductive IsCut : Nat → Bytes → List Nat → List Bytes → Prop
  /-- The last line has no terminator. -/
  | last {off : Nat} {s : Bytes} (free : Free s) : IsCut off s [] [s]
  /-- Any other line has one, and no line feed begins the line behind a carriage return alone. -/
  | line {off : Nat} {body t r : Bytes} {starts : List Nat} {ls : List Bytes} (free : Free body)
      (terminator : t ∈ terminators) (lone : t = [13] → r.head? ≠ some 10)
      (rest : IsCut (off + (body ++ t).length) r starts ls) :
      IsCut off (body ++ t ++ r) ((off + (body ++ t).length) :: starts) ((body ++ t) :: ls)

theorem length_pos_of_mem_terminators (h : t ∈ terminators) : 0 < t.length := by
  revert t
  decide

/-- A text is cut into its lines where they start. -/
theorem isCut (off : Nat) (s : Bytes) :
    IsCut off s (startsFrom off 0 s) (cutFrom off (startsFrom off 0 s) s) := by
  induction hn : s.length using Nat.strong_induction_on generalizing off s with
  | _ n ih =>
    rcases startsFrom_cases off s with ⟨hnil, hfree⟩ | ⟨body, t, ht, r, rfl, hfree, hlone, hstarts⟩
    · rw [hnil]
      exact .last hfree
    · have hlength : r.length < n := by
        have := length_pos_of_mem_terminators ht
        simp only [List.length_append] at hn
        omega
      rw [hstarts, cutFrom, Nat.add_sub_cancel_left, List.take_left, List.drop_left]
      exact .line hfree ht hlone (ih _ hlength _ r rfl)

section

variable {ls : List Bytes} {starts : List Nat}

theorem IsCut.flatten (h : IsCut off s starts ls) : ls.flatten = s := by
  induction h with
  | last => exact List.append_nil _
  | line free terminator lone rest ih => rw [List.flatten_cons, ih]

theorem IsCut.length (h : IsCut off s starts ls) : ls.length = starts.length + 1 := by
  induction h with
  | last => rfl
  | line free terminator lone rest ih => rw [List.length_cons, ih, List.length_cons]

/-- The starts lie behind each other, and in the text. -/
theorem IsCut.starts_increase (h : IsCut off s starts ls) :
    (off :: starts).Pairwise (· < ·) ∧ ∀ start ∈ starts, start ≤ off + s.length := by
  induction h with
  | last => exact ⟨List.pairwise_singleton _ _, List.forall_mem_nil _⟩
  | @line off body t r starts ls free terminator lone rest ih =>
    obtain ⟨hpairwise, hbound⟩ := ih
    have hpos := length_pos_of_mem_terminators terminator
    have hlt : off < off + (body ++ t).length := by
      rw [List.length_append]
      omega
    refine ⟨List.pairwise_cons.2 ⟨fun start hstart => ?_, hpairwise⟩, fun start hstart => ?_⟩
    · rcases List.mem_cons.1 hstart with rfl | hstart
      · exact hlt
      · exact Nat.lt_trans hlt (List.rel_of_pairwise_cons hpairwise hstart)
    · rw [List.length_append, ← Nat.add_assoc]
      rcases List.mem_cons.1 hstart with rfl | hstart
      · exact Nat.le_add_right _ _
      · exact hbound start hstart

/-- A piece of a text that begins at `off`. -/
def slice (off : Nat) (s : Bytes) (start stop : Nat) : Bytes :=
    (s.take (stop - off)).drop (start - off)

/-- A piece that starts behind the front of a text is one of its rest. -/
theorem slice_append {front : Bytes} {start stop : Nat} (hstart : off + front.length ≤ start)
    (hstop : off + front.length ≤ stop) :
    slice off (front ++ r) start stop = slice (off + front.length) r start stop := by
  obtain ⟨i, rfl⟩ := Nat.exists_eq_add_of_le hstart
  obtain ⟨j, rfl⟩ := Nat.exists_eq_add_of_le hstop
  unfold slice
  rw [Nat.add_sub_cancel_left, Nat.add_sub_cancel_left, Nat.add_assoc, Nat.add_assoc,
    Nat.add_sub_cancel_left, Nat.add_sub_cancel_left, List.take_length_add_append,
    List.drop_length_add_append]

/-- The line with a number is what stands from its start to the next, or to the end of the text. -/
theorem IsCut.getElem? (h : IsCut off s starts ls) (i : Nat) (hi : i < ls.length) :
    ls[i]? = some (slice off s ((off :: starts).getD i 0) (starts.getD i (off + s.length))) := by
  induction h generalizing i with
  | last =>
    cases i with
    | zero => simp [slice]
    | succ i => exact absurd hi (by simp)
  | @line off body t r starts ls free terminator lone rest ih =>
    cases i with
    | zero =>
      unfold slice
      rw [List.getElem?_cons_zero, List.getD_cons_zero, List.getD_cons_zero,
        Nat.add_sub_cancel_left,
        Nat.sub_self, List.drop_zero, List.take_left]
    | succ i =>
      have hi : i < ls.length := Nat.lt_of_succ_lt_succ hi
      have hlength := rest.length
      -- all starts of the rest lie behind the first line
      have hbehind :
          ∀ start ∈ (off + (body ++ t).length) :: starts, off + (body ++ t).length ≤ start := by
        intro start hstart
        rcases List.mem_cons.1 hstart with rfl | hstart
        · exact Nat.le_refl _
        · exact Nat.le_of_lt (List.rel_of_pairwise_cons rest.starts_increase.1 hstart)
      have hstart : off + (body ++ t).length ≤ ((off + (body ++ t).length) :: starts).getD i 0 := by
        rw [List.getD_eq_getElem _ _ (by rw [List.length_cons]; omega)]
        exact hbehind _ (List.getElem_mem _)
      have hend : off + (body ++ t).length + r.length = off + (body ++ t ++ r).length := by
        rw [@List.length_append _ (body ++ t), Nat.add_assoc]
      have hstop : off + (body ++ t).length ≤ starts.getD i (off + (body ++ t ++ r).length) := by
        by_cases hlast : i < starts.length
        · rw [List.getD_eq_getElem _ _ hlast]
          exact hbehind _ (List.mem_cons_of_mem _ (List.getElem_mem _))
        · rw [List.getD_eq_default _ _ (Nat.not_lt.1 hlast), ← hend]
          exact Nat.le_add_right _ _
      rw [List.getElem?_cons_succ, ih i hi, List.getD_cons_succ, List.getD_cons_succ, hend,
        slice_append hstart hstop]

/-- Each line but the last has one terminator at its end and none before; the last line has none. -/
theorem IsCut.line_ends (h : IsCut off s starts ls) {i : Nat} {l : Bytes} (hl : ls[i]? = some l) :
    ∃ body t, l = body ++ t ∧ Free body ∧ (i < starts.length → t ∈ terminators) ∧
      (i = starts.length → t = []) := by
  induction h generalizing i with
  | last free =>
    cases i with
    | zero =>
      cases hl
      exact ⟨l, [], (List.append_nil l).symm, free, fun h => absurd h (Nat.lt_irrefl _),
        fun _ => rfl⟩
    | succ i => cases hl
  | line free terminator lone rest ih =>
    cases i with
    | zero =>
      cases hl
      exact ⟨_, _, rfl, free, fun _ => terminator, fun h => absurd h (Nat.succ_ne_zero _).symm⟩
    | succ i =>
      obtain ⟨body, t, hl', hfree, hterminator, hlast⟩ := ih hl
      exact ⟨body, t, hl', hfree, fun h => hterminator (Nat.lt_of_succ_lt_succ h),
        fun h => hlast (Nat.succ.inj h)⟩

theorem IsCut.head (h : IsCut off s starts ls) {l : Bytes} (hl : ls[0]? = some l) : l <+: s := by
  cases h with
  | last => cases hl; exact List.prefix_rfl
  | line => cases hl; exact List.prefix_append _ _

/-- A carriage return and the line feed behind it end one line together. -/
theorem IsCut.pair_stays (h : IsCut off s starts ls) {i : Nat} {l l' : Bytes} (hl : ls[i]? = some l)
    (hl' : ls[i + 1]? = some l') (hreturn : l.getLast? = some 13) : l'.head? ≠ some 10 := by
  induction h generalizing i with
  | last => cases i <;> cases hl'
  | @line off body t r starts ls free terminator lone rest ih =>
    cases i with
    | zero =>
      cases hl
      intro hfeed
      have hr : r.head? = some 10 := by
        obtain ⟨u, rfl⟩ := List.head?_eq_some_iff.1 hfeed
        obtain ⟨v, rfl⟩ := rest.head hl'
        rfl
      refine lone ?_ hr
      have hends : ∀ t ∈ terminators, t.getLast? = some 13 → t = [13] := by decide
      have hne : t ≠ [] := List.ne_nil_of_length_pos (length_pos_of_mem_terminators terminator)
      rw [List.getLast?_append, Option.or_of_isSome (by simpa using hne)] at hreturn
      exact hends t terminator hreturn
    | succ i => exact ih hl hl'

end

/-! ## A line without its terminator -/

theorem Free.notMem {b : UInt8} (h : Free body) (hb : [b] ∈ terminators) : b ∉ body := by
  intro hmem
  obtain ⟨x, y, rfl⟩ := List.append_of_mem hmem
  exact h [b] hb ⟨x, y, by simp⟩

/-- Taking the terminators away behind. -/
def trim (l : Bytes) : Bytes :=
  Bytes.trimSuffix [0xE2, 0x80, 0xA9] (Bytes.trimSuffix [0xE2, 0x80, 0xA8]
    (Bytes.trimRight (fun b => b == 13 || b == 10) l))

theorem trimSuffix_append (l post : Bytes) : Bytes.trimSuffix post (l ++ post) = l := by
  have hsuffix : post.isSuffixOf (l ++ post) = true :=
    List.isSuffixOf_iff_suffix.2 (List.suffix_append _ _)
  rw [Bytes.trimSuffix, if_pos hsuffix, List.length_append, Nat.add_sub_cancel, List.take_left]

theorem trimSuffix_of_not (l post : Bytes) (h : ¬post <:+ l) : Bytes.trimSuffix post l = l := by
  rw [Bytes.trimSuffix, if_neg (mt List.isSuffixOf_iff_suffix.1 h)]

theorem trimRight_append (p : UInt8 → Bool) (hbody : ∀ b ∈ body, p b = false)
    (ht : ∀ b ∈ t, p b = true) :
    Bytes.trimRight p (body ++ t) = body := by
  have hrest : body.reverse.dropWhile p = body.reverse := by
    cases hr : body.reverse with
    | nil => rfl
    | cons b u =>
      have hb := hbody b (List.mem_reverse.1 (hr ▸ List.mem_cons_self))
      rw [List.dropWhile_cons_of_neg (by simp [hb])]
  rw [Bytes.trimRight, List.reverse_append,
    List.dropWhile_append_of_pos fun b hb => ht b (List.mem_reverse.1 hb), hrest,
      List.reverse_reverse]

theorem trim_line (h : Free body) (ht : t ∈ terminators ∨ t = []) : trim (body ++ t) = body := by
  have hreturn : 13 ∉ body := h.notMem (by decide)
  have hfeed : 10 ∉ body := h.notMem (by decide)
  have hplain : ∀ b ∈ body, (b == 13 || b == 10) = false := by
    intro b hb
    have h13 : b ≠ 13 := fun he => hreturn (he ▸ hb)
    have h10 : b ≠ 10 := fun he => hfeed (he ▸ hb)
    simp [h13, h10]
  have hwide : ∀ post ∈ terminators, Bytes.trimSuffix post body = body := fun post hpost =>
    trimSuffix_of_not _ _ fun hsuffix => h post hpost hsuffix.isInfix
  have hkept (post : Bytes) (hpost : ∀ b ∈ post, (b == 13 || b == 10) = false) :
      Bytes.trimRight (fun b => b == 13 || b == 10) (body ++ post) = body ++ post := by
    have hall : ∀ b ∈ body ++ post, (b == 13 || b == 10) = false := fun b hb =>
      (List.mem_append.1 hb).elim (hplain b) (hpost b)
    simpa using trimRight_append _ hall (List.forall_mem_nil (fun b => (b == 13 || b == 10) = true))
  unfold trim
  rcases ht with ht | rfl
  · simp only [terminators, List.mem_cons, List.not_mem_nil, or_false] at ht
    rcases ht with rfl | rfl | rfl | rfl | rfl
    · rw [trimRight_append _ hplain (by decide), hwide _ (by decide), hwide _ (by decide)]
    · rw [trimRight_append _ hplain (by decide), hwide _ (by decide), hwide _ (by decide)]
    · rw [trimRight_append _ hplain (by decide), hwide _ (by decide), hwide _ (by decide)]
    · rw [hkept _ (by decide), trimSuffix_append, hwide _ (by decide)]
    · have hother : ¬([0xE2, 0x80, 0xA8] : Bytes) <:+ body ++ [0xE2, 0x80, 0xA9] := fun hsuffix =>
        absurd (List.suffix_of_suffix_length_le hsuffix (List.suffix_append _ _) (Nat.le_refl _))
          (by decide)
      rw [hkept _ (by decide), trimSuffix_of_not _ _ hother, trimSuffix_append]
  · rw [trimRight_append _ hplain (List.forall_mem_nil _), hwide _ (by decide), hwide _ (by decide)]

/-! ## The line of an offset -/

section

variable {starts : List Nat}

theorem getD_mono (h : starts.Pairwise (· < ·)) {i j : Nat} (hij : i ≤ j) (hj : j < starts.length) :
    starts.getD i 0 ≤ starts.getD j 0 := by
  rw [List.getD_eq_getElem _ _ hj, List.getD_eq_getElem _ _ (Nat.lt_of_le_of_lt hij hj)]
  rcases Nat.lt_or_eq_of_le hij with hlt | rfl
  · exact Nat.le_of_lt (List.pairwise_iff_getElem.1 h i j _ hj hlt)
  · exact Nat.le_refl _

/-- Halving finds where the starts up to an offset end, if those in front of `lo` are up to it and
those from `hi` on are not: it keeps both, and each step makes the range between them smaller. -/
theorem search_spec (h : starts.Pairwise (· < ·)) (off lo hi : Nat) :
    lo ≤ hi → hi ≤ starts.length → (∀ i < lo, starts.getD i 0 ≤ off) →
    (∀ i, hi ≤ i → i < starts.length → off < starts.getD i 0) →
    ∃ k ≤ starts.length, search starts off lo hi = k - 1 ∧ (∀ i < k, starts.getD i 0 ≤ off) ∧
      ∀ i, k ≤ i → i < starts.length → off < starts.getD i 0 := by
  fun_induction search starts off lo hi with
  | case1 lo hi hlt mid hmid ih =>
    intro _ hhi hlow hup
    have hbelow : mid < hi := by omega
    refine ih (by omega) hhi (fun i hi' => ?_) hup
    exact Nat.le_trans (getD_mono h (Nat.lt_succ_iff.1 hi') (by omega)) hmid
  | case2 lo hi hlt mid hmid ih =>
    intro _ hhi hlow hup
    have hbelow : mid < hi := by omega
    refine ih (by omega) (by omega) hlow fun i hi' hlength => ?_
    exact Nat.lt_of_lt_of_le (Nat.not_le.1 hmid) (getD_mono h hi' hlength)
  | case3 lo hi hge =>
    intro hle hhi hlow hup
    have hmeet : lo = hi := Nat.le_antisymm hle (Nat.not_lt.1 hge)
    exact ⟨hi, hhi, rfl, hmeet ▸ hlow, hup⟩

/-- The line of an offset starts up to it, and every later line starts behind it. -/
theorem indexOf_spec (h : (0 :: starts).Pairwise (· < ·)) (off : Nat) :
    indexOf (0 :: starts) off < (0 :: starts).length ∧
      (0 :: starts).getD (indexOf (0 :: starts) off) 0 ≤ off ∧
      ∀ i, indexOf (0 :: starts) off < i → i < (0 :: starts).length →
        off < (0 :: starts).getD i 0 := by
  obtain ⟨k, hk, hsearch, hlow, hup⟩ := search_spec h off 0 (0 :: starts).length (Nat.zero_le _)
    (Nat.le_refl _) (fun i hi => absurd hi (Nat.not_lt_zero i))
    fun i hi hlength => absurd hlength (Nat.not_lt.2 hi)
  -- the first line starts at zero, so it is never the case that none starts up to the offset
  have hpos : 0 < k := by
    refine Nat.pos_of_ne_zero fun hzero => ?_
    exact absurd (hup 0 (Nat.le_of_eq hzero) (Nat.succ_pos _)) (Nat.not_lt_zero off)
  rw [indexOf, hsearch]
  exact ⟨by omega, hlow _ (by omega), fun i hi => hup i (by omega)⟩

end

/-! ## Positions of a text -/

/-- The line of an offset is the last that starts up to it, and the column counts from there. -/
theorem lineCol_spec (s : Bytes) (off : Nat) :
    let p := lineCol s off
    1 ≤ p.line ∧ p.line ≤ (starts s).length ∧ 1 ≤ p.col ∧
      (starts s).getD (p.line - 1) 0 + p.col - 1 = off ∧
      ∀ l, p.line < l → l ≤ (starts s).length → off < (starts s).getD (l - 1) 0 := by
  obtain ⟨hindex, hstart, hnext⟩ := indexOf_spec (isCut 0 s).starts_increase.1 off
  refine ⟨Nat.le_add_left 1 _, hindex, Nat.le_add_left 1 _, ?_, fun l hl hlength => ?_⟩
  · show (starts s).getD (indexOf (starts s) off) 0 +
      (off - (starts s).getD (indexOf (starts s) off) 0 + 1) - 1 = off
    unfold starts
    omega
  · refine hnext (l - 1) ?_ ?_
    · have : indexOf (starts s) off + 1 < l := hl
      unfold starts at this
      omega
    · have : l ≤ (0 :: startsFrom 0 0 s).length := hlength
      omega

theorem lineCol_lt {off off' : Nat} (s : Bytes) (h : off < off') :
    (lineCol s off).line < (lineCol s off').line ∨
      (lineCol s off).line = (lineCol s off').line ∧
        (lineCol s off).col < (lineCol s off').col := by
  obtain ⟨-, hlength, hcol, hoff, -⟩ := lineCol_spec s off
  obtain ⟨-, -, hcol', hoff', hnext'⟩ := lineCol_spec s off'
  rcases Nat.lt_trichotomy (lineCol s off).line (lineCol s off').line with hlt | heq | hgt
  · exact .inl hlt
  · rw [heq] at hoff
    exact .inr ⟨heq, by omega⟩
  · have hbehind := hnext' _ hgt hlength
    omega

/-- Line and column grow with the offset, so they tell offsets apart. -/
theorem lineCol_lt_iff (s : Bytes) (off off' : Nat) :
    off < off' ↔ (lineCol s off).line < (lineCol s off').line ∨
      (lineCol s off).line = (lineCol s off').line ∧
        (lineCol s off).col < (lineCol s off').col := by
  refine ⟨lineCol_lt s, fun h => ?_⟩
  rcases Nat.lt_trichotomy off off' with hlt | rfl | hgt
  · exact hlt
  · omega
  · have := lineCol_lt s hgt
    omega

theorem length_cut (s : Bytes) : (cut s).length = (starts s).length := (isCut 0 s).length

/-- A line is a piece of the text without its terminator. -/
theorem line_eq (s : Bytes) {i : Nat} {l : Bytes} (hl : (cut s)[i]? = some l) :
    line s (i + 1) = trim l := by
  have hi := (List.getElem?_eq_some_iff.1 hl).1
  have hslice := ((isCut 0 s).getElem? i hi).symm.trans hl
  have hstart : ¬(i + 1 = 0 || decide ((starts s).length < i + 1)) = true := by
    rw [length_cut] at hi
    simp
    omega
  rw [line, if_neg hstart, ← Option.some.inj hslice, Nat.zero_add]
  rfl

theorem line_outside (s : Bytes) {n : Nat} (h : n = 0 ∨ (cut s).length < n) : line s n = [] := by
  rw [length_cut] at h
  refine if_pos ?_
  rcases h with rfl | h
  · rfl
  · rw [decide_eq_true h, Bool.or_true]

end ScriptLower.Lines

namespace ScriptLower.SourceFile

open ScriptLower

/-- **Positions and lines of a file agree**. Its lines make up its text; each is what the file gives
as line with its number and a terminator behind, which only the last is without, and the line itself
holds none; a carriage return and the line feed behind it are one. Line and column of the position
of an offset say where it is, the line being the last that starts up to it, and they grow with the
offset. The positions are to be words, as those of a registered file are. -/
theorem positions_and_lines (f : SourceFile) (hf : f.InWords) :
    (Lines.cut f.content).flatten = f.content ∧
      (Lines.cut f.content).length = (Lines.starts f.content).length ∧
      (∀ i l, (Lines.cut f.content)[i]? = some l → Lines.Free (f.line (i + 1)) ∧
        ∃ t, l = f.line (i + 1) ++ t ∧
          (i + 1 < (Lines.cut f.content).length → t ∈ Lines.terminators) ∧
          (i + 1 = (Lines.cut f.content).length → t = [])) ∧
      (∀ i l l', (Lines.cut f.content)[i]? = some l → (Lines.cut f.content)[i + 1]? = some l' →
        l.getLast? = some 13 → l'.head? ≠ some 10) ∧
      (∀ n, n = 0 ∨ (Lines.cut f.content).length < n → f.line n = []) ∧
      (∀ off ≤ f.content.length,
        let place := f.lineCol (f.posWord off).toNat
        1 ≤ place.line ∧ 1 ≤ place.col ∧ place.line ≤ (Lines.starts f.content).length ∧
        (Lines.starts f.content).getD (place.line - 1) 0 + place.col - 1 = off ∧
        ∀ l, place.line < l → l ≤ (Lines.starts f.content).length →
          off < (Lines.starts f.content).getD (l - 1) 0) ∧
      ∀ off ≤ f.content.length, ∀ off' ≤ f.content.length,
        let place := f.lineCol (f.posWord off).toNat
        let place' := f.lineCol (f.posWord off').toNat
        off < off' ↔ place.line < place'.line ∨ place.line = place'.line ∧
          place.col < place'.col := by
  have hcut := Lines.isCut 0 f.content
  have hlength := Lines.length_cut f.content
  have hlineCol : ∀ off ≤ f.content.length,
      f.lineCol (f.posWord off).toNat = Lines.lineCol f.content off := by
    intro off hoff
    rw [hf.posWord hoff, lineCol, offset, Nat.add_sub_cancel_left, Nat.min_eq_left hoff]
  refine ⟨hcut.flatten, hlength, fun i l hl => ?_, fun i l l' hl hl' => hcut.pair_stays hl hl',
    fun n hn => Lines.line_outside f.content hn, fun off hoff => ?_, fun off hoff off' hoff' => ?_⟩
  · obtain ⟨body, t, rfl, hfree, hterminator, hlast⟩ := hcut.line_ends hl
    have hi := (List.getElem?_eq_some_iff.1 hl).1
    have hlines : (Lines.cut f.content).length = (Lines.startsFrom 0 0 f.content).length + 1 :=
      hlength
    have ht : t ∈ Lines.terminators ∨ t = [] := by
      rcases Nat.lt_or_ge i (Lines.startsFrom 0 0 f.content).length with hlt | hge
      · exact .inl (hterminator hlt)
      · exact .inr (hlast (by omega))
    have hline : f.line (i + 1) = body :=
      (Lines.line_eq f.content hl).trans (Lines.trim_line hfree ht)
    rw [hline]
    exact ⟨hfree, t, rfl, fun h => hterminator (by omega), fun h => hlast (by omega)⟩
  · rw [hlineCol off hoff]
    obtain ⟨hline, hlines, hcol, hoffset, hnext⟩ := Lines.lineCol_spec f.content off
    exact ⟨hline, hcol, hlines, hoffset, hnext⟩
  · rw [hlineCol off hoff, hlineCol off' hoff']
    exact Lines.lineCol_lt_iff f.content off off'

/-- A line with a character of three bytes, an empty line, and a line without a terminator. -/
theorem positions_and_lines_three :
    let f : SourceFile := { content := "€\r\n\na", base := 7 }
    f.InWords ∧ Lines.cut f.content = (["€\r\n", "\n", "a"] : List Bytes) ∧
      (Lines.cut f.content).flatten = f.content ∧ f.lineCol (f.posWord 6).toNat = ⟨3, 1⟩ := by
  intro f
  have hf : f.InWords := ⟨by decide, by decide⟩
  exact ⟨hf, by decide, (positions_and_lines f hf).1, by decide +kernel⟩

/-- In a file of the size that the check of positions misses, the position of the end is zero, so
line and column of the end are those of the beginning. -/
theorem end_unchecked_at_beginning :
    let f : SourceFile := { content := List.replicate FileSet.uncheckedSize 120 }
    f.content.length = 2 ^ 32 - 1 ∧
      f.lineCol (f.posWord f.content.length).toNat = f.lineCol (f.posWord 0).toNat := by
  intro f
  have hlength : f.content.length = FileSet.uncheckedSize := List.length_replicate
  have hend : f.posWord f.content.length = 0 := by
    rw [posWord, hlength]
    decide
  refine ⟨hlength, ?_⟩
  rw [hend, lineCol, lineCol, offset, offset]
  rfl

end ScriptLower.SourceFile
