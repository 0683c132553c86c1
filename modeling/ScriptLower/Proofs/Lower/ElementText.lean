import Mathlib.Data.List.TakeWhile
import ScriptLower.Lower.Element
import ScriptLower.Proofs.Source.Paths

/-!
# The text between two tags

What counts of a text is said here in the words of those who write it: its lines without the blanks
at their inner edges, those that are not empty, with single blanks between them. A line that is not
the only one loses the blanks of at least one edge, so it is empty then if and only if it held
nothing but blanks and tabs. That is why the line that no blank is put behind may be looked for
among the lines as they stand in the source.
-/

namespace ScriptLower.Lower.ElementText

open ScriptLower

variable {s l : Bytes} {ls : List Bytes}

/-! ## What counts -/

/-- The lines of a text: a line feed ends one, or a carriage return with or without one behind
it. -/
def linesOf : Bytes → List Bytes
  | [] => [[]]
  | 13 :: 10 :: r => [] :: linesOf r
  | b :: r =>
    if b == 10 || b == 13 then [] :: linesOf r else (linesOf r).modifyHead (b :: ·)

/-- A line with its tabs as blanks. -/
def blanked (line : Bytes) : Bytes := line.map fun b => if b == 9 then 32 else b

/-- A change made to all lines but the first. -/
def behindFirst (f : Bytes → Bytes) : List Bytes → List Bytes
  | [] => []
  | l :: ls => l :: ls.map f

/-- A change made to all lines but the last. -/
def beforeLast (f : Bytes → Bytes) : List Bytes → List Bytes
  | [] => []
  | [l] => [l]
  | l :: m :: ls => f l :: beforeLast f (m :: ls)

/-- The lines of a text, without the blanks at the edges where another line adjoins. -/
def strippedLines (s : Bytes) : List Bytes :=
  beforeLast (Bytes.trimRight (· == 32)) (behindFirst (Bytes.trimLeft (· == 32))
    ((linesOf s).map blanked))

/-! ## Lines -/

/-- A byte that begins no pair stays where it is when pairs are replaced. -/
theorem replace_pair_cons {b : UInt8} {r : Bytes} (h : ∀ t, b = 13 → r = 10 :: t → False) :
    Bytes.replace [13, 10] [10] (b :: r) = b :: Bytes.replace [13, 10] [10] r := by
  have hpair : List.isPrefixOf [13, 10] (b :: r) = false := by
    rw [Bool.eq_false_iff, ne_eq, List.isPrefixOf_iff_prefix]
    rintro ⟨t, ht⟩
    exact h t (List.cons.inj ht).1.symm (List.cons.inj ht).2.symm
  rw [Bytes.replace, Bytes.replaceFrom, if_neg (by rw [hpair]; decide)]
  rfl

/-- Replacing pairs first and carriage returns then leaves line feeds where a line ends. -/
theorem lines_eq (s : Bytes) : lines s = linesOf s := by
  show Bytes.splitOn 10 ((Bytes.replace [13, 10] [10] s).map fun b => if b == 13 then 10 else b) = _
  fun_induction linesOf s with
  | case1 => rfl
  | case2 r ih =>
    rw [← ih]
    rfl
  | case3 b r hpair hbreak ih =>
    have hb : (if b == 13 then 10 else b) = 10 := by
      rcases (Bool.or_eq_true _ _).mp hbreak with h | h <;> rw [eq_of_beq h] <;> rfl
    rw [replace_pair_cons hpair, List.map_cons, hb, ← ih]
    rfl
  | case4 b r hpair hplain ih =>
    rw [Bool.or_eq_true, not_or, beq_iff_eq, beq_iff_eq] at hplain
    obtain ⟨l, ls, hrest, hcons⟩ := Path.splitOn_cons_ne 10 b
      ((Bytes.replace [13, 10] [10] r).map fun b => if b == 13 then 10 else b) hplain.1
    rw [replace_pair_cons hpair, List.map_cons, if_neg (by simpa using hplain.2),
      hcons, ← ih, hrest]
    rfl

theorem linesOf_ne_nil (s : Bytes) : linesOf s ≠ [] := by
  fun_induction linesOf s with
  | case4 b r hpair hplain ih => exact mt List.modifyHead_eq_nil_iff.1 ih
  | _ => exact List.cons_ne_nil _ _

/-- No line holds a byte that ends one. -/
theorem noBreak_of_mem_linesOf (h : l ∈ linesOf s) : 10 ∉ l ∧ 13 ∉ l := by
  fun_induction linesOf s generalizing l with
  | case1 => rw [List.mem_singleton.1 h]; exact ⟨List.not_mem_nil, List.not_mem_nil⟩
  | case2 r ih =>
    rcases List.mem_cons.1 h with rfl | h
    · exact ⟨List.not_mem_nil, List.not_mem_nil⟩
    · exact ih h
  | case3 b r hpair hbreak ih =>
    rcases List.mem_cons.1 h with rfl | h
    · exact ⟨List.not_mem_nil, List.not_mem_nil⟩
    · exact ih h
  | case4 b r hpair hplain ih =>
    rw [Bool.or_eq_true, not_or, beq_iff_eq, beq_iff_eq] at hplain
    cases hrest : linesOf r with
    | nil => rw [hrest] at h; exact absurd h List.not_mem_nil
    | cons m ms =>
      rw [hrest, List.modifyHead_cons, List.mem_cons] at h
      rcases h with rfl | h
      · obtain ⟨h10, h13⟩ := ih (hrest ▸ List.mem_cons_self)
        exact ⟨List.not_mem_cons_of_ne_of_not_mem (Ne.symm hplain.1) h10,
          List.not_mem_cons_of_ne_of_not_mem (Ne.symm hplain.2) h13⟩
      · exact ih (hrest ▸ List.mem_cons_of_mem _ h)

/-- A text without a byte that ends a line is its only line. -/
theorem linesOf_of_noBreak (h10 : 10 ∉ s) (h13 : 13 ∉ s) : linesOf s = [s] := by
  fun_induction linesOf s with
  | case1 => rfl
  | case2 r => exact absurd List.mem_cons_self h13
  | case3 b r hpair hbreak ih =>
    rcases (Bool.or_eq_true _ _).mp hbreak with h | h
    · exact absurd (eq_of_beq h ▸ List.mem_cons_self) h10
    · exact absurd (eq_of_beq h ▸ List.mem_cons_self) h13
  | case4 b r hpair hplain ih =>
    rw [ih (mt (List.mem_cons_of_mem _) h10) (mt (List.mem_cons_of_mem _) h13)]
    rfl

/-! ## Edges -/

theorem getElem?_behindFirst (f : Bytes → Bytes) (ls : List Bytes) (i : Nat) :
    (behindFirst f ls)[i]? = ls[i]?.map fun l => if 0 < i then f l else l := by
  cases ls with
  | nil => rfl
  | cons l ls => cases i <;> simp [behindFirst]

theorem getElem?_beforeLast (f : Bytes → Bytes) (ls : List Bytes) (i : Nat) :
    (beforeLast f ls)[i]? = ls[i]?.map fun l => if i + 1 < ls.length then f l else l := by
  fun_induction beforeLast f ls generalizing i with
  | case1 => rfl
  | case2 l => cases i <;> simp
  | case3 l m ls ih =>
    cases i with
    | zero => simp
    | succ i => rw [List.getElem?_cons_succ, ih, List.getElem?_cons_succ]; simp

/-- The lines are stripped by what the code does for the place of each. -/
theorem strippedLines_eq (s : Bytes) :
    strippedLines s = (lines s).zipIdx.map fun (l, i) => trimmed (lines s).length i l := by
  have hlength (f : Bytes → Bytes) (ls : List Bytes) : (behindFirst f ls).length = ls.length := by
    cases ls <;> simp [behindFirst]
  apply List.ext_getElem?
  intro i
  simp only [strippedLines, getElem?_beforeLast, getElem?_behindFirst, hlength, lines_eq,
    List.getElem?_map, List.getElem?_zipIdx, List.length_map, Option.map_map]
  cases (linesOf s)[i]? <;> simp [trimmed, blanked]

/-- A line with its tabs as blanks and without those in front, if another line stands there. -/
def leftTrimmed (i : Nat) (l : Bytes) : Bytes :=
  if 0 < i then Bytes.trimLeft (· == 32) (blanked l) else blanked l

theorem trimmed_eq (count i : Nat) (l : Bytes) : trimmed count i l =
    if i + 1 < count then Bytes.trimRight (· == 32) (leftTrimmed i l) else leftTrimmed i l := rfl

/-- Stripping only takes away. -/
theorem trimmed_sublist (count i : Nat) (l : Bytes) : (trimmed count i l).Sublist (blanked l) := by
  have hleft : (leftTrimmed i l).Sublist (blanked l) := by
    unfold leftTrimmed
    split
    · exact List.dropWhile_sublist _
    · exact List.Sublist.refl _
  have hright (t : Bytes) : (Bytes.trimRight (· == 32) t).Sublist t := by
    have hrest := (List.dropWhile_sublist (l := t.reverse) (· == 32)).reverse
    rwa [List.reverse_reverse] at hrest
  rw [trimmed_eq]
  split
  · exact (hright _).trans hleft
  · exact hleft

/-- What stands in a stripped line is a blank or stood in the line, and no tab. -/
theorem mem_trimmed {b : UInt8} {count i : Nat} (h : b ∈ trimmed count i l) :
    b ≠ 9 ∧ (b = 32 ∨ b ∈ l) := by
  obtain ⟨c, hc, rfl⟩ := List.mem_map.1 ((trimmed_sublist count i l).mem h)
  split
  · exact ⟨by decide, .inl rfl⟩
  · next htab => exact ⟨fun h => htab (beq_iff_eq.2 h), .inr hc⟩

/-- A line that is not the only one is empty without its blanks exactly when it is blank. -/
theorem isEmpty_trimmed {count : Nat} (hcount : 1 < count) (i : Nat) (l : Bytes) :
    (trimmed count i l).isEmpty = isBlank l := by
  have hblank : (blanked l).all (· == 32) = isBlank l := by
    simp only [blanked, isBlank, List.all_map, Function.comp_def]
    congr 1
    funext b
    by_cases hb : b = 9 <;> simp [hb]
  have hleft (t : Bytes) : (Bytes.trimLeft (· == 32) t).isEmpty = t.all (· == 32) := by
    rw [Bool.eq_iff_iff, List.isEmpty_iff, Bytes.trimLeft, List.dropWhile_eq_nil_iff,
      List.all_eq_true]
  have hright (t : Bytes) : (Bytes.trimRight (· == 32) t).isEmpty = t.all (· == 32) := by
    rw [Bytes.trimRight, List.isEmpty_reverse, ← List.all_reverse]
    exact hleft _
  have hboth (t : Bytes) : (Bytes.trimLeft (· == 32) t).all (· == 32) = t.all (· == 32) := by
    conv_rhs => rw [← List.takeWhile_append_dropWhile (p := (· == 32)) (l := t)]
    rw [List.all_append, List.all_takeWhile, Bool.true_and]
    rfl
  rw [trimmed_eq, leftTrimmed]
  split <;> split
  · rw [hright, hboth, hblank]
  · rw [hright, hblank]
  · rw [hleft, hblank]
  · next hlast hfirst => exact absurd (by omega) hlast

/-! ## Joining -/

/-- The last index from `i` on of a line that is not blank, or `d`. -/
def lastFrom (i d : Nat) (ls : List Bytes) : Nat :=
  (ls.zipIdx i).foldl (fun last (line, i) => if isBlank line then last else i) d

theorem lastFrom_cons (i d : Nat) (l : Bytes) (ls : List Bytes) :
    lastFrom i d (l :: ls) = lastFrom (i + 1) (if isBlank l then d else i) ls := rfl

theorem lastFrom_of_blank {i d : Nat} (h : ls.all isBlank = true) : lastFrom i d ls = d := by
  induction ls generalizing i with
  | nil => rfl
  | cons l ls ih =>
    rw [List.all_cons, Bool.and_eq_true] at h
    rw [lastFrom_cons, if_pos h.1, ih h.2]

theorem le_lastFrom {i d : Nat} (h : ls.all isBlank = false) : i ≤ lastFrom i d ls := by
  induction ls generalizing i d with
  | nil => exact absurd h Bool.true_eq_false.mp
  | cons l ls ih =>
    rw [lastFrom_cons]
    cases hls : ls.all isBlank with
    | false => exact Nat.le_of_succ_le (ih hls)
    | true =>
      rw [lastFrom_of_blank hls]
      split
      · next hl => rw [List.all_cons, hl, hls] at h; exact absurd h Bool.true_eq_false.mp
      · exact Nat.le_refl i

variable {f : Nat → Bytes → Bytes}

/-- Nothing is left of the lines if and only if all are blank. -/
theorem filter_eq_nil_iff (hf : ∀ i l, (f i l).isEmpty = isBlank l) (i : Nat) (ls : List Bytes) :
    ((ls.zipIdx i).map fun (l, j) => f j l).filter (!·.isEmpty) = [] ↔ ls.all isBlank = true := by
  induction ls generalizing i with
  | nil => simp
  | cons l ls ih =>
    rw [List.zipIdx_cons, List.map_cons, List.filter_cons, List.all_cons, hf i l]
    cases isBlank l <;> simp [ih]

/-- A blank behind each line that is not blank, but for the last of these, stands between them. -/
theorem flatten_eq_join (hf : ∀ i l, (f i l).isEmpty = isBlank l) (i d : Nat) (ls : List Bytes) :
    ((ls.zipIdx i).map fun (l, j) => if (f j l).isEmpty then [] else
        if j = lastFrom i d ls then f j l else f j l ++ [32]).flatten =
      Bytes.join [32] (((ls.zipIdx i).map fun (l, j) => f j l).filter (!·.isEmpty)) := by
  induction ls generalizing i d with
  | nil => rfl
  | cons l ls ih =>
    have hrest := filter_eq_nil_iff hf (i + 1) ls
    rw [List.zipIdx_cons, List.map_cons, List.map_cons, List.flatten_cons, lastFrom_cons, ih]
    dsimp only
    cases hl : isBlank l with
    | true =>
      have hnone : (f i l).isEmpty = true := (hf i l).trans hl
      rw [List.filter_cons_of_neg (by simp [hnone]), if_pos hnone, List.nil_append]
    | false =>
      have hsome : (f i l).isEmpty = false := (hf i l).trans hl
      rw [List.filter_cons_of_pos (by simp [hsome]), if_neg (by simp [hsome]),
        if_neg Bool.false_ne_true]
      cases hls : ls.all isBlank with
      | true =>
        -- this is the last line that counts
        rw [lastFrom_of_blank hls, if_pos rfl, hrest.2 hls, Bytes.join, Bytes.join, List.append_nil]
      | false =>
        have hbehind : i ≠ lastFrom (i + 1) i ls := Nat.ne_of_lt (le_lastFrom hls)
        rw [if_neg hbehind, Path.join_cons]
        rw [ne_eq, hrest, hls]
        exact Bool.false_ne_true

/-! ## The whole text -/

/-- The only line of a text is not stripped. -/
theorem clean_of_lines (h : lines s = [l]) : clean s = blanked l := by
  have hlast : lastInked [l] = 0 := by
    show (if isBlank l then 0 else 0) = 0
    exact ite_self _
  have hclean : clean s = (if (blanked l).isEmpty then [] else
      if 0 = lastInked [l] then blanked l else blanked l ++ [32]) ++ [] := by
    unfold clean
    simp only [h]
    rfl
  rw [hclean, hlast, if_pos rfl, List.append_nil]
  split
  · next hnone => exact (List.isEmpty_iff.1 hnone).symm
  · rfl

/-- What counts of a text is its stripped lines that are not empty, with single blanks between. -/
theorem clean_eq_join (s : Bytes) :
    clean s = Bytes.join [32] ((strippedLines s).filter (!·.isEmpty)) := by
  rw [strippedLines_eq]
  by_cases hcount : 1 < (lines s).length
  · exact flatten_eq_join (isEmpty_trimmed hcount) 0 0 (lines s)
  · have hone : (lines s).length = 1 := by
      have hpos := List.length_pos_of_ne_nil (linesOf_ne_nil s)
      rw [lines_eq] at hcount ⊢
      omega
    obtain ⟨l, hl⟩ := List.length_eq_one_iff.1 hone
    rw [clean_of_lines hl, hl]
    show blanked l = Bytes.join [32] ([blanked l].filter (!·.isEmpty))
    cases hnone : (blanked l).isEmpty with
    | true => rw [List.filter_cons_of_neg (by simp [hnone]), List.isEmpty_iff.1 hnone]; rfl
    | false => rw [List.filter_cons_of_pos (by simp [hnone])]; rfl

/-- What counts of a text holds no tab and nothing that ends a line. -/
theorem mem_clean {b : UInt8} (h : b ∈ clean s) : b ≠ 9 ∧ b ≠ 10 ∧ b ≠ 13 := by
  obtain ⟨line, hline, hb⟩ := List.mem_flatten.1 h
  obtain ⟨⟨l, i⟩, hl, rfl⟩ := List.mem_map.1 hline
  obtain ⟨h10, h13⟩ := noBreak_of_mem_linesOf (lines_eq s ▸ List.fst_mem_of_mem_zipIdx hl)
  have hkept (hb : b ∈ trimmed (lines s).length i l) : b ≠ 9 ∧ b ≠ 10 ∧ b ≠ 13 := by
    obtain ⟨htab, rfl | hmem⟩ := mem_trimmed hb
    · decide
    · exact ⟨htab, fun h => h10 (h ▸ hmem), fun h => h13 (h ▸ hmem)⟩
  dsimp only at hb
  split at hb
  · exact absurd hb List.not_mem_nil
  · split at hb
    · exact hkept hb
    · rcases List.mem_append.1 hb with hb | hb
      · exact hkept hb
      · rw [List.mem_singleton.1 hb]
        decide

/-- A text without tabs and line breaks counts as it stands. -/
theorem clean_of_plain (h : ∀ b ∈ s, b ≠ 9 ∧ b ≠ 10 ∧ b ≠ 13) : clean s = s := by
  have hone : lines s = [s] := (lines_eq s).trans
    (linesOf_of_noBreak (fun hb => (h 10 hb).2.1 rfl) fun hb => (h 13 hb).2.2 rfl)
  rw [clean_of_lines hone, blanked, List.map_congr_left fun b hb =>
    if_neg (by simpa using (h b hb).1)]
  exact List.map_id' s

/-- What counts of a text is what its writers mean by it: its lines, with tabs as blanks and without
the blanks at the edges where another line adjoins, those of them that are not empty, with single
blanks between them. Nothing in it ends a line, and all of it counts. -/
theorem clean_spec (s : Bytes) :
    clean s = Bytes.join [32] ((strippedLines s).filter (!·.isEmpty)) ∧
      10 ∉ clean s ∧ 13 ∉ clean s ∧ clean (clean s) = clean s :=
  ⟨clean_eq_join s, fun h => (mem_clean h).2.1 rfl, fun h => (mem_clean h).2.2 rfl,
    clean_of_plain fun _ => mem_clean⟩

end ScriptLower.Lower.ElementText
