import ScriptLower.Name.Supply
import Mathlib.Data.List.Nodup
import Mathlib.Data.List.Perm.Subperm

/-!
# Generated names are new

The spellings tried for a wish differ from each other, so among one more of them than there are
names in use one is free. Each mark therefore gets a name that nothing before it has: the names of
all marks differ, and none of them is taken.
-/

namespace ScriptLower

/-- The character of an ASCII byte. -/
def charOf (b : UInt8) : Char := Char.ofNat b.toNat

theorem charOf_ascii {c : Char} (h : c.isDigit = true) : charOf (ascii c) = c := by
  obtain ⟨hlow, hhigh⟩ : '0' ≤ c ∧ c ≤ '9' := by simpa [Char.isDigit, Char.le_def] using h
  have hnat : c.toNat ≤ 57 := hhigh
  have hbyte : (ascii c).toNat = c.toNat := by
    show c.toNat.toUInt8.toNat = c.toNat
    rw [Nat.toUInt8, UInt8.toNat_ofNat']
    exact Nat.mod_eq_of_lt (by omega)
  rw [charOf, hbyte]
  exact Char.ofNat_toNat c

/-- The digits of a number can be read off its text. -/
theorem map_charOf_ofNat (n : Nat) : (Bytes.ofNat n).map charOf = Nat.toDigits 10 n := by
  rw [Bytes.ofNat, List.map_map]
  refine (List.map_congr_left fun c hc => ?_).trans (List.map_id _)
  exact charOf_ascii (Nat.isDigit_of_mem_toDigits (by decide) (by decide) hc)

/-- Different numbers have different texts. -/
theorem ofNat_injective : Function.Injective Bytes.ofNat := by
  intro m n h
  have hdigits : Nat.toDigits 10 m = Nat.toDigits 10 n := by
    rw [← map_charOf_ofNat m, ← map_charOf_ofNat n, h]
  calc
    m = Nat.ofDigitChars 10 (Nat.toDigits 10 m) 0 := Nat.ofDigitChars_ten_toDigits.symm
    _ = Nat.ofDigitChars 10 (Nat.toDigits 10 n) 0 := by rw [hdigits]
    _ = n := Nat.ofDigitChars_ten_toDigits

theorem ofNat_ne_nil (n : Nat) : Bytes.ofNat n ≠ [] := by
  intro h
  have hdigits := map_charOf_ofNat n
  rw [h] at hdigits
  exact Nat.toDigits_ne_nil hdigits.symm

namespace NameSupply

section

variable {used : List Bytes} {wish : Bytes}

/-- The spellings tried for a wish differ from each other. -/
theorem spelling_injective (wish : Bytes) : Function.Injective (spelling wish) := by
  intro i j h
  unfold spelling at h
  split at h
  · rename_i hi
    split at h
    · rename_i hj
      omega
    · have hnil : Bytes.ofNat j = [] := List.self_eq_append_right.1 h
      exact absurd hnil (ofNat_ne_nil j)
  · split at h
    · have hnil : Bytes.ofNat i = [] := List.self_eq_append_right.1 h.symm
      exact absurd hnil (ofNat_ne_nil i)
    · exact ofNat_injective (List.append_cancel_left h)

/-- Among one more spelling than there are names in use one is not in use. -/
theorem exists_spelling_not_mem (used : List Bytes) (wish : Bytes) :
    ∃ n ∈ (List.range (used.length + 1)).map (spelling wish), n ∉ used := by
  by_contra hall
  push Not at hall
  -- Were all of them in use, there would be more names in use than there are.
  have hnodup : ((List.range (used.length + 1)).map (spelling wish)).Nodup :=
    List.Nodup.map (spelling_injective wish) List.nodup_range
  have hlength := (List.subperm_of_subset hnodup hall).length_le
  rw [List.length_map, List.length_range] at hlength
  omega

/-- The name found for a wish is not in use. -/
theorem free_not_mem (used : List Bytes) (wish : Bytes) : free used wish ∉ used := by
  obtain ⟨n, hn, hfree⟩ := exists_spelling_not_mem used wish
  obtain ⟨m, hm⟩ : ∃ m, ((List.range (used.length + 1)).map (spelling wish)).find?
      (fun n => !used.contains n) = some m := by
    rw [← Option.isSome_iff_exists, List.find?_isSome]
    exact ⟨n, hn, by simpa using hfree⟩
  rw [free, hm, Option.getD_some]
  simpa using List.find?_some hm

theorem length_resolveFrom (used wishes : List Bytes) :
    (resolveFrom used wishes).length = wishes.length := by
  induction wishes generalizing used with
  | nil => rfl
  | cons w ws ih => rw [resolveFrom, List.length_cons, List.length_cons, ih]

/-- The names found for some wishes are not in use. -/
theorem resolveFrom_not_mem {wishes : List Bytes} :
    ∀ {used : List Bytes} {n : Bytes}, n ∈ resolveFrom used wishes → n ∉ used := by
  induction wishes with
  | nil =>
    intro used n hn
    cases hn
  | cons w ws ih =>
    intro used n hn
    rcases List.mem_cons.1 hn with rfl | hn
    · exact free_not_mem used w
    · intro hused
      exact ih hn (List.mem_cons_of_mem _ hused)

/-- The names found for some wishes differ from each other. -/
theorem nodup_resolveFrom (used wishes : List Bytes) : (resolveFrom used wishes).Nodup := by
  induction wishes generalizing used with
  | nil => exact List.nodup_nil
  | cons w ws ih =>
    refine List.nodup_cons.2 ⟨fun hmem => ?_, ih _⟩
    exact resolveFrom_not_mem hmem List.mem_cons_self

variable {s : NameSupply} {taken : List Bytes}

/-- Every mark gets a name. -/
theorem length_resolve (s : NameSupply) (taken : List Bytes) :
    (s.resolve taken).length = s.issued :=
  length_resolveFrom taken s.wishes

/-- The names of two marks differ. -/
theorem nodup_resolve (s : NameSupply) (taken : List Bytes) : (s.resolve taken).Nodup :=
  nodup_resolveFrom taken s.wishes

/-- No mark gets a name that is taken. -/
theorem resolve_not_taken {n : Bytes} (h : n ∈ s.resolve taken) : n ∉ taken :=
  resolveFrom_not_mem h

/-! ### The least number that makes a name free -/

/-- The name found for a wish is its first spelling that is not in use: the search ends, and all
spellings it passes are in use. -/
theorem exists_free_least (used : List Bytes) (wish : Bytes) :
    ∃ k, free used wish = spelling wish k ∧ spelling wish k ∉ used ∧
      ∀ j < k, spelling wish j ∈ used := by
  obtain ⟨n, hn, hfree⟩ := exists_spelling_not_mem used wish
  obtain ⟨i, hi, rfl⟩ := List.mem_map.1 hn
  have hsome : ((List.range (used.length + 1)).find?
      fun k => !used.contains (spelling wish k)).isSome := by
    rw [List.find?_isSome]
    exact ⟨i, hi, by simpa using hfree⟩
  obtain ⟨k, hk⟩ := Option.isSome_iff_exists.1 hsome
  have hfound : free used wish = spelling wish k := by
    rw [free, List.find?_map]
    simp only [Function.comp_def, hk, Option.map_some, Option.getD_some]
  obtain ⟨hunused, -, hbefore⟩ := List.find?_range_eq_some.1 hk
  refine ⟨k, hfound, by simpa using hunused, fun j hj => ?_⟩
  simpa using hbefore j hj

/-- Each name is the one found when the names taken and those of the marks before it are in use. -/
theorem getElem?_resolveFrom {wishes : List Bytes} {i : Nat} (h : i < wishes.length) :
    ∀ used : List Bytes, (resolveFrom used wishes)[i]? =
      some (free (((resolveFrom used wishes).take i).reverse ++ used) wishes[i]) := by
  induction wishes generalizing i with
  | nil => cases h
  | cons w ws ih =>
    intro used
    cases i with
    | zero => rfl
    | succ i =>
      rw [resolveFrom, List.getElem?_cons_succ, ih (Nat.lt_of_succ_lt_succ h)]
      simp only [List.take_succ_cons, List.reverse_cons, List.append_assoc, List.singleton_append,
        List.getElem_cons_succ]

/-- The marks that are issued for some wishes, one after the other. -/
def issuing (wishes : List Bytes) : NameSupply := wishes.foldl (fun s w => (s.fresh w).2) {}

theorem wishes_issuing (wishes : List Bytes) : (issuing wishes).wishes = wishes := by
  have hfold (s : NameSupply) :
      (wishes.foldl (fun s w => (s.fresh w).2) s).wishes = s.wishes ++ wishes := by
    induction wishes generalizing s with
    | nil => exact (List.append_nil _).symm
    | cons w ws ih => rw [List.foldl_cons, ih, fresh, List.append_assoc, List.singleton_append]
  exact hfold {}

/-- Whatever is wished for, every mark gets a name: the names differ, none is taken, and each is the
wish when that is neither taken nor given to a mark before, and otherwise the wish with the least
positive number behind it that makes it so. -/
theorem marks_get_least_free_names (wishes taken : List Bytes) :
    let names := (issuing wishes).resolve taken
    names.length = wishes.length ∧ names.Nodup ∧ (∀ n ∈ names, n ∉ taken) ∧
    ∀ (i : Nat) (h : i < wishes.length), ∃ name, names[i]? = some name ∧
      (wishes[i] ∉ taken ++ names.take i → name = wishes[i]) ∧
      (wishes[i] ∈ taken ++ names.take i → ∃ k, 0 < k ∧ name = wishes[i] ++ Bytes.ofNat k ∧
        name ∉ taken ++ names.take i ∧
        ∀ j, 0 < j → j < k → wishes[i] ++ Bytes.ofNat j ∈ taken ++ names.take i) := by
  intro names
  have hnames : names = resolveFrom taken wishes := by
    show resolveFrom taken (issuing wishes).wishes = _
    rw [wishes_issuing]
  refine ⟨?_, nodup_resolve _ _, fun n => resolve_not_taken, fun i h => ?_⟩
  · rw [hnames, length_resolveFrom]
  have hused (n : Bytes) : n ∈ (names.take i).reverse ++ taken ↔ n ∈ taken ++ names.take i := by
    simp only [List.mem_append, List.mem_reverse, or_comm]
  obtain ⟨k, hfound, hunused, hbefore⟩ :=
    exists_free_least ((names.take i).reverse ++ taken) wishes[i]
  have hat : names[i]? = some (spelling wishes[i] k) := by
    rw [hnames, getElem?_resolveFrom h, ← hnames, hfound]
  have hnumber (j : Nat) (hj : 0 < j) : spelling wishes[i] j = wishes[i] ++ Bytes.ofNat j :=
    if_neg (Nat.ne_of_gt hj)
  refine ⟨_, hat, fun hwish => ?_, fun hwish => ?_⟩
  · -- A search that goes past the wish itself has found the wish in use.
    by_cases hk : k = 0
    · rw [hk]
      rfl
    · exact absurd ((hused _).1 (hbefore 0 (Nat.pos_of_ne_zero hk))) hwish
  · have hk : 0 < k := by
      refine Nat.pos_of_ne_zero fun hzero => hunused ?_
      rw [hzero, hused]
      exact hwish
    refine ⟨k, hk, hnumber k hk, fun hmem => hunused ((hused _).2 hmem), fun j hj hjk => ?_⟩
    rw [← hnumber j hj]
    exact (hused _).1 (hbefore j hjk)

end

end NameSupply

end ScriptLower
