import Mathlib.Algebra.GroupWithZero.Nat
import Mathlib.Data.List.Lex
import Mathlib.Data.List.Sort
import Mathlib.Data.Prod.Lex
import ScriptLower.Proofs.Source.Paths
import ScriptLower.Proofs.Text.Utf8
import ScriptLower.Report.Text

/-!
# Reports of one line a diagnostic

Such a report is sorted by a key that a linear order compares, and without notes the key of a line
is all there is in it. So two orders of the same diagnostics are sorted into one report. A message
is folded to one line, since white space in it becomes blanks; a path is not, and a line feed in it
breaks its line in two.
-/

/-! ## Texts without a line feed -/

namespace ScriptLower.Words

open ScriptLower

theorem splitFrom_zero (word : Bytes) (b : UInt8) (r : Bytes) :
    splitFrom 0 word (b :: r) =
      if CharClass.isWhitespace (Utf8.decode (b :: r)).1 then
        if word.isEmpty then splitFrom.splitBlank ((Utf8.decode (b :: r)).2 - 1) r
        else word.reverse :: splitFrom.splitBlank ((Utf8.decode (b :: r)).2 - 1) r
      else splitFrom ((Utf8.decode (b :: r)).2 - 1) (b :: word) r := rfl

theorem splitBlank_zero (b : UInt8) (r : Bytes) :
    splitFrom.splitBlank 0 (b :: r) =
      if CharClass.isWhitespace (Utf8.decode (b :: r)).1 then
        splitFrom.splitBlank ((Utf8.decode (b :: r)).2 - 1) r
      else splitFrom ((Utf8.decode (b :: r)).2 - 1) [b] r := rfl

/-- A byte that is read as no blank is no line feed. -/
theorem ne_lineFeed {b : UInt8} {r : Bytes}
    (h : ¬CharClass.isWhitespace (Utf8.decode (b :: r)).1 = true) : (10 : UInt8) ≠ b := by
  rintro rfl
  rw [Utf8.decode_one r (by decide)] at h
  exact h (by decide)

/-- No word holds a line feed: it is a blank where it is read, and no byte behind the first of a
longer character is one. -/
theorem lineFeed_notMem_splitFrom (s : Bytes) : ∀ skip, 10 ∉ s.take skip →
    (∀ word, 10 ∉ word → ∀ w ∈ splitFrom skip word s, 10 ∉ w) ∧
      ∀ w ∈ splitFrom.splitBlank skip s, 10 ∉ w := by
  induction s with
  | nil =>
    intro skip _
    refine ⟨fun word hword w hw => ?_, fun w hw => ?_⟩
    · rw [splitFrom] at hw
      split at hw
      · exact absurd hw List.not_mem_nil
      · rw [List.mem_singleton.1 hw, List.mem_reverse]
        exact hword
    · rw [splitFrom.splitBlank] at hw
      exact absurd hw List.not_mem_nil
  | cons b r ih =>
    intro skip hskip
    cases skip with
    | succ skip =>
      rw [List.take_succ_cons, List.mem_cons, not_or] at hskip
      obtain ⟨hfrom, hblank⟩ := ih skip hskip.2
      refine ⟨fun word hword w hw => ?_, fun w hw => ?_⟩
      · rw [splitFrom] at hw
        exact hfrom (b :: word) (List.not_mem_cons_of_ne_of_not_mem hskip.1 hword) w hw
      · rw [splitFrom.splitBlank] at hw
        exact hblank w hw
    | zero =>
      have htail : 10 ∉ r.take ((Utf8.decode (b :: r)).2 - 1) := fun hmem =>
        absurd (Utf8.decode_tail 10 hmem) (by decide)
      obtain ⟨hfrom, hblank⟩ := ih _ htail
      refine ⟨fun word hword w hw => ?_, fun w hw => ?_⟩
      · rw [splitFrom_zero] at hw
        split at hw
        · split at hw
          · exact hblank w hw
          · rcases List.mem_cons.1 hw with rfl | hw
            · rwa [List.mem_reverse]
            · exact hblank w hw
        · rename_i hno
          exact hfrom (b :: word) (List.not_mem_cons_of_ne_of_not_mem (ne_lineFeed hno) hword) w hw
      · rw [splitBlank_zero] at hw
        split at hw
        · exact hblank w hw
        · rename_i hno
          exact hfrom [b] (List.not_mem_cons_of_ne_of_not_mem (ne_lineFeed hno) List.not_mem_nil)
            w hw

theorem lineFeed_notMem_split (s : Bytes) : ∀ w ∈ split s, 10 ∉ w :=
  (lineFeed_notMem_splitFrom s 0 List.not_mem_nil).1 [] List.not_mem_nil

end ScriptLower.Words

namespace ScriptLower.Bytes

open ScriptLower

theorem notMem_join {b : UInt8} {sep : Bytes} (hsep : b ∉ sep) {es : List Bytes}
    (h : ∀ e ∈ es, b ∉ e) : b ∉ join sep es := by
  induction es with
  | nil => exact List.not_mem_nil
  | cons e es ih =>
    have he := h e List.mem_cons_self
    by_cases hes : es = []
    · rw [hes]
      exact he
    · rw [Path.join_cons sep e hes, List.mem_append, List.mem_append, not_or, not_or]
      exact ⟨⟨he, hsep⟩, ih fun x hx => h x (List.mem_cons_of_mem e hx)⟩

theorem lineFeed_notMem_ofNat (n : Nat) : 10 ∉ ofNat n := by
  intro h
  obtain ⟨c, hc, hten⟩ := List.mem_map.1 h
  have hdigit := Nat.isDigit_of_mem_toDigits (by decide) (by decide) hc
  rw [Char.isDigit, Bool.and_eq_true, decide_eq_true_eq, decide_eq_true_eq] at hdigit
  have hlow : 48 ≤ c.toNat := hdigit.1
  have hhigh : c.toNat ≤ 57 := hdigit.2
  have hcode : c.toNat.toUInt8.toNat = 10 := congrArg UInt8.toNat hten
  rw [Utf8.toNat_toUInt8 (by omega)] at hcode
  omega

/-- The pieces of a text between the occurrences of a byte are one more than these. -/
theorem length_splitOn (sep : UInt8) (s : Bytes) : (splitOn sep s).length = s.count sep + 1 := by
  induction s with
  | nil => rfl
  | cons b s ih =>
    by_cases hb : b = sep
    · rw [splitOn, if_pos (beq_iff_eq.2 hb), List.length_cons, ih, hb, List.count_cons_self]
    · obtain ⟨p, ps, hp, hcons⟩ := Path.splitOn_cons_ne sep b s hb
      rw [hcons, List.count_cons_of_ne hb, ← ih, hp]
      rfl

/-! ## The order of texts -/

/-- The order of texts is the lexicographic one of the values of their bytes. -/
theorem lt_iff (a b : Bytes) : lt a b = true ↔ a.map UInt8.toNat < b.map UInt8.toNat := by
  induction a generalizing b with
  | nil => cases b <;> simp [lt]
  | cons x a ih =>
    cases b with
    | nil => simp [lt]
    | cons y b =>
      rw [lt, List.map_cons, List.map_cons, List.cons_lt_cons_iff, ← ih]
      split
      · rename_i hxy
        exact iff_of_true rfl (.inl (UInt8.lt_iff_toNat_lt.1 hxy))
      · rename_i hxy
        rw [UInt8.lt_iff_toNat_lt] at hxy
        split
        · rename_i hyx
          rw [UInt8.lt_iff_toNat_lt] at hyx
          exact iff_of_false Bool.false_ne_true (by omega)
        · rename_i hyx
          rw [UInt8.lt_iff_toNat_lt] at hyx
          have heq : x.toNat = y.toNat := by omega
          simp [heq]

theorem map_toNat_injective : Function.Injective (List.map UInt8.toNat) :=
  List.map_injective_iff.2 fun _ _ => UInt8.toNat_inj.1

/-- A text comes first if its values do. -/
theorem compare_eq_lt {a b : Bytes} :
    compare a b = .lt ↔ a.map UInt8.toNat < b.map UInt8.toNat := by
  rw [← lt_iff, compare]
  split
  · rename_i h
    exact iff_of_true rfl h
  · rename_i h
    refine iff_of_false ?_ h
    split <;> decide

theorem compare_eq_eq {a b : Bytes} : compare a b = .eq ↔ a = b := by
  unfold compare
  split
  · rename_i h
    refine iff_of_false (by decide) ?_
    rintro rfl
    exact lt_irrefl _ ((lt_iff a a).1 h)
  · rename_i hab
    split
    · rename_i h
      refine iff_of_false (by decide) ?_
      rintro rfl
      exact hab h
    · rename_i hba
      rw [lt_iff, not_lt] at hab hba
      exact iff_of_true rfl (map_toNat_injective (le_antisymm hba hab))

theorem isLE_compare {a b : Bytes} :
    (compare a b).isLE = true ↔ a.map UInt8.toNat ≤ b.map UInt8.toNat := by
  rw [le_iff_lt_or_eq, ← compare_eq_lt, map_toNat_injective.eq_iff, ← compare_eq_eq]
  cases compare a b <;> decide

end ScriptLower.Bytes

/-! ## Sorted lines -/

namespace ScriptLower.Report.Short

open ScriptLower

/-- What the lines of a report are sorted by: path, line, column, severity with the more serious
first, code and message. -/
def key (l : ShortLine) :
    List Nat ×ₗ Nat ×ₗ Nat ×ₗ Natᵒᵈ ×ₗ Nat ×ₗ List Nat :=
  toLex (l.spot.path.map UInt8.toNat, toLex (l.spot.pos.line, toLex (l.spot.pos.col,
    toLex (OrderDual.toDual l.severity.level, toLex (l.code.number, l.message.map UInt8.toNat)))))

theorem isLE_then {o o' : Ordering} :
    (o.then o').isLE = true ↔ o = .lt ∨ o = .eq ∧ o'.isLE = true := by
  cases o <;> simp

/-- The order of lines is that of their keys. -/
theorem isLE_order (a b : ShortLine) : (order a b).isLE = true ↔ key a ≤ key b := by
  simp only [order, key, isLE_then, Prod.Lex.toLex_le_toLex, Bytes.compare_eq_lt,
    Bytes.compare_eq_eq,
    Bytes.isLE_compare, Nat.compare_eq_lt, Nat.compare_eq_eq, OrderDual.toDual_lt_toDual,
    OrderDual.toDual_inj, Bytes.map_toNat_injective.eq_iff, eq_comm (a := b.severity.level)]

/-- Without notes the key is all there is in a line. -/
theorem eq_of_key {a b : ShortLine} (h : key a = key b) (ha : a.notes = []) (hb : b.notes = []) :
    a = b := by
  obtain ⟨⟨path, line, col⟩, ⟨level⟩, ⟨number⟩, message, notes⟩ := a
  obtain ⟨⟨path', line', col'⟩, ⟨level'⟩, ⟨number'⟩, message', notes'⟩ := b
  simp only [key, EmbeddingLike.apply_eq_iff_eq, Prod.mk.injEq] at h
  obtain ⟨hpath, rfl, rfl, rfl, rfl, hmessage⟩ := h
  cases Bytes.map_toNat_injective hpath
  cases Bytes.map_toNat_injective hmessage
  cases ha
  cases hb
  rfl

variable (files : Option FileSet) (ds : List Diagnostic)

theorem lines_sorted (notes : Bool) :
    (lines files notes ds).Pairwise fun a b => key a ≤ key b := by
  refine (List.pairwise_mergeSort (fun a b c hab hbc => ?_) (fun a b => ?_) _).imp fun h =>
    (isLE_order _ _).1 h
  · rw [isLE_order] at hab hbc ⊢
    exact hab.trans hbc
  · rw [Bool.or_eq_true, isLE_order, isLE_order]
    exact le_total (key a) (key b)

theorem lines_perm (notes : Bool) : (lines files notes ds).Perm (ds.map (line files notes)) :=
  List.mergeSort_perm _ _

theorem notes_of_mem_lines {l : ShortLine} (h : l ∈ lines files false ds) : l.notes = [] := by
  obtain ⟨d, -, rfl⟩ := List.mem_map.1 ((lines_perm files ds false).mem_iff.1 h)
  rfl

variable {ds}

/-- Without notes, the same diagnostics in any order give the same lines. -/
theorem lines_eq_of_perm {ds' : List Diagnostic} (h : ds.Perm ds') :
    lines files false ds = lines files false ds' := by
  have hperm : (lines files false ds).Perm (lines files false ds') :=
    calc
      (lines files false ds).Perm (ds.map (line files false)) := lines_perm files ds false
      List.Perm _ (ds'.map (line files false)) := h.map _
      List.Perm _ (lines files false ds') := (lines_perm files ds' false).symm
  refine hperm.eq_of_pairwise (fun a b ha hb hab hba => ?_) (lines_sorted files ds false)
    (lines_sorted files ds' false)
  exact eq_of_key (le_antisymm hab hba) (notes_of_mem_lines files ds ha)
    (notes_of_mem_lines files ds' hb)

/-! ## Lines of text -/

/-- The line of a diagnostic without the line feed behind it. -/
def body (l : ShortLine) : Bytes :=
  spotText l.spot ++ ": " ++ Bytes.lower l.severity.name ++ " " ++ l.code.id ++ ": " ++ l.message

theorem text_eq {l : ShortLine} (h : l.notes = []) : text l = body l ++ [10] := by
  have hfeed : Bytes.ofString "\n" = [10] := by decide
  rw [text, h, hfeed]
  simp [body]

theorem lineFeed_notMem_lower_name (s : Severity) : 10 ∉ Bytes.lower s.name := by
  unfold Severity.name
  split <;> decide

theorem lineFeed_notMem_id (c : Code) : 10 ∉ c.id := by
  unfold Code.id Code.series
  have hnumber := Bytes.lineFeed_notMem_ofNat c.number
  split
  · rename_i series hseries
    have hseries : 10 ∉ series := by
      split at hseries
      all_goals
        first
        | cases hseries; decide
        | cases hseries
    rw [List.mem_append, not_or]
    exact ⟨hseries, hnumber⟩
  · decide

/-- The line feeds of a line are those of its path. -/
theorem count_body (d : Diagnostic) :
    (body (line files false d)).count 10 = (spot files d.primary).path.count 10 := by
  have hzero {s : Bytes} (h : 10 ∉ s) : s.count 10 = 0 := List.count_eq_zero.2 h
  have hmessage : (oneLine d.message).count 10 = 0 :=
    hzero (Bytes.notMem_join (by decide) (Words.lineFeed_notMem_split d.message))
  have hline := hzero (Bytes.lineFeed_notMem_ofNat (spot files d.primary).pos.line)
  have hcol := hzero (Bytes.lineFeed_notMem_ofNat (spot files d.primary).pos.col)
  have hname := hzero (lineFeed_notMem_lower_name d.severity)
  have hid := hzero (lineFeed_notMem_id d.code)
  have hcolon : (Bytes.ofString ":").count 10 = 0 := by decide
  have hcolons : (Bytes.ofString ": ").count 10 = 0 := by decide
  have hblank : (Bytes.ofString " ").count 10 = 0 := by decide
  simp only [body, line, spotText, List.count_append, hline, hcol, hname, hid, hmessage, hcolon,
    hcolons, hblank, Nat.add_zero]

/-- Lines that end with a line feed and hold no other are the pieces of their text. -/
theorem splitOn_flatMap {ls : List ShortLine} (hnotes : ∀ l ∈ ls, l.notes = [])
    (hbody : ∀ l ∈ ls, 10 ∉ body l) : Bytes.splitOn 10 (ls.flatMap text) = ls.map body ++ [[]] := by
  induction ls with
  | nil => rfl
  | cons l ls ih =>
    obtain ⟨hl, hls⟩ := List.forall_mem_cons.1 hnotes
    obtain ⟨hb, hbs⟩ := List.forall_mem_cons.1 hbody
    rw [List.flatMap_cons, text_eq hl, List.append_assoc, List.singleton_append,
      Path.splitOn_append,
      Path.splitOn_of_notMem hb, ih hls hbs]
    rfl

/-- The line feeds of a report are one for each diagnostic and those of the paths. -/
theorem count_short (ds : List Diagnostic) :
    (short files false ds).count 10 =
      ds.length + (ds.map fun d => (spot files d.primary).path.count 10).sum := by
  have hperm : (short files false ds).Perm (ds.flatMap fun d => text (line files false d)) := by
    rw [← List.flatMap_map]
    exact (lines_perm files ds false).flatMap_right text
  rw [hperm.count_eq]
  clear hperm
  induction ds with
  | nil => rfl
  | cons d ds ih =>
    rw [List.flatMap_cons, List.count_append, ih, text_eq rfl, List.count_append, count_body,
      List.map_cons, List.sum_cons, List.length_cons]
    simp only [List.count_singleton_self]
    omega

/-- **The same diagnostics in any order give the same report**. Its lines are those of the
diagnostics, sorted by their keys, and each stands on a line of its own just if no path that is
shown holds a line feed. -/
theorem report_of_perm (files : Option FileSet) (ds ds' : List Diagnostic) (h : ds.Perm ds') :
    short files false ds = short files false ds' ∧
      ∃ ls : List ShortLine, ls.Perm (ds.map (line files false)) ∧
        ls.Pairwise (fun a b => key a ≤ key b) ∧ short files false ds = ls.flatMap text ∧
        (Bytes.splitOn 10 (short files false ds) = ls.map body ++ [[]] ↔
          ∀ d ∈ ds, 10 ∉ (spot files d.primary).path) := by
  have hperm := lines_perm files ds false
  refine ⟨congrArg (List.flatMap text) (lines_eq_of_perm files h), lines files false ds, hperm,
    lines_sorted files ds false, rfl, fun hsplit => ?_, fun hpaths => ?_⟩
  · have hlength := congrArg List.length hsplit
    rw [Bytes.length_splitOn, count_short, List.length_append, List.length_map, hperm.length_eq,
      List.length_map, List.length_singleton] at hlength
    intro d hd
    have hsum : (ds.map fun d => (spot files d.primary).path.count 10).sum = 0 := by omega
    exact List.count_eq_zero.1
      (List.sum_eq_zero_iff_forall_eq_nat.1 hsum _ (List.mem_map_of_mem hd))
  · refine splitOn_flatMap (fun l hl => notes_of_mem_lines files ds hl) fun l hl => ?_
    obtain ⟨d, hd, rfl⟩ := List.mem_map.1 (hperm.mem_iff.1 hl)
    rw [← List.count_eq_zero, count_body]
    exact List.count_eq_zero.2 (hpaths d hd)

/-- Two files, and a report of both whose diagnostics are handed over in two orders. -/
theorem report_of_two_files :
    let files := ((FileSet.empty.add "b.ts" "x" true).1.add "a.ts" "x" true).1
    let first := Diagnostic.error .unexpectedToken ⟨0, 1, 2⟩ "one\ntwo"
    let second := Diagnostic.warning .unexpectedToken ⟨1, 3, 4⟩ "three"
    [first, second].Perm [second, first] ∧
      short (some files) false [first, second] = short (some files) false [second, first] :=
  ⟨List.Perm.swap _ _ _, (report_of_perm _ _ _ (List.Perm.swap _ _ _)).1⟩

/-- A line feed in a path breaks the line of its diagnostic in two. -/
theorem line_of_broken_path :
    Bytes.splitOn 10
        (short (some (FileSet.empty.add "a\nb.ts" "x" true).1) false
          [Diagnostic.error .unexpectedToken ⟨0, 1, 2⟩ "m"]) =
      [Bytes.ofString "a", Bytes.ofString "b.ts:1:1: error SYN2001: m", []] := by
  rw [short, lines, List.map_singleton, List.mergeSort_singleton, List.flatMap_singleton]
  decide +kernel

end ScriptLower.Report.Short
