import Mathlib.Data.List.Basic
import ScriptLower.Source.Path

/-!
# Elements of paths

A path is cleaned by pushing its elements one after the other. What is left is in normal form: some
steps up, unless the path starts at the root, and names behind them. A path in normal form is its
own elements, so cleaning it changes nothing, and names put behind a path are put behind its
elements.
-/

namespace ScriptLower.Path

open ScriptLower

variable {a b e : Bytes} {es ns : List Bytes} {rooted : Bool}

/-! ## Splitting and joining -/

theorem splitOn_cons_ne (sep b : UInt8) (r : Bytes) (h : b ≠ sep) :
    ∃ p ps, Bytes.splitOn sep r = p :: ps ∧ Bytes.splitOn sep (b :: r) = (b :: p) :: ps := by
  have hne : Bytes.splitOn sep r ≠ [] := by
    cases r with
    | nil => exact List.cons_ne_nil _ _
    | cons c r =>
      unfold Bytes.splitOn
      split
      · exact List.cons_ne_nil _ _
      · split <;> exact List.cons_ne_nil _ _
  obtain ⟨p, ps, hp⟩ := List.exists_cons_of_ne_nil hne
  refine ⟨p, ps, hp, ?_⟩
  rw [Bytes.splitOn, if_neg (by simpa using h), hp]

/-- The pieces of two texts with a separator between them. -/
theorem splitOn_append (sep : UInt8) (a b : Bytes) :
    Bytes.splitOn sep (a ++ sep :: b) = Bytes.splitOn sep a ++ Bytes.splitOn sep b := by
  induction a with
  | nil => simp [Bytes.splitOn]
  | cons c a ih =>
    by_cases hc : c = sep
    · simp [Bytes.splitOn, hc, ih]
    · obtain ⟨p, ps, hp, hcons⟩ := splitOn_cons_ne sep c a hc
      obtain ⟨q, qs, hq, hcons'⟩ := splitOn_cons_ne sep c (a ++ sep :: b) hc
      rw [ih, hp, List.cons_append, List.cons.injEq] at hq
      rw [List.cons_append, hcons', hcons, List.cons_append, hq.1, hq.2]

theorem splitOn_of_notMem {sep : UInt8} (h : sep ∉ a) : Bytes.splitOn sep a = [a] := by
  induction a with
  | nil => rfl
  | cons c a ih =>
    rw [List.mem_cons, not_or] at h
    rw [Bytes.splitOn, if_neg (by simpa using Ne.symm h.1), ih h.2]

theorem join_cons (sep e : Bytes) (h : es ≠ []) :
    Bytes.join sep (e :: es) = e ++ sep ++ Bytes.join sep es := by
  cases es with
  | nil => exact absurd rfl h
  | cons f es => rfl

/-- Texts that are joined are split again. -/
theorem splitOn_join {sep : UInt8} (hes : ∀ e ∈ es, sep ∉ e) (hne : es ≠ []) :
    Bytes.splitOn sep (Bytes.join [sep] es) = es := by
  induction es with
  | nil => exact absurd rfl hne
  | cons e es ih =>
    have he := hes e List.mem_cons_self
    cases hes' : es with
    | nil => exact splitOn_of_notMem he
    | cons f fs =>
      rw [← hes', join_cons _ _ (by simp [hes']), List.append_assoc, List.singleton_append,
        splitOn_append, splitOn_of_notMem he,
        ih (fun x hx => hes x (List.mem_cons_of_mem _ hx)) (by simp [hes'])]
      rfl

/-! ## Names and normal forms -/

/-- The step to the directory around. -/
def up : Bytes := Bytes.ofString ".."

/-- An element that names an entry of a directory. -/
structure IsName (e : Bytes) : Prop where
  /-- It is not empty. -/
  ne_nil : e ≠ []
  /-- It is not the directory itself. -/
  ne_dot : e ≠ Bytes.ofString "."
  /-- It is not the directory around. -/
  ne_up : e ≠ up
  /-- It has no slash. -/
  slash : Path.slash ∉ e

instance (e : Bytes) : Decidable (IsName e) :=
  decidable_of_iff (e ≠ [] ∧ e ≠ Bytes.ofString "." ∧ e ≠ up ∧ Path.slash ∉ e)
    ⟨fun ⟨h1, h2, h3, h4⟩ => ⟨h1, h2, h3, h4⟩, fun h => ⟨h.1, h.2, h.3, h.4⟩⟩

theorem up_noSlash : slash ∉ up := by decide

theorem push_name (h : IsName e) (done : List Bytes) : push rooted done e = e :: done := by
  have hempty : e.isEmpty = false := List.isEmpty_eq_false_iff.2 h.ne_nil
  have hdot : (e == Bytes.ofString ".") = false := beq_false_of_ne h.ne_dot
  have hup : (e == Bytes.ofString "..") = false := beq_false_of_ne h.ne_up
  simp [push, hempty, hdot, hup]

theorem foldl_push_names (h : ∀ e ∈ ns, IsName e) (done : List Bytes) :
    ns.foldl (push rooted) done = ns.reverse ++ done := by
  induction ns generalizing done with
  | nil => rfl
  | cons e ns ih =>
    rw [List.foldl_cons, push_name (h e List.mem_cons_self),
      ih fun x hx => h x (List.mem_cons_of_mem _ hx)]
    simp

/-- Elements in normal form: steps up, unless at the root, and then names. -/
def Normal (rooted : Bool) (es : List Bytes) : Prop :=
  ∃ k ns, es = List.replicate k up ++ ns ∧ (∀ e ∈ ns, IsName e) ∧ (rooted = true → k = 0)

theorem Normal.noSlash (h : Normal rooted es) : ∀ e ∈ es, slash ∉ e := by
  obtain ⟨k, ns, rfl, hns, -⟩ := h
  intro e he
  rcases List.mem_append.1 he with he | he
  · exact (List.mem_replicate.1 he).2 ▸ up_noSlash
  · exact (hns e he).slash

theorem Normal.append (h : Normal rooted es) (hns : ∀ e ∈ ns, IsName e) :
    Normal rooted (es ++ ns) := by
  obtain ⟨k, ms, rfl, hms, hk⟩ := h
  refine ⟨k, ms ++ ns, List.append_assoc _ _ _, fun e he => ?_, hk⟩
  exact (List.mem_append.1 he).elim (hms e) (hns e)

theorem normal_of_names (h : ∀ e ∈ ns, IsName e) : Normal rooted ns := ⟨0, ns, rfl, h, fun _ => rfl⟩

/-- Pushing an element keeps the normal form. -/
theorem Normal.push {done : List Bytes} (h : Normal rooted done.reverse) (he : slash ∉ e) :
    Normal rooted (push rooted done e).reverse := by
  obtain ⟨k, ns, hdone, hns, hk⟩ := h
  unfold Path.push
  split
  · exact ⟨k, ns, hdone, hns, hk⟩
  rename_i hplain
  rw [Bool.or_eq_true, not_or] at hplain
  split
  · rename_i hup
    have hup : e = up := eq_of_beq hup
    subst hup
    rcases List.eq_nil_or_concat ns with rfl | ⟨ms, n, rfl⟩
    · -- nothing but steps up stands before: another one is added, but not at the root
      have hrev : done = List.replicate k up := by
        rw [List.append_nil] at hdone
        rw [← List.reverse_reverse done, hdone, List.reverse_replicate]
      subst hrev
      cases k with
      | zero =>
        cases rooted with
        | false => exact ⟨1, [], rfl, by simp, by simp⟩
        | true => exact ⟨0, [], rfl, by simp, by simp⟩
      | succ k =>
        refine ⟨k + 2, [], ?_, by simp, fun hr => absurd (hk hr) (by simp)⟩
        have hsame : (up == Bytes.ofString "..") = true := beq_self_eq_true up
        rw [List.replicate_succ]
        dsimp only
        rw [if_pos hsame, ← List.replicate_succ, ← List.replicate_succ, List.reverse_replicate,
          List.append_nil]
    · -- a name stands before, which is taken away
      have hrev : done = n :: (List.replicate k up ++ ms).reverse := by
        rw [← List.reverse_reverse done, hdone]
        simp
      subst hrev
      have hn : IsName n := hns n (by simp)
      have hne : (n == Bytes.ofString "..") = false := beq_false_of_ne hn.ne_up
      dsimp only
      rw [if_neg (by simp [hne]), List.reverse_reverse]
      exact ⟨k, ms, rfl, fun x hx => hns x (by simp [hx]), hk⟩
  · rename_i hup
    have hname : IsName e :=
      { ne_nil := fun h => hplain.1 (List.isEmpty_iff.2 h)
        ne_dot := fun h => hplain.2 (beq_iff_eq.2 h)
        ne_up := fun h => hup (beq_iff_eq.2 h)
        slash := he }
    refine ⟨k, ns ++ [e], ?_, List.forall_mem_append.2 ⟨hns, List.forall_mem_singleton.2 hname⟩, hk⟩
    rw [List.reverse_cons, hdone, List.append_assoc]

theorem splitOn_noSlash (p : Bytes) : ∀ e ∈ Bytes.splitOn slash p, slash ∉ e := by
  induction p with
  | nil => simp [Bytes.splitOn]
  | cons c p ih =>
    by_cases hc : c = slash
    · rw [Bytes.splitOn, if_pos (beq_iff_eq.2 hc)]
      exact List.forall_mem_cons.2 ⟨List.not_mem_nil, ih⟩
    · obtain ⟨q, qs, hq, hcons⟩ := splitOn_cons_ne slash c p hc
      rw [hq] at ih
      rw [hcons]
      refine List.forall_mem_cons.2 ⟨?_, fun e he => ih e (List.mem_cons_of_mem _ he)⟩
      rw [List.mem_cons, not_or]
      exact ⟨Ne.symm hc, ih q List.mem_cons_self⟩

/-- The elements of a path are in normal form. -/
theorem elements_normal (p : Bytes) : Normal (isAbsolute p) (elements p) := by
  unfold elements
  generalize isAbsolute p = rooted
  have hfold (qs done : List Bytes) (hqs : ∀ e ∈ qs, slash ∉ e)
      (hdone : Normal rooted done.reverse) :
      Normal rooted (qs.foldl (push rooted) done).reverse := by
    induction qs generalizing done with
    | nil => exact hdone
    | cons q qs ih =>
      exact ih _ (fun e he => hqs e (List.mem_cons_of_mem _ he))
        (hdone.push (hqs q List.mem_cons_self))
  exact hfold _ _ (splitOn_noSlash p) ⟨0, [], rfl, by simp, by simp⟩

/-! ## Paths in normal form -/

/-- Steps up and names are pushed as they are. -/
theorem foldl_push_normal (h : Normal rooted es) : es.foldl (push rooted) [] = es.reverse := by
  obtain ⟨k, ns, rfl, hns, hk⟩ := h
  have hups : (List.replicate k up).foldl (push rooted) [] = List.replicate k up := by
    cases rooted with
    | true =>
      rw [hk rfl]
      rfl
    | false =>
      clear hk
      induction k with
      | zero => rfl
      | succ k ih =>
        rw [List.replicate_succ', List.foldl_append, ih]
        cases k with
        | zero => decide
        | succ k =>
          rw [List.foldl_cons, List.foldl_nil, ← List.replicate_succ', List.replicate_succ, push,
            if_neg (by decide), if_pos (by decide), if_pos (by decide)]
          rfl
  rw [List.foldl_append, hups, foldl_push_names hns, List.reverse_append, List.reverse_replicate]

theorem head?_join (hne : es ≠ []) (hes : ∀ e ∈ es, e ≠ []) :
    (Bytes.join [slash] es).head? = (es.headD []).head? := by
  cases es with
  | nil => exact absurd rfl hne
  | cons e es =>
    have he : e ≠ [] := hes e List.mem_cons_self
    obtain ⟨c, r, rfl⟩ := List.exists_cons_of_ne_nil he
    cases es <;> rfl

theorem Normal.ne_nil (h : Normal rooted es) : ∀ e ∈ es, e ≠ [] := by
  obtain ⟨k, ns, rfl, hns, -⟩ := h
  intro e he
  rcases List.mem_append.1 he with he | he
  · rw [(List.mem_replicate.1 he).2]
    decide
  · exact (hns e he).ne_nil

theorem isAbsolute_ofElements (h : Normal rooted es) :
    isAbsolute (ofElements rooted es) = rooted := by
  unfold isAbsolute ofElements
  cases rooted with
  | true => rfl
  | false =>
    cases hes : es with
    | nil => decide
    | cons e r =>
      rw [← hes]
      have hne : es ≠ [] := by simp [hes]
      have hempty : es.isEmpty = false := List.isEmpty_eq_false_iff.2 hne
      dsimp only
      rw [if_neg Bool.false_ne_true, hempty, if_neg Bool.false_ne_true,
        head?_join hne h.ne_nil, hes,
        List.headD_cons]
      have he : slash ∉ e := h.noSlash e (by simp [hes])
      cases e with
      | nil => rfl
      | cons c e =>
        have hc : c ≠ slash := fun hc => he (hc ▸ List.mem_cons_self)
        simpa using hc

/-- A path of elements in normal form has these elements. -/
theorem elements_ofElements (h : Normal rooted es) : elements (ofElements rooted es) = es := by
  have hsplit :
      (Bytes.splitOn slash (ofElements rooted es)).foldl (push rooted) [] = es.reverse := by
    unfold ofElements
    dsimp only
    cases hes : es with
    | nil => cases rooted <;> decide
    | cons e r =>
      rw [← hes]
      have hne : es ≠ [] := by simp [hes]
      cases rooted with
      | true =>
        have hcons := splitOn_append slash [] (Bytes.join [slash] es)
        rw [List.nil_append] at hcons
        rw [if_pos rfl, hcons, splitOn_join h.noSlash hne, List.foldl_append]
        exact foldl_push_normal h
      | false =>
        rw [if_neg Bool.false_ne_true, if_neg (by simp [hes]), splitOn_join h.noSlash hne]
        exact foldl_push_normal h
  unfold elements
  rw [isAbsolute_ofElements h, hsplit, List.reverse_reverse]

/-- Joined names are a path in normal form. -/
theorem clean_join_names (h : ∀ e ∈ ns, IsName e) (hne : ns ≠ []) :
    clean (Bytes.join [slash] ns) = Bytes.join [slash] ns := by
  have hof : ofElements false ns = Bytes.join [slash] ns := by
    unfold ofElements
    rw [if_neg Bool.false_ne_true, if_neg (by simpa using hne)]
  rw [← hof, clean, elements_ofElements (normal_of_names h),
    isAbsolute_ofElements (normal_of_names h)]

/-! ## Names behind a path -/

/-- Names put behind a path stand behind its elements. -/
theorem join_names (p : Bytes) (h : ∀ e ∈ ns, IsName e) (hne : ns ≠ []) :
    join [p, Bytes.join [slash] ns] = ofElements (isAbsolute p) (elements p ++ ns) := by
  have hbody : (Bytes.join [slash] ns).isEmpty = false := by
    rw [List.isEmpty_eq_false_iff]
    intro hnil
    have hhead := head?_join hne fun e he => (h e he).ne_nil
    obtain ⟨e, r, rfl⟩ := List.exists_cons_of_ne_nil hne
    rw [hnil, List.headD_cons, List.head?_nil, eq_comm, List.head?_eq_none_iff] at hhead
    exact (h e List.mem_cons_self).ne_nil hhead
  have hclean : clean (Bytes.join [slash] ns) = ofElements false ns := by
    rw [clean_join_names h hne, ofElements, if_neg Bool.false_ne_true, if_neg (by simpa using hne)]
  cases hp : p with
  | nil =>
    have hnil : elements ([] : Bytes) = [] ∧ isAbsolute ([] : Bytes) = false := by decide
    rw [hnil.1, hnil.2, List.nil_append, ← hclean]
    simp [join, hbody, Bytes.join]
  | cons c r =>
    rw [← hp]
    have hjoin : join [p, Bytes.join [slash] ns] = clean (p ++ slash :: Bytes.join [slash] ns) := by
      simp [join, hbody, hp, Bytes.join]
    have habs : isAbsolute (p ++ slash :: Bytes.join [slash] ns) = isAbsolute p := by
      rw [hp]
      rfl
    rw [hjoin, clean, habs, elements, habs, splitOn_append, List.foldl_append,
      splitOn_join (fun e he => (h e he).slash) hne, foldl_push_names h, List.reverse_append,
      List.reverse_reverse]
    rfl

/-- A name put behind a path stands behind its elements. -/
theorem join_name (p : Bytes) (h : IsName e) :
    join [p, e] = ofElements (isAbsolute p) (elements p ++ [e]) :=
  have hall : ∀ a ∈ [e], IsName a := by simpa using h
  join_names p hall (List.cons_ne_nil _ _)

theorem stripCommon_append (es fs : List Bytes) : stripCommon es (es ++ fs) = ([], fs) := by
  induction es with
  | nil => rw [List.nil_append, stripCommon.eq_def]
  | cons e es ih => simpa [stripCommon] using ih

/-- The way from a directory to what stands behind its elements. -/
theorem relative?_names (p : Bytes) (h : ∀ e ∈ ns, IsName e) :
    relative? p (ofElements (isAbsolute p) (elements p ++ ns)) = some (ofElements false ns) := by
  have hn : Normal (isAbsolute p) (elements p ++ ns) := (elements_normal p).append h
  simp [relative?, isAbsolute_ofElements hn, elements_ofElements hn, stripCommon_append]

end ScriptLower.Path
