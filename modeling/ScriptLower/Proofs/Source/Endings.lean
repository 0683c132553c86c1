import ScriptLower.Build.Run
import ScriptLower.Proofs.Source.Paths
import Mathlib.Data.List.TakeWhile
import Mathlib.Data.Option.Basic

/-!
# Endings of paths and names of scripts

The ending of a path is what stands from the last dot of its last element on. The name of a script
keeps what stands before the ending of its source and puts the ending of a script there; a source
that is spelled like a declaration in other letters keeps its whole name. So the names of two
scripts are the same exactly when the sources differ in endings of one family, or when one source is
spelled like a declaration and the other carries its whole name.

All this holds of plain names. A question mark or a hash sign cuts a name off, a backslash becomes a
slash, and what stands before a colon may be taken for the scheme of a location.
-/

namespace ScriptLower

open ScriptLower.Path (slash)

/-! ## Endings -/

namespace Path

variable {p r s t : Bytes}

theorem ext_suffix (p : Bytes) : ext p <:+ p := by
  unfold ext
  have hlast : (p.reverse.takeWhile (· != slash)).reverse <:+ p := by
    rw [← List.reverse_prefix, List.reverse_reverse]
    exact List.takeWhile_prefix _
  dsimp only
  split
  · exact (List.drop_suffix _ _).trans hlast
  · exact List.nil_suffix

/-- Where a byte last stands, if it does not stand behind. -/
theorem lastIndexOf?_append {b : UInt8} (hb : b ∉ r) :
    Bytes.lastIndexOf? b (s ++ b :: r) = some s.length := by
  have hfind : (r.reverse ++ b :: s.reverse).findIdx? (· == b) = some r.length := by
    rw [List.findIdx?_append]
    have hnone : r.reverse.findIdx? (· == b) = none := by
      rw [List.findIdx?_eq_none_iff]
      intro x hx
      exact beq_false_of_ne fun h => hb (h ▸ List.mem_reverse.1 hx)
    have hfirst : (b :: s.reverse).findIdx? (· == b) = some 0 := by
      rw [List.findIdx?_cons, beq_self_eq_true, if_pos rfl]
    simp [hnone, hfirst]
  rw [Bytes.lastIndexOf?, List.reverse_append, List.reverse_cons, List.append_assoc,
    List.singleton_append, hfind, Option.map_some]
  congr 1
  simp only [List.length_append, List.length_cons]
  omega

/-- A dot with neither dots nor slashes behind it begins the ending. -/
theorem ext_append (hdot : 46 ∉ r) (hslash : slash ∉ r) : ext (s ++ 46 :: r) = 46 :: r := by
  have hlast : (((s ++ 46 :: r).reverse.takeWhile (· != slash)).reverse : Bytes) =
      (s.reverse.takeWhile (· != slash)).reverse ++ 46 :: r := by
    have hall : ∀ x ∈ r.reverse ++ [46], (x != slash) = true := by
      intro x hx
      rcases List.mem_append.1 hx with hx | hx
      · exact bne_iff_ne.2 fun h => hslash (h ▸ List.mem_reverse.1 hx)
      · rw [List.mem_singleton.1 hx]
        decide
    rw [List.reverse_append, List.reverse_cons, List.takeWhile_append_of_pos hall,
      List.reverse_append, List.reverse_append, List.reverse_singleton, List.reverse_reverse]
    rfl
  unfold ext
  rw [hlast]
  dsimp only
  rw [lastIndexOf?_append hdot]
  dsimp only
  rw [List.drop_left]

/-- What is put behind a path without a slash goes to its last element. -/
theorem splitOn_append_noSlash (s : Bytes) (ht : slash ∉ t) :
    ∃ es n, Bytes.splitOn slash s = es ++ [n] ∧ Bytes.splitOn slash (s ++ t) = es ++ [n ++ t] := by
  induction s with
  | nil => exact ⟨[], [], rfl, splitOn_of_notMem ht⟩
  | cons c s ih =>
    obtain ⟨es, n, hs, hst⟩ := ih
    by_cases hc : c = slash
    · refine ⟨[] :: es, n, ?_, ?_⟩
      · rw [Bytes.splitOn, if_pos (beq_iff_eq.2 hc), hs]
        rfl
      · rw [List.cons_append, Bytes.splitOn, if_pos (beq_iff_eq.2 hc), hst]
        rfl
    · obtain ⟨p, ps, hp, hcons⟩ := splitOn_cons_ne slash c s hc
      obtain ⟨q, qs, hq, hcons'⟩ := splitOn_cons_ne slash c (s ++ t) hc
      rw [List.cons_append, hcons, hcons']
      rw [hs] at hp
      rw [hst] at hq
      cases es with
      | nil =>
        simp only [List.nil_append, List.cons.injEq] at hp hq
        exact ⟨[], c :: n, by simp [← hp.1, ← hp.2], by simp [← hq.1, ← hq.2]⟩
      | cons e es =>
        simp only [List.cons_append, List.cons.injEq] at hp hq
        exact ⟨(c :: e) :: es, n, by simp [← hp.1, ← hp.2], by simp [← hq.1, ← hq.2]⟩

theorem splitOn_ne_nil (p : Bytes) : Bytes.splitOn slash p ≠ [] := by
  obtain ⟨es, n, h, -⟩ := splitOn_append_noSlash p (t := []) List.not_mem_nil
  simp [h]

theorem join_splitOn (p : Bytes) : Bytes.join [slash] (Bytes.splitOn slash p) = p := by
  induction p with
  | nil => rfl
  | cons c p ih =>
    by_cases hc : c = slash
    · rw [Bytes.splitOn, if_pos (beq_iff_eq.2 hc), join_cons _ _ (splitOn_ne_nil p), ih, hc]
      rfl
    · obtain ⟨q, qs, hq, hcons⟩ := splitOn_cons_ne slash c p hc
      rw [hq] at ih
      rw [hcons]
      cases qs with
      | nil => exact congrArg (c :: ·) ih
      | cons q' qs => exact congrArg (c :: ·) ih

end Path

/-! ## Plain names -/

/-- No byte of a name has a meaning in a specifier, except for slashes and dots. -/
def IsPlain (p : Bytes) : Prop := ∀ b ∈ p, b ∉ Bytes.ofString "?#:\\"

instance (p : Bytes) : Decidable (IsPlain p) := inferInstanceAs (Decidable (∀ b ∈ p, _))

section

variable {p s t : Bytes}

/-- Without a colon there is no scheme. -/
theorem scheme?_of_noColon (h : ascii ':' ∉ s) : Location.scheme? s = some ([], s) := by
  unfold Location.scheme?
  dsimp only
  split
  · rename_i b r hdrop
    have hb : b ∈ s := List.mem_of_mem_drop (hdrop ▸ List.mem_cons_self)
    rw [if_neg]
    intro hcolon
    exact h (eq_of_beq hcolon ▸ hb)
  · rfl

theorem cut?_subset {sub x y : Bytes} (h : Bytes.cut? sub s = some (x, y)) : x ⊆ s := by
  unfold Bytes.cut? at h
  obtain ⟨i, -, hi⟩ := Option.map_eq_some_iff.1 h
  rw [Prod.mk.injEq] at hi
  exact hi.1 ▸ fun b hb => List.mem_of_mem_take hb

/-- A location without a colon has no scheme. -/
theorem parse?_scheme {l : Location} (h : ascii ':' ∉ s) (hl : Location.parse? s = some l) :
    l.scheme = [] := by
  unfold Location.parse? at hl
  have hbody : ascii ':' ∉ ((Bytes.cut? "#" s).getD (s, [])).1 := by
    cases hcut : Bytes.cut? "#" s with
    | none => exact h
    | some xy => exact fun hm => h (cut?_subset hcut hm)
  split at hl
  rename_i body fragment hcut
  rw [hcut] at hbody
  obtain ⟨-, -, hl⟩ := Option.bind_eq_some_iff.1 hl
  obtain ⟨-, -, hl⟩ := Option.bind_eq_some_iff.1 hl
  split at hl
  · cases hl
    rfl
  · rw [scheme?_of_noColon hbody, Option.bind_eq_bind, Option.bind_some] at hl
    simp only [List.isEmpty_nil] at hl
    generalize ((Bytes.cut? "?" body).map (·.1)).getD body = rest at hl
    have hpath (path : Option Bytes)
        (hl : path.bind (fun p => pure { scheme := [], path := p }) = some l) : l.scheme = [] := by
      obtain ⟨p, -, hl⟩ := Option.bind_eq_some_iff.1 hl
      cases hl
      rfl
    split at hl
    · split at hl
      · cases hl
        rfl
      · obtain ⟨-, -, hl⟩ := Option.bind_eq_some_iff.1 hl
        split at hl
        · obtain ⟨-, -, hl⟩ := Option.bind_eq_some_iff.1 hl
          exact hpath _ hl
        · exact hpath _ hl
    · split at hl
      · obtain ⟨-, -, hl⟩ := Option.bind_eq_some_iff.1 hl
        exact hpath _ hl
      · exact hpath _ hl

/-- The path of a plain name is the name. -/
theorem specifierPath_of_isPlain (rootless : Bool) (h : IsPlain p) :
    Dialect.specifierPath rootless p = p := by
  have hcolon : ascii ':' ∉ p := fun hm => h _ hm (by decide)
  have hplain : p.takeWhile (fun b => b != ascii '?' && b != ascii '#') = p := by
    rw [List.takeWhile_eq_self_iff]
    intro b hb
    have hquery : b ≠ ascii '?' := fun he => h b hb (he ▸ by decide)
    have hfragment : b ≠ ascii '#' := fun he => h b hb (he ▸ by decide)
    simp [hquery, hfragment]
  unfold Dialect.specifierPath
  dsimp only
  rw [hplain]
  cases hl : Location.parse? p with
  | none => rfl
  | some l => simp [parse?_scheme hcolon hl]

theorem slashes_of_isPlain (h : IsPlain p) : Dialect.slashes p = p := by
  unfold Dialect.slashes
  refine (List.map_congr_left fun b hb => ?_).trans (List.map_id p)
  have hback : b ≠ 92 := fun he => h b hb (he ▸ by decide)
  simp [hback]

end

/-! ## Names of scripts -/

namespace Dialect

variable {a b e p s stem : Bytes}

/-- The endings of scripts, each with the endings of the sources it is given to. -/
def families : List (Bytes × List Bytes) := [
  (".js", [".ts", ".tsx", ".jsx", ".js"].map Bytes.ofString),
  (".mjs", [".mts", ".mjs"].map Bytes.ofString),
  (".cjs", [".cts", ".cjs"].map Bytes.ofString)]

/-- Whether a name is that of a declaration but for the case of its letters. -/
def isSpelledDeclaration (p : Bytes) : Bool :=
  Build.declarationEndings.any (·.isSuffixOf (Bytes.lower p))

/-- Two sources that are given the same script. -/
inductive Siblings : Bytes → Bytes → Prop
  /-- They differ in endings of one family. -/
  | endings {stem : Bytes} {family : Bytes × List Bytes} {e e' : Bytes}
      (hfamily : family ∈ families)
      (he : e ∈ family.2) (he' : e' ∈ family.2) (hne : e ≠ e')
      (h : isSpelledDeclaration (stem ++ e) = false)
      (h' : isSpelledDeclaration (stem ++ e') = false) : Siblings (stem ++ e) (stem ++ e')
  /-- One is spelled like a declaration, and the other has its name with an ending behind. -/
  | declaration {a e : Bytes} (ha : isSpelledDeclaration a = true)
      (he : e ∈ [".ts", ".tsx", ".jsx", ".js"].map Bytes.ofString)
      (h : isSpelledDeclaration (a ++ e) = false) : Siblings a (a ++ e)
  /-- The same the other way round. -/
  | symm {a b : Bytes} (h : Siblings a b) : Siblings b a

/-- An ending is a dot with neither dots nor slashes behind it, in small letters. -/
structure IsEnding (e : Bytes) : Prop where
  /-- It begins with a dot. -/
  head : e.head? = some 46
  /-- There is no other dot. -/
  dot : 46 ∉ e.tail
  /-- There is no slash. -/
  slash : Path.slash ∉ e
  /-- Its letters are small. -/
  lower : Bytes.lower e = e
  /-- Something stands behind the dot. -/
  length : 3 ≤ e.length

instance (e : Bytes) : Decidable (IsEnding e) :=
  decidable_of_iff
    (e.head? = some 46 ∧ 46 ∉ e.tail ∧ Path.slash ∉ e ∧ Bytes.lower e = e ∧ 3 ≤ e.length)
    ⟨fun ⟨h1, h2, h3, h4, h5⟩ => ⟨h1, h2, h3, h4, h5⟩, fun h => ⟨h.1, h.2, h.3, h.4, h.5⟩⟩

/-- The ending that the table of endings gives, or the ending itself where it is that of a
script. -/
def scriptEnding? (e : Bytes) : Option Bytes :=
  match outputExtensions.find? fun x => Bytes.ofString x.1 == e with
  | some (_, js) => some js
  | Option.none =>
    if [".js", ".mjs", ".cjs"].any fun x => Bytes.ofString x == e then some e else Option.none

theorem scriptEnding?_family :
    ∀ family ∈ families, ∀ e ∈ family.2, IsEnding e ∧ scriptEnding? e = some family.1 := by
  decide

theorem isEnding_family : ∀ family ∈ families, IsEnding family.1 := by
  decide

theorem sourceEndings_families :
    ∀ e ∈ Build.sourceEndings, ∃ family ∈ families, e ∈ family.2 := by
  decide

theorem IsEnding.ext (h : IsEnding e) (stem : Bytes) : Path.ext (stem ++ e) = e := by
  cases e with
  | nil => exact absurd h.head (by simp)
  | cons b r =>
    obtain rfl : b = 46 := by simpa using h.head
    exact Path.ext_append h.dot fun hr => h.slash (List.mem_cons_of_mem _ hr)

/-- A name is cut at its ending in one way. -/
theorem IsEnding.append_inj {e' stem' : Bytes} (h : IsEnding e) (h' : IsEnding e')
    (heq : stem ++ e = stem' ++ e') : stem = stem' ∧ e = e' := by
  have he : e = e' := by rw [← h.ext stem, ← h'.ext stem', heq]
  exact ⟨List.append_cancel_right (he ▸ heq), he⟩

theorem IsEnding.lower_append (h : IsEnding e) (stem : Bytes) :
    Bytes.lower (stem ++ e) = Bytes.lower stem ++ e := by
  conv_rhs => rw [← h.lower]
  exact List.map_append

/-- A source with its ending. -/
theorem exists_stem (h : Build.isSource p = true) :
    ∃ family ∈ families, ∃ e ∈ family.2, ∃ stem, p = stem ++ e := by
  have hmem : Path.ext p ∈ Build.sourceEndings := by
    unfold Build.isSource at h
    rw [Bool.and_eq_true, List.contains_iff_mem] at h
    exact h.2
  obtain ⟨family, hfamily, he⟩ := sourceEndings_families _ hmem
  obtain ⟨stem, hstem⟩ := Path.ext_suffix p
  exact ⟨family, hfamily, Path.ext p, he, stem, hstem.symm⟩

/-- A name spelled like that of a declaration is kept whole. -/
theorem outputName_declaration (hp : IsPlain p) (h : isSpelledDeclaration p = true) :
    outputName p = p ++ Bytes.ofString ".js" := by
  have hends : ((Bytes.ofString ".d.ts").isSuffixOf (Bytes.lower p)
      || (Bytes.ofString ".d.mts").isSuffixOf (Bytes.lower p)
      || (Bytes.ofString ".d.cts").isSuffixOf (Bytes.lower p)) = true := by
    simpa [isSpelledDeclaration, Build.declarationEndings, or_assoc] using h
  unfold outputName
  rw [specifierPath_of_isPlain false hp, slashes_of_isPlain hp]
  exact if_pos hends

/-- A source is given the ending of its family. -/
theorem outputName_family {family : Bytes × List Bytes} (hp : IsPlain (stem ++ e))
    (hfamily : family ∈ families) (he : e ∈ family.2)
    (h : isSpelledDeclaration (stem ++ e) = false) : outputName (stem ++ e) = stem ++ family.1 := by
  obtain ⟨hending, hscript⟩ := scriptEnding?_family family hfamily e he
  have hends : ((Bytes.ofString ".d.ts").isSuffixOf (Bytes.lower (stem ++ e))
      || (Bytes.ofString ".d.mts").isSuffixOf (Bytes.lower (stem ++ e))
      || (Bytes.ofString ".d.cts").isSuffixOf (Bytes.lower (stem ++ e))) = false := by
    simpa [isSpelledDeclaration, Build.declarationEndings, and_assoc] using h
  unfold outputName
  rw [specifierPath_of_isPlain false hp, slashes_of_isPlain hp]
  dsimp only
  rw [if_neg (by rw [hends]; exact Bool.false_ne_true), hending.lower_append, hending.ext]
  unfold scriptEnding? at hscript
  rcases Option.eq_none_or_eq_some (outputExtensions.find? fun x => Bytes.ofString x.1 == e) with
    hfind | ⟨⟨x, js⟩, hfind⟩
  · -- An ending outside the table is the ending of a script, and such a name is kept.
    rw [hfind] at hscript ⊢
    dsimp only at hscript ⊢
    by_cases hany : ([".js", ".mjs", ".cjs"].any fun x => Bytes.ofString x == e) = true
    · rw [if_pos hany] at hscript ⊢
      rw [Option.some.inj hscript]
    · rw [if_neg hany] at hscript
      cases hscript
  · rw [hfind] at hscript ⊢
    dsimp only at hscript ⊢
    rw [List.length_append, Nat.add_sub_cancel, List.take_left, Option.some.inj hscript]

/-- A source's script: its stem with the ending of its family, or its whole name. -/
theorem outputName_cases (hp : IsPlain p) (h : Build.isSource p = true) :
    (isSpelledDeclaration p = true ∧ outputName p = p ++ Bytes.ofString ".js") ∨
      isSpelledDeclaration p = false ∧
        ∃ family ∈ families, ∃ e ∈ family.2, ∃ stem, p = stem ++ e ∧
          outputName p = stem ++ family.1 := by
  cases hd : isSpelledDeclaration p with
  | true => exact .inl ⟨rfl, outputName_declaration hp hd⟩
  | false =>
    obtain ⟨family, hfamily, e, he, stem, rfl⟩ := exists_stem h
    exact .inr ⟨rfl, family, hfamily, e, he, stem, rfl, outputName_family hp hfamily he hd⟩

theorem Siblings.outputName_eq (h : Siblings a b) (ha : IsPlain a) (hb : IsPlain b) :
    outputName a = outputName b := by
  induction h with
  | endings hfamily he he' _ h h' =>
    rw [outputName_family ha hfamily he h, outputName_family hb hfamily he' h']
  | declaration hd he h =>
    rw [outputName_declaration ha hd, outputName_family hb List.mem_cons_self he h]
  | symm _ ih => exact (ih hb ha).symm

/-- Two families of endings have different scripts. -/
theorem families_eq : ∀ f ∈ families, ∀ g ∈ families, f.1 = g.1 → f = g := by
  decide

/-- A source spelled like a declaration and one that is not have one script only when the second
carries the name of the first. -/
theorem siblings_of_declaration {f : Bytes × List Bytes} (hf : f ∈ families) (he : e ∈ f.2)
    (ha : isSpelledDeclaration a = true) (hb : isSpelledDeclaration (stem ++ e) = false)
    (h : a ++ Bytes.ofString ".js" = stem ++ f.1) : Siblings a (stem ++ e) := by
  have hjs : IsEnding (Bytes.ofString ".js") := by decide
  obtain ⟨rfl, hscript⟩ := hjs.append_inj (isEnding_family f hf) h
  obtain rfl := families_eq _ List.mem_cons_self f hf hscript
  exact .declaration ha he hb

/-- Two sources have one script exactly when they are siblings. -/
theorem outputName_eq_iff (ha : IsPlain a) (hb : IsPlain b) (hsa : Build.isSource a = true)
    (hsb : Build.isSource b = true) : outputName a = outputName b ↔ a = b ∨ Siblings a b := by
  refine ⟨fun h => ?_, fun h => ?_⟩
  · rcases outputName_cases ha hsa with ⟨hda, hna⟩ | ⟨hda, f, hf, e, he, stem, rfl, hna⟩ <;>
      rcases outputName_cases hb hsb with ⟨hdb, hnb⟩ | ⟨hdb, g, hg, e', he', stem', rfl, hnb⟩ <;>
      rw [hna, hnb] at h
    · exact .inl (List.append_cancel_right h)
    · exact .inr (siblings_of_declaration hg he' hda hdb h)
    · exact .inr (siblings_of_declaration hf he hdb hda h.symm).symm
    · obtain ⟨rfl, hscript⟩ := (isEnding_family f hf).append_inj (isEnding_family g hg) h
      obtain rfl := families_eq f hf g hg hscript
      by_cases hne : e = e'
      · exact .inl (hne ▸ rfl)
      · exact .inr (.endings hf he he' hne hda hdb)
  · rcases h with rfl | h
    · rfl
    · exact h.outputName_eq ha hb

/-! ## Scripts as paths of names -/

/-- A path of names. -/
def MadeOfNames (p : Bytes) : Prop := ∀ n ∈ Bytes.splitOn slash p, Path.IsName n

theorem IsEnding.isName (h : IsEnding e) (hs : Path.slash ∉ s) : Path.IsName (s ++ e) := by
  have hlong : 3 ≤ (s ++ e).length := by
    rw [List.length_append]
    exact h.length.trans (Nat.le_add_left _ _)
  have hother (t : Bytes) (ht : t.length < 3) : s ++ e ≠ t := fun heq => by
    rw [heq] at hlong
    omega
  exact
    { ne_nil := hother [] (by decide)
      ne_dot := hother _ (by decide)
      ne_up := hother _ (by decide)
      slash := fun hm => (List.mem_append.1 hm).elim hs h.slash }

/-- Another ending leaves a path of names one. -/
theorem IsEnding.madeOfNames {t : Bytes} (h : IsEnding e) (hs : MadeOfNames (stem ++ t))
    (ht : Path.slash ∉ t) : MadeOfNames (stem ++ e) := by
  obtain ⟨es, n, hstem, hsplit⟩ := Path.splitOn_append_noSlash stem ht
  obtain ⟨es', n', hstem', hsplit'⟩ := Path.splitOn_append_noSlash stem h.slash
  obtain ⟨rfl, hn⟩ := List.append_inj' (hstem.symm.trans hstem') rfl
  obtain rfl : n = n' := by simpa using hn
  have hslash : Path.slash ∉ n := Path.splitOn_noSlash stem n (by simp [hstem])
  intro x hx
  rw [hsplit'] at hx
  rcases List.mem_append.1 hx with hx | hx
  · exact hs x (by simp [hsplit, hx])
  · rw [List.mem_singleton.1 hx]
    exact h.isName hslash

/-- The script of a source is a path of names if the source is one. -/
theorem madeOfNames_outputName (hp : IsPlain p) (h : Build.isSource p = true) (hn : MadeOfNames p) :
    MadeOfNames (outputName p) := by
  rcases outputName_cases hp h with ⟨-, ho⟩ | ⟨-, f, hf, e, he, stem, rfl, ho⟩ <;> rw [ho]
  · have hjs : IsEnding (Bytes.ofString ".js") := by decide
    exact hjs.madeOfNames (t := []) (by rwa [List.append_nil]) List.not_mem_nil
  · exact (isEnding_family f hf).madeOfNames hn (scriptEnding?_family f hf e he).1.slash

/-- The name of a script ends in the letter that all endings of scripts end in. -/
theorem getLast?_outputName (hp : IsPlain p) (h : Build.isSource p = true) :
    (outputName p).getLast? = some (ascii 's') := by
  have hlast : ∀ f ∈ families, f.1.getLast? = some (ascii 's') := by decide
  have hjs : (Bytes.ofString ".js").getLast? = some (ascii 's') := by decide
  rcases outputName_cases hp h with ⟨-, ho⟩ | ⟨-, f, hf, e, he, stem, rfl, ho⟩ <;>
    rw [ho, List.getLast?_append]
  · rw [hjs]
    rfl
  · rw [hlast f hf]
    rfl

end Dialect

end ScriptLower
