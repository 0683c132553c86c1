import ScriptLower.Digest.Key
import ScriptLower.Proofs.Name.Resolution
import ScriptLower.Proofs.Pipeline.Texts

/-!
# What a key tells

The parts of a key are hashed one behind the other, each ended by a zero byte, so parts without zero
bytes can be read off again. Those of the options are first a fixed number of them, then the
conditions to strip, the word `define`, and the definitions. Where the word is not itself a
condition to strip the options can be read off too, up to what has no part in the text of a run.

A hash has a fixed length, and so have its digits. The key of an output therefore tells the hash of
its source, the specifier and the hash of the options, whatever the specifier holds.
-/

namespace ScriptLower

open ScriptLower

/-! ## Lists with marks -/

section

variable {α : Type} {a : α} {xs ys us vs : List α}

/-- What stands in front of the first mark, and what stands behind it. -/
theorem append_mark_inj (hx : a ∉ xs) (hy : a ∉ ys) (h : xs ++ a :: us = ys ++ a :: vs) :
    xs = ys ∧ us = vs := by
  induction xs generalizing ys with
  | nil =>
    cases ys with
    | nil => exact ⟨rfl, (List.cons.inj h).2⟩
    | cons y ys => exact absurd (List.cons.inj h).1 fun e => hy (e ▸ List.mem_cons_self)
  | cons x xs ih =>
    cases ys with
    | nil => exact absurd (List.cons.inj h).1 fun e => hx (e ▸ List.mem_cons_self)
    | cons y ys =>
      rw [List.mem_cons, not_or] at hx hy
      obtain ⟨rfl, htail⟩ := List.cons.inj h
      obtain ⟨rfl, rfl⟩ := ih hx.2 hy.2 htail
      exact ⟨rfl, rfl⟩

/-- Texts without zero bytes, each ended by one. -/
theorem flatMap_zero_inj {ps qs : List Bytes} (hp : ∀ p ∈ ps, 0 ∉ p) (hq : ∀ q ∈ qs, 0 ∉ q)
    (h : (ps.flatMap fun p => p ++ [0]) = qs.flatMap fun q => q ++ [0]) : ps = qs := by
  induction ps generalizing qs with
  | nil =>
    cases qs with
    | nil => rfl
    | cons q qs => simp at h
  | cons p ps ih =>
    cases qs with
    | nil => simp at h
    | cons q qs =>
      rw [List.flatMap_cons, List.flatMap_cons, List.append_assoc, List.append_assoc] at h
      obtain ⟨rfl, htail⟩ := append_mark_inj (hp p List.mem_cons_self) (hq q List.mem_cons_self) h
      rw [ih (fun p hp' => hp p (List.mem_cons_of_mem _ hp'))
        (fun q hq' => hq q (List.mem_cons_of_mem _ hq')) htail]

/-- Pairs in a row. -/
theorem flatMap_pair_inj {ps qs : List (α × α)}
    (h : (ps.flatMap fun (n, v) => [n, v]) = qs.flatMap fun (n, v) => [n, v]) : ps = qs := by
  induction ps generalizing qs with
  | nil =>
    cases qs with
    | nil => rfl
    | cons q qs => simp at h
  | cons p ps ih =>
    cases qs with
    | nil => simp at h
    | cons q qs =>
      obtain ⟨hn, hv, h⟩ : p.1 = q.1 ∧ p.2 = q.2 ∧
          (ps.flatMap fun (n, v) => [n, v]) = qs.flatMap fun (n, v) => [n, v] := by simpa using h
      rw [Prod.ext hn hv, ih h]

end

/-! ## Names of choices -/

theorem Dialect.name_injective {d e : Dialect} (h : d.name = e.name) : d = e := by
  revert h
  cases d <;> cases e <;> decide

theorem Runtime.name_injective {r s : Runtime} (h : r.name = s.name) : r = s := by
  revert h
  cases r <;> cases s <;> decide

theorem MapMode.name_injective {m n : MapMode} (h : m.name = n.name) : m = n := by
  revert h
  cases m <;> cases n <;> decide

theorem Digest.flag_injective {a b : Bool} (h : flag a = flag b) : a = b := by
  revert h
  cases a <;> cases b <;> decide

namespace Target

/-- The name of a level. -/
def levelName (n : Nat) : Bytes :=
  match names[n - 1]? with
  | some name => Bytes.ofString name
  | none => "Target(" ++ Bytes.ofNat n ++ ")"

theorem name_eq_levelName (t : Target) : t.name = levelName t.resolved.level := rfl

theorem resolved_level_pos (t : Target) : 1 ≤ t.resolved.level := by
  unfold resolved
  split
  · decide
  · rename_i h
    exact Nat.one_le_iff_ne_zero.2 fun hzero => h (congrArg Target.mk hzero)

theorem levelName_of_unknown {n : Nat} (h : 10 ≤ n) :
    levelName n = "Target(" ++ Bytes.ofNat n ++ ")" := by
  have hnone : names[n - 1]? = none := List.getElem?_eq_none (by show 9 ≤ n - 1; omega)
  rw [levelName, hnone]

theorem levelName_injective {m n : Nat} (hm : 1 ≤ m) (hn : 1 ≤ n) (h : levelName m = levelName n) :
    m = n := by
  have hknown : ∀ m < 10, ∀ n < 10, 1 ≤ m → 1 ≤ n → levelName m = levelName n → m = n := by
    decide
  -- names of versions do not begin like those of levels without one
  have hhead : ∀ m < 10, 1 ≤ m → (levelName m).head? = some (ascii 'e') := by decide
  have hother {m n : Nat} (hm : 1 ≤ m) (hlow : m < 10) (hhigh : 10 ≤ n) :
      levelName m ≠ levelName n := by
    intro h
    have he := hhead m hlow hm
    rw [h, levelName_of_unknown hhigh] at he
    have hT : (Bytes.ofString "Target(" ++ Bytes.ofNat n ++ Bytes.ofString ")").head? =
        some (ascii 'T') := rfl
    rw [hT] at he
    exact absurd he (by decide)
  rcases Nat.lt_or_ge m 10 with hlow | hhigh <;> rcases Nat.lt_or_ge n 10 with hlow' | hhigh'
  · exact hknown m hlow n hlow' hm hn h
  · exact absurd h (hother hm hlow hhigh')
  · exact absurd h.symm (hother hn hlow' hhigh)
  · rw [levelName_of_unknown hhigh, levelName_of_unknown hhigh'] at h
    exact ofNat_injective (List.append_cancel_left (List.append_cancel_right h))

/-- Versions of one name mean the same. -/
theorem resolved_eq_of_name {t u : Target} (h : t.name = u.name) : t.resolved = u.resolved := by
  rw [name_eq_levelName, name_eq_levelName] at h
  exact congrArg Target.mk (levelName_injective t.resolved_level_pos u.resolved_level_pos h)

end Target

namespace Digest

/-! ## Options -/

/-- No text of the options holds a zero byte, and no condition to strip is the word in front of the
definitions. -/
structure Tellable (o : Options) : Prop where
  /-- The parts can be read off. -/
  zero : ∀ p ∈ optionParts o, 0 ∉ p
  /-- The word that ends the conditions is none of them. -/
  mark : Bytes.ofString "define" ∉ o.stripConditionals

instance (o : Options) : Decidable (Tellable o) :=
  decidable_of_iff ((∀ p ∈ optionParts o, 0 ∉ p) ∧ Bytes.ofString "define" ∉ o.stripConditionals)
    ⟨fun ⟨h, h'⟩ => ⟨h, h'⟩, fun h => ⟨h.1, h.2⟩⟩

/-- The parts tell the options. -/
theorem alike_of_optionParts {o o' : Options} (h : Tellable o) (h' : Tellable o')
    (heq : optionParts o = optionParts o') : o.Alike o' := by
  unfold optionParts at heq
  simp only [List.append_assoc] at heq
  obtain ⟨hfixed, hrest⟩ := List.append_inj heq (by simp only [List.length_cons, List.length_nil])
  simp only [List.cons.injEq, and_true, true_and] at hfixed
  obtain ⟨himport, hdevelopment, hminify, hdialect, hruntime, hfactory, hfragment, htarget, hascii,
    hmap, hdecorators, hstrict, hpreserve⟩ := hfixed
  obtain ⟨hstrip, hdefines⟩ := append_mark_inj h.mark h'.mark hrest
  exact
    { elements := by
        rcases ho : o.elements with ⟨runtime, importSource, development, factory, fragment⟩
        rcases ho' : o'.elements with ⟨runtime', importSource', development', factory', fragment'⟩
        rw [ho, ho'] at himport hdevelopment hruntime hfactory hfragment
        obtain rfl := Runtime.name_injective hruntime
        obtain rfl := flag_injective hdevelopment
        obtain rfl : importSource = importSource' := himport
        obtain rfl : factory = factory' := hfactory
        obtain rfl : fragment = fragment' := hfragment
        rfl
      minify := flag_injective hminify
      dialect := Dialect.name_injective hdialect
      target := Target.resolved_eq_of_name htarget
      asciiOnly := flag_injective hascii
      sourceMap := MapMode.name_injective hmap
      decorators := flag_injective hdecorators
      strictEarlyErrors := flag_injective hstrict
      stripConditionals := hstrip
      defines := flatMap_pair_inj hdefines
      preserveImports := flag_injective hpreserve }

/-! ## Hashes and keys -/

@[simp] theorem length_digest (s : Bytes) : (Sha256.digest s).length = 32 := rfl

theorem length_hex (d : Bytes) : (hex d).length = 2 * d.length := by
  induction d with
  | nil => rfl
  | cons b d ih =>
    rw [hex, List.flatMap_cons, List.length_append, ← hex, ih, List.length_cons]
    simp only [List.length_cons, List.length_nil]
    omega

theorem hexDigit_injective : ∀ m < 16, ∀ n < 16, Bytes.hexDigit m = Bytes.hexDigit n → m = n := by
  decide

/-- Digits tell a hash. -/
theorem hex_injective {d e : Bytes} (h : hex d = hex e) : d = e := by
  induction d generalizing e with
  | nil =>
    cases e with
    | nil => rfl
    | cons c e => cases h
  | cons b d ih =>
    cases e with
    | nil => cases h
    | cons c e =>
      obtain ⟨hhigh, hlow, htail⟩ : Bytes.hexDigit (b.toNat / 16) = Bytes.hexDigit (c.toNat / 16) ∧
          Bytes.hexDigit (b.toNat % 16) = Bytes.hexDigit (c.toNat % 16) ∧ hex d = hex e := by
        simpa [hex] using h
      have hb := b.toNat_lt
      have hc := c.toNat_lt
      have hhigh := hexDigit_injective _ (by omega) _ (by omega) hhigh
      have hlow := hexDigit_injective _ (Nat.mod_lt _ (by decide)) _ (Nat.mod_lt _ (by decide)) hlow
      rw [UInt8.toNat_inj.1 (by omega : b.toNat = c.toNat), ih htail]

/-- What is hashed for the options. -/
def optionText (o : Options) : Bytes := preimage (List.replicate 32 0) (optionParts o)

/-- What is hashed for an output. -/
def entryText (specifier content : Bytes) (o : Options) : Bytes :=
  preimage (Sha256.digest content) [specifier, hex (ofOptions o)]

/-- The text for the options tells them. -/
theorem alike_of_optionText {o o' : Options} (h : Tellable o) (h' : Tellable o')
    (heq : optionText o = optionText o') : o.Alike o' :=
  alike_of_optionParts h h' (flatMap_zero_inj h.zero h'.zero (List.append_cancel_left heq))

/-- The text for an output tells the hash of the source, the specifier and the hash of the
options. -/
theorem entryText_inj {specifier specifier' content content' : Bytes} {o o' : Options}
    (h : entryText specifier content o = entryText specifier' content' o') :
    Sha256.digest content = Sha256.digest content' ∧ specifier = specifier' ∧
      ofOptions o = ofOptions o' := by
  unfold entryText preimage at h
  obtain ⟨hcontent, hrest⟩ := List.append_inj h (by rw [length_digest, length_digest])
  simp only [List.flatMap_cons, List.flatMap_nil, List.append_nil, List.append_assoc] at hrest
  have hlength : (hex (ofOptions o)).length = (hex (ofOptions o')).length := by
    rw [length_hex, length_hex, ofOptions, ofOptions, combine, combine, length_digest,
      length_digest]
  obtain ⟨hspecifier, hrest⟩ := List.append_inj' hrest (by simp [hlength])
  have hdigits := List.append_cancel_right (List.append_cancel_left hrest)
  exact ⟨hcontent, hspecifier, hex_injective hdigits⟩

end Digest

end ScriptLower
