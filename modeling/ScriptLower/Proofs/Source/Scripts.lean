import ScriptLower.Proofs.Source.Endings

/-!
# Names of scripts name scripts

The name of a script is read as a specifier again when an output is checked by a second pass. It
ends like a script, in whatever case its letters are, and all that reading a specifier does to a
name keeps such an ending: taking the last element, cutting off a scheme or an authority, and
decoding percent escapes, since no escape reaches into the ending. The ending is lost only where
something is cut off behind it, or where the whole name is taken for the authority of a location.
-/

namespace ScriptLower

/-! ## Endings of scripts -/

namespace Dialect

/-- The endings of scripts in small letters. -/
def scriptEndings : List Bytes := [".js", ".mjs", ".cjs"].map Bytes.ofString

/-- A name that ends like a script. -/
def EndsLikeScript (n : Bytes) : Prop := ∃ t, t <:+ n ∧ Bytes.lower t ∈ scriptEndings

variable {c : UInt8} {n p r s t x y : Bytes}

/-- An ending holds no byte but a dot and letters. -/
theorem notMem_ending (h : Bytes.lower t ∈ scriptEndings)
    (hc : ∀ e ∈ scriptEndings, Bytes.lowerByte c ∉ e) : c ∉ t := fun hmem =>
  hc _ h (List.mem_map_of_mem hmem)

theorem head_ending (h : Bytes.lower t ∈ scriptEndings) : t.head? = some 46 := by
  have hhead : ∀ e ∈ scriptEndings, e.head? = some 46 := by decide
  have hdot : ∀ b : UInt8, Bytes.lowerByte b = 46 → b = 46 := by
    intro b hb
    unfold Bytes.lowerByte at hb
    split at hb
    · rename_i hupper
      simp only [Bool.and_eq_true, decide_eq_true_eq, UInt8.le_iff_toNat_le] at hupper
      have hnat := congrArg UInt8.toNat hb
      simp at hupper hnat
      omega
    · exact hb
  have hlower := hhead _ h
  rw [Bytes.lower, List.head?_map, Option.map_eq_some_iff] at hlower
  obtain ⟨b, hb, hlower⟩ := hlower
  rw [hb, hdot b hlower]

theorem ending_ne_nil (h : Bytes.lower t ∈ scriptEndings) : t ≠ [] := by
  rintro rfl
  exact absurd (head_ending h) (by decide)

theorem EndsLikeScript.ne_nil (h : EndsLikeScript n) : n ≠ [] := by
  obtain ⟨t, ht, hlower⟩ := h
  rintro rfl
  exact ending_ne_nil hlower (List.suffix_nil.1 ht)

theorem EndsLikeScript.of_suffix (h : EndsLikeScript n) (hn : n <:+ p) : EndsLikeScript p := by
  obtain ⟨t, ht, hlower⟩ := h
  exact ⟨t, ht.trans hn, hlower⟩

/-- What stands behind a colon or a slash has the ending. -/
theorem EndsLikeScript.behind (h : EndsLikeScript (x ++ c :: r)) (hc : c = 58 ∨ c = 47) :
    EndsLikeScript r := by
  obtain ⟨t, ht, hlower⟩ := h
  have hmem : c ∉ t := by
    rcases hc with rfl | rfl <;> exact notMem_ending hlower (by decide)
  refine ⟨t, ?_, hlower⟩
  rcases List.suffix_or_suffix_of_suffix ht (List.suffix_append x (c :: r)) with hle | hge
  · rcases List.suffix_cons_iff.1 hle with rfl | hr
    · exact absurd List.mem_cons_self hmem
    · exact hr
  · exact absurd (hge.subset List.mem_cons_self) hmem

theorem EndsLikeScript.slashes (h : EndsLikeScript n) : EndsLikeScript (slashes n) := by
  obtain ⟨t, ht, hlower⟩ := h
  have hback : Dialect.slashes t = t := by
    refine (List.map_congr_left fun b hb => ?_).trans (List.map_id t)
    have hne : b ≠ 92 := fun he => notMem_ending hlower (by decide) (he ▸ hb)
    simp [hne]
  exact ⟨t, hback ▸ ht.map _, hlower⟩

/-- The ending of a path is that of its last element. -/
theorem EndsLikeScript.base (h : EndsLikeScript n) : EndsLikeScript (Path.base n) := by
  have hne := h.ne_nil
  obtain ⟨t, ⟨stem, rfl⟩, hlower⟩ := h
  have hslash : ∀ b ∈ t.reverse, (b != Path.slash) = true := fun b hb =>
    bne_iff_ne.2 fun he => notMem_ending hlower (by decide) (he ▸ List.mem_reverse.1 hb)
  have htrim : Bytes.trimRight (· == Path.slash) (stem ++ t) = stem ++ t := by
    obtain ⟨b, u, hu⟩ :=
      List.exists_cons_of_ne_nil (List.reverse_ne_nil_iff.2 (ending_ne_nil hlower))
    have hb : ¬(b == Path.slash) = true := by
      have := hslash b (hu ▸ List.mem_cons_self)
      simpa using this
    rw [Bytes.trimRight, List.reverse_append, hu, List.cons_append,
      List.dropWhile_cons_of_neg (p := (· == Path.slash)) hb, ← List.cons_append, ← hu,
      ← List.reverse_append, List.reverse_reverse]
  have hempty : (stem ++ t).isEmpty = false := List.isEmpty_eq_false_iff.2 hne
  unfold Path.base
  dsimp only
  rw [htrim, hempty, if_neg Bool.false_ne_true, if_neg Bool.false_ne_true, List.reverse_append,
    List.takeWhile_append_of_pos hslash, List.reverse_append, List.reverse_reverse]
  exact ⟨t, List.suffix_append _ _, hlower⟩

/-- A name with the ending of a script is read as a script. -/
theorem EndsLikeScript.ofSpecifier (h : EndsLikeScript (specifierPath true s)) :
    ofSpecifier s = .jsx := by
  obtain ⟨t, ht, hlower⟩ := h.slashes.base
  have hscript :
      Bytes.lower t <:+ Bytes.lower (Path.base (Dialect.slashes (specifierPath true s))) :=
    ht.map _
  -- no other ending is one of a script, nor the other way round
  have hapart : ∀ d ∈ [".d.ts", ".d.mts", ".d.cts", ".tsx"].map Bytes.ofString, ∀ e ∈ scriptEndings,
      ¬d <:+ e ∧ ¬e <:+ d := by decide
  have hother : ∀ d ∈ [".d.ts", ".d.mts", ".d.cts", ".tsx"].map Bytes.ofString,
      d.isSuffixOf (Bytes.lower (Path.base (Dialect.slashes (specifierPath true s)))) = false := by
    intro d hd
    refine Bool.eq_false_iff.2 fun hsuffix => ?_
    rcases List.suffix_or_suffix_of_suffix (List.isSuffixOf_iff_suffix.1 hsuffix) hscript
      with hle | hge
    · exact (hapart d hd _ hlower).1 hle
    · exact (hapart d hd _ hlower).2 hge
  have hends : ∀ e : String, Bytes.lower t = Bytes.ofString e → (Bytes.ofString e).isSuffixOf
      (Bytes.lower (Path.base (Dialect.slashes (specifierPath true s)))) = true := fun e he =>
    List.isSuffixOf_iff_suffix.2 (he ▸ hscript)
  unfold Dialect.ofSpecifier
  dsimp only
  simp only [hother ".d.ts" (by decide), hother ".d.mts" (by decide), hother ".d.cts" (by decide),
    hother ".tsx" (by decide), Bool.or_self, Bool.false_eq_true, if_false]
  simp only [scriptEndings, List.map_cons, List.map_nil, List.mem_cons, List.not_mem_nil, or_false]
    at hlower
  rcases hlower with hjs | hmjs | hcjs
  · simp [hends _ hjs]
  · simp [hends _ hmjs]
  · simp [hends _ hcjs]

/-! ## The name of a script -/

theorem endsLikeScript_append (stem : Bytes) {e : Bytes} (he : e ∈ scriptEndings) :
    EndsLikeScript (stem ++ e) := by
  have hlower : ∀ e ∈ scriptEndings, Bytes.lower e = e := by decide
  exact ⟨e, List.suffix_append _ _, (hlower e he).symm ▸ he⟩

/-- The name of a script is the path of its source, or the front of it, with an ending behind, or
the path itself. -/
theorem outputName_shape (s : Bytes) :
    (∃ k, ∃ e ∈ scriptEndings,
        outputName s = (Dialect.slashes (specifierPath false s)).take k ++ e) ∨
      outputName s = Dialect.slashes (specifierPath false s) ∧
        Path.ext (Bytes.lower (Dialect.slashes (specifierPath false s))) ∈ scriptEndings := by
  generalize hp : Dialect.slashes (specifierPath false s) = p
  have hjs : Bytes.ofString ".js" ∈ scriptEndings := by decide
  have hwhole : ∃ k, ∃ e ∈ scriptEndings, p ++ Bytes.ofString ".js" = p.take k ++ e :=
    ⟨p.length, _, hjs, by rw [List.take_length]⟩
  unfold outputName
  rw [hp]
  dsimp only
  split
  · exact .inl hwhole
  split
  · rename_i ext js hfind
    have hmem : ∀ q ∈ outputExtensions, Bytes.ofString q.2 ∈ scriptEndings := by decide
    exact .inl ⟨_, _, hmem _ (List.mem_of_find?_eq_some hfind), rfl⟩
  · split
    · rename_i hany
      obtain ⟨e, he, hext⟩ := List.any_eq_true.1 hany
      refine .inr ⟨rfl, ?_⟩
      rw [← eq_of_beq hext]
      exact List.mem_map_of_mem he
    · exact .inl hwhole

/-- The name of a script ends like one. -/
theorem endsLikeScript_outputName (s : Bytes) : EndsLikeScript (outputName s) := by
  rcases outputName_shape s with ⟨k, e, he, hname⟩ | ⟨hname, hext⟩
  · rw [hname]
    exact endsLikeScript_append _ he
  · rw [hname]
    generalize Dialect.slashes (specifierPath false s) = p at hext
    obtain ⟨stem, hstem⟩ := Path.ext_suffix (Bytes.lower p)
    -- the bytes of the path that the ending in small letters stands for
    refine ⟨p.drop stem.length, List.drop_suffix _ _, ?_⟩
    have hdrop : Bytes.lower (p.drop stem.length) = Path.ext (Bytes.lower p) := by
      rw [Bytes.lower, List.map_drop]
      conv_lhs => rw [← Bytes.lower, ← hstem]
      rw [List.drop_left]
    rwa [hdrop]

theorem mem_outputName {b : UInt8} (h : b ∈ outputName s) :
    b ∈ Dialect.slashes (specifierPath false s) ∨ ∃ e ∈ scriptEndings, b ∈ e := by
  rcases outputName_shape s with ⟨k, e, he, hname⟩ | ⟨hname, -⟩
  · rw [hname, List.mem_append] at h
    rcases h with h | h
    · exact .inl (List.mem_of_mem_take h)
    · exact .inr ⟨e, he, h⟩
  · rw [hname] at h
    exact .inl h

end Dialect

/-! ## Locations -/

namespace Location

open Dialect (EndsLikeScript scriptEndings)

variable {b : UInt8} {l : Location} {r s t y : Bytes}

/-- Without percent signs there is nothing to decode. -/
theorem unescapeFrom_plain (h : 37 ∉ s) : unescapeFrom .plain 0 s = some s := by
  induction s with
  | nil => rfl
  | cons b s ih =>
    rw [List.mem_cons, not_or] at h
    have hb : (b == ascii '%') = false := beq_false_of_ne fun he => h.1 he.symm
    unfold unescapeFrom
    rw [hb, ih h.2]
    rfl

/-- A percent escape does not reach into a text that begins with a dot. -/
theorem unescapeFrom_suffix (hdot : t.head? = some 46) (hpercent : 37 ∉ t) (s : Bytes) :
    ∀ skip y, skip + t.length ≤ s.length → t <:+ s → unescapeFrom .plain skip s = some y →
    t <:+ y := by
  have hlength : 0 < t.length := by
    cases t with
    | nil => exact absurd hdot (by decide)
    | cons => exact Nat.succ_pos _
  induction s with
  | nil =>
    intro skip y hle _ _
    rw [List.length_nil] at hle
    omega
  | cons b r ih =>
    intro skip y hle hs hy
    rw [List.length_cons] at hle
    have hrest (hshort : t.length ≤ r.length) : t <:+ r := by
      rcases List.suffix_cons_iff.1 hs with rfl | hr
      · rw [List.length_cons] at hshort
        omega
      · exact hr
    cases skip with
    | succ skip =>
      rw [unescapeFrom] at hy
      exact ih skip y (by omega) (hrest (by omega)) hy
    | zero =>
      rcases List.suffix_cons_iff.1 hs with rfl | hr
      · rw [unescapeFrom_plain hpercent] at hy
        exact Option.some.inj hy ▸ List.suffix_rfl
      unfold unescapeFrom at hy
      split at hy
      · split at hy
        · rename_i h l r'
          split at hy
          · rename_i v w hh hl
            have hpart : (Part.plain == Part.host) = false := rfl
            simp only [hpart, Bool.false_and, Bool.false_eq_true, if_false] at hy
            obtain ⟨y', hy', rfl⟩ := Option.map_eq_some_iff.1 hy
            have hdigit : Bytes.toNatBase? 16 [46] = none := by decide
            have hlong : 2 + t.length ≤ (h :: l :: r').length := by
              rcases List.suffix_cons_iff.1 hr with rfl | hr
              · rw [List.head?_cons, Option.some.injEq] at hdot
                rw [hdot, hdigit] at hh
                exact absurd hh.symm (Option.some_ne_none v)
              rcases List.suffix_cons_iff.1 hr with rfl | hr
              · rw [List.head?_cons, Option.some.injEq] at hdot
                rw [hdot, hdigit] at hl
                exact absurd hl.symm (Option.some_ne_none w)
              · have := hr.length_le
                rw [List.length_cons, List.length_cons]
                omega
            exact (ih 2 y' hlong hr hy').trans (List.suffix_cons _ _)
          · cases hy
        · cases hy
      · rw [bne_self_eq_false, Bool.false_and, if_neg Bool.false_ne_true] at hy
        obtain ⟨y', hy', rfl⟩ := Option.map_eq_some_iff.1 hy
        have := hr.length_le
        exact (ih 0 y' (by omega) hr hy').trans (List.suffix_cons _ _)

theorem endsLikeScript_unescape? (h : EndsLikeScript s) (hy : unescape? .plain s = some y) :
    EndsLikeScript y := by
  obtain ⟨t, ht, hlower⟩ := h
  have hle := ht.length_le
  exact ⟨t, unescapeFrom_suffix (Dialect.head_ending hlower)
    (Dialect.notMem_ending hlower (by decide)) s 0 y (by omega) ht hy, hlower⟩

theorem scheme?_some {scheme rest : Bytes} (h : scheme? s = some (scheme, rest))
    (hne : scheme ≠ []) :
    (∃ front, s = front ++ ascii ':' :: rest) ∧ ∃ b, s.head? = some b ∧ Bytes.isAlpha b = true := by
  unfold scheme? at h
  dsimp only at h
  generalize hp : (fun b : UInt8 => Bytes.isAlpha b || Bytes.isDigit b || b == ascii '+' ||
    b == ascii '-' || b == ascii '.') = isSchemeByte at h
  split at h
  · rename_i b r hdrop
    split at h
    · rename_i hcolon
      split at h
      · cases h
      split at h
      · rename_i halpha
        cases h
        have hs : s.takeWhile isSchemeByte ++ b :: rest = s := by
          rw [← hdrop]
          exact List.prefix_iff_eq_append.1 (List.takeWhile_prefix _)
        refine ⟨⟨s.takeWhile isSchemeByte, ?_⟩, ?_⟩
        · rw [← eq_of_beq hcolon, hs]
        · obtain ⟨c, hc, hcalpha⟩ := (Option.any_eq_true _ _).1 halpha
          obtain ⟨u, hu⟩ := List.head?_eq_some_iff.1 hc
          refine ⟨c, ?_, hcalpha⟩
          rw [← hs, hu]
          rfl
      · cases h
        exact absurd rfl hne
    · cases h
      exact absurd rfl hne
  · cases h
    exact absurd rfl hne

/-- What stands in front of something that does not occur is everything. -/
theorem front_cut? (sub s : Bytes) :
    ((Bytes.cut? sub s).map (·.1)).getD s = s ∨ Bytes.includes sub s = true := by
  unfold Bytes.includes Bytes.cut?
  cases Bytes.indexOf? sub s with
  | none => exact .inl rfl
  | some i => exact .inr rfl

/-- Behind an authority there is nothing, or a path from the root. -/
theorem behind_authority {place : Bytes} (h : (Bytes.ofString "//").isPrefixOf place = true) :
    let authority := (place.drop 2).takeWhile (· != 47)
    let r := (place.drop 2).drop authority.length
    place = Bytes.ofString "//" ++ authority ++ r ∧ (r = [] ∨ r.head? = some 47) := by
  obtain ⟨u, rfl⟩ := List.isPrefixOf_iff_prefix.1 h
  have hdrop : (Bytes.ofString "//" ++ u).drop 2 = u := rfl
  have hrest : u.drop (u.takeWhile (· != 47)).length = u.dropWhile (· != 47) :=
    calc
      u.drop (u.takeWhile (· != 47)).length =
          (u.takeWhile (· != 47) ++ u.dropWhile (· != 47)).drop (u.takeWhile (· != 47)).length := by
        rw [List.takeWhile_append_dropWhile]
      _ = u.dropWhile (· != 47) := List.drop_left
  dsimp only
  rw [hdrop, hrest, List.append_assoc, List.takeWhile_append_dropWhile]
  refine ⟨rfl, ?_⟩
  cases hr : u.dropWhile (· != 47) with
  | nil => exact .inl rfl
  | cons b r =>
    have hstop := List.head?_dropWhile_not (· != 47) u
    rw [hr] at hstop
    have hb : b = 47 := by simpa using hstop
    exact .inr (congrArg some hb)

/-- What a text with a scheme is read as: what follows the scheme is no path from the root, or a
path behind an authority, or a path. -/
theorem parse?_cases (h : parse? s = some l) (hne : l.scheme ≠ []) :
    ∃ front rest, scheme? front = some (l.scheme, rest) ∧
      (front = s ∨ Bytes.includes "#" s = true) ∧
      ∃ place, (place = rest ∨ Bytes.includes "?" rest = true) ∧
        (l = { scheme := l.scheme, rootless := place } ∨ l.rootless = [] ∧
          ((∃ authority r, place = Bytes.ofString "//" ++ authority ++ r ∧
            (r = [] ∨ r.head? = some 47) ∧ unescape? .plain r = some l.path) ∨
          place.head? = some 47 ∧ unescape? .plain place = some l.path)) := by
  unfold parse? at h
  split at h
  rename_i front fragment hcut
  have hfront : front = s ∨ Bytes.includes "#" s = true := by
    unfold Bytes.includes
    unfold Bytes.cut? at hcut
    cases hi : Bytes.indexOf? (Bytes.ofString "#") s with
    | none =>
      rw [hi] at hcut
      exact .inl (Prod.mk.inj hcut).1.symm
    | some i => exact .inr rfl
  obtain ⟨-, -, h⟩ := Option.bind_eq_some_iff.1 h
  obtain ⟨-, -, h⟩ := Option.bind_eq_some_iff.1 h
  split at h
  · cases h
    exact absurd rfl hne
  obtain ⟨⟨scheme, rest⟩, hscheme, h⟩ := Option.bind_eq_some_iff.1 h
  dsimp only at h
  have hplace := front_cut? "?" rest
  generalize ((Bytes.cut? "?" rest).map (·.1)).getD rest = place at h hplace
  -- the two ways in which the rest of the reader ends, whether or not it begins at the root
  have hpath (path : Option Bytes)
      (hl : path.bind (fun p => pure { scheme := scheme, path := p }) = some l) :
      l.scheme = scheme ∧ l.rootless = [] ∧ path = some l.path := by
    obtain ⟨p, hp, hl⟩ := Option.bind_eq_some_iff.1 hl
    cases hl
    exact ⟨rfl, rfl, hp⟩
  have htail
      (hl : (if ((Bytes.ofString "//").isPrefixOf place &&
            (!scheme.isEmpty || !(Bytes.ofString "///").isPrefixOf place)) = true then do
          guard (isAuthority ((place.drop 2).takeWhile (· != 47)) = true)
          let path ← unescape? .plain
            ((place.drop 2).drop ((place.drop 2).takeWhile (· != 47)).length)
          pure { scheme := scheme, path := path }
        else do
          let path ← unescape? .plain place
          pure { scheme := scheme, path := path }) = some l) :
      l.scheme = scheme ∧ l.rootless = [] ∧
        ((∃ authority r, place = Bytes.ofString "//" ++ authority ++ r ∧
            (r = [] ∨ r.head? = some 47) ∧ unescape? .plain r = some l.path) ∨
          unescape? .plain place = some l.path) := by
    split at hl
    · rename_i hdouble
      obtain ⟨hplace, hroot⟩ := behind_authority (Bool.and_eq_true_iff.1 hdouble).1
      obtain ⟨-, -, hl⟩ := Option.bind_eq_some_iff.1 hl
      obtain ⟨hscheme, hrootless, hdecoded⟩ := hpath _ hl
      exact ⟨hscheme, hrootless, .inl ⟨_, _, hplace, hroot, hdecoded⟩⟩
    · obtain ⟨hscheme, hrootless, hdecoded⟩ := hpath _ hl
      exact ⟨hscheme, hrootless, .inr hdecoded⟩
  split at h
  · split at h
    · cases h
      exact ⟨front, rest, hscheme, hfront, place, hplace, .inl rfl⟩
    · rename_i hempty
      obtain ⟨-, -, h⟩ := Option.bind_eq_some_iff.1 h
      have hl := (htail h).1
      simp only [Bool.not_eq_true', Bool.not_eq_false, List.isEmpty_iff] at hempty
      exact absurd (hl.trans hempty) hne
  · rename_i hroot
    obtain ⟨rfl, hrootless, hkinds⟩ := htail h
    refine ⟨front, rest, hscheme, hfront, place, hplace, .inr ⟨hrootless, ?_⟩⟩
    rcases hkinds with hauthority | hdecoded
    · exact .inl hauthority
    · exact .inr ⟨by simpa using hroot, hdecoded⟩

theorem head_unescape? (h : s.head? = some 47) (hy : unescape? .plain s = some y) :
    y.head? = some 47 := by
  obtain ⟨r, rfl⟩ := List.head?_eq_some_iff.1 h
  unfold unescape? unescapeFrom at hy
  rw [if_neg (by decide), if_neg (by decide)] at hy
  obtain ⟨y', -, rfl⟩ := Option.map_eq_some_iff.1 hy
  rfl

/-- The path of a location with a scheme is empty or begins at the root. -/
theorem parse?_path (h : parse? s = some l) (hne : l.scheme ≠ []) :
    l.path = [] ∨ l.path.head? = some 47 := by
  obtain ⟨-, -, -, -, place, -, hkinds⟩ := parse?_cases h hne
  rcases hkinds with hl | ⟨-, ⟨-, r, -, hroot, hdecoded⟩ | ⟨hroot, hdecoded⟩⟩
  · rw [hl]
    exact .inl rfl
  · rcases hroot with rfl | hroot
    · exact .inl (Option.some.inj hdecoded).symm
    · exact .inr (head_unescape? hroot hdecoded)
  · exact .inr (head_unescape? hroot hdecoded)

theorem includes_mem {sub : Bytes} (hb : ∀ r : Bytes, sub.isPrefixOf r = true → b ∈ r)
    (h : Bytes.includes sub s = true) : b ∈ s := by
  induction s with
  | nil =>
    unfold Bytes.includes Bytes.indexOf? at h
    split at h
    · rename_i hempty
      exact hb [] (by rw [List.isEmpty_iff.1 hempty]; rfl)
    · cases h
  | cons c s ih =>
    unfold Bytes.includes Bytes.indexOf? at h
    split at h
    · rename_i hprefix
      exact hb _ hprefix
    · rw [Option.isSome_map] at h
      exact List.mem_cons_of_mem c (ih h)

theorem mem_of_isPrefixOf {c : Char} {r : Bytes} (h : [ascii c].isPrefixOf r = true) :
    ascii c ∈ r :=
  (List.isPrefixOf_iff_prefix.1 h).subset (List.mem_singleton_self _)

/-- A text without a hash sign that has a scheme begins with a letter. -/
theorem parse?_head (hhash : 35 ∉ s) (h : parse? s = some l) (hne : l.scheme ≠ []) :
    ∃ b, s.head? = some b ∧ Bytes.isAlpha b = true := by
  obtain ⟨front, rest, hscheme, hfront, -⟩ := parse?_cases h hne
  have hfront : front = s := hfront.resolve_right fun hin =>
    hhash (includes_mem (b := 35) (fun r => mem_of_isPrefixOf (c := '#')) hin)
  subst hfront
  exact (scheme?_some hscheme hne).2

/-- Reading a script's name that holds neither a question mark nor a hash sign as a location leaves
its ending, unless nothing stands behind the scheme but an authority. -/
theorem endsLikeScript_parse? (hplain : ∀ b ∈ s, b ∉ Bytes.ofString "?#") (hs : EndsLikeScript s)
    (h : parse? s = some l) (hne : l.scheme ≠ []) :
    EndsLikeScript l.path ∨ l.path = [] ∧ (EndsLikeScript l.rootless ∨ l.rootless = []) := by
  obtain ⟨front, rest, hscheme, hfront, place, hplace, hkinds⟩ := parse?_cases h hne
  have hfront : front = s := hfront.resolve_right fun hhash =>
    hplain 35 (includes_mem (b := 35) (fun r => mem_of_isPrefixOf (c := '#')) hhash) (by decide)
  subst hfront
  obtain ⟨⟨scheme, rfl⟩, -⟩ := scheme?_some hscheme hne
  have hplace : place = rest := hplace.resolve_right fun hquery =>
    hplain 63 (List.mem_append_right _ (List.mem_cons_of_mem _
      (includes_mem (b := 63) (fun r => mem_of_isPrefixOf (c := '?')) hquery))) (by decide)
  subst hplace
  have hending : EndsLikeScript place := hs.behind (.inl rfl)
  rcases hkinds with hl | ⟨hrootless, ⟨authority, r, hr, hroot, hdecoded⟩ | ⟨-, hdecoded⟩⟩
  · rw [hl]
    exact .inr ⟨rfl, .inl hending⟩
  · rcases hroot with rfl | hroot
    · exact .inr ⟨(Option.some.inj hdecoded).symm, .inr hrootless⟩
    · obtain ⟨u, rfl⟩ := List.head?_eq_some_iff.1 hroot
      rw [hr] at hending
      have hpath : EndsLikeScript (47 :: u) :=
        (hending.behind (.inr rfl)).of_suffix (List.suffix_cons _ _)
      exact .inl (endsLikeScript_unescape? hpath hdecoded)
  · exact .inl (endsLikeScript_unescape? hending hdecoded)

end Location

/-! ## Reading the name of a script -/

namespace Dialect

variable {n s : Bytes}

/-- A name that is neither cut off nor read as a location is its own path. -/
theorem specifierPath_plain (rootless : Bool) (hplain : ∀ b ∈ n, b ∉ Bytes.ofString "?#")
    (h : ∀ l, Location.parse? n = some l → l.scheme.length ≤ 1) : specifierPath rootless n = n := by
  have htake : n.takeWhile (fun b => b != ascii '?' && b != ascii '#') = n := by
    rw [List.takeWhile_eq_self_iff]
    intro b hb
    have hquery : b ≠ ascii '?' := fun he => hplain b hb (he ▸ by decide)
    have hfragment : b ≠ ascii '#' := fun he => hplain b hb (he ▸ by decide)
    simp [hquery, hfragment]
  unfold specifierPath
  dsimp only
  rw [htake]
  cases hl : Location.parse? n with
  | none => rfl
  | some l => simp [Nat.not_lt.2 (h l hl)]

theorem specifierPath_location {l : Location} (rootless : Bool) (h : Location.parse? s = some l)
    (hscheme : 1 < l.scheme.length) :
    specifierPath rootless s = if rootless && l.path.isEmpty then l.rootless else l.path := by
  unfold specifierPath
  rw [h]
  dsimp only
  rw [if_pos hscheme]

/-- The name of a script holds neither question marks nor hash signs if the path of its source does
not. -/
theorem plain_outputName (h : ∀ b ∈ specifierPath false s, b ∉ Bytes.ofString "?#") :
    ∀ b ∈ outputName s, b ∉ Bytes.ofString "?#" := by
  intro b hb
  rcases mem_outputName hb with hb | ⟨e, he, hb⟩
  · obtain ⟨c, hc, rfl⟩ := List.mem_map.1 hb
    split
    · decide
    · exact h c hc
  · have hendings : ∀ e ∈ scriptEndings, ∀ b ∈ e, b ∉ Bytes.ofString "?#" := by decide
    exact hendings e he b hb

/-- The name of a script whose source has an empty path or one from the root begins no scheme. -/
theorem head_outputName
    (h : specifierPath false s = [] ∨ (specifierPath false s).head? = some 47) {b : UInt8}
    (hb : (outputName s).head? = some b) : Bytes.isAlpha b = false := by
  have hdot : ∀ e ∈ scriptEndings, e.head? = some 46 := by decide
  have hpath : ∀ c, (Dialect.slashes (specifierPath false s)).head? = some c → c = 47 := by
    intro c hc
    rcases h with hnil | hroot
    · rw [hnil] at hc
      cases hc
    · rw [Dialect.slashes, List.head?_map, hroot] at hc
      cases hc
      rfl
  have hhead : b = 46 ∨ b = 47 := by
    rcases outputName_shape s with ⟨k, e, he, hname⟩ | ⟨hname, -⟩
    · rw [hname, List.head?_append, hdot e he, List.head?_take] at hb
      split at hb
      · exact .inl (Option.some.inj hb).symm
      · cases hc : (Dialect.slashes (specifierPath false s)).head? with
        | none =>
          rw [hc] at hb
          exact .inl (Option.some.inj hb).symm
        | some c =>
          rw [hc] at hb
          exact .inr (Option.some.inj hb ▸ hpath c hc)
    · rw [hname] at hb
      exact .inr (hpath b hb)
  rcases hhead with rfl | rfl <;> decide

/-- **The name of a script is read as a script**, whatever the specifier is, if its path holds
neither a question mark nor a hash sign: always where the specifier is a location, and otherwise
just if the name is not read as a scheme and an authority alone. -/
theorem outputName_script (s : Bytes)
    (hplain : ∀ b ∈ specifierPath false s, b ∉ Bytes.ofString "?#") :
    (∀ l, Location.parse? s = some l → 1 < l.scheme.length → ofSpecifier (outputName s) = .jsx) ∧
      (ofSpecifier (outputName s) = .jsx ↔ ∀ l, Location.parse? (outputName s) = some l →
        1 < l.scheme.length → l.path ≠ [] ∨ l.rootless ≠ []) := by
  have hplain := plain_outputName hplain
  have hending := endsLikeScript_outputName s
  have hiff : ofSpecifier (outputName s) = .jsx ↔ ∀ l, Location.parse? (outputName s) = some l →
      1 < l.scheme.length → l.path ≠ [] ∨ l.rootless ≠ [] := by
    constructor
    · intro hjsx l hl hscheme
      by_contra hempty
      rw [not_or, not_not, not_not] at hempty
      have hpath : specifierPath true (outputName s) = [] := by
        rw [specifierPath_location true hl hscheme, hempty.1, hempty.2]
        rfl
      unfold ofSpecifier at hjsx
      rw [hpath] at hjsx
      exact absurd hjsx (by decide)
    · intro hlocation
      apply EndsLikeScript.ofSpecifier
      by_cases hl : ∃ l, Location.parse? (outputName s) = some l ∧ 1 < l.scheme.length
      · obtain ⟨l, hl, hscheme⟩ := hl
        have hne : l.scheme ≠ [] := List.ne_nil_of_length_pos (by omega)
        rw [specifierPath_location true hl hscheme]
        rcases Location.endsLikeScript_parse? hplain hending hl hne with hpath | ⟨hnil, hrootless⟩
        · simpa [hpath.ne_nil] using hpath
        · have hsome := hlocation l hl hscheme
          rw [hnil]
          rcases hrootless with hrootless | hrootless
          · exact hrootless
          · simp [hnil, hrootless] at hsome
      · rw [specifierPath_plain true hplain fun l hl' => Nat.not_lt.1 fun hlt => hl ⟨l, hl', hlt⟩]
        exact hending
  refine ⟨fun l hl hscheme => hiff.2 fun l' hl' hscheme' => ?_, hiff⟩
  -- the path of a location begins no scheme, so neither does the name
  have hne : l.scheme ≠ [] := List.ne_nil_of_length_pos (by omega)
  have hne' : l'.scheme ≠ [] := List.ne_nil_of_length_pos (by omega)
  have hpath := Location.parse?_path hl hne
  have hspecifier : specifierPath false s = l.path := specifierPath_location false hl hscheme
  rw [← hspecifier] at hpath
  obtain ⟨b, hb, halpha⟩ := Location.parse?_head (fun hhash => hplain 35 hhash (by decide)) hl' hne'
  rw [head_outputName hpath hb] at halpha
  exact absurd halpha Bool.false_ne_true

/-- The name of a location with a query. -/
theorem outputName_of_query :
    (∀ b ∈ specifierPath false "https://x/a.ts?v=1", b ∉ Bytes.ofString "?#") ∧
      ofSpecifier (outputName "https://x/a.ts?v=1") = .jsx := by
  have hplain : ∀ b ∈ specifierPath false "https://x/a.ts?v=1", b ∉ Bytes.ofString "?#" := by
    decide +kernel
  exact ⟨hplain, (outputName_script _ hplain).1
    { scheme := "https", path := "/a.ts" } (by decide +kernel) (by decide)⟩

/-- An escaped question mark in the path of a location cuts off the ending of its script. -/
theorem outputName_of_escaped_query :
    outputName "https://x/a%3F.js" = Bytes.ofString "/a?.js" ∧
      ofSpecifier (outputName "https://x/a%3F.js") = .ts := by
  decide +kernel

end Dialect

end ScriptLower
