import ScriptLower.Source.File
import Mathlib.Data.List.Pairwise

/-!
# Positions of the files of a set

Positions are handed out in 32-bit words, and so is the check that a text still has room. The
invariant is that everything handed out lies below the next position, and that the next position is
a word. A registration keeps it, with one exception: for a text of `2 ^ 32 - 1` bytes the bound of
the check is computed by taking one from zero, so it comes out as the largest word, and the text is
let in wherever it begins. Its end is then the position in front of its own first byte, and the next
file begins where it began.
-/

namespace ScriptLower

/-! ## Positions as words -/

theorem toNat_toUInt32 {n : Nat} (h : n < UInt32.size) : n.toUInt32.toNat = n :=
  UInt32.toNat_ofNat_of_lt' h

namespace SourceFile

/-- Where a file ends, were there a position for every number. -/
def stop (f : SourceFile) : Nat := f.base + f.content.length

/-- A file that begins at a position and behind whose end there is one more. -/
structure InWords (f : SourceFile) : Prop where
  /-- It does not begin at the position that means no position. -/
  begins : 1 ≤ f.base
  /-- The position behind its end is a word. -/
  ends : f.stop + 1 < UInt32.size

variable {f : SourceFile}

/-- In such a file the position of an offset is as far behind the beginning as the offset says. -/
theorem InWords.posWord (hf : f.InWords) {off : Nat} (h : off ≤ f.content.length) :
    (f.posWord off).toNat = f.base + off := by
  have hends := hf.ends
  unfold stop at hends
  have hsum : f.base + off < UInt32.size := by omega
  rw [SourceFile.posWord, UInt32.toNat_add, toNat_toUInt32 (by omega), toNat_toUInt32 (by omega),
    Nat.mod_eq_of_lt hsum]

theorem InWords.endWord (hf : f.InWords) : f.endWord.toNat = f.stop := hf.posWord (Nat.le_refl _)

end SourceFile

namespace FileSet

/-- A text with the path it is registered under, and whether it came from memory. -/
structure Text where
  /-- The path. -/
  path : Bytes
  /-- The bytes. -/
  content : Bytes
  /-- Whether it came from memory. -/
  virtual : Bool := true

/-- Registers texts one after the other. -/
def addAll? (fs : FileSet) (texts : List Text) : Option FileSet :=
  texts.foldlM (fun fs t => (fs.add? t.path t.content t.virtual).map (·.1)) fs

/-- The positions of every file are its own. -/
structure Separate (fs : FileSet) : Prop where
  /-- No file begins at the position that means no position. -/
  begins : ∀ f ∈ fs.files, 1 ≤ f.base
  /-- The end of a file, as a word, is as far behind its beginning as its text is long. -/
  ends : ∀ f ∈ fs.files, f.endWord.toNat = f.stop
  /-- A file ends before the next one begins. -/
  apart : fs.files.Pairwise fun f g => f.stop < g.base
  /-- The file of a position is the one in whose range it lies. -/
  found : ∀ f ∈ fs.files, ∀ pos, f.base ≤ pos → pos ≤ f.stop → fs.fileOf? pos = some f

variable {fs fs' : FileSet} {path content : Bytes} {virtual : Bool} {f : SourceFile}

/-! ## One registration -/

/-- The size of a text for which the check of positions lets every beginning pass. -/
def uncheckedSize : Nat := UInt32.size - 1

theorem lastBase_toNat {size : Nat} (h : size < uncheckedSize) :
    (lastBase size).toNat = UInt32.size - size - 2 := by
  have hunchecked : uncheckedSize = 4294967295 := rfl
  have hwords : UInt32.size = 4294967296 := rfl
  have hsize : size.toUInt32.toNat = size := toNat_toUInt32 (by omega)
  have hfirst : ((0xFFFFFFFF : UInt32) - size.toUInt32).toNat = 4294967295 - size := by
    rw [UInt32.toNat_sub_of_le, hsize]
    · rfl
    · rw [UInt32.le_iff_toNat_le, hsize]
      show size ≤ 4294967295
      omega
  rw [lastBase, UInt32.toNat_sub_of_le, hfirst]
  · show 4294967295 - size - 1 = _
    omega
  · rw [UInt32.le_iff_toNat_le, hfirst]
    show 1 ≤ _
    omega

/-- For one size the bound is the largest word. -/
theorem lastBase_uncheckedSize : lastBase uncheckedSize = 0xFFFFFFFF := rfl

/-- Behind a text of that size the next position is the one it began at. -/
theorem behind_uncheckedSize {base : Nat} (h : base < UInt32.size) :
    (behind base uncheckedSize).toNat = base := by
  have hsum : uncheckedSize.toUInt32 + 1 = 0 := rfl
  rw [behind, UInt32.add_assoc, hsum, UInt32.add_zero, toNat_toUInt32 h]

theorem behind_toNat {base size : Nat} (h : base + size + 1 < UInt32.size) :
    (behind base size).toNat = base + size + 1 := by
  have hwords : UInt32.size = 2 ^ 32 := rfl
  have hend : base + size < 2 ^ 32 := by omega
  rw [behind, UInt32.toNat_add, UInt32.toNat_add, toNat_toUInt32 (by omega),
    toNat_toUInt32 (by omega), UInt32.toNat_one, Nat.mod_eq_of_lt hend,
      Nat.mod_eq_of_lt (hwords ▸ h)]

/-- What a registration does: the file is put behind the others, and the next position is the one
behind it in 32-bit words. -/
theorem add?_eq_some (h : fs.add? path content virtual = some (fs', f)) :
    fs.hasRoom content.length = true ∧ f = fs.fileFor path content virtual ∧
      fs' = { fs with
        files := fs.files ++ [fs.fileFor path content virtual]
        next := (behind fs.next content.length).toNat } := by
  rw [add?, register?] at h
  by_cases hroom : fs.hasRoom content.length = true
  · rw [if_pos hroom] at h
    cases h
    exact ⟨hroom, rfl, rfl⟩
  · rw [if_neg hroom] at h
    cases h

/-- Everything handed out lies below the next position, which is a word. -/
structure Laid (fs : FileSet) : Prop where
  /-- The next position is not the one that means no position. -/
  first : 1 ≤ fs.next
  /-- It is a word. -/
  word : fs.next < UInt32.size
  /-- No file begins at the position that means no position. -/
  begins : ∀ f ∈ fs.files, 1 ≤ f.base
  /-- Every file ends below it. -/
  below : ∀ f ∈ fs.files, f.stop < fs.next
  /-- A file ends before the next one begins. -/
  apart : fs.files.Pairwise fun f g => f.stop < g.base

theorem laid_empty (baseDir workDir : Bytes) : ({ baseDir, workDir } : FileSet).Laid :=
  { first := Nat.le_refl 1
    word := (by decide : 1 < UInt32.size)
    begins := fun f hf => absurd hf List.not_mem_nil
    below := fun f hf => absurd hf List.not_mem_nil
    apart := List.Pairwise.nil }

/-- A registration of a text of any other size keeps the files apart. -/
theorem Laid.add? (hl : fs.Laid) (hsize : content.length ≠ uncheckedSize)
    (h : fs.add? path content virtual = some (fs', f)) : fs'.Laid := by
  obtain ⟨hroom, -, rfl⟩ := add?_eq_some h
  simp only [hasRoom, Bool.and_eq_true, decide_eq_true_eq] at hroom
  obtain ⟨⟨-, hlength⟩, hbase⟩ := hroom
  have hunchecked : uncheckedSize + 1 = UInt32.size := rfl
  -- The bound is not wrapped, so behind the text there is one more word.
  rw [lastBase_toNat (by omega)] at hbase
  have hfits : fs.next + content.length + 1 < UInt32.size := by
    have := hl.first
    omega
  have hnext : (behind fs.next content.length).toNat = fs.next + content.length + 1 :=
    behind_toNat hfits
  constructor
  case first =>
    show 1 ≤ (behind fs.next content.length).toNat
    omega
  case word =>
    show (behind fs.next content.length).toNat < _
    omega
  case begins =>
    intro g hg
    rcases List.mem_append.1 hg with hold | hnew
    · exact hl.begins g hold
    · obtain rfl := List.mem_singleton.1 hnew
      exact hl.first
  case below =>
    intro g hg
    show g.stop < (behind fs.next content.length).toNat
    rw [hnext]
    rcases List.mem_append.1 hg with hold | hnew
    · have := hl.below g hold
      omega
    · obtain rfl := List.mem_singleton.1 hnew
      exact Nat.lt_succ_self _
  case apart =>
    refine List.pairwise_append.2 ⟨hl.apart, List.pairwise_singleton _ _, ?_⟩
    intro g hg g' hg'
    obtain rfl := List.mem_singleton.1 hg'
    exact hl.below g hg

/-- A text of the unchecked size is let in wherever it begins, and the next position stays. -/
theorem add?_uncheckedSize (hfiles : fs.files.length < UInt32.size) (hnext : fs.next < UInt32.size)
    (hsize : content.length = uncheckedSize) :
    fs.add? path content virtual =
      some ({ fs with files := fs.files ++ [fs.fileFor path content virtual] },
        fs.fileFor path content virtual) := by
  have hbound : fs.next ≤ (lastBase uncheckedSize).toNat := by
    rw [lastBase_uncheckedSize]
    exact Nat.le_of_lt_succ hnext
  have hroom : fs.hasRoom uncheckedSize = true := by
    rw [hasRoom, decide_eq_true hfiles, decide_eq_true hbound]
    rfl
  rw [add?, register?, hsize, if_pos hroom, behind_uncheckedSize hnext]
  rfl

/-! ## A sequence of registrations -/

theorem addAll?_cons {t : Text} {texts : List Text} (h : fs.addAll? (t :: texts) = some fs') :
    ∃ mid f, fs.add? t.path t.content t.virtual = some (mid, f) ∧ mid.addAll? texts = some fs' := by
  rw [addAll?, List.foldlM_cons, Option.bind_eq_bind, Option.bind_eq_some_iff] at h
  obtain ⟨mid, hmid, hrest⟩ := h
  obtain ⟨⟨mid', f⟩, hadd, rfl⟩ := Option.map_eq_some_iff.1 hmid
  exact ⟨mid', f, hadd, hrest⟩

theorem Laid.addAll? {texts : List Text} (hl : fs.Laid)
    (hsizes : ∀ t ∈ texts, t.content.length ≠ uncheckedSize) (h : fs.addAll? texts = some fs') :
    fs'.Laid := by
  induction texts generalizing fs with
  | nil =>
    cases h
    exact hl
  | cons t texts ih =>
    obtain ⟨mid, f, hadd, hrest⟩ := addAll?_cons h
    have hmid : mid.Laid := hl.add? (hsizes t List.mem_cons_self) hadd
    exact ih hmid (fun t' ht' => hsizes t' (List.mem_cons_of_mem _ ht')) hrest

/-- Every text that was registered is that of a file. -/
theorem addAll?_contents {texts : List Text} (h : fs.addAll? texts = some fs') :
    fs'.files.map (·.content) = fs.files.map (·.content) ++ texts.map (·.content) := by
  induction texts generalizing fs with
  | nil =>
    cases h
    exact (List.append_nil _).symm
  | cons t texts ih =>
    obtain ⟨mid, f, hadd, hrest⟩ := addAll?_cons h
    obtain ⟨-, -, rfl⟩ := add?_eq_some hadd
    rw [ih hrest, List.map_append, List.append_assoc]
    rfl

theorem Laid.inWords (hl : fs.Laid) (hf : f ∈ fs.files) : f.InWords :=
  ⟨hl.begins f hf, Nat.lt_of_le_of_lt (hl.below f hf) hl.word⟩

/-- Files that lie apart are found by their positions: no file in front reaches that far. -/
theorem Laid.fileOf? (hl : fs.Laid) (hf : f ∈ fs.files) {pos : Nat} (hbase : f.base ≤ pos)
    (hstop : pos ≤ f.stop) : fs.fileOf? pos = some f := by
  have hpos : pos ≠ 0 := by
    have := hl.begins f hf
    omega
  rw [FileSet.fileOf?, if_neg hpos, List.find?_eq_some_iff_append]
  obtain ⟨before, behind, hsplit⟩ := List.append_of_mem hf
  refine ⟨by simp only [(hl.inWords hf).endWord, hbase, hstop, decide_true, Bool.and_self],
    before, behind,
    hsplit, ?_⟩
  intro g hg
  have hgmem : g ∈ fs.files := hsplit ▸ List.mem_append_left _ hg
  have hlt : g.stop < f.base :=
    (List.pairwise_append.1 (hsplit ▸ hl.apart)).2.2 g hg f List.mem_cons_self
  have hout : ¬ pos ≤ g.endWord.toNat := by
    rw [(hl.inWords hgmem).endWord]
    omega
  simp only [hout, decide_false, Bool.and_false, Bool.not_false]

/-- Of the files that registrations make, none shares a position with another, none ends below its
own beginning, and each is found by its positions, exactly when no text has the unchecked size. -/
theorem registered_files_separate {baseDir workDir : Bytes} {texts : List Text}
    (h : ({ baseDir, workDir } : FileSet).addAll? texts = some fs) :
    fs.Separate ↔ ∀ t ∈ texts, t.content.length ≠ uncheckedSize := by
  constructor
  · intro hs t ht hsize
    -- The file of such a text ends, as a word, below its beginning.
    have hmem : t.content ∈ fs.files.map (·.content) := by
      rw [addAll?_contents h]
      exact List.mem_append_right _ (List.mem_map_of_mem ht)
    obtain ⟨f, hf, hcontent⟩ := List.mem_map.1 hmem
    have hbegins : 1 ≤ f.base := hs.begins f hf
    have hends : f.endWord.toNat = f.base + f.content.length := hs.ends f hf
    have hword : f.endWord.toNat < UInt32.size := f.endWord.toNat_lt
    have hunchecked : uncheckedSize + 1 = UInt32.size := rfl
    rw [hcontent] at hends
    omega
  · intro hsizes
    have hl : fs.Laid := (laid_empty baseDir workDir).addAll? hsizes h
    exact { begins := hl.begins, ends := fun f hf => (hl.inWords hf).endWord, apart := hl.apart,
            found := fun f hf pos hbase hstop => hl.fileOf? hf hbase hstop }

/-- Two texts, the second under the path of the first. -/
theorem registered_pair_separate :
    Separate { files := [⟨0, "a.ts", "ab", 1, true⟩, ⟨1, "a.ts", "", 4, false⟩], next := 5 } := by
  have hpair : ({} : FileSet).addAll? [⟨"a.ts", "ab", true⟩, ⟨"a.ts", "", false⟩] =
      some { files := [⟨0, "a.ts", "ab", 1, true⟩, ⟨1, "a.ts", "", 4, false⟩], next := 5 } := rfl
  exact (registered_files_separate hpair).2 (by decide)

/-- Behind a text of the unchecked size the next file begins at the same position, and the positions
they share are taken for those of the second. -/
theorem overlapped_of_uncheckedSize {long : Bytes} (hlong : long.length = uncheckedSize) :
    ∃ fs f g, ({} : FileSet).addAll? [⟨"a.ts", long, true⟩, ⟨"b.ts", "x", true⟩] = some fs ∧
      fs.files = [f, g] ∧ f.base = 1 ∧ g.base = 1 ∧ f.endWord = 0 ∧ fs.fileOf? 1 = some g ∧
      ¬ fs.Separate := by
  have hend : (⟨0, "a.ts", long, 1, true⟩ : SourceFile).endWord = 0 := by
    rw [SourceFile.endWord, hlong]
    show 1 + uncheckedSize.toUInt32 = 0
    decide
  have hfirst : ({} : FileSet).add? "a.ts" long true =
      some ({ files := [⟨0, "a.ts", long, 1, true⟩] }, ⟨0, "a.ts", long, 1, true⟩) := by
    have hclean : Path.clean "a.ts" = "a.ts" := by decide +kernel
    rw [add?_uncheckedSize (by decide) (by decide) hlong, fileFor, hclean]
    rfl
  have hsecond : ({ files := [⟨0, "a.ts", long, 1, true⟩] } : FileSet).add? "b.ts" "x" true =
      some ({ files := [⟨0, "a.ts", long, 1, true⟩, ⟨1, "b.ts", "x", 1, true⟩], next := 3 },
        ⟨1, "b.ts", "x", 1, true⟩) := rfl
  refine ⟨{ files := [⟨0, "a.ts", long, 1, true⟩, ⟨1, "b.ts", "x", 1, true⟩], next := 3 },
    ⟨0, "a.ts", long, 1, true⟩, ⟨1, "b.ts", "x", 1, true⟩, ?_, rfl, rfl, rfl, hend, ?_, ?_⟩
  · simp only [addAll?, List.foldlM_cons, List.foldlM_nil, hfirst, hsecond, Option.map_some,
      Option.bind_eq_bind, Option.bind_some, Option.pure_def]
  · rw [fileOf?, if_neg (by decide), List.find?_cons_of_neg]
    · rfl
    · rw [hend]
      exact Bool.false_ne_true
  · intro hs
    have hends : (0 : UInt32).toNat = 1 + long.length := hend ▸ hs.ends _ List.mem_cons_self
    exact absurd hends (by rw [hlong]; decide)

/-- A file of `2 ^ 32 - 1` letters, and one more file. -/
theorem unchecked_text_overlapped :
    ∃ fs f g, ({} : FileSet).addAll?
        [⟨"a.ts", List.replicate uncheckedSize 120, true⟩, ⟨"b.ts", "x", true⟩] = some fs ∧
      fs.files = [f, g] ∧ f.base = 1 ∧ g.base = 1 ∧ f.endWord = 0 ∧ fs.fileOf? 1 = some g ∧
      ¬ fs.Separate :=
  overlapped_of_uncheckedSize List.length_replicate

end FileSet

end ScriptLower
