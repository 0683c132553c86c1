import ScriptLower.SourceMap.Sink

/-!
# Reading a source map back

The text of a map loses nothing. Its reader follows the rules of the format alone: a semicolon
begins a line and sets the printed column back, a comma ends a segment, and each field of a segment
is the difference to the same field of the segment before it.

The idea of the proof is that reader and writer stand at the same place. Behind an entry the reader
holds the text of that entry in its hands and knows what it will make of it; the separator in front
of the next entry makes it let go.
-/

/-! ## Numbers -/

namespace ScriptLower.Base64

open ScriptLower

/-- A character has the value it was made from. -/
theorem value?_char : ∀ n < 64, value? (char n) = some n := by decide

/-- No character of the alphabet is a separator of a map. -/
theorem char_ne_separator : ∀ n < 64, char n ≠ ascii ';' ∧ char n ≠ ascii ',' := by decide

end ScriptLower.Base64

namespace ScriptLower.Vlq

open ScriptLower

/-- The numbers written in a text, with their signs still in the lowest bit. A character that says
more follow holds the low bits of the number behind it. -/
def digits? : Bytes → Option (List Nat)
  | [] => some []
  | b :: r => do
    let d ← Base64.value? b
    let us ← digits? r
    if d < 32 then some (d :: us)
    else match us with
      | [] => none
      | u :: us => some ((d - 32 + 32 * u) :: us)

/-- The number whose sign is in the lowest bit. -/
def unfold (u : Nat) : Int := if u % 2 = 0 then (u / 2 : Nat) else -(u / 2 : Nat)

/-- The numbers written in a text. -/
def numbers? (s : Bytes) : Option (List Int) := (digits? s).map (List.map unfold)

theorem unfold_fold (v : Int) : unfold (fold v) = v := by
  unfold Vlq.unfold fold
  split <;> split <;> omega

/-- Digits are read back, whatever stands behind them. -/
theorem digits?_digits (u : Nat) (r : Bytes) :
    digits? (digits u ++ r) = (digits? r).map (u :: ·) := by
  fun_induction digits u with
  | case1 u hu =>
    cases hr : digits? r with
    | none => simp [digits?, Base64.value?_char u (by omega), hr]
    | some us => simp [digits?, Base64.value?_char u (by omega), hr, hu]
  | case2 u hu ih =>
    have hlow : ¬u % 32 + 32 < 32 := by omega
    have hback : u % 32 + 32 * (u / 32) = u := Nat.mod_add_div u 32
    cases hr : digits? r with
    | none => simp [digits?, Base64.value?_char (u % 32 + 32) (by omega), ih, hr]
    | some us => simp [digits?, Base64.value?_char (u % 32 + 32) (by omega), ih, hr, hlow, hback]

/-- A number is read back, whatever stands behind it. -/
theorem numbers?_encode (v : Int) (r : Bytes) :
    numbers? (encode v ++ r) = (numbers? r).map (v :: ·) := by
  rw [numbers?, encode, digits?_digits, numbers?]
  cases digits? r with
  | none => rfl
  | some us => simp [unfold_fold]

theorem digits_ne_nil (u : Nat) : digits u ≠ [] := by
  rw [digits]
  split <;> simp

/-- A byte that separates nothing in the text of a map. -/
def IsField (b : UInt8) : Prop := b ≠ ascii ';' ∧ b ≠ ascii ','

theorem isField_of_mem_digits (u : Nat) : ∀ b ∈ digits u, IsField b := by
  fun_induction digits u with
  | case1 u hu =>
    intro b hb
    rw [List.mem_singleton.1 hb]
    exact Base64.char_ne_separator u (by omega)
  | case2 u hu ih =>
    intro b hb
    rcases List.mem_cons.1 hb with rfl | hb
    · exact Base64.char_ne_separator _ (by omega)
    · exact ih b hb

end ScriptLower.Vlq

/-! ## The rules of the format -/

namespace ScriptLower.MapText

open ScriptLower

/-- A place in one of the sources of a map. -/
structure Origin where
  /-- The number of the source. -/
  source : Int := 0
  /-- The line in it. -/
  line : Int := 0
  /-- The column in it. -/
  col : Int := 0
  deriving DecidableEq

/-- A segment of a map: a printed place, and perhaps where it comes from and its name there. -/
structure Segment where
  /-- The printed line. -/
  line : Nat
  /-- The printed column. -/
  col : Int
  /-- The place it comes from. -/
  origin : Option Origin
  /-- The number of its name. -/
  name : Option Int
  deriving DecidableEq

/-- Where a reader stands: the printed line, and the value of each field in the segment before. -/
structure Reader where
  /-- The printed line. -/
  line : Nat := 0
  /-- The printed column on this line. -/
  col : Int := 0
  /-- The place that the latest segment with a place comes from. -/
  origin : Origin := {}
  /-- The number of the latest name. -/
  name : Int := 0

namespace Reader

/-- The origin that lies so far from the latest one. -/
def shifted (c : Reader) (source line col : Int) : Origin :=
  { source := c.origin.source + source, line := c.origin.line + line, col := c.origin.col + col }

/-- The segment with the given fields, of which there are one, four or five. -/
def segment? (c : Reader) : List Int → Option (Reader × Segment)
  | [col] =>
    let c' := { c with col := c.col + col }
    some (c', ⟨c'.line, c'.col, none, none⟩)
  | [col, source, line, sourceCol] =>
    let c' := { c with col := c.col + col, origin := c.shifted source line sourceCol }
    some (c', ⟨c'.line, c'.col, some c'.origin, none⟩)
  | [col, source, line, sourceCol, name] =>
    let c' := { c with col := c.col + col, origin := c.shifted source line sourceCol
                       name := c.name + name }
    some (c', ⟨c'.line, c'.col, some c'.origin, some c'.name⟩)
  | _ => none

/-- The segment that a text between separators spells; an empty text spells none. -/
def close? (c : Reader) (text : Bytes) : Option (Reader × List Segment) :=
  if text.isEmpty then some (c, [])
  else do
    let (c', s) ← c.segment? (← Vlq.numbers? text)
    some (c', [s])

/-- The reader at the start of the next line. -/
def nextLine (c : Reader) : Reader := { c with line := c.line + 1, col := 0 }

/-- The segments of a text, of which `text` is read since the last separator. -/
def segmentsFrom? (c : Reader) (text : Bytes) : Bytes → Option (List Segment)
  | [] => (c.close? text).map (·.2)
  | b :: r =>
    if b = ascii ';' then do
      let (c', out) ← c.close? text
      return out ++ (← segmentsFrom? c'.nextLine [] r)
    else if b = ascii ',' then do
      let (c', out) ← c.close? text
      return out ++ (← segmentsFrom? c' [] r)
    else segmentsFrom? c (text ++ [b]) r

end Reader

/-- The segments that the text of a map spells. -/
def decode? (s : Bytes) : Option (List Segment) := Reader.segmentsFrom? {} [] s

/-- The segment of an entry: it has one source and no name. -/
def segmentOf (m : Mapping) : Segment :=
  ⟨m.line, m.col, some { line := m.sourceLine, col := m.sourceCol }, none⟩

section

variable {c c' : Reader} {p r : Bytes} {out : List Segment}

/-- Fields are held until a separator comes. -/
theorem segmentsFrom?_fields {s : Bytes} (hs : ∀ b ∈ s, Vlq.IsField b) :
    c.segmentsFrom? p (s ++ r) = c.segmentsFrom? (p ++ s) r := by
  induction s generalizing p with
  | nil => rw [List.nil_append, List.append_nil]
  | cons b s ih =>
    obtain ⟨hsemi, hcomma⟩ := hs b (by simp)
    rw [List.cons_append, Reader.segmentsFrom?, if_neg hsemi, if_neg hcomma,
      ih fun d hd => hs d (by simp [hd]), List.append_assoc, List.singleton_append]

/-- A comma ends the segment that is held. -/
theorem segmentsFrom?_comma (h : c.close? p = some (c', out)) :
    c.segmentsFrom? p (ascii ',' :: r) = (c'.segmentsFrom? [] r).map (out ++ ·) := by
  rw [Reader.segmentsFrom?, if_neg (by decide), if_pos rfl, h]
  cases hr : c'.segmentsFrom? [] r <;> simp [hr]

/-- A semicolon ends the segment that is held, and begins a line. -/
theorem segmentsFrom?_semicolon (h : c.close? p = some (c', out)) :
    c.segmentsFrom? p (ascii ';' :: r) = (c'.nextLine.segmentsFrom? [] r).map (out ++ ·) := by
  rw [Reader.segmentsFrom?, if_pos rfl, h]
  cases hr : c'.nextLine.segmentsFrom? [] r <;> simp [hr]

theorem close?_nil (c : Reader) : c.close? [] = some (c, []) := rfl

/-- Some semicolons end the segment that is held, and begin as many lines. -/
theorem segmentsFrom?_lines (n : Nat) (h : c.close? p = some (c', out)) :
    c.segmentsFrom? p (List.replicate (n + 1) (ascii ';') ++ r) =
      (Reader.segmentsFrom? { c' with line := c'.line + (n + 1), col := 0 } [] r).map
        (out ++ ·) := by
  induction n generalizing c c' p out with
  | zero => exact segmentsFrom?_semicolon h
  | succ n ih =>
    rw [List.replicate_succ, List.cons_append, segmentsFrom?_semicolon h, ih (close?_nil _)]
    simp only [Reader.nextLine, Option.map_map]
    rw [show c'.line + 1 + (n + 1) = c'.line + (n + 1 + 1) by omega]
    rfl

/-! ## Reader and writer -/

/-- The four fields of an entry, each as a difference. -/
def fields (col line sourceCol : Int) : Bytes :=
  Vlq.encode col ++ Vlq.encode 0 ++ Vlq.encode line ++ Vlq.encode sourceCol

theorem isField_of_mem_fields (x y z : Int) : ∀ b ∈ fields x y z, Vlq.IsField b := by
  intro b hb
  simp only [fields, Vlq.encode, List.mem_append] at hb
  rcases hb with ((hb | hb) | hb) | hb <;> exact Vlq.isField_of_mem_digits _ b hb

theorem numbers?_fields (x y z : Int) : Vlq.numbers? (fields x y z) = some [x, 0, y, z] := by
  have hnil : Vlq.numbers? [] = some [] := rfl
  rw [fields, List.append_assoc, List.append_assoc, Vlq.numbers?_encode, Vlq.numbers?_encode,
    Vlq.numbers?_encode, ← List.append_nil (Vlq.encode z), Vlq.numbers?_encode, hnil]
  rfl

/-- Four fields close as the segment that lies so far from the one before. -/
theorem close?_fields (c : Reader) (x y z : Int) : c.close? (fields x y z) =
    some ({ c with col := c.col + x, origin := c.shifted 0 y z },
      [⟨c.line, c.col + x, some (c.shifted 0 y z), none⟩]) := by
  have hne : (fields x y z).isEmpty = false := by
    simp [fields, Vlq.encode, Vlq.digits_ne_nil]
  rw [Reader.close?, hne, numbers?_fields]
  rfl

/-- A reader knows what the writer of a map knows. -/
structure Follows (w : MapSink.Cursor) (c : Reader) : Prop where
  /-- They are on one line. -/
  line : c.line = w.line
  /-- They are in one column of it. -/
  col : c.col = w.col
  /-- They know the same place in the source. -/
  origin : c.origin = { line := w.sourceLine, col := w.sourceCol }

/-- The writer behind an entry. -/
def behind (w : MapSink.Cursor) (m : Mapping) : MapSink.Cursor :=
  { line := max w.line m.line, isFirst := false, col := m.col, sourceLine := m.sourceLine
    sourceCol := m.sourceCol }

/-- The fields of an entry close as its segment, and reader and writer stand behind it. -/
theorem Follows.close {w : MapSink.Cursor} {m : Mapping} (h : Follows w c) (hm : m.line = w.line) :
    ∃ c',
    c.close? (fields (m.col - w.col) (m.sourceLine - w.sourceLine) (m.sourceCol - w.sourceCol)) =
      some (c', [segmentOf m]) ∧ Follows (behind w m) c' := by
  have hcol : c.col + (m.col - w.col) = m.col := by rw [h.col]; omega
  have horigin : c.shifted 0 (m.sourceLine - w.sourceLine) (m.sourceCol - w.sourceCol) =
      { line := m.sourceLine, col := m.sourceCol } := by
    simp only [Reader.shifted, h.origin, Origin.mk.injEq]
    omega
  refine ⟨{ c with col := m.col, origin := { line := m.sourceLine, col := m.sourceCol } }, ?_, ?_⟩
  · rw [close?_fields, hcol, horigin, segmentOf, hm, h.line]
  · exact ⟨by rw [h.line, behind, hm, Nat.max_self], rfl, rfl⟩

/-- An entry on the line of the one before. -/
theorem encodeEntry_same {w : MapSink.Cursor} {m : Mapping} (h : m.line = w.line) :
    MapSink.encodeEntry w m = (if w.isFirst then [] else [ascii ',']) ++
      fields (m.col - w.col) (m.sourceLine - w.sourceLine) (m.sourceCol - w.sourceCol) := by
  have hcomma : Bytes.ofString "," = [ascii ','] := by decide
  simp [MapSink.encodeEntry, MapSink.difference, fields, h, hcomma]

/-- An entry on a later line is written as if the writer stood at the start of that line. -/
theorem encodeEntry_later {w : MapSink.Cursor} {m : Mapping} (h : w.line < m.line) :
    MapSink.encodeEntry w m = List.replicate (m.line - w.line) (ascii ';') ++
      fields (m.col - 0) (m.sourceLine - w.sourceLine) (m.sourceCol - w.sourceCol) := by
  simp [MapSink.encodeEntry, MapSink.difference, fields, Nat.sub_pos_of_lt h]

/-- The reader makes of the text of some entries their segments. It holds the text `p` of the entry
in front of them and knows that it spells `out`. -/
theorem segmentsFrom?_encodeFrom {w : MapSink.Cursor} {ms : List Mapping}
    (hclose : c.close? p = some (c', out)) (hf : Follows w c') (hp : w.isFirst = true ↔ p = [])
    (hline : ∀ m ∈ ms, w.line ≤ m.line) (hsorted : ms.Pairwise (·.line ≤ ·.line)) :
    c.segmentsFrom? p (MapSink.encodeFrom w ms) = some (out ++ ms.map segmentOf) := by
  induction ms generalizing c c' p out w with
  | nil => rw [MapSink.encodeFrom, Reader.segmentsFrom?, hclose, List.map_nil, List.append_nil]; rfl
  | cons m ms ih =>
    obtain ⟨hm, hsorted⟩ := List.pairwise_cons.1 hsorted
    have hle := hline m (by simp)
    -- behind the fields of `m` the reader holds them, and the rest follows by induction
    have hrest {c₀ : Reader} {w₀ : MapSink.Cursor} (hf₀ : Follows w₀ c₀) (hm₀ : m.line = w₀.line)
        (hw : behind w₀ m = behind w m) :
        c₀.segmentsFrom? [] (fields (m.col - w₀.col) (m.sourceLine - w₀.sourceLine)
          (m.sourceCol - w₀.sourceCol) ++ MapSink.encodeFrom (behind w m) ms) =
          some (segmentOf m :: ms.map segmentOf) := by
      obtain ⟨c₁, hc₁, hf₁⟩ := hf₀.close hm₀
      rw [segmentsFrom?_fields (isField_of_mem_fields _ _ _), List.nil_append]
      refine ih hc₁ (hw ▸ hf₁) ⟨fun h => absurd h (by simp [behind]), fun h => ?_⟩ ?_ hsorted
      · exact absurd h (by simp [fields, Vlq.encode, Vlq.digits_ne_nil])
      · intro n hn
        rw [behind, Nat.max_eq_right hle]
        exact hm n hn
    show c.segmentsFrom? p (MapSink.encodeEntry w m ++ MapSink.encodeFrom (behind w m) ms) = _
    rcases Nat.eq_or_lt_of_le hle with heq | hlt
    · rw [encodeEntry_same heq.symm]
      cases hfirst : w.isFirst with
      | true =>
        obtain rfl := hp.1 hfirst
        obtain ⟨rfl, rfl⟩ := Prod.mk.inj (Option.some.inj hclose)
        exact hrest hf heq.symm rfl
      | false =>
        rw [if_neg (by simp), List.append_assoc, List.singleton_append, segmentsFrom?_comma hclose,
          hrest hf heq.symm rfl]
        rfl
    · obtain ⟨n, hn⟩ : ∃ n, m.line - w.line = n + 1 := ⟨m.line - w.line - 1, by omega⟩
      have hlater : Follows { w with line := m.line, col := 0 }
          { c' with line := c'.line + (n + 1), col := 0 } :=
        ⟨by simp only [hf.line]; omega, rfl, hf.origin⟩
      have hbehind : behind { w with line := m.line, col := 0 } m = behind w m := by
        simp [behind, Nat.max_eq_right hle]
      rw [encodeEntry_later hlt, hn, List.append_assoc, segmentsFrom?_lines n hclose]
      exact congrArg (Option.map (out ++ ·)) (hrest hlater rfl hbehind)

end

end ScriptLower.MapText

/-! ## The entries of a map -/

namespace ScriptLower

/-- The printed place of one entry lies before that of another. -/
def Mapping.Before (a b : Mapping) : Prop := a.line < b.line ∨ a.line = b.line ∧ a.col < b.col

instance (a b : Mapping) : Decidable (a.Before b) := inferInstanceAs (Decidable (_ ∨ _))

theorem Mapping.Before.trans {a b c : Mapping} (h : a.Before b) (h' : b.Before c) : a.Before c := by
  unfold Mapping.Before at *
  omega

theorem Mapping.Before.line_le {a b : Mapping} (h : a.Before b) : a.line ≤ b.line := by
  unfold Mapping.Before at h
  omega

namespace MapSink

/-- What a map is asked for: an entry for a printed place and the start of a span. -/
structure Call where
  /-- The printed line. -/
  line : Nat
  /-- The printed column. -/
  col : Nat
  /-- The span. -/
  span : Span

/-- The entry a call asks for, in a map of the file. -/
def Call.entry (file : SourceFile) (c : Call) : Mapping :=
  MapSink.entry { file := file } c.line c.col c.span

/-- A call is accepted behind some entries when its span has a place in the file and its printed
place lies behind all of theirs. -/
def Call.Accepted (file : SourceFile) (before : List Mapping) (c : Call) : Prop :=
  c.span.isDummy = false ∧ MapSink.holds { file := file } c.span = true ∧
    ∀ m ∈ before, m.Before (c.entry file)

instance (file : SourceFile) (before : List Mapping) (c : Call) :
    Decidable (c.Accepted file before) :=
  inferInstanceAs (Decidable (_ ∧ _ ∧ _))

/-- The entries of the calls that are accepted behind some entries. -/
def acceptedBehind (file : SourceFile) (before : List Mapping) : List Call → List Mapping
  | [] => []
  | c :: r =>
    if c.Accepted file before then c.entry file :: acceptedBehind file (before ++ [c.entry file]) r
    else acceptedBehind file before r

/-- The entries of the accepted calls. -/
def accepted (file : SourceFile) (calls : List Call) : List Mapping := acceptedBehind file [] calls

/-- The map behind some calls. One that is refused leaves the map as it is. -/
def addAll (s : MapSink) : List Call → MapSink
  | [] => s
  | c :: r =>
    match s.add c.line c.col c.span with
    | .ok s' => s'.addAll r
    | .error _ => s.addAll r

/-- The entries of a map are in the order of their printed places. -/
def Sorted (s : MapSink) : Prop := s.latestFirst.Pairwise fun a b => b.Before a

section

variable {s : MapSink}

/-- In a map whose entries are in order, an entry lies behind all when it lies behind the latest. -/
theorem Sorted.before_iff (hs : s.Sorted) {last : Mapping} {r : List Mapping}
    (hr : s.latestFirst = last :: r) (m : Mapping) :
    (∀ t ∈ s.mappings, t.Before m) ↔ last.Before m := by
  rw [Sorted, hr, List.pairwise_cons] at hs
  simp only [mappings, List.mem_reverse, hr, List.forall_mem_cons]
  exact ⟨fun h => h.1, fun h => ⟨h, fun t ht => (hs.1 t ht).trans h⟩⟩

/-- The entry of an accepted call is added. -/
theorem add_of_accepted (hs : s.Sorted) {c : Call} (h : c.Accepted s.file s.mappings) :
    s.add c.line c.col c.span = .ok { s with latestFirst := c.entry s.file :: s.latestFirst } := by
  obtain ⟨hdummy, hholds, hbefore⟩ := h
  have hholds : s.holds c.span = true := hholds
  unfold add
  rw [if_neg (Bool.eq_false_iff.1 hdummy), hholds, if_neg (by simp)]
  split
  · rename_i hnil
    rw [hnil]
    rfl
  · rename_i last r hr
    have hlast : last.line < c.line ∨ last.line = c.line ∧ last.col < c.col :=
      (hs.before_iff hr _).1 hbefore
    rw [if_neg (by simp; omega), if_neg (by simp; omega)]
    rfl

/-- A call that is not accepted is refused or passed over, and the map stays. -/
theorem add_of_not_accepted (hs : s.Sorted) {c : Call} (h : ¬c.Accepted s.file s.mappings) :
    s.add c.line c.col c.span = .ok s ∨ ∃ e, s.add c.line c.col c.span = .error e := by
  unfold add
  split
  · exact .inl rfl
  rename_i hdummy
  split
  · exact .inr ⟨_, rfl⟩
  rename_i hholds
  have hbehind : ¬∀ m ∈ s.mappings, m.Before (c.entry s.file) :=
    fun hall =>
      h ⟨Bool.eq_false_iff.2 hdummy, (by simpa using hholds : s.holds c.span = true), hall⟩
  split
  · rename_i hnil
    exact absurd (by simp [mappings, hnil]) hbehind
  · rename_i last r hr
    rw [hs.before_iff hr] at hbehind
    have hlast : ¬(last.line < c.line ∨ last.line = c.line ∧ last.col < c.col) := hbehind
    split
    · exact .inl rfl
    · rename_i hsame
      rw [if_pos (by simp at hsame ⊢; omega)]
      exact .inr ⟨_, rfl⟩

/-- The entries of a map behind some calls are those before and those of the accepted calls. -/
theorem mappings_addAll (hs : s.Sorted) (calls : List Call) :
    (s.addAll calls).Sorted ∧
      (s.addAll calls).mappings = s.mappings ++ acceptedBehind s.file s.mappings calls := by
  induction calls generalizing s with
  | nil => exact ⟨hs, (List.append_nil _).symm⟩
  | cons c r ih =>
    rw [addAll, acceptedBehind]
    by_cases h : c.Accepted s.file s.mappings
    · rw [add_of_accepted hs h, if_pos h]
      have hnext : Sorted { s with latestFirst := c.entry s.file :: s.latestFirst } :=
        List.pairwise_cons.2 ⟨fun m hm => h.2.2 m (by simpa [mappings] using hm), hs⟩
      obtain ⟨hsorted, heq⟩ := ih hnext
      refine ⟨hsorted, ?_⟩
      rw [heq]
      simp [mappings]
    · rw [if_neg h]
      rcases add_of_not_accepted hs h with hstay | ⟨e, hrefused⟩
      · rw [hstay]
        exact ih hs
      · rw [hrefused]
        exact ih hs

/-- The text of a map spells its entries. -/
theorem decode?_encoded (hs : s.Sorted) :
    MapText.decode? s.encoded = some (s.mappings.map MapText.segmentOf) := by
  refine MapText.segmentsFrom?_encodeFrom (MapText.close?_nil _) ⟨rfl, rfl, rfl⟩
    (by simp) (by simp) ?_
  exact List.pairwise_reverse.2 (hs.imp fun h => h.line_le)

/-- A map of two lines, of which the first has two entries and the line between them none. -/
example : MapText.decode? "AAAA,IAAI;;EACJ" =
    some [⟨0, 0, some {}, none⟩, ⟨0, 4, some { col := 4 }, none⟩,
      ⟨2, 2, some { line := 1 }, none⟩] := by decide

/-- Whatever a map is asked for, it holds the entries of the accepted calls in their order, its text
spells exactly these, and their printed places strictly increase. -/
theorem map_text_lossless (file : SourceFile) (calls : List Call) :
    (addAll { file := file } calls).mappings = accepted file calls ∧
      MapText.decode? (addAll { file := file } calls).encoded =
        some ((accepted file calls).map MapText.segmentOf) ∧
      (accepted file calls).Pairwise Mapping.Before := by
  have hnew : Sorted { file := file } := List.Pairwise.nil
  obtain ⟨hsorted, heq⟩ := mappings_addAll hnew calls
  have haccepted : (addAll { file := file } calls).mappings = accepted file calls := heq
  rw [decode?_encoded hsorted, haccepted]
  exact ⟨rfl, rfl, haccepted ▸ List.pairwise_reverse.2 hsorted⟩

end

end MapSink

end ScriptLower
