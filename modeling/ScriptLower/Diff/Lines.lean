import ScriptLower.Text.Bytes

/-!
# Differences

The difference of two texts as a list of edits, line by line.
-/

/-!
## Edits

The difference of two sequences as a list of pieces: what both have, what only the first has and
what only the second has. `tidy` brings such a list into shape: edits between two common pieces
become at most one removal followed by one addition, what both of these begin or end with is made
common, and a single edit is moved sideways when that joins it to other edits.
-/

namespace ScriptLower.Diff

/-- To which of the two sequences a piece belongs. -/
inductive Side
  /-- Both. -/
  | common
  /-- Only the first. -/
  | removed
  /-- Only the second. -/
  | added
  deriving DecidableEq, Repr, Inhabited

/-- A piece of a difference. -/
structure Edit (α : Type) where
  /-- To which sequence it belongs. -/
  side : Side
  /-- Its items. -/
  items : List α
  deriving DecidableEq, Repr, Inhabited

variable {α : Type} [BEq α]

/-- How many items two lists have in common at their start. -/
def commonPrefix : List α → List α → Nat
  | a :: s, b :: t => if a == b then commonPrefix s t + 1 else 0
  | _, _ => 0

/-- How many items two lists have in common at their end. -/
def commonSuffix (s t : List α) : Nat := commonPrefix s.reverse t.reverse

/-- Where a list first stands in another. -/
def indexOf? (sub : List α) : List α → Option Nat
  | [] => if sub.isEmpty then some 0 else none
  | a :: r => if sub.isPrefixOf (a :: r) then some 0 else (indexOf? sub r).map (· + 1)

/-- A list without its last `n` items. -/
def dropLast (n : Nat) (s : List α) : List α := s.take (s.length - n)

/-- The last `n` items of a list. -/
def takeLast (n : Nat) (s : List α) : List α := s.drop (s.length - n)

/-- Edits that wait for the next common piece. -/
structure Pending (α : Type) where
  /-- How many removals there are. -/
  removals : Nat := 0
  /-- How many additions there are. -/
  additions : Nat := 0
  /-- What is removed. -/
  removed : List α := []
  /-- What is added. -/
  added : List α := []

/-- The waiting edits as pieces, in reverse, in front of `done`. -/
def Pending.onto (p : Pending α) (done : List (Edit α)) : List (Edit α) :=
  let done := if p.removals = 0 then done else ⟨.removed, p.removed⟩ :: done
  if p.additions = 0 then done else ⟨.added, p.added⟩ :: done

/-- Adds items to the common piece that stands first in `done`, or makes one. -/
def extendCommon (done : List (Edit α)) (items : List α) : List (Edit α) :=
  match done with
  | ⟨.common, s⟩ :: r => ⟨.common, s ++ items⟩ :: r
  | _ => ⟨.common, items⟩ :: done

/-- Closes the waiting edits in front of a common piece. -/
def Pending.close (p : Pending α) (done : List (Edit α)) (items : List α) : List (Edit α) :=
  if p.removals + p.additions = 0 then extendCommon done items
  else if p.removals = 0 || p.additions = 0 then ⟨.common, items⟩ :: p.onto done
  else
    let front := commonPrefix p.added p.removed
    let done := if front = 0 then done else extendCommon done (p.added.take front)
    let added := p.added.drop front
    let removed := p.removed.drop front
    let back := commonSuffix added removed
    let p := { p with added := dropLast back added, removed := dropLast back removed }
    ⟨.common, takeLast back added ++ items⟩ :: p.onto done

/-- Joins the edits between common pieces; `done` stands in reverse. -/
def joinEdits (p : Pending α) (done : List (Edit α)) : List (Edit α) → List (Edit α)
  | [] =>
    match p.close done [] with
    | ⟨_, []⟩ :: r => r.reverse
    | all => all.reverse
  | ⟨.added, s⟩ :: r =>
    joinEdits { p with additions := p.additions + 1, added := p.added ++ s } done r
  | ⟨.removed, s⟩ :: r =>
    joinEdits { p with removals := p.removals + 1, removed := p.removed ++ s } done r
  | ⟨.common, s⟩ :: r => joinEdits {} (p.close done s) r

/-- Moves single edits between common pieces sideways where that uses up one of the pieces, and
says whether there were any. -/
def slide : List (Edit α) → Bool × List (Edit α)
  | before :: edit :: behind :: r =>
    if before.side = .common && behind.side = .common then
      if before.items.isSuffixOf edit.items then
        let moved := { edit with items := before.items ++ dropLast before.items.length edit.items }
        (true, moved :: (slide ({ behind with items := before.items ++ behind.items } :: r)).2)
      else if behind.items.isPrefixOf edit.items then
        let moved := { edit with items := edit.items.drop behind.items.length ++ behind.items }
        (true, { before with items := before.items ++ behind.items } :: (slide (moved :: r)).2)
      else
        let (changed, rest) := slide (edit :: behind :: r)
        (changed, before :: rest)
    else
      let (changed, rest) := slide (edit :: behind :: r)
      (changed, before :: rest)
  | edits => (false, edits)
termination_by edits => edits.length

/-- Joins and slides until nothing moves, `fuel` times at most; each time but the last uses up a
piece. -/
def tidyFrom : Nat → List (Edit α) → List (Edit α)
  | 0, edits => edits
  | fuel + 1, edits =>
    match slide (joinEdits {} [] edits) with
    | (true, moved) => tidyFrom fuel moved
    | (false, rest) => rest

/-- The difference in its final shape. -/
def tidy (edits : List (Edit α)) : List (Edit α) := tidyFrom (edits.length + 2) edits

end ScriptLower.Diff

/-!
### The middle of a difference

Two sequences are compared from both ends at once: one walk looks for the furthest point that can be
reached from the start with so many edits, the other from the end, on every diagonal. Where the
walks meet is a point on a shortest way from one sequence to the other, and the sequences are cut
there.
-/

namespace ScriptLower.Diff

/-- The furthest points reached by one walk: on diagonal `k` the item of the first sequence that
was reached. -/
structure Walk where
  /-- The points, the diagonal shifted so that it is not negative; minus one is none. -/
  reach : Array Int
  /-- How many of the lowest diagonals have left the grid. -/
  low : Int := 0
  /-- How many of the highest diagonals have left the grid. -/
  high : Int := 0

variable {α : Type} [BEq α]

/-- The sequences being compared, the first walk's way round. -/
structure Grid (α : Type) where
  /-- The first sequence. -/
  first : Array α
  /-- The second sequence. -/
  second : Array α
  /-- How many edits are tried at most, and the shift of the diagonals. -/
  limit : Nat

/-- How far two sequences agree from a point on, in at most `fuel` items. -/
def agreement (s t : Array α) : Nat → Int → Int → Nat
  | 0, _, _ => 0
  | fuel + 1, x, y =>
    if x < 0 || y < 0 then 0
    else match s[x.toNat]?, t[y.toNat]? with
      | some a, some b => if a == b then agreement s t fuel (x + 1) (y + 1) + 1 else 0
      | _, _ => 0

/-- The entry of a diagonal. -/
def Grid.reached (g : Grid α) (w : Walk) (k : Int) : Int :=
  let i := k + g.limit
  if i < 0 then -1 else w.reach.getD i.toNat (-1)

/-- The furthest point on a diagonal with `d` edits. -/
def Grid.advance (g : Grid α) (w : Walk) (d k : Int) : Int × Int :=
  let x :=
    if k = -d || (k ≠ d && g.reached w (k - 1) < g.reached w (k + 1)) then g.reached w (k + 1)
    else g.reached w (k - 1) + 1
  let n := agreement g.first g.second (g.first.size + 1) x (x - k)
  (x + n, x - k + n)

/-- Records a point. -/
def Grid.record (g : Grid α) (w : Walk) (k x : Int) : Walk :=
  { w with reach := w.reach.setIfInBounds (k + g.limit).toNat x }

/-- Walks on over the diagonals from `k` on with `d` edits. A point that meets the `other` walk is
returned as `meets` gives it. -/
def Grid.sweep (g : Grid α) (meets : Int → Int → Int → Option (Int × Int)) (d : Int) :
    Nat → Int → Walk → Walk × Option (Int × Int)
  | 0, _, w => (w, none)
  | fuel + 1, k, w =>
    if d - w.high < k then (w, none)
    else
      let (x, y) := g.advance w d k
      let w := g.record w k x
      if g.first.size < x then g.sweep meets d fuel (k + 2) { w with high := w.high + 2 }
      else if g.second.size < y then g.sweep meets d fuel (k + 2) { w with low := w.low + 2 }
      else match meets k x y with
        | some p => (w, some p)
        | none => g.sweep meets d fuel (k + 2) w

/-- Both walks with `d` edits and more, `fuel` times; the point where they meet. -/
def Grid.meet (g back : Grid α) : Nat → Nat → Walk → Walk → Option (Int × Int)
  | 0, _, _, _ => none
  | fuel + 1, d, w1, w2 =>
    let delta : Int := g.first.size - g.second.size
    let odd := delta % 2 ≠ 0
    let known (w : Walk) (k : Int) : Option Int :=
      let i := k + g.limit
      if i < 0 || 2 * g.limit ≤ i then none
      else
        let x := g.reached w k
        if x = -1 then none else some x
    let meets1 (k x y : Int) : Option (Int × Int) :=
      if odd then
        match known w2 (delta - k) with
        | some x2 => if g.first.size - x2 ≤ x then some (x, y) else none
        | none => none
      else none
    match g.sweep meets1 d (d + 1) (-d + w1.low) w1 with
    | (_, some p) => some p
    | (w1, none) =>
      let meets2 (k x _y : Int) : Option (Int × Int) :=
        if odd then none
        else match known w1 (delta - k) with
          | some x1 => if g.first.size - x ≤ x1 then some (x1, x1 - (delta - k)) else none
          | none => none
      match back.sweep meets2 d (d + 1) (-d + w2.low) w2 with
      | (_, some p) => some p
      | (w2, none) => g.meet back fuel (d + 1) w1 w2

/-- Where to cut two sequences; none when they have nothing in common. -/
def middle? (s t : List α) : Option (Nat × Nat) :=
  let limit := (s.length + t.length + 1) / 2
  let g : Grid α := { first := s.toArray, second := t.toArray, limit := limit }
  let back : Grid α := { g with first := s.reverse.toArray, second := t.reverse.toArray }
  let w : Walk := { reach := (Array.replicate (2 * limit) (-1)).setIfInBounds (limit + 1) 0 }
  (g.meet back limit 0 w w).map fun (x, y) => (x.toNat, y.toNat)

end ScriptLower.Diff

/-!
## Differences of texts by lines

The difference of two texts, line by line. What the texts begin and end with is common; of what is
left, a long common run in the middle is looked for first, and where there is none the texts are cut
where the walks from both ends meet.
-/

namespace ScriptLower.Diff

open ScriptLower

variable {α : Type} [BEq α]

/-- Two sequences cut around a common run. -/
structure Halves (α : Type) where
  /-- The first sequence up to the run. -/
  front1 : List α
  /-- The first sequence behind the run. -/
  back1 : List α
  /-- The second sequence up to the run. -/
  front2 : List α
  /-- The second sequence behind the run. -/
  back2 : List α
  /-- The run. -/
  run : List α

/-- The longest common run around the seed of a quarter of `long` at place `i`, if it is at least
half as long as `long`. -/
def runAround? (long short : List α) (i : Nat) : Option (Halves α) :=
  let seed := (long.drop i).take (long.length / 4)
  let runAt (j : Nat) : Nat × Nat :=
    (commonSuffix (long.take i) (short.take j), commonPrefix (long.drop i) (short.drop j))
  let longest := (List.range short.length).foldl (fun best j =>
    if seed.isPrefixOf (short.drop j) then
      let (back, front) := runAt j
      if best.2.1 + best.2.2 < back + front then (j, back, front) else best
    else best) (0, 0, 0)
  let (j, back, front) := longest
  if (back + front) * 2 < long.length then none
  else some {
    front1 := long.take (i - back), back1 := long.drop (i + front)
    front2 := short.take (j - back), back2 := short.drop (j + front)
    run := (short.take (j + front)).drop (j - back) }

/-- The same cut seen from the other sequence. -/
def Halves.swap (h : Halves α) : Halves α :=
  { front1 := h.front2, back1 := h.back2, front2 := h.front1, back2 := h.back1, run := h.run }

/-- A common run at least half as long as the longer sequence. -/
def halves? (s t : List α) : Option (Halves α) :=
  let swapped := s.length ≤ t.length
  let (long, short) := if swapped then (t, s) else (s, t)
  if long.length < 4 || short.length * 2 < long.length then none
  else
    let h1 := runAround? long short ((long.length + 3) / 4)
    let h2 := runAround? long short ((long.length + 1) / 2)
    let best := match h1, h2 with
      | some a, some b => if b.run.length < a.run.length then some a else some b
      | some a, none => some a
      | none, b => b
    if swapped then best.map Halves.swap else best

/-- The difference of two sequences, cut `fuel` times at most; every cut makes them shorter. -/
def compareFrom : Nat → List α → List α → List (Edit α)
  | 0, s, t => [⟨.removed, s⟩, ⟨.added, t⟩]
  | fuel + 1, s, t =>
    if s == t then (if s.isEmpty then [] else [⟨.common, s⟩])
    else
      let front := commonPrefix s t
      let s1 := s.drop front
      let t1 := t.drop front
      let back := commonSuffix s1 t1
      let s2 := dropLast back s1
      let t2 := dropLast back t1
      let inner := between (compareFrom fuel) s2 t2
      let head := if front = 0 then [] else [⟨.common, s.take front⟩]
      let last := if back = 0 then [] else [⟨.common, takeLast back s1⟩]
      tidy (head ++ inner ++ last)
where
  /-- The difference of two sequences that begin and end differently. -/
  between (compare : List α → List α → List (Edit α)) (s t : List α) : List (Edit α) :=
    if s.isEmpty then [⟨.added, t⟩]
    else if t.isEmpty then [⟨.removed, s⟩]
    else
      let longer := t.length < s.length
      let (long, short) := if longer then (s, t) else (t, s)
      let side : Side := if longer then .removed else .added
      match indexOf? short long with
      | some i => [⟨side, long.take i⟩, ⟨.common, short⟩, ⟨side, long.drop (i + short.length)⟩]
      | none =>
        if short.length = 1 then [⟨.removed, s⟩, ⟨.added, t⟩]
        else match halves? s t with
          | some h =>
            compare h.front1 h.front2 ++ [⟨.common, h.run⟩] ++ compare h.back1 h.back2
          | none =>
            match middle? s t with
            | some (x, y) =>
              compare (s.take x) (t.take y) ++ compare (s.drop x) (t.drop y)
            | none => [⟨.removed, s⟩, ⟨.added, t⟩]

/-- The difference of two sequences. -/
def compare (s t : List α) : List (Edit α) := compareFrom (s.length + t.length + 1) s t

/-- The lines of a text, each with its line end; a text that does not end in one has a last line
without. -/
def linesOf : Bytes → List Bytes
  | [] => []
  | b :: r =>
    if b == 10 then [b] :: linesOf r
    else match linesOf r with
      | [] => [[b]]
      | l :: rest => (b :: l) :: rest

/-- The mark in front of the lines of a side. -/
def Side.mark : Side → UInt8
  | .common => ascii ' '
  | .removed => ascii '-'
  | .added => ascii '+'

/-- The lines of a piece, each behind its mark. -/
def editText (e : Edit Bytes) : Bytes :=
  (Bytes.splitOn 10 (Bytes.trimSuffix [10] e.items.flatten)).flatMap fun l =>
    e.side.mark :: l ++ [10]

/-- The difference of two texts by lines. -/
def lineDiff (a b : Bytes) : Bytes := (compare (linesOf a) (linesOf b)).flatMap editText

end ScriptLower.Diff
