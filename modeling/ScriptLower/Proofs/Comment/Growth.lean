import Mathlib.Data.List.Count
import Mathlib.Data.List.Nodup
import ScriptLower.Comment.Table

/-!
# Recorded comments stay

Recording comments adds them behind those already at the position and leaves every other position
alone, so a comment that is in the table stays there while a file is read.

A table has one entry for a position. Moving the comments of one statement in front of those of
another changes where they hang and nothing else, and dropping those of a statement keeps the legal
ones. So the legal comments of a table are the same, each as often as before, behind any number of
such steps; and whatever is done to a table, each comment is in one place: held, dropped or taken.
-/

namespace ScriptLower

namespace CommentMap

theorem at?_cons (e : Nat × List Comment) (m : CommentMap) (p : Nat) :
    at? (e :: m) p = if e.1 = p then some e.2 else at? m p := by
  unfold at?
  rw [List.find?_cons]
  by_cases h : e.1 = p
  · simp [h]
  · simp [h, beq_false_of_ne h]

theorem at?_append (m m' : CommentMap) (p : Nat) : at? (m ++ m') p = (m.at? p).or (m'.at? p) := by
  simp only [at?, List.find?_append]
  cases List.find? (fun x => x.1 == p) m <;> rfl

theorem at?_replace (m : CommentMap) (pos : Nat) (cs : List Comment) (p : Nat) :
    at? (m.map fun e => if e.1 == pos then (pos, cs) else e) p =
      if p = pos then (m.at? p).map fun _ => cs else m.at? p := by
  induction m with
  | nil => simp [at?]
  | cons e m ih =>
    rw [List.map_cons, at?_cons, at?_cons, ih]
    by_cases he : e.1 = pos
    · by_cases hp : p = pos
      · simp [he, hp]
      · simp [he, hp, show pos ≠ p from fun h => hp h.symm]
    · by_cases hp : e.1 = p
      · simp [hp, show p ≠ pos from hp ▸ he]
      · simp [he, hp]

/-- Setting the comments of a position changes no other position. -/
theorem at?_set (m : CommentMap) (pos : Nat) (cs : List Comment) (p : Nat) :
    (m.set pos cs).at? p = if p = pos then some cs else m.at? p := by
  unfold set
  split
  · rename_i h
    rw [at?_replace]
    split
    · rename_i hp
      obtain ⟨e, he, hep⟩ := List.any_eq_true.1 h
      have hsome : (m.find? (·.1 == p)).isSome = true :=
        List.find?_isSome.2 ⟨e, he, by rw [hp]; exact hep⟩
      obtain ⟨x, hx⟩ := Option.isSome_iff_exists.1 hsome
      simp [at?, hx]
    · rfl
  · rename_i h
    have hnone : m.at? pos = none := by
      simp only [at?, Option.map_eq_none_iff, List.find?_eq_none]
      intro e he hp
      exact h (List.any_eq_true.2 ⟨e, he, hp⟩)
    rw [at?_append, at?_cons]
    by_cases hp : p = pos
    · simp [hp, hnone]
    · simp [hp, show pos ≠ p from fun h => hp h.symm, at?]

/-! ## One entry for a position -/

/-- No position has two entries. -/
def Keyed (m : CommentMap) : Prop := (m.map (·.1)).Nodup

section

variable {m : CommentMap} {e : Nat × List Comment} {pos p : Nat} {cs : List Comment}

theorem keyed_cons : Keyed (e :: m) ↔ (∀ x ∈ m, x.1 ≠ e.1) ∧ Keyed m := by
  rw [Keyed, List.map_cons, List.nodup_cons, Keyed, ← List.forall_mem_map (P := (· ≠ e.1))]
  exact and_congr_left fun _ => ⟨fun h x hx he => h (he ▸ hx), fun h he => h _ he rfl⟩

theorem keyed_nil : Keyed [] := List.nodup_nil

theorem Keyed.filter (h : m.Keyed) (f : Nat × List Comment → Bool) : Keyed (m.filter f) :=
  h.sublist (List.filter_sublist.map _)

theorem Keyed.erase (h : m.Keyed) (pos : Nat) : (m.erase pos).Keyed := h.filter _

theorem erase_of_ne (h : ∀ x ∈ m, x.1 ≠ pos) : m.erase pos = m :=
  List.filter_eq_self.2 fun x hx => by simpa using h x hx

theorem erase_of_none (h : m.at? pos = none) : m.erase pos = m :=
  erase_of_ne (by simpa [at?] using h)

theorem all_cons : all (e :: m) = e.2 ++ all m := rfl

theorem at?_erase (m : CommentMap) (pos p : Nat) :
    (m.erase pos).at? p = if p = pos then none else m.at? p := by
  induction m with
  | nil => simp [at?, erase]
  | cons e m ih =>
    by_cases he : e.1 = pos
    · rw [CommentMap.erase, List.filter_cons_of_neg (by simpa using he),
        ← CommentMap.erase, ih, at?_cons]
      by_cases hp : p = pos
      · simp [hp]
      · simp [hp, he, Ne.symm hp]
    · rw [CommentMap.erase, List.filter_cons_of_pos (by simpa using he),
        ← CommentMap.erase, at?_cons,
        at?_cons, ih]
      by_cases hp : e.1 = p
      · simp [hp, hp ▸ he]
      · simp [hp]

/-- What a map holds is what it holds at a position, and the rest. -/
theorem Keyed.all_perm (h : m.Keyed) (pos : Nat) :
    m.all.Perm ((m.at? pos).getD [] ++ (m.erase pos).all) := by
  induction m with
  | nil => exact .nil
  | cons e m ih =>
    obtain ⟨hne, hm⟩ := keyed_cons.1 h
    by_cases he : e.1 = pos
    · subst he
      have herase : CommentMap.erase (e :: m) e.1 = m := by
        rw [CommentMap.erase, List.filter_cons_of_neg (by simp)]
        exact erase_of_ne hne
      rw [at?_cons, if_pos rfl, herase]
      exact .refl _
    · have herase : CommentMap.erase (e :: m) pos = e :: CommentMap.erase m pos := by
        rw [CommentMap.erase, List.filter_cons_of_pos (by simpa using he), CommentMap.erase]
      rw [at?_cons, if_neg he, herase, all_cons, all_cons]
      refine ((ih hm).append_left e.2).trans ?_
      rw [← List.append_assoc, ← List.append_assoc]
      exact List.perm_append_comm.append_right _

theorem erase_replace (m : CommentMap) (pos : Nat) (cs : List Comment) :
    erase (m.map fun e => if e.1 == pos then (pos, cs) else e) pos = m.erase pos := by
  induction m with
  | nil => rfl
  | cons e m ih =>
    rw [erase, erase] at ih
    by_cases he : e.1 = pos <;> simpa [erase, he] using ih

/-- What is set at a position does not matter to the others. -/
theorem erase_set (m : CommentMap) (pos : Nat) (cs : List Comment) :
    (m.set pos cs).erase pos = m.erase pos := by
  unfold set
  split
  · exact erase_replace m pos cs
  · simp [erase]

theorem Keyed.set (h : m.Keyed) (pos : Nat) (cs : List Comment) : (m.set pos cs).Keyed := by
  unfold CommentMap.set
  split
  · have hkeys : (m.map fun e => if e.1 == pos then (pos, cs) else e).map (·.1) = m.map (·.1) := by
      rw [List.map_map]
      refine List.map_congr_left fun e _ => ?_
      by_cases he : e.1 = pos <;> simp [he]
    exact (congrArg List.Nodup hkeys).mpr h
  · rename_i hnone
    have hnew : pos ∉ m.map (·.1) := fun hpos => by
      obtain ⟨e, he, hep⟩ := List.mem_map.1 hpos
      exact hnone (List.any_eq_true.2 ⟨e, he, beq_iff_eq.2 hep⟩)
    rw [Keyed, List.map_append, List.map_singleton, ← List.concat_eq_append]
    exact List.Nodup.concat hnew h

theorem Keyed.at?_of_mem (h : m.Keyed) (he : e ∈ m) : m.at? e.1 = some e.2 := by
  induction m with
  | nil => exact absurd he List.not_mem_nil
  | cons x m ih =>
    obtain ⟨hne, hm⟩ := keyed_cons.1 h
    rw [at?_cons]
    rcases List.mem_cons.1 he with rfl | he
    · exact if_pos rfl
    · rw [if_neg fun hx => hne e he hx.symm, ih hm he]

/-- What a map holds is what it holds at the positions. -/
theorem Keyed.mem_all (h : m.Keyed) (c : Comment) : c ∈ m.all ↔ ∃ pos, c ∈ (m.at? pos).getD [] := by
  refine ⟨fun hc => ?_, fun ⟨pos, hc⟩ => (h.all_perm pos).mem_iff.2 (List.mem_append_left _ hc)⟩
  obtain ⟨e, he, hc⟩ := List.mem_flatMap.1 hc
  refine ⟨e.1, ?_⟩
  rwa [h.at?_of_mem he]

theorem Keyed.all_set_perm (h : m.Keyed) (pos : Nat) (cs : List Comment) :
    (m.set pos cs).all.Perm (cs ++ (m.erase pos).all) := by
  have hall := (h.set pos cs).all_perm pos
  rwa [at?_set, if_pos rfl, Option.getD_some, erase_set] at hall

end

end CommentMap

namespace CommentTable

/-- The leading comments recorded at a position. -/
def leadingAt (t : CommentTable) (pos : Nat) : List Comment := (t.leading.at? pos).getD []

/-- Every leading comment of one table is in the other, at the same position. -/
def Sub (a b : CommentTable) : Prop := ∀ pos, ∀ c ∈ a.leadingAt pos, c ∈ b.leadingAt pos

theorem Sub.refl (a : CommentTable) : a.Sub a := fun _ _ h => h

theorem Sub.trans {a b c : CommentTable} (h : a.Sub b) (h' : b.Sub c) : a.Sub c :=
  fun pos x hx => h' pos x (h pos x hx)

/-- Recording adds exactly the comments among the trivia, at one position. -/
theorem leadingAt_addLeading (t : CommentTable) (pos : Nat) (ts : List Trivia) (hpos : pos ≠ 0)
    (p : Nat) :
    (t.addLeading pos ts).leadingAt p =
      if p = pos then t.leadingAt pos ++ ofTrivia ts else t.leadingAt p := by
  unfold leadingAt addLeading addTo
  by_cases hc : (ofTrivia ts).isEmpty = true
  · have hnil : ofTrivia ts = [] := List.isEmpty_iff.1 hc
    by_cases hp : p = pos <;> simp [hnil, hp]
  · simp only [hpos, decide_false, Bool.false_or, if_neg hc, CommentMap.at?_set]
    split <;> simp

theorem sub_addLeading (t : CommentTable) (pos : Nat) (ts : List Trivia) :
    t.Sub (t.addLeading pos ts) := by
  intro p c hc
  by_cases hpos : pos = 0
  · simpa [addLeading, addTo, hpos] using hc
  · rw [leadingAt_addLeading t pos ts hpos]
    split
    · rename_i hp
      exact List.mem_append_left _ (hp ▸ hc)
    · exact hc

theorem sub_addDangling (t : CommentTable) (pos : Nat) (ts : List Trivia) :
    t.Sub (t.addDangling pos ts) := fun _ _ h => h

/-! ## What is held -/

/-- Neither map has two entries for a position. -/
structure Keyed (t : CommentTable) : Prop where
  leading : t.leading.Keyed
  dangling : t.dangling.Keyed

theorem keyed_empty : Keyed {} := ⟨CommentMap.keyed_nil, CommentMap.keyed_nil⟩

theorem keyed_addTo {m : CommentMap} (h : m.Keyed) (pos : Nat) (ts : List Trivia) :
    (addTo m pos ts).Keyed := by
  unfold addTo
  dsimp only
  split
  · exact h
  · exact h.set _ _

theorem Keyed.addLeading {t : CommentTable} (h : t.Keyed) (pos : Nat) (ts : List Trivia) :
    (t.addLeading pos ts).Keyed := ⟨keyed_addTo h.leading pos ts, h.dangling⟩

theorem Keyed.addDangling {t : CommentTable} (h : t.Keyed) (pos : Nat) (ts : List Trivia) :
    (t.addDangling pos ts).Keyed := ⟨h.leading, keyed_addTo h.dangling pos ts⟩

/-- All comments held, wherever they hang. -/
def held (t : CommentTable) : List Comment := t.leading.all ++ t.dangling.all

/-- The second table holds the legal comments of the first, those in front of statements perhaps at
other positions, and what dangles where it was. -/
structure Saves (t u : CommentTable) : Prop where
  keyed : u.leading.Keyed
  legal : (u.leading.all.filter (·.legal)).Perm (t.leading.all.filter (·.legal))
  dangling : u.dangling = t.dangling

namespace Saves

variable {t u v : CommentTable}

theorem refl (h : t.leading.Keyed) : t.Saves t := ⟨h, .refl _, rfl⟩

theorem trans (h : t.Saves u) (h' : u.Saves v) : t.Saves v :=
  ⟨h'.keyed, h'.legal.trans h.legal, h'.dangling.trans h.dangling⟩

/-- The legal comments are the same, each as often as before. -/
theorem held_legal (h : t.Saves u) : (u.held.filter (·.legal)).Perm (t.held.filter (·.legal)) := by
  rw [held, held, List.filter_append, List.filter_append, h.dangling]
  exact h.legal.append_right _

end Saves

/-- Moving comments changes where they hang and nothing else, when they are moved to some
position. -/
theorem all_move_perm {t : CommentTable} (h : t.leading.Keyed) (src : Nat) {dst : Nat}
    (hdst : dst ≠ 0) :
    (t.move src dst).leading.Keyed ∧ (t.move src dst).leading.all.Perm t.leading.all := by
  unfold move
  simp only [if_neg hdst]
  split
  · exact ⟨h, .refl _⟩
  · split
    · exact ⟨h, .refl _⟩
    · rename_i cs hcs
      have herase := h.erase src
      refine ⟨herase.set _ _, ?_⟩
      have hall := h.all_perm src
      rw [hcs] at hall
      refine (herase.all_set_perm dst _).trans (.trans ?_ hall.symm)
      rw [List.append_assoc]
      exact (herase.all_perm dst).symm.append_left cs

/-- Dropping the comments of a position takes away those that need not survive. -/
theorem all_drop_perm {t : CommentTable} (h : t.leading.Keyed) (pos : Nat) :
    (t.drop pos).leading.Keyed ∧
      t.leading.all.Perm ((t.drop pos).leading.all ++ (t.leadingAt pos).filter (!survives ·)) := by
  have hall := h.all_perm pos
  unfold drop
  split
  · rename_i hnone
    rw [leadingAt, hnone]
    exact ⟨h, .of_eq (List.append_nil _).symm⟩
  · rename_i cs hcs
    rw [hcs, Option.getD_some] at hall
    have hsplit := (List.filter_append_perm survives cs).symm.append_right (t.leading.erase pos).all
    rw [leadingAt, hcs, Option.getD_some]
    split
    · rename_i hnone
      refine ⟨h.erase pos, hall.trans (hsplit.trans ?_)⟩
      rw [hnone, List.nil_append]
      exact List.perm_append_comm
    · refine ⟨h.set _ _, hall.trans (hsplit.trans ?_)⟩
      rw [List.append_assoc]
      refine (List.perm_append_comm.append_left _).trans ?_
      rw [← List.append_assoc]
      exact (h.all_set_perm _ _).symm.append_right _

theorem dangling_move (t : CommentTable) (src dst : Nat) :
    (t.move src dst).dangling = t.dangling := by
  unfold move
  split
  · rfl
  · split
    · rfl
    · dsimp only
      split <;> rfl

theorem dangling_drop (t : CommentTable) (pos : Nat) : (t.drop pos).dangling = t.dangling := by
  unfold drop
  split
  · rfl
  · split <;> rfl

/-- Moving comments loses none, when they are moved to some position. -/
theorem saves_move {t : CommentTable} (h : t.leading.Keyed) (src : Nat) {dst : Nat}
    (hdst : dst ≠ 0) :
    t.Saves (t.move src dst) := by
  obtain ⟨hkeyed, hall⟩ := all_move_perm h src hdst
  exact ⟨hkeyed, hall.filter _, dangling_move t src dst⟩

/-- Dropping comments keeps the legal ones. -/
theorem saves_drop {t : CommentTable} (h : t.leading.Keyed) (pos : Nat) : t.Saves (t.drop pos) := by
  obtain ⟨hkeyed, hall⟩ := all_drop_perm h pos
  have hnone : ((t.leadingAt pos).filter (!survives ·)).filter (·.legal) = [] := by
    rw [List.filter_filter, List.filter_eq_nil_iff]
    intro c _
    cases hc : c.legal <;> simp [survives, hc]
  have hlegal := hall.filter (·.legal)
  rw [List.filter_append, hnone, List.append_nil] at hlegal
  exact ⟨hkeyed, hlegal.symm, dangling_drop t pos⟩

/-! ## Where a comment goes

A comment that was recorded is held until it is taken or dropped, and then it is gone. A ledger
writes down what becomes of each: what was recorded, what each taking gave, and what the table no
longer held when comments were dropped.
-/

/-- The comments before the closing brace at a position. -/
def danglingAt (t : CommentTable) (pos : Nat) : List Comment := (t.dangling.at? pos).getD []

theorem Keyed.mem_held {t : CommentTable} (h : t.Keyed) (c : Comment) :
    c ∈ t.held ↔ ∃ pos, c ∈ t.leadingAt pos ∨ c ∈ t.danglingAt pos := by
  rw [held, List.mem_append, h.leading.mem_all, h.dangling.mem_all, ← exists_or]
  rfl

theorem size_eq (t : CommentTable) : t.size = t.held.length := List.length_append.symm

/-- What is hung in front of the comments at a position was in front of it before, and in that
order. -/
theorem leadingAt_move (t : CommentTable) {src dst : Nat} (hdst : dst ≠ 0)
    (hne : src ≠ dst) (pos : Nat) :
    (t.move src dst).leadingAt pos =
      if pos = dst then t.leadingAt src ++ t.leadingAt dst
      else if pos = src then [] else t.leadingAt pos := by
  unfold move
  rw [if_neg hne]
  simp only [leadingAt]
  split
  · rename_i hnone
    rw [hnone]
    by_cases hd : pos = dst
    · simp [hd]
    · by_cases hs : pos = src
      · simp [hs, hne, hnone]
      · simp [hd, hs]
  · rename_i cs hcs
    rw [if_neg hdst, hcs]
    simp only [CommentMap.at?_set, CommentMap.at?_erase]
    by_cases hd : pos = dst
    · simp [hd, Ne.symm hne]
    · by_cases hs : pos = src
      · simp [hs, hne]
      · simp [hd, hs]

/-- The comments that are recorded: none at no position. -/
def recorded (pos : Nat) (ts : List Trivia) : List Comment := if pos = 0 then [] else ofTrivia ts

theorem all_addTo_perm {m : CommentMap} (h : m.Keyed) (pos : Nat) (ts : List Trivia) :
    (addTo m pos ts).all.Perm (m.all ++ recorded pos ts) := by
  unfold addTo recorded
  dsimp only
  by_cases hpos : pos = 0
  · simp [hpos]
  · by_cases hnone : (ofTrivia ts).isEmpty
    · simp [List.isEmpty_iff.1 hnone]
    · simp only [hpos, hnone, decide_false, Bool.or_self, Bool.false_eq_true, if_false]
      refine (h.all_set_perm pos _).trans ?_
      rw [List.append_assoc]
      refine (List.perm_append_comm.append_left _).trans ?_
      rw [← List.append_assoc]
      exact (h.all_perm pos).symm.append_right _

theorem mem_all_addTo {m : CommentMap} (h : m.Keyed) {pos : Nat} {ts : List Trivia} {c : Comment}
    (hc : c ∈ (addTo m pos ts).all) : c ∈ m.all ∨ c ∈ ofTrivia ts := by
  rcases List.mem_append.1 ((all_addTo_perm h pos ts).mem_iff.1 hc) with hold | hnew
  · exact .inl hold
  · rw [recorded] at hnew
    split at hnew
    · cases hnew
    · exact .inr hnew

/-- A comment that is held behind recording was held before, or is among the trivia. -/
theorem Keyed.mem_held_addLeading {t : CommentTable} (h : t.Keyed) {pos : Nat} {ts : List Trivia}
    {c : Comment} (hc : c ∈ (t.addLeading pos ts).held) : c ∈ t.held ∨ c ∈ ofTrivia ts := by
  rcases List.mem_append.1 hc with hlead | hdang
  · exact (mem_all_addTo h.leading hlead).imp_left (List.mem_append_left _)
  · exact .inl (List.mem_append_right _ hdang)

theorem Keyed.mem_held_addDangling {t : CommentTable} (h : t.Keyed) {pos : Nat} {ts : List Trivia}
    {c : Comment} (hc : c ∈ (t.addDangling pos ts).held) : c ∈ t.held ∨ c ∈ ofTrivia ts := by
  rcases List.mem_append.1 hc with hlead | hdang
  · exact .inl (List.mem_append_left _ hlead)
  · exact (mem_all_addTo h.dangling hdang).imp_left (List.mem_append_right _)

/-- Something that is done to a table. -/
inductive Act
  /-- Recording the comments before a statement. -/
  | addLeading (pos : Nat) (ts : List Trivia)
  /-- Recording the comments before a closing brace. -/
  | addDangling (pos : Nat) (ts : List Trivia)
  /-- Hanging the comments of one statement in front of those of another. -/
  | move (src dst : Nat)
  /-- Dropping the comments of a statement. -/
  | drop (pos : Nat)
  /-- Taking the comments before a statement. -/
  | takeLeading (pos : Nat)
  /-- Taking the comments before a closing brace. -/
  | takeDangling (pos : Nat)

/-- Whether comments are moved to some position, if they are moved. -/
def Act.isSound : Act → Bool
  | .move _ dst => dst != 0
  | _ => true

/-- A table, and what became of the comments that were recorded in it. -/
structure Ledger where
  /-- The table. -/
  table : CommentTable := {}
  /-- What was recorded. -/
  added : List Comment := []
  /-- What was dropped. -/
  dropped : List Comment := []
  /-- What each taking gave. -/
  taken : List (List Comment) := []

namespace Ledger

/-- The ledger when something was done. What is dropped is what the table no longer holds. -/
def act (l : Ledger) : Act → Ledger
  | .addLeading pos ts =>
    { l with table := l.table.addLeading pos ts, added := l.added ++ recorded pos ts }
  | .addDangling pos ts =>
    { l with table := l.table.addDangling pos ts, added := l.added ++ recorded pos ts }
  | .move src dst => { l with table := l.table.move src dst }
  | .drop pos =>
    let rest := l.table.drop pos
    { l with table := rest, dropped := l.dropped ++ l.table.held.diff rest.held }
  | .takeLeading pos =>
    let (cs, rest) := l.table.takeLeading pos
    { l with table := rest, taken := l.taken ++ [cs] }
  | .takeDangling pos =>
    let (cs, rest) := l.table.takeDangling pos
    { l with table := rest, taken := l.taken ++ [cs] }

/-- Where comments are: in the table, dropped, or given by one of the takings. -/
def places (l : Ledger) : List (List Comment) := l.table.held :: l.dropped :: l.taken

/-- A ledger in which nothing is lost or doubled. -/
structure Balanced (l : Ledger) : Prop where
  /-- No position of the table has two entries. -/
  keyed : l.table.Keyed
  /-- What was recorded is in one of the places. -/
  perm : l.places.flatten.Perm l.added
  /-- What was dropped need not survive. -/
  dropped : ∀ c ∈ l.dropped, survives c = false

variable {l l' : Ledger}

/-- What a table gains was recorded, and what it loses is in another place. -/
theorem Balanced.of_count (h : l.Balanced) (new gone : List Comment) (hkeyed : l'.table.Keyed)
    (hadded : l'.added = l.added ++ new)
    (hheld : ∀ c, l'.table.held.count c + gone.count c = l.table.held.count c + new.count c)
    (hgone : ∀ c, l'.dropped.count c + l'.taken.flatten.count c =
      l.dropped.count c + l.taken.flatten.count c + gone.count c)
    (hdropped : ∀ c ∈ l'.dropped, survives c = false) : l'.Balanced := by
  refine ⟨hkeyed, List.perm_iff_count.2 fun c => ?_, hdropped⟩
  have hbefore := h.perm.count_eq c
  have hheld := hheld c
  have hgone := hgone c
  simp only [places, List.flatten_cons, List.count_append, hadded] at *
  omega

/-- Whatever is done keeps the balance. -/
theorem Balanced.act (h : l.Balanced) {a : Act} (ha : a.isSound = true) : (l.act a).Balanced := by
  cases a with
  | addLeading pos ts =>
    refine h.of_count _ [] (h.keyed.addLeading pos ts) rfl (fun c => ?_) (fun _ => rfl) h.dropped
    have hadd := (all_addTo_perm h.keyed.leading pos ts).count_eq c
    simp only [Ledger.act, CommentTable.addLeading, held, List.count_append,
      List.count_nil] at hadd ⊢
    omega
  | addDangling pos ts =>
    refine h.of_count _ [] (h.keyed.addDangling pos ts) rfl (fun c => ?_) (fun _ => rfl) h.dropped
    have hadd := (all_addTo_perm h.keyed.dangling pos ts).count_eq c
    simp only [Ledger.act, CommentTable.addDangling, held, List.count_append,
      List.count_nil] at hadd ⊢
    omega
  | move src dst =>
    obtain ⟨hkeyed, hall⟩ := all_move_perm h.keyed.leading src (bne_iff_ne.1 ha)
    have hsame := dangling_move l.table src dst
    refine h.of_count [] [] ⟨hkeyed, hsame ▸ h.keyed.dangling⟩ (List.append_nil _).symm
      (fun c => ?_)
      (fun _ => rfl) h.dropped
    simp only [Ledger.act, held, List.count_append, hsame, hall.count_eq c]
  | drop pos =>
    obtain ⟨hkeyed, hall⟩ := all_drop_perm h.keyed.leading pos
    have hsame := dangling_drop l.table pos
    have hheld (c : Comment) : l.table.held.count c =
        (l.table.drop pos).held.count c +
          ((l.table.leadingAt pos).filter (!survives ·)).count c := by
      have hall := hall.count_eq c
      simp only [held, List.count_append, hsame] at hall ⊢
      omega
    have hgone (c : Comment) : (l.table.held.diff (l.table.drop pos).held).count c =
        ((l.table.leadingAt pos).filter (!survives ·)).count c := by
      rw [List.count_diff, hheld c, Nat.add_sub_cancel_left]
    refine h.of_count [] ((l.table.leadingAt pos).filter (!survives ·))
      ⟨hkeyed, hsame ▸ h.keyed.dangling⟩
      (List.append_nil _).symm (fun c => (hheld c).symm) (fun c => ?_) ?_
    · simp only [Ledger.act, List.count_append, hgone c]
      omega
    · refine List.forall_mem_append.2 ⟨h.dropped, fun c hc => ?_⟩
      have hmem := List.count_pos_iff.1 (hgone c ▸ List.count_pos_iff.2 hc)
      simpa using (List.mem_filter.1 hmem).2
  | takeLeading pos =>
    refine h.of_count [] (l.table.leadingAt pos) ⟨h.keyed.leading.erase pos, h.keyed.dangling⟩
      (List.append_nil _).symm (fun c => ?_) (fun c => ?_) h.dropped
    · have hall := (h.keyed.leading.all_perm pos).count_eq c
      simp only [Ledger.act, CommentTable.takeLeading, held, leadingAt, List.count_append,
        List.count_nil] at hall ⊢
      omega
    · simp [Ledger.act, CommentTable.takeLeading, leadingAt, Nat.add_assoc]
  | takeDangling pos =>
    refine h.of_count [] (l.table.danglingAt pos) ⟨h.keyed.leading, h.keyed.dangling.erase pos⟩
      (List.append_nil _).symm (fun c => ?_) (fun c => ?_) h.dropped
    · have hall := (h.keyed.dangling.all_perm pos).count_eq c
      simp only [Ledger.act, CommentTable.takeDangling, held, danglingAt, List.count_append,
        List.count_nil] at hall ⊢
      omega
    · simp [Ledger.act, CommentTable.takeDangling, danglingAt, Nat.add_assoc]

theorem Balanced.run (h : l.Balanced) {acts : List Act} (hacts : ∀ a ∈ acts, a.isSound = true) :
    (acts.foldl Ledger.act l).Balanced := by
  induction acts generalizing l with
  | nil => exact h
  | cons a acts ih =>
    obtain ⟨ha, hrest⟩ := List.forall_mem_cons.1 hacts
    exact ih (h.act ha) hrest

/-- Whatever is done to a new table, as long as comments are moved to some position only: each
comment that was recorded is in exactly one place, as often as it was recorded. It is held, at some
position, or it was dropped and need not survive, or one of the takings gave it. Comments that are
moved come in front of those they are moved to, and both keep their order. The table counts what it
holds. -/
theorem comments_in_one_place {acts : List Act} (hacts : ∀ a ∈ acts, a.isSound = true) :
    let l := acts.foldl Ledger.act {}
    l.places.flatten.Perm l.added ∧
      (l.added.Nodup → l.places.Pairwise List.Disjoint) ∧
      (∀ c, c ∈ l.table.held ↔ ∃ pos, c ∈ l.table.leadingAt pos ∨ c ∈ l.table.danglingAt pos) ∧
      (∀ c ∈ l.dropped, c.legal = false ∧ c.hashbang = false) ∧
      (∀ src dst, dst ≠ 0 → ∀ pos, (l.table.move src dst).leadingAt pos =
        if src = dst then l.table.leadingAt pos
        else if pos = dst then l.table.leadingAt src ++ l.table.leadingAt dst
        else if pos = src then [] else l.table.leadingAt pos) ∧
      l.table.size = l.table.held.length := by
  intro l
  have hnew : Balanced {} := ⟨keyed_empty, .nil, List.forall_mem_nil _⟩
  have hl : l.Balanced := hnew.run hacts
  refine ⟨hl.perm, fun hnodup => ?_, hl.keyed.mem_held, fun c hc => ?_, fun src dst hdst pos => ?_,
    l.table.size_eq⟩
  · exact (List.nodup_flatten.1 (hl.perm.nodup_iff.2 hnodup)).2
  · simpa [survives] using hl.dropped c hc
  · split
    · next hsame => rw [move, if_pos hsame]
    · next hne => exact leadingAt_move l.table hdst hne pos

/-- Two comments before a statement that goes: the legal one is taken with the next statement. -/
theorem legal_comment_in_one_place :
    let plain : Trivia := { kind := .lineComment, span := default, text := "// a" }
    let legal : Trivia := { kind := .blockComment, span := default, text := "/*! b */" }
    let l :=
      [Act.addLeading 1 [plain, legal], .drop 1, .move 1 2, .takeLeading 2].foldl Ledger.act {}
    l.dropped = ofTrivia [plain] ∧ l.taken = [ofTrivia [legal]] ∧ l.places.flatten.Perm l.added :=
  ⟨by decide, by decide, (comments_in_one_place (by decide)).1⟩

end Ledger

end CommentTable

end ScriptLower
