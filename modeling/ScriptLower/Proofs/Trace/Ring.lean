import ScriptLower.Trace.Tracer

/-!
# What a ring holds

The next slot walks over the slots and starts again behind the last. Before it has come round for
the first time the items held are those in front of it, afterwards also those from it on, which are
older. In both cases a ring holds the last items put in, as many as it has room for.
-/

namespace ScriptLower.Ring

variable {α : Type} {a : α} {items : List α} {r : Ring α}

/-! ## One item -/

@[simp] theorem capacity_push : (r.push a).capacity = r.capacity := by
  unfold push
  split <;> exact List.length_set

/-- The next slot is one of the slots again. -/
theorem next_push (h : r.next < r.capacity) : (r.push a).next < r.capacity := by
  unfold push
  split
  · exact Nat.zero_lt_of_lt h
  · next hlast => exact Nat.lt_of_le_of_ne h hlast

/-- An item put in is the last of those held, and takes the place of the oldest if there is no
room. -/
theorem toList_push (h : r.next < r.capacity) :
    (r.push a).toList = (if r.full then r.toList.tail else r.toList) ++ [a] := by
  obtain ⟨front, back, hslots, hfront, hset⟩ := @List.exists_of_set _ r.next a r.slots h
  generalize r.slots[r.next] = old at hslots
  have hlength : r.capacity = front.length + (back.length + 1) := by
    rw [capacity, hslots, List.length_append, List.length_cons]
  unfold push toList
  rw [hset, hslots, ← hfront]
  split
  · -- the last slot was taken: the next item goes to the first
    next hlast =>
      have hback : back = [] := List.length_eq_zero_iff.mp (by omega)
      cases r.full <;> simp [hback]
  · have hbehind : front.take (front.length + 1) = front := List.take_of_length_le (Nat.le_succ _)
    have hnone : front.drop (front.length + 1) = [] := List.drop_of_length_le (Nat.le_succ _)
    cases r.full <;> simp [List.drop_append, List.take_append, hbehind, hnone]

/-- A ring counts the items it holds. -/
theorem size_eq (h : r.next < r.capacity) : r.size = r.toList.length := by
  have hnext : (r.slots.take r.next).length = r.next := List.length_take_of_le (Nat.le_of_lt h)
  unfold size toList
  split
  · rw [List.length_append, List.length_drop, hnext]
    exact (Nat.sub_add_cancel (Nat.le_of_lt h)).symm
  · exact hnext.symm

/-! ## All items -/

/-- A ring as it is when the given items were put in. -/
structure Holds (r : Ring α) (items : List α) : Prop where
  /-- The next slot is one of the slots. -/
  next_lt : r.next < r.capacity
  /-- The last items are held. -/
  toList_eq : r.toList = items.drop (items.length - r.capacity)
  /-- Once the next slot has come round, there were as many items as there are slots. -/
  full : r.full = true → r.capacity ≤ items.length
  /-- Until then the next slot is behind the items. -/
  next_eq : r.full = false → r.next = items.length

/-- A new ring has at least one slot and holds nothing. -/
theorem holds_new [Inhabited α] (capacity : Int) : (new capacity : Ring α).Holds [] := by
  refine ⟨?_, by simp [toList, new], fun h => absurd h Bool.false_ne_true, fun _ => rfl⟩
  simp only [new, Ring.capacity, List.length_replicate, defaultCapacity]
  split <;> omega

/-- One item more is held, and of those before no more than there is room for. -/
theorem Holds.push (h : r.Holds items) (a : α) : (r.push a).Holds (items ++ [a]) := by
  have hlist := toList_push (a := a) h.next_lt
  have hlength : (items ++ [a]).length = items.length + 1 := List.length_append
  refine ⟨?_, ?_, ?_, ?_⟩
  · rw [capacity_push]
    exact next_push h.next_lt
  · rw [hlist, capacity_push, hlength, h.toList_eq]
    cases hfull : r.full with
    | true =>
      have hmany := h.full hfull
      have hsome := Nat.zero_lt_of_lt h.next_lt
      rw [if_pos rfl, List.tail_drop, Nat.sub_add_comm hmany,
        List.drop_append_of_le_length (by omega)]
    | false =>
      have hroom : items.length < r.capacity := h.next_eq hfull ▸ h.next_lt
      rw [if_neg Bool.false_ne_true, Nat.sub_eq_zero_of_le hroom,
        Nat.sub_eq_zero_of_le (Nat.le_of_lt hroom), List.drop_zero, List.drop_zero]
  · intro hfull
    rw [capacity_push, hlength]
    cases hbefore : r.full with
    | true => exact Nat.le_succ_of_le (h.full hbefore)
    | false =>
      have hnext := h.next_eq hbefore
      unfold Ring.push at hfull
      split at hfull
      · omega
      · exact absurd (hbefore.symm.trans hfull) Bool.false_ne_true
  · intro hnot
    unfold Ring.push at hnot ⊢
    split at hnot
    · exact absurd hnot.symm Bool.false_ne_true
    · next hlast => rw [if_neg hlast, hlength, h.next_eq hnot]

/-- How many slots there are does not change. -/
theorem capacity_pushAll (more : List α) : (more.foldl push r).capacity = r.capacity := by
  induction more generalizing r with
  | nil => rfl
  | cons a more ih => rw [List.foldl_cons, ih, capacity_push]

/-- All items put in are held, or the last of them if there are more than slots. -/
theorem Holds.pushAll (h : r.Holds items) (more : List α) :
    (more.foldl Ring.push r).Holds (items ++ more) := by
  induction more generalizing r items with
  | nil => rwa [List.append_nil]
  | cons a more ih =>
    rw [← List.singleton_append, ← List.append_assoc]
    exact ih (h.push a)

end ScriptLower.Ring

namespace ScriptLower.Trace.Tracer

/-! ## Events -/

variable {t : Tracer} {r : Ring Event}

/-- A tracer puts the events that its level accepts into its ring, one after the other. -/
theorem ring_emitAll (h : t.ring = some r) (es : List Event) :
    (t.emitAll es).ring = some ((es.filter t.level.accepts).foldl Ring.push r) := by
  induction es generalizing t r with
  | nil => exact h
  | cons e es ih =>
    show ((t.emit e).emitAll es).ring = _
    unfold emit
    split
    · next haccepts =>
      rw [List.filter_cons_of_pos haccepts]
      exact ih (congrArg (Option.map (·.push e)) h)
    · next hrefuses => rw [List.filter_cons_of_neg hrefuses, ih h]

/-- The ring of a tracer, after any events, holds the last of those that the level accepts, in their
order: all of them, or as many as its capacity if there are more. It counts what it holds. -/
theorem ring_holds_last_accepted (level : Level) (written : Option (List Event)) (capacity : Int)
    (es : List Event) :
    ∃ r, (emitAll ⟨level, written, some (Ring.new capacity)⟩ es).ring = some r ∧
      r.toList <:+ es.filter level.accepts ∧
      r.toList.length = min (es.filter level.accepts).length
        (if capacity ≤ 0 then 4096 else capacity.toNat) ∧
      r.size = r.toList.length := by
  let accepted := es.filter level.accepts
  have hholds := (@Ring.holds_new Event _ capacity).pushAll accepted
  have hcapacity : (accepted.foldl Ring.push (Ring.new capacity)).capacity =
      if capacity ≤ 0 then 4096 else capacity.toNat :=
    (Ring.capacity_pushAll accepted).trans List.length_replicate
  have hlist := hholds.toList_eq
  rw [List.nil_append] at hlist
  refine ⟨_, ring_emitAll rfl es, ?_, ?_, Ring.size_eq hholds.next_lt⟩
  · exact hlist ▸ List.drop_suffix _ _
  · rw [hlist, List.length_drop, hcapacity]
    exact Nat.sub_sub_eq_min _ _

end ScriptLower.Trace.Tracer
