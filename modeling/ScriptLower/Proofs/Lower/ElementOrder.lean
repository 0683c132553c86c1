import ScriptLower.Proofs.Lower.Aim
import ScriptLower.Proofs.Lower.Source
import Mathlib.Data.List.Basic

/-!
# The order in which elements evaluate

An element is made of parts: its attributes and spreads, then its children. Each is lowered once,
and the call that takes the place of the element evaluates each value once and in the order of the
parts. Only a key in front of all spreads is passed on its own, behind the other properties, where
the runtime is an automatic one. There is one place for it, so of several keys the ones before the
last, or before a key behind a spread, are evaluated nowhere.
-/

namespace ScriptLower.Lower

open ScriptLower

/-! ## Code that evaluates others -/

/-- Code that lowering writes around the values: helpers, the functions of the options, literals. -/
inductive OwnCode (o : ElementOptions) : Node → Prop
  /-- A helper. -/
  | helper (name : Bytes) (m : Nat) : OwnCode o (.marked name m)
  /-- The function that the classic runtime calls. -/
  | factory (span : Span) : OwnCode o (dotted o.factory span)
  /-- What stands for a fragment in the classic runtime. -/
  | fragment (span : Span) : OwnCode o (dotted o.fragment span)
  /-- The function that copies spreads. -/
  | copy (span : Span) : OwnCode o (dotted "Object.assign" span)
  /-- A literal. -/
  | literal (kind : TokenKind) (raw : Bytes) (span : Span) : OwnCode o (.literal kind raw span)
  /-- The undefined value. -/
  | undefined (span : Span) : OwnCode o (void0 span)
  /-- The receiver of the function around the element. -/
  | this (span : Span) : OwnCode o (.new .thisExpr span [])

/-- Kinds whose children are evaluated one after the other. -/
def evaluatesInTurn (k : NodeKind) : Bool :=
    k == .call || k == .object || k == .array || k == .spread

mutual

/-- Evaluating code evaluates some values, each once and in this order. -/
inductive Evaluates (o : ElementOptions) : Node → List Node → Prop
  /-- A value is evaluated where it stands. -/
  | value {v : Node} : Evaluates o v [v]
  /-- What is absent evaluates nothing. -/
  | absent : Evaluates o .absent []
  /-- Code that lowering writes on its own evaluates none. -/
  | own {n : Node} (h : OwnCode o n) : Evaluates o n []
  /-- Children are evaluated one after the other. -/
  | kids {k : NodeKind} {span : Span} {ns vs : List Node} (hk : evaluatesInTurn k = true)
      (h : EvaluatesAll o ns vs) : Evaluates o (.new k span ns) vs
  /-- The name of a property is not evaluated. -/
  | prop {span : Span} {key value : Node} {vs : List Node} (h : Evaluates o value vs) :
      Evaluates o (.new .objProp span [key, value]) vs

/-- Evaluating codes in turn. -/
inductive EvaluatesAll (o : ElementOptions) : List Node → List Node → Prop
  /-- No code. -/
  | nil : EvaluatesAll o [] []
  /-- One code, then the others. -/
  | cons {n : Node} {ns vs ws : List Node} (h : Evaluates o n vs) (hs : EvaluatesAll o ns ws) :
      EvaluatesAll o (n :: ns) (vs ++ ws)

end

variable {o : ElementOptions} {n v : Node} {ns ms vs ws : List Node}

theorem EvaluatesAll.one (h : Evaluates o n vs) : EvaluatesAll o [n] vs := by
  have := EvaluatesAll.cons h .nil
  rwa [List.append_nil] at this

/-- The values among some nodes, of which some may be absent. -/
abbrev present (vs : List Node) : List Node := vs.filter Node.isPresent

theorem present_append (us ws : List Node) : present (us ++ ws) = present us ++ present ws :=
  List.filter_append ..

theorem Evaluates.present (v : Node) : Evaluates o v (present [v]) := by
  cases v with
  | absent => exact .absent
  | mk => exact .value

theorem Evaluates.call {span : Span} {callee : Node} (hc : OwnCode o callee)
    (h : EvaluatesAll o ns vs) : Evaluates o (.call span callee ns) vs :=
  .kids rfl (.cons (.own hc) h)

mutual

/-- A value that is evaluated stands in the code. -/
theorem Evaluates.mem_walk : ∀ {n : Node} {vs : List Node}, Evaluates o n vs →
    ∀ v ∈ vs, v.isPresent = true → v ∈ n.walk
  | _, _, .value, v, hv, hp => by
    obtain rfl := List.mem_singleton.1 hv
    exact walk_self hp
  | _, _, .kids _ h, v, hv, hp => by
    obtain ⟨n, hn, hmem⟩ := h.mem_walk v hv hp
    exact walk_of_kid hn hmem
  | _, _, .prop h, v, hv, hp =>
    walk_of_kid (List.mem_cons_of_mem _ List.mem_cons_self) (h.mem_walk v hv hp)

/-- A value that is evaluated stands in one of the codes. -/
theorem EvaluatesAll.mem_walk : ∀ {ns vs : List Node}, EvaluatesAll o ns vs →
    ∀ v ∈ vs, v.isPresent = true → ∃ n ∈ ns, v ∈ n.walk
  | [], _, .nil, _, hv, _ => absurd hv List.not_mem_nil
  | n :: _, _, .cons h hs, v, hv, hp => by
    rcases List.mem_append.1 hv with hfirst | hrest
    · exact ⟨n, List.mem_cons_self, h.mem_walk v hfirst hp⟩
    · obtain ⟨m, hm, hmem⟩ := hs.mem_walk v hrest hp
      exact ⟨m, List.mem_cons_of_mem _ hm, hmem⟩

end

/-! ## Members of an object -/

/-- A member of an object, and what it evaluates. -/
inductive Member (o : ElementOptions) : Node → List Node → Prop
  /-- All properties of a value. -/
  | spread {span : Span} {v : Node} {vs : List Node} (h : Evaluates o v vs) :
      Member o (.new .spread span [v]) vs
  /-- A property. -/
  | prop {span : Span} {key v : Node} {vs : List Node} (h : Evaluates o v vs) :
      Member o (.new .objProp span [key, v]) vs

theorem Member.evaluates {m : Node} (h : Member o m vs) : Evaluates o m vs := by
  cases h with
  | spread h => exact .kids rfl (.one h)
  | prop h => exact .prop h

/-- Members of an object in their order, and what they evaluate. -/
inductive Members (o : ElementOptions) : List Node → List Node → Prop
  /-- No member. -/
  | nil : Members o [] []
  /-- One member, then the others. -/
  | cons {m : Node} {ms vs ws : List Node} (h : Member o m vs) (hs : Members o ms ws) :
      Members o (m :: ms) (vs ++ ws)

theorem Members.evaluates (h : Members o ms vs) : EvaluatesAll o ms vs := by
  induction h with
  | nil => exact .nil
  | cons hm _ ih => exact .cons hm.evaluates ih

theorem Members.append (h : Members o ns vs) (h' : Members o ms ws) :
    Members o (ns ++ ms) (vs ++ ws) := by
  induction h with
  | nil => exact h'
  | cons hm _ ih =>
    rw [List.append_assoc]
    exact .cons hm ih

theorem Members.one (h : Member o n vs) : Members o [n] vs := by
  have := Members.cons h .nil
  rwa [List.append_nil] at this

/-- A spread closes the group behind it. -/
theorem spreadGroups_spread {span at_ : Span} :
    spreadGroups span (.new .spread at_ [v] :: ms) =
      ([], v :: if (spreadGroups span ms).1.isEmpty then (spreadGroups span ms).2
        else .new .object span (spreadGroups span ms).1 :: (spreadGroups span ms).2) := rfl

/-- The groups between spreads hold the members in their order: first the group in front of the
first spread, then the rest. -/
theorem evaluates_spreadGroups (span : Span) (h : Members o ms vs) :
    ∃ us ws, vs = us ++ ws ∧ EvaluatesAll o (spreadGroups span ms).1 us ∧
      EvaluatesAll o (spreadGroups span ms).2 ws := by
  induction h with
  | nil => exact ⟨[], [], rfl, .nil, .nil⟩
  | @cons m ms vs ws hm _ ih =>
    obtain ⟨us', ws', rfl, hgroup, hargs⟩ := ih
    cases hm with
    | @spread mspan v vs h =>
      rw [spreadGroups_spread]
      refine ⟨[], vs ++ (us' ++ ws'), rfl, .nil, .cons h ?_⟩
      -- The group behind the spread becomes an object of its own, unless it is empty.
      cases hg : (spreadGroups span ms).1 with
      | nil =>
        rw [hg] at hgroup
        cases hgroup
        exact hargs
      | cons p ps =>
        rw [hg] at hgroup
        exact .cons (.kids rfl hgroup) hargs
    | @prop mspan key v vs h =>
      refine ⟨vs ++ us', ws', (List.append_assoc ..).symm, ?_, hargs⟩
      exact .cons (.prop h) hgroup

theorem evaluates_lowerObjectSpread {span : Span} (h : Members o ms vs) :
    Evaluates o (lowerObjectSpread span ms) vs := by
  obtain ⟨us, ws, rfl, hgroup, hargs⟩ := evaluates_spreadGroups span h
  have hfirst : Evaluates o (.new .object span (spreadGroups span ms).1) us := .kids rfl hgroup
  unfold lowerObjectSpread
  dsimp only
  cases hg : (spreadGroups span ms).1 with
  | nil =>
    rw [hg] at hfirst
    exact .call (.copy span) (.cons hfirst hargs)
  | cons p ps =>
    rw [hg] at hfirst
    exact .call (.copy span) (.cons hfirst hargs)

theorem evaluates_propsObject {c : Context} {span : Span} (h : Members o ms vs) :
    Always c (propsObject span ms) fun obj => Evaluates o obj vs := by
  refine .then fun old => .branch (fun _ => .pure ?_) fun _ => .pure ?_
  · exact evaluates_lowerObjectSpread h
  · exact .kids rfl h.evaluates

/-! ## Parts of an element -/

/-- A part of an element that has a value. -/
inductive ElementPart
  /-- An attribute. -/
  | attr (name : Bytes) (value : Node) (span : Span)
  /-- A spread among the attributes. -/
  | spread (expr : Node)
  /-- Text that counts. -/
  | text (raw : Bytes) (span : Span)
  /-- An expression among the children, or a list of children. -/
  | child (expr : Node) (isList : Bool)

namespace ElementPart

/-- Whether a part is the key of the element. -/
def isKey : ElementPart → Bool
  | attr name _ _ => name == Bytes.ofString "key"
  | _ => false

/-- Whether a part is a spread among the attributes. -/
def isSpread : ElementPart → Bool
  | spread _ => true
  | _ => false

/-- The part that an attribute is. -/
def ofAttribute (n : Node) : ElementPart :=
  if n.kind == .jsxSpreadAttr then .spread (n.kid 0)
  else .attr (n.kid 0).text (n.kid 1) n.span

/-- The part that a child is: blank text and empty braces are none. -/
def ofChild (n : Node) : Option ElementPart :=
  match n.kind with
  | .jsxText => if (ElementText.clean n.text).isEmpty then none else some (.text n.text n.span)
  | .jsxExprContainer => if (n.kid 0).isAbsent then none else some (.child (n.kid 0) false)
  | .jsxSpreadChild => some (.child (n.kid 0) true)
  | _ => some (.child n false)

/-- The lowered value of a part. -/
def value (g : Rules) : ElementPart → LowerM Node
  | attr _ v span => lowerAttrValue g v span
  | spread e => g.expr e
  | text raw span => return string (Entity.decode (ElementText.clean raw)) span
  | child e _ => g.expr e

/-- A part with its lowered value. -/
def lower (g : Rules) (p : ElementPart) : LowerM (ElementPart × Node) := return (p, ← p.value g)

/-- Whether a key stands in front of all spreads. -/
def keyInFront (ps : List ElementPart) : Bool := (ps.takeWhile fun p => !p.isSpread).any isKey

/-- Whether one of several keys has no place in the call. -/
def losesKey (r : Runtime) (ps : List ElementPart) : Bool :=
  r != .classic && keyInFront ps && 1 < ps.countP isKey

/-- The keys among some parts. -/
def keysOf (ps : List (ElementPart × Node)) : List (ElementPart × Node) :=
    ps.filter fun p => p.1.isKey

/-- The other parts. -/
def othersOf (ps : List (ElementPart × Node)) : List (ElementPart × Node) :=
    ps.filter fun p => !p.1.isKey

/-- The order in which parts are evaluated: that of the source, but an automatic runtime is passed a
key in front of all spreads behind the rest. -/
def evaluationOrder (r : Runtime) (ps : List (ElementPart × Node)) : List (ElementPart × Node) :=
  if r != .classic && keyInFront (ps.map (·.1)) then othersOf ps ++ keysOf ps else ps

end ElementPart

/-- The attributes of an element as parts. -/
def attributeParts (n : Node) : List ElementPart :=
  if n.kind == .jsxFragment then [] else (n.kid 1).kids.map .ofAttribute

/-- The children of an element or a fragment as parts. -/
def childParts (n : Node) : List ElementPart :=
  (if n.kind == .jsxFragment then n.kid 0 else n.kid 2).kids.filterMap ElementPart.ofChild

/-- The parts of an element or a fragment, in the order of the source. -/
def elementParts (n : Node) : List ElementPart := attributeParts n ++ childParts n

/-- The lowered tag of an element, and its parts with their lowered values. Lowering goes to the
children before it goes to the attributes. -/
def lowerParts (g : Rules) (n : Node) : LowerM (Node × List (ElementPart × Node)) := do
  let tag ← if n.kind == .jsxFragment then pure .absent else lowerTag g (n.kid 0)
  let children ← (childParts n).mapM (ElementPart.lower g)
  let attributes ← (attributeParts n).mapM (ElementPart.lower g)
  return (tag, attributes ++ children)

/-! ## Children -/

/-- The child that a part becomes. -/
def ElementPart.toChild : ElementPart × Node → Child
  | (child _ isList, v) => { value := v, spread := isList }
  | (_, v) => { value := v }

theorem lowerChild_eq {g : Rules} : lowerChild g n = match ElementPart.ofChild n with
    | none => pure []
    | some p => do return [ElementPart.toChild (← p.lower g)] := by
  unfold lowerChild
  split
  case h_1 hk =>
    rw [ElementPart.ofChild, hk]
    dsimp only
    split
    · rfl
    · rfl
  case h_2 hk =>
    rw [ElementPart.ofChild, hk]
    dsimp only
    split
    · rfl
    · simp [ElementPart.lower, ElementPart.value, ElementPart.toChild]
  case h_3 hk =>
    rw [ElementPart.ofChild, hk]
    simp [ElementPart.lower, ElementPart.value, ElementPart.toChild]
  case h_4 htext hbraces hspread =>
    have hpart : ElementPart.ofChild n = some (.child n false) := by
      unfold ElementPart.ofChild
      split
      · exact absurd ‹_› htext
      · exact absurd ‹_› hbraces
      · exact absurd ‹_› hspread
      · rfl
    rw [hpart]
    simp [ElementPart.lower, ElementPart.value, ElementPart.toChild]

/-- Lowering children one after the other lowers the parts that they are. -/
theorem mapM_lowerChild {g : Rules} (kids : List Node) :
    (List.flatten <$> kids.mapM (lowerChild g)) =
      (List.map ElementPart.toChild) <$> (kids.filterMap ElementPart.ofChild).mapM
        (ElementPart.lower g) := by
  induction kids with
  | nil => rfl
  | cons k kids ih =>
    have hsplit : (List.flatten <$> (k :: kids).mapM (lowerChild g)) = (do
        let cs ← lowerChild g k
        return cs ++ (← List.flatten <$> kids.mapM (lowerChild g))) := by
      simp
    rw [hsplit, ih, lowerChild_eq]
    cases hk : ElementPart.ofChild k with
    | none => simp [hk]
    | some p => simp [hk]

theorem ElementPart.toChild_value (p : ElementPart × Node) :
    (ElementPart.toChild p).value = p.2 := by
  unfold ElementPart.toChild
  split <;> rfl

/-- The children as arguments evaluate their values. -/
theorem evaluates_arguments (parts : List (ElementPart × Node)) :
    EvaluatesAll o ((parts.map ElementPart.toChild).map Child.argument)
    (present (parts.map (·.2))) := by
  induction parts with
  | nil => exact .nil
  | cons p parts ih =>
    have hone : Evaluates o (ElementPart.toChild p).argument (present [p.2]) := by
      unfold Child.argument
      rw [ElementPart.toChild_value]
      split
      · exact .kids rfl (.one (.present p.2))
      · exact .present p.2
    have hall := EvaluatesAll.cons hone ih
    rwa [← present_append] at hall

/-! ## Attributes -/

/-- Properties after some parts were added. -/
inductive Collected (o : ElementOptions) (splitKey : Bool) :
    Props → List (ElementPart × Node) → Props → Prop
  /-- No part is added. -/
  | nil {p : Props} : Collected o splitKey p [] p
  /-- A key takes the place of the key. -/
  | key {p p' : Props} {part : ElementPart} {v : Node} {vs : List (ElementPart × Node)}
      (hfront : (splitKey && part.isKey && !p.afterSpread) = true)
      (h : Collected o splitKey { p with key := v } vs p') :
        Collected o splitKey p ((part, v) :: vs) p'
  /-- Another part becomes a member. -/
  | member {p p' : Props} {part : ElementPart} {v m : Node} {vs : List (ElementPart × Node)}
      (hplace : (splitKey && part.isKey && !p.afterSpread) = false) (hm : Member o m (present [v]))
      (h : Collected o splitKey { p with
        members := p.members ++ [m]
        afterSpread := p.afterSpread || part.isSpread
        keyBehindSpread := p.keyBehindSpread || (splitKey && part.isKey) } vs p') :
      Collected o splitKey p ((part, v) :: vs) p'

/-- Adding an attribute lowers the part that it is, and adds it with its value. -/
theorem collected_add {g : Rules} {c : Context} {splitKey : Bool} {a : Node}
    {p p' : Props} {s : State}
    {vs : List (ElementPart × Node)}
    (h : Collected o splitKey (Props.add g splitKey p a c s).1 vs p') :
    (Props.add g splitKey p a c s).2 = ((ElementPart.ofAttribute a).lower g c s).2 ∧
      Collected o splitKey p (((ElementPart.ofAttribute a).lower g c s).1 :: vs) p' := by
  unfold Props.add at h ⊢
  unfold ElementPart.ofAttribute
  split at h
  case isTrue hk =>
    rw [if_pos hk, if_pos hk]
    have hm : Member o (.new .spread a.span [(g.expr (a.kid 0) c s).1])
        (present [(g.expr (a.kid 0) c s).1]) := .spread (.present _)
    refine ⟨rfl, .member (by simp [ElementPart.isKey]) hm ?_⟩
    simp only [ElementPart.isKey, ElementPart.isSpread, Bool.or_true, Bool.and_false, Bool.or_false]
    exact h
  case isFalse hk =>
    rw [if_neg hk, if_neg hk]
    by_cases hfront : (splitKey && (a.kid 0).text == Bytes.ofString "key" && !p.afterSpread) = true
    · simp only [hfront, if_true] at h ⊢
      exact ⟨rfl, .key hfront h⟩
    · simp only [hfront, Bool.false_eq_true, if_false] at h ⊢
      have hm : Member o
          (.new .objProp a.span
            [if isPlainName (a.kid 0).text then .ident (a.kid 0).text (a.kid 0).span
            else string (a.kid 0).text (a.kid 0).span, (lowerAttrValue g (a.kid 1) a.span c s).1])
          (present [(lowerAttrValue g (a.kid 1) a.span c s).1]) := .prop (.present _)
      refine ⟨rfl, .member (Bool.eq_false_iff.2 hfront) hm ?_⟩
      simp only [ElementPart.isKey, ElementPart.isSpread, Bool.or_false]
      exact h

theorem collected_foldlM {g : Rules} {c : Context} {splitKey : Bool} (attrs : List Node) (p : Props)
    (s : State) :
    (attrs.foldlM (Props.add g splitKey) p c s).2 =
        ((attrs.map ElementPart.ofAttribute).mapM (ElementPart.lower g) c s).2 ∧
      Collected o splitKey p ((attrs.map ElementPart.ofAttribute).mapM (ElementPart.lower g) c s).1
        (attrs.foldlM (Props.add g splitKey) p c s).1 := by
  induction attrs generalizing p s with
  | nil => exact ⟨rfl, .nil⟩
  | cons a attrs ih =>
    rw [List.foldlM_cons, List.map_cons, List.mapM_cons]
    obtain ⟨hstate, hcollected⟩ :=
      ih (Props.add g splitKey p a c s).1 (Props.add g splitKey p a c s).2
    obtain ⟨hfirst, hall⟩ := collected_add hcollected
    rw [hfirst] at hstate hall
    refine ⟨?_, ?_⟩
    · show (attrs.foldlM (Props.add g splitKey) (Props.add g splitKey p a c s).1 c
        (Props.add g splitKey p a c s).2).2 = _
      rw [hfirst, hstate]
      rfl
    · show Collected o splitKey p _ (attrs.foldlM (Props.add g splitKey)
        (Props.add g splitKey p a c s).1 c (Props.add g splitKey p a c s).2).1
      rw [hfirst]
      exact hall

/-- Where no key stands in front of the spreads, or keys are not passed on their own, every part
becomes a member, in order. -/
theorem Collected.members {splitKey : Bool} {p p' : Props} {vs : List (ElementPart × Node)}
    (h : Collected o splitKey p vs p')
    (hfront :
      splitKey = true → p.afterSpread = false → ElementPart.keyInFront (vs.map (·.1)) = false) :
    ∃ ms, p'.members = p.members ++ ms ∧ Members o ms (present (vs.map (·.2))) ∧
    p'.key = p.key := by
  induction h with
  | nil => exact ⟨[], (List.append_nil _).symm, .nil, rfl⟩
  | @key p p' part v vs hkey _ _ =>
    -- Such a key would stand in front.
    simp only [Bool.and_eq_true, Bool.not_eq_true'] at hkey
    obtain ⟨⟨hsplit, hkey⟩, hafter⟩ := hkey
    have hnot := hfront hsplit hafter
    have hspread : part.isSpread = false := by
      cases part <;> first | rfl | cases hkey
    simp [ElementPart.keyInFront, hspread, hkey] at hnot
  | @member p p' part v m vs _ hm _ ih =>
    obtain ⟨ms, hms, hall, hkey⟩ := ih (fun hsplit hafter => by
      simp only [Bool.or_eq_false_iff] at hafter
      have hnot := hfront hsplit hafter.1
      simp only [ElementPart.keyInFront, List.map_cons, List.takeWhile_cons, hafter.2] at hnot
      simp only [Bool.not_false, if_true, List.any_cons, Bool.or_eq_false_iff] at hnot
      exact hnot.2)
    refine ⟨m :: ms, by rw [hms, List.append_assoc]; rfl, ?_, hkey⟩
    have hcons := Members.cons hm hall
    rwa [← present_append] at hcons

theorem Collected.keyBehindSpread {splitKey : Bool} {p p' : Props} {vs : List (ElementPart × Node)}
    (h : Collected o splitKey p vs p') (hkeys : ∀ x ∈ vs, x.1.isKey = false) :
    p'.keyBehindSpread = p.keyBehindSpread := by
  induction h with
  | nil => rfl
  | key hkey _ _ =>
    simp [hkeys _ List.mem_cons_self] at hkey
  | member _ _ _ ih =>
    rw [ih fun x hx => hkeys x (List.mem_cons_of_mem _ hx)]
    simp [hkeys _ List.mem_cons_self]

section

open ElementPart

variable {part : ElementPart} {parts : List (ElementPart × Node)}

theorem keysOf_cons (h : part.isKey = true) :
    keysOf ((part, v) :: parts) = (part, v) :: keysOf parts :=
  List.filter_cons_of_pos h

theorem keysOf_cons_other (h : part.isKey = false) : keysOf ((part, v) :: parts) = keysOf parts :=
  List.filter_cons_of_neg (Bool.eq_false_iff.1 h)

theorem othersOf_cons (h : part.isKey = false) :
    othersOf ((part, v) :: parts) = (part, v) :: othersOf parts :=
  List.filter_cons_of_pos (by rw [h]; rfl)

theorem othersOf_cons_key (h : part.isKey = true) :
    othersOf ((part, v) :: parts) = othersOf parts :=
  List.filter_cons_of_neg (by rw [h]; exact Bool.false_ne_true)

theorem othersOf_of_noKey (h : ∀ x ∈ parts, x.1.isKey = false) : othersOf parts = parts :=
  List.filter_eq_self.2 fun x hx => by rw [h x hx]; rfl

theorem keyInFront_of_noKey (h : ∀ x ∈ parts, x.1.isKey = false) :
    keyInFront (parts.map (·.1)) = false := by
  refine List.any_eq_false.2 fun p hp => ?_
  obtain ⟨x, hx, rfl⟩ := List.mem_map.1 (List.takeWhile_subset _ hp)
  exact Bool.eq_false_iff.1 (h x hx)

/-- The only key, in front of the spreads, takes the place of the key; the other parts become
members. -/
theorem Collected.onlyKey {p p' : Props} (h : Collected o true p parts p')
    (hfront : keyInFront (parts.map (·.1)) = true) (hone : (keysOf parts).length ≤ 1)
    (hafter : p.afterSpread = false) :
    ∃ ms, p'.members = p.members ++ ms ∧ Members o ms (present ((othersOf parts).map (·.2))) ∧
      [p'.key] = (keysOf parts).map (·.2) ∧ p'.keyBehindSpread = p.keyBehindSpread := by
  induction h with
  | nil => cases hfront
  | @key p p' part v vs hkey h _ =>
    have hkey : part.isKey = true := by
      simp only [Bool.true_and, Bool.and_eq_true] at hkey
      exact hkey.1
    rw [keysOf_cons hkey] at hone ⊢
    rw [othersOf_cons_key hkey]
    -- Behind the only key there is none, so everything else is a member.
    have hrest : keysOf vs = [] :=
      List.length_eq_zero_iff.1 (Nat.le_zero.1 (Nat.le_of_succ_le_succ hone))
    have hnone : ∀ x ∈ vs, x.1.isKey = false := fun x hx =>
      Bool.eq_false_iff.2 (List.filter_eq_nil_iff.1 hrest x hx)
    obtain ⟨ms, hms, hall, hsame⟩ := h.members fun _ _ => keyInFront_of_noKey hnone
    refine ⟨ms, hms, ?_, ?_, h.keyBehindSpread hnone⟩
    · rwa [othersOf_of_noKey hnone]
    · rw [hrest, hsame]
      rfl
  | @member p p' part v m vs hplace hm h ih =>
    have hnot : part.isKey = false := by simpa [hafter] using hplace
    have hspread : part.isSpread = false := by
      cases hs : part.isSpread with
      | false => rfl
      | true => simp [keyInFront, hs] at hfront
    have hfront' : keyInFront (vs.map (·.1)) = true := by
      simpa [keyInFront, hspread, hnot] using hfront
    rw [keysOf_cons_other hnot] at hone ⊢
    rw [othersOf_cons hnot]
    obtain ⟨ms, hms, hall, hkey, hbehind⟩ := ih hfront' hone (by simp [hafter, hspread])
    refine ⟨m :: ms, by rw [hms, List.append_assoc]; rfl, ?_, hkey, by simpa [hnot] using hbehind⟩
    have hcons := Members.cons hm hall
    rwa [← present_append] at hcons

/-! ## Calls -/

section

variable {g : Rules} {c : Context} {span : Span} {tag : Node} {attrs : List Node}
  {children : List (ElementPart × Node)}

/-- One of two steps with the same promise, and then the same in either case. -/
theorem Always.eitherOf {α β : Type} {p : Prop} [Decidable p] {m m' : LowerM α} {f : α → LowerM β}
    {R : α → Prop} {Q : β → Prop} (yes : p → Always c m R) (no : ¬p → Always c m' R)
    (h : ∀ a, R a → Always c (f a) Q) : Always c (if p then m >>= f else m' >>= f) Q :=
  .branch (fun hp => (yes hp).bind h) fun hp => (no hp).bind h

theorem run_bind {α β : Type} {m : LowerM α} {f : α → LowerM β} {s : State} :
    (m >>= f) c s = f (m c s).1 c (m c s).2 := rfl

theorem useHelper_own (h : Helper) : Always c (useHelper h) (OwnCode o) := by
  refine .then fun s => ?_
  split
  · exact fun s => .helper _ _
  · exact .then fun m => .then fun _ => fun s => .helper _ _

theorem evaluates_sourceObject : Always c (sourceObject span) fun obj => Evaluates o obj [] := by
  refine .then fun context => .pure (.kids rfl ?_)
  have hprop (name : String) (kind : TokenKind) (raw : Bytes) :
      Evaluates o (generatedProp span name (.literal kind raw span)) [] :=
        .prop (.own (.literal ..))
  exact .cons (hprop ..) (.cons (hprop ..) (.cons (hprop ..) .nil))

/-- The property that holds the children evaluates their values: several as a list, one as it is. -/
theorem members_childrenProp (span : Span) (children : List (ElementPart × Node)) :
    let kids := children.map ElementPart.toChild
    Members o (childrenProp span (1 < kids.length || kids.any (·.spread)) kids)
      (present (children.map (·.2))) := by
  intro kids
  show Members o (childrenProp span (decide (1 < (children.map ElementPart.toChild).length) ||
    (children.map ElementPart.toChild).any (·.spread)) (children.map ElementPart.toChild)) _
  cases hseveral : decide (1 < (children.map ElementPart.toChild).length)
      || (children.map ElementPart.toChild).any (·.spread) with
  | true => exact .one (.prop (.kids rfl (evaluates_arguments children)))
  | false =>
    match children, hseveral with
    | [], _ => exact .nil
    | [x], _ =>
      have hvalue : Evaluates o (ElementPart.toChild x).value (present [x.2]) := by
        rw [ElementPart.toChild_value]
        exact .present x.2
      exact .one (.prop hvalue)
    | _ :: _ :: _, h => cases h

theorem present_parts (attributes : List (ElementPart × Node)) :
    present (tag :: (attributes ++ children).map (·.2)) =
      present [tag] ++ (present (attributes.map (·.2)) ++ present (children.map (·.2))) := by
  rw [← present_append, ← present_append, ← List.map_append]
  rfl

/-- A classic call evaluates the tag, the attributes and the children in the order of the source. -/
theorem evaluates_classicCall {s : State} {attributes : List (ElementPart × Node)}
    (hattrs : ((attrs.map ElementPart.ofAttribute).mapM (ElementPart.lower g) c s).1 = attributes) :
    Evaluates c.elements (classicCall g span tag attrs (children.map ElementPart.toChild) c s).1
      (present (tag :: (attributes ++ children).map (·.2))) := by
  have htag : Evaluates c.elements (if tag.isAbsent then dotted c.elements.fragment span else tag)
      (present [tag]) := by
    cases tag with
    | absent => exact .own (.fragment span)
    | mk => exact .value
  rw [present_parts]
  -- An element without attributes is given no object at all.
  cases attrs with
  | nil =>
    obtain rfl : attributes = [] := hattrs.symm
    exact .call (.factory span)
      (.cons htag (.cons (.own (.literal ..)) (evaluates_arguments children)))
  | cons a attrs =>
    have hcollected : Collected c.elements false {} _ (lowerProps g (a :: attrs) false c s).1 :=
      (collected_foldlM (a :: attrs) {} s).2
    obtain ⟨ms, hms, hmembers, -⟩ := hcollected.members fun h => Bool.noConfusion h
    rw [hattrs] at hmembers
    have hobject :
        Evaluates c.elements (propsObject span ((lowerProps g (a :: attrs) false) c s).1.members c
        ((lowerProps g (a :: attrs) false) c s).2).1 (present (attributes.map (·.2))) := by
      rw [show (lowerProps g (a :: attrs) false c s).1.members = ms from hms]
      exact evaluates_propsObject hmembers _
    exact .call (.factory span) (.cons htag (.cons hobject (evaluates_arguments children)))

/-- A call of the automatic runtime evaluates the tag, the properties, the children and then the
key, which is none where it stands among the properties. -/
theorem evaluates_automaticCall {s : State} {us ks : List Node}
    (hmembers : Members c.elements (lowerProps g attrs true c s).1.members us)
    (hkey : present [(lowerProps g attrs true c s).1.key] = ks)
    (hbehind : (lowerProps g attrs true c s).1.keyBehindSpread = true → ks = []) :
    Evaluates c.elements (automaticCall g span tag attrs (children.map ElementPart.toChild) c s).1
      (present [tag] ++ (us ++ (present (children.map (·.2)) ++ ks))) := by
  unfold automaticCall
  rw [run_bind]
  generalize (lowerProps g attrs true c s).1 = props at hmembers hkey hbehind ⊢
  generalize (lowerProps g attrs true c s).2 = s'
  suffices h : Always c _ fun r =>
      Evaluates c.elements r (present [tag] ++ (us ++ (present (children.map (·.2)) ++ ks)))
        from h s'
  refine .eitherOf (fun ht => ?_) (fun ht => .pure ?_)
    fun tag' (htag' : Evaluates c.elements tag' (present [tag])) => ?_
  · cases tag with
    | absent => exact (useHelper_own _).mono fun _ h => .own h
    | mk => cases ht
  · exact .present tag
  refine .branch (fun hb => ?_) fun _ => ?_
  · -- The key stands among the properties, and the children are arguments.
    obtain rfl := hbehind hb
    refine (evaluates_propsObject hmembers).bind fun obj hobj => ?_
    refine (useHelper_own _).bind fun callee (hcallee : OwnCode c.elements callee) => .pure ?_
    rw [List.append_nil]
    exact .call hcallee (.cons htag' (.cons hobj (evaluates_arguments children)))
  · have hall := hmembers.append (members_childrenProp span children)
    refine (evaluates_propsObject hall).bind fun obj hobj => ?_
    rw [← List.append_assoc us]
    refine Always.read.bind fun context hcontext => .branch (fun _ => ?_) fun _ => ?_
    · -- In development the key has a place even where there is none.
      have hthird :
          Evaluates c.elements (if props.key.isAbsent then void0 span else props.key) ks := by
        subst hkey
        cases hk : props.key with
        | absent => exact .own (.undefined span)
        | mk => exact .value
      refine evaluates_sourceObject.bind fun source (hsource : Evaluates c.elements source []) => ?_
      have hself : OwnCode c.elements (if context.inDerivedConstructor then void0 span
          else .new .thisExpr span []) := by
        split
        · exact .undefined span
        · exact .this span
      refine (useHelper_own _).bind fun callee (hcallee : OwnCode c.elements callee) => .pure ?_
      have hkeyword (kw : TokenKind) : Evaluates c.elements (.keyword kw span) [] :=
        .own (.literal ..)
      refine .call hcallee (.cons htag' (.cons hobj ?_))
      rw [← List.append_nil ks]
      exact .cons hthird (.cons (hkeyword _) (.cons hsource (.cons (.own hself) .nil)))
    · refine (useHelper_own _).bind fun callee (hcallee : OwnCode c.elements callee) => .pure ?_
      have hthird :
          EvaluatesAll c.elements (if props.key.isAbsent then [] else [props.key]) ks := by
        subst hkey
        cases hk : props.key with
        | absent => exact .nil
        | mk => exact .one .value
      exact .call hcallee (.cons htag' (.cons hobj hthird))

end

/-! ## Elements -/

section

open ElementPart

variable {g : Rules} {c : Context} {s : State} {ps : List ElementPart} {kids attrs : List Node}

/-- Lowered parts are the parts, in order. -/
theorem mapM_lower_parts : ((ps.mapM (ElementPart.lower g)) c s).1.map (·.1) = ps := by
  induction ps generalizing s with
  | nil => rfl
  | cons p ps ih =>
    rw [List.mapM_cons]
    exact congrArg (p :: ·) ih

theorem child_not_key {p : ElementPart} (hp : p ∈ kids.filterMap ofChild) : p.isKey = false := by
  obtain ⟨k, -, hk⟩ := List.mem_filterMap.1 hp
  unfold ofChild at hk
  split at hk
  · split at hk
    · cases hk
    · cases hk
      rfl
  · split at hk
    · cases hk
    · cases hk
      rfl
  · cases hk
    rfl
  · cases hk
    rfl

/-- What stands behind the attributes has no key. -/
theorem keyInFront_append {qs : List ElementPart} (h : ∀ q ∈ qs, q.isKey = false) :
    keyInFront (ps ++ qs) = keyInFront ps := by
  induction ps with
  | nil =>
    refine List.any_eq_false.2 fun q hq => ?_
    exact Bool.eq_false_iff.1 (h q (List.takeWhile_subset _ hq))
  | cons p ps ih =>
    rw [List.cons_append, keyInFront, keyInFront, List.takeWhile_cons, List.takeWhile_cons]
    cases p.isSpread with
    | true => rfl
    | false =>
      simp only [Bool.not_false, if_true, List.any_cons]
      exact congrArg (p.isKey || ·) ih

/-- Lowering children gives those that the lowered parts become. -/
theorem lowerChild_run (kids : List Node) :
    ((kids.mapM (lowerChild g)) c s).1.flatten =
        (((kids.filterMap ofChild).mapM (ElementPart.lower g)) c s).1.map toChild ∧
      ((kids.mapM (lowerChild g)) c s).2 =
        (((kids.filterMap ofChild).mapM (ElementPart.lower g)) c s).2 :=
  Prod.mk.inj (congrFun (congrFun (mapM_lowerChild kids) c) s)

/-- What is put together from lowered parts evaluates them. -/
theorem evaluates_parts (span : Span) (tag : Node) (attrs kids : List Node)
    (hlost :
      losesKey c.elements.runtime (attrs.map ofAttribute ++ kids.filterMap ofChild) = false) :
    Evaluates c.elements ((do
        let ks ← kids.mapM (lowerChild g)
        if (← read).elements.runtime == .classic then classicCall g span tag attrs ks.flatten
        else automaticCall g span tag attrs ks.flatten : LowerM Node) c s).1
      (present (tag :: (evaluationOrder c.elements.runtime ((do
        let children ← (kids.filterMap ofChild).mapM (ElementPart.lower g)
        let attributes ← (attrs.map ofAttribute).mapM (ElementPart.lower g)
        return attributes ++ children : LowerM (List (ElementPart × Node))) c s).1).map
          (·.2))) := by
  simp only [run_bind, (lowerChild_run kids).1, (lowerChild_run kids).2]
  have hparts : (((kids.filterMap ofChild).mapM (ElementPart.lower g)) c s).1.map (·.1) =
      kids.filterMap ofChild := mapM_lower_parts
  generalize (((kids.filterMap ofChild).mapM (ElementPart.lower g)) c s).1 = children at hparts ⊢
  generalize (((kids.filterMap ofChild).mapM (ElementPart.lower g)) c s).2 = s'
  obtain ⟨attributes, hattrs⟩ :
      ∃ as, (((attrs.map ofAttribute).mapM (ElementPart.lower g)) c s').1 = as := ⟨_, rfl⟩
  have hattrParts : attributes.map (·.1) = attrs.map ofAttribute := hattrs ▸ mapM_lower_parts
  show Evaluates c.elements ((if c.elements.runtime == .classic then _ else _ : LowerM Node) c s').1
    (present (tag :: (evaluationOrder c.elements.runtime
      ((((attrs.map ofAttribute).mapM (ElementPart.lower g)) c s').1 ++ children)).map (·.2)))
  have hnoKey : ∀ x ∈ children, x.1.isKey = false := fun x hx =>
    child_not_key (hparts ▸ List.mem_map_of_mem hx)
  have hfront :
      keyInFront ((attributes ++ children).map (·.1)) = keyInFront (attributes.map (·.1)) := by
    rw [List.map_append, keyInFront_append]
    intro q hq
    obtain ⟨x, hx, rfl⟩ := List.mem_map.1 hq
    exact hnoKey x hx
  have hcollected : Collected c.elements true {} attributes (lowerProps g attrs true c s').1 :=
    hattrs ▸ (collected_foldlM attrs {} s').2
  rw [hattrs, evaluationOrder, hfront]
  cases hclassic : c.elements.runtime == .classic with
  | true =>
    rw [if_pos rfl, if_neg (by simp [bne, hclassic])]
    exact evaluates_classicCall hattrs
  | false =>
    rw [if_neg Bool.false_ne_true, bne, hclassic, Bool.not_false, Bool.true_and]
    cases hkey : keyInFront (attributes.map (·.1)) with
    | false =>
      obtain ⟨ms, hms, hmembers, hnone⟩ := hcollected.members fun _ _ => hkey
      rw [if_neg Bool.false_ne_true, present_parts]
      have hall : Members c.elements (lowerProps g attrs true c s').1.members
          (present (attributes.map (·.2))) := hms.symm ▸ hmembers
      have hcall :
          Evaluates c.elements (automaticCall g span tag attrs (children.map toChild) c s').1 _ :=
        evaluates_automaticCall hall (by rw [hnone]; rfl) fun _ => rfl
      rwa [List.append_nil] at hcall
    | true =>
      -- There is one key at most, and it stands among the attributes.
      have hone : (keysOf attributes).length ≤ 1 := by
        rw [losesKey, ← hattrParts, ← hparts, ← List.map_append, hfront, hkey, bne, hclassic,
          List.map_append, List.countP_append] at hlost
        have hcount : (attributes.map (·.1)).countP isKey = (keysOf attributes).length := by
          rw [List.countP_map, List.countP_eq_length_filter]
          rfl
        simp only [Bool.not_false, Bool.true_and, decide_eq_false_iff_not, Nat.not_lt] at hlost
        omega
      obtain ⟨ms, hms, hmembers, hlast, hbehind⟩ := hcollected.onlyKey hkey hone rfl
      have hkeys : keysOf (attributes ++ children) = keysOf attributes := by
        rw [keysOf, List.filter_append, List.filter_eq_nil_iff.2 fun x hx =>
          Bool.eq_false_iff.1 (hnoKey x hx),
          List.append_nil]
        rfl
      have hothers : othersOf (attributes ++ children) = othersOf attributes ++ children := by
        rw [othersOf, List.filter_append, ← othersOf, ← othersOf, othersOf_of_noKey hnoKey]
      rw [if_pos rfl, hkeys, hothers, List.append_assoc]
      have hall : Members c.elements (lowerProps g attrs true c s').1.members
          (present ((othersOf attributes).map (·.2))) := hms.symm ▸ hmembers
      have hcall :
          Evaluates c.elements (automaticCall g span tag attrs (children.map toChild) c s').1 _ :=
        evaluates_automaticCall hall rfl fun hb => by
          rw [hbehind] at hb
          cases hb
      rw [hlast] at hcall
      rw [present_parts, List.map_append, present_append]
      exact hcall

/-- The call that takes the place of an element evaluates the tag, and then every attribute, spread,
text and child once, in the order of the source but for a key in front of all spreads, unless there
is another key that has no place in the call. -/
theorem element_evaluates_parts (n : Node)
    (h : losesKey c.elements.runtime (elementParts n) = false) :
    Evaluates c.elements (lowerElement g n c s).1 (present ((lowerParts g n c s).1.1 ::
      (evaluationOrder c.elements.runtime (lowerParts g n c s).1.2).map (·.2))) := by
  unfold elementParts attributeParts childParts at h
  unfold lowerElement lowerParts attributeParts childParts
  cases hf : n.kind == .jsxFragment with
  | true =>
    rw [hf] at h
    exact evaluates_parts n.span .absent [] (n.kid 0).kids h
  | false =>
    rw [hf] at h
    exact evaluates_parts n.span _ (n.kid 1).kids (n.kid 2).kids h

/-- A key in front of a spread, and children. -/
theorem keyed_element_evaluates_parts :
    let name (text : Bytes) : Node := .newText .jsxName {} text
    let braces (text : Bytes) : Node := .new .jsxExprContainer {} [.ident text {}]
    let n : Node := .new .jsxElement {} [name "a",
      .new .jsxAttrs {} [.new .jsxAttr {} [name "key", braces "f"],
        .new .jsxSpreadAttr {} [.ident "b" {}], .new .jsxAttr {} [name "c", braces "d"]],
      .new .jsxChildren {} [.newText .jsxText {} " \n e", braces "g"]]
    losesKey .automatic (elementParts n) = false ∧
      ∃ values, values.map Node.text = ["\"a\"", "b", "d", "\"e\"", "g", "f"].map Bytes.ofString ∧
        Evaluates {} (lowerElement (rules 1) n {} {}).1 values := by
  intro name braces n
  have hlost : losesKey .automatic (elementParts n) = false := by decide
  have hall : Evaluates ({} : Context).elements (lowerElement (rules 1) n {} {}).1 _ :=
    element_evaluates_parts n hlost
  exact ⟨hlost, _, by decide, hall⟩

/-- Of two keys the call evaluates one. -/
theorem first_key_not_evaluated :
    let name (text : Bytes) : Node := .newText .jsxName {} text
    let braces (text : Bytes) : Node := .new .jsxExprContainer {} [.ident text {}]
    let n : Node := .new .jsxElement {} [name "a",
      .new .jsxAttrs {} [.new .jsxAttr {} [name "key", braces "f"],
        .new .jsxAttr {} [name "key", braces "g"]], .new .jsxChildren {} []]
    let values := present ((lowerParts (rules 1) n {} {}).1.1 ::
      (evaluationOrder .automatic (lowerParts (rules 1) n {} {}).1.2).map (·.2))
    values.map Node.text = ["\"a\"", "f", "g"].map Bytes.ofString ∧
      ¬ Evaluates {} (lowerElement (rules 1) n {} {}).1 values := by
  intro name braces n values
  have htexts : values.map Node.text = ["\"a\"", "f", "g"].map Bytes.ofString := by decide
  refine ⟨htexts, fun h => ?_⟩
  have hf : Bytes.ofString "f" ∈ values.map Node.text := by
    rw [htexts]
    decide
  obtain ⟨v, hv, hvtext⟩ := List.mem_map.1 hf
  have hwalk : Bytes.ofString "f" ∈ (lowerElement (rules 1) n {} {}).1.walk.map Node.text :=
    List.mem_map.2 ⟨v, h.mem_walk v hv (List.mem_filter.1 hv).2, hvtext⟩
  exact absurd hwalk (by decide)

end

end

end ScriptLower.Lower
