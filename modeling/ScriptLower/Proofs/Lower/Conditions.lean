import ScriptLower.Lower.Program

/-!
# Conditions that are matched

The statement behind a test is dropped when the test is one of the conditions from outside. Two
expressions are compared part by part, through parentheses and with strings by value: their kinds,
operators, texts and children, and three of their modifiers. `compared?` is the tree of what is
compared, so that comparing is an equation between such trees (`same_iff`).

What is not compared is `unread`: all other modifiers, decorators, types and secondary lists, and
how the string of an attribute is written, where a backslash stands for itself. Two expressions that
agree in that and are matched are one expression, up to parentheses and the spelling of strings,
which is what `form` says.
-/

namespace ScriptLower.Node

open ScriptLower

/-! ## What is compared -/

/-- A string literal. -/
def isString (h : Head) : Bool := h.kind == .literal && h.op == .stringLit

/-- The modifiers that are compared. -/
def comparedFlags (f : Flags) : Flags :=
  { optional := f.optional, computed := f.computed, prefixed := f.prefixed }

/-- What is compared of a head; none for a string without a value. -/
def comparedHead? (h : Head) : Option Head :=
  (if isString h then StringLiteral.unquote h.text else some h.text).map fun text =>
    { kind := h.kind, op := h.op, flags := comparedFlags h.flags, text := text }

mutual

/-- What is compared of an expression; none when it holds a string without a value. -/
def compared? : Node → Option Node
  | absent => some absent
  | mk h ks _ _ _ _ =>
    if h.kind == .paren then comparedFirst? ks
    else
      match comparedHead? h, comparedAll? ks with
      | some h', some ks' => some (mk h' ks' [] absent absent absent)
      | _, _ => none

/-- What is compared of the first of some expressions. -/
def comparedFirst? : List Node → Option Node
  | [] => some absent
  | n :: _ => compared? n

/-- What is compared of several expressions. -/
def comparedAll? : List Node → Option (List Node)
  | [] => some []
  | n :: r =>
    match compared? n, comparedAll? r with
    | some n', some r' => some (n' :: r')
    | _, _ => none

end

mutual

/-- Every string literal of an expression has a value. -/
def decodes : Node → Bool
  | absent => true
  | mk h ks _ _ _ _ => (!isString h || (StringLiteral.unquote h.text).isSome) && decodesAll ks

/-- Every string literal of several expressions has a value. -/
def decodesAll : List Node → Bool
  | [] => true
  | n :: r => decodes n && decodesAll r

end

section

variable {h k : Head} {ks js ds es : List Node} {t a x t' a' x' n m o : Node}

theorem sameShape_iff {f g : Flags} : sameShape f g = true ↔ comparedFlags f = comparedFlags g := by
  simp only [sameShape, comparedFlags, Bool.and_eq_true, beq_iff_eq, Flags.mk.injEq,
    and_true, true_and,
    and_assoc]
  exact and_left_comm

theorem sameHead_iff :
    sameHead h k = true ↔ ∃ r, comparedHead? h = some r ∧ comparedHead? k = some r := by
  have htexts {u v : Option Bytes} (hu : comparedHead? h = u.map fun text =>
        { kind := h.kind, op := h.op, flags := comparedFlags h.flags, text := text })
      (hv : comparedHead? k = v.map fun text =>
        { kind := k.kind, op := k.op, flags := comparedFlags k.flags, text := text }) :
      (∃ r, comparedHead? h = some r ∧ comparedHead? k = some r) ↔
        h.kind = k.kind ∧ h.op = k.op ∧ comparedFlags h.flags = comparedFlags k.flags ∧
          ∃ w, u = some w ∧ v = some w := by
    rw [hu, hv]
    constructor
    · rintro ⟨r, hr, hr'⟩
      obtain ⟨w, rfl, rfl⟩ := Option.map_eq_some_iff.1 hr
      obtain ⟨w', rfl, heq⟩ := Option.map_eq_some_iff.1 hr'
      simp only [Head.mk.injEq] at heq
      obtain ⟨hkind, hflags, hop, -, rfl, -⟩ := heq
      exact ⟨hkind.symm, hop.symm, hflags.symm, w', rfl, rfl⟩
    · rintro ⟨hkind, hop, hflags, w, rfl, rfl⟩
      rw [hkind, hop, hflags]
      exact ⟨_, rfl, rfl⟩
  rw [htexts rfl rfl, sameHead, Bool.and_eq_true, Bool.and_eq_true, Bool.and_eq_true, beq_iff_eq,
    beq_iff_eq, sameShape_iff, and_assoc, and_assoc]
  refine and_congr_right fun hkind => and_congr_right fun hop => and_congr_right fun _ => ?_
  have hstring : isString k = isString h := by rw [isString, isString, hkind, hop]
  rw [hstring]
  unfold isString
  split
  · split
    · rename_i hu hv
      rw [hu, hv, beq_iff_eq]
      constructor
      · rintro rfl
        exact ⟨_, rfl, rfl⟩
      · rintro ⟨w, hw, hw'⟩
        exact Option.some.inj (hw.trans hw'.symm)
    · rename_i hnone
      refine iff_of_false Bool.false_ne_true ?_
      rintro ⟨w, hw, hw'⟩
      exact hnone _ _ hw hw'
  · rw [beq_iff_eq]
    constructor
    · intro h
      exact ⟨_, rfl, by rw [h]⟩
    · rintro ⟨w, hw, hw'⟩
      exact Option.some.inj (hw.trans hw'.symm)

/-! ### Parentheses -/

mutual

/-- An expression out of its parentheses is in none. -/
theorem kind_unparen : ∀ n : Node, (n.unparen).kind ≠ .paren
  | .absent => by
    rw [unparen]
    exact fun h => by cases h
  | .mk h ks ds t a x => by
    rw [unparen]
    split
    · exact kind_unparenFirst ks
    · rename_i hk
      simpa [kind, head] using hk

theorem kind_unparenFirst : ∀ ks : List Node, (unparenFirst ks).kind ≠ .paren
  | [] => by
    rw [unparenFirst]
    exact fun h => by cases h
  | n :: _ => by
    rw [unparenFirst]
    exact kind_unparen n

end

mutual

theorem compared?_unparen : ∀ n : Node, n.unparen.compared? = n.compared?
  | .absent => by rw [unparen]
  | .mk h ks ds t a x => by
    rw [unparen]
    split
    · rename_i hk
      rw [compared?, if_pos hk]
      exact comparedFirst?_unparen ks
    · rfl

theorem comparedFirst?_unparen : ∀ ks : List Node, (unparenFirst ks).compared? = comparedFirst? ks
  | [] => by
    rw [unparenFirst, compared?, comparedFirst?]
  | n :: _ => by
    rw [unparenFirst, comparedFirst?]
    exact compared?_unparen n

end

/-- What is compared of an expression in no parentheses. -/
theorem compared?_mk (hk : (h.kind == .paren) = false) : (mk h ks ds t a x).compared? = some o ↔
    ∃ r os, comparedHead? h = some r ∧ comparedAll? ks = some os ∧
      o = mk r os [] absent absent absent := by
  rw [compared?, hk, if_neg Bool.false_ne_true]
  constructor
  · intro ho
    split at ho
    · rename_i r os hr hos
      exact ⟨r, os, hr, hos, (Option.some.inj ho).symm⟩
    · cases ho
  · rintro ⟨r, os, hr, hos, rfl⟩
    rw [hr, hos]

theorem comparedAll?_cons {os : List Node} : comparedAll? (n :: ks) = some os ↔
    ∃ o os', n.compared? = some o ∧ comparedAll? ks = some os' ∧ os = o :: os' := by
  rw [comparedAll?]
  constructor
  · intro ho
    split at ho
    · rename_i o os' ho' hos
      exact ⟨o, os', ho', hos, (Option.some.inj ho).symm⟩
    · cases ho
  · rintro ⟨o, os', ho, hos, rfl⟩
    rw [ho, hos]

theorem compared?_absent_iff : n.compared? = some absent ↔ n.unparen.isAbsent = true := by
  rw [← compared?_unparen]
  have hk := kind_unparen n
  cases hn : n.unparen with
  | absent => exact iff_of_true (by rw [compared?]) rfl
  | mk h ks ds t a x =>
    rw [hn] at hk
    refine iff_of_false (fun ho => ?_) (by simp [isAbsent, isPresent])
    obtain ⟨_, _, -, -, hno⟩ := (compared?_mk (beq_eq_false_iff_ne.2 hk)).1 ho
    cases hno

/-! ### The equation -/

mutual

/-- Two expressions are equal when the same is compared of them, by induction on the first. -/
theorem same_iff : ∀ n m : Node,
    n.same m = true ↔ ∃ o, n.compared? = some o ∧ m.compared? = some o
  | .absent, m => by
    rw [same, ← compared?_absent_iff, compared?]
    constructor
    · intro h
      exact ⟨_, rfl, h⟩
    · rintro ⟨o, ho, hm⟩
      cases ho
      exact hm
  | .mk h ks ds t a x, m => by
    rw [same]
    by_cases hk : (h.kind == .paren) = true
    · rw [if_pos hk, compared?, if_pos hk]
      exact sameFirst_iff ks m
    rw [Bool.not_eq_true] at hk
    rw [hk, if_neg Bool.false_ne_true, ← compared?_unparen m]
    have hm := kind_unparen m
    cases hm' : m.unparen with
    | absent =>
      refine iff_of_false Bool.false_ne_true ?_
      rintro ⟨o, ho, habsent⟩
      obtain ⟨_, _, -, -, rfl⟩ := (compared?_mk hk).1 ho
      cases habsent
    | mk k js es t' a' x' =>
      rw [hm'] at hm
      dsimp only
      rw [Bool.and_eq_true, sameHead_iff, sameAll_iff ks js]
      constructor
      · rintro ⟨⟨r, hr, hr'⟩, os, hos, hos'⟩
        exact ⟨_, (compared?_mk hk).2 ⟨r, os, hr, hos, rfl⟩,
          (compared?_mk (beq_eq_false_iff_ne.2 hm)).2 ⟨r, os, hr', hos', rfl⟩⟩
      · rintro ⟨o, ho, ho'⟩
        obtain ⟨r, os, hr, hos, rfl⟩ := (compared?_mk hk).1 ho
        obtain ⟨r', os', hr', hos', heq⟩ := (compared?_mk (beq_eq_false_iff_ne.2 hm)).1 ho'
        cases heq
        exact ⟨⟨r, hr, hr'⟩, os, hos, hos'⟩

theorem sameFirst_iff : ∀ (ns : List Node) (m : Node),
    sameFirst ns m = true ↔ ∃ o, comparedFirst? ns = some o ∧ m.compared? = some o
  | [], m => by
    rw [sameFirst, ← compared?_absent_iff, comparedFirst?]
    constructor
    · intro h
      exact ⟨_, rfl, h⟩
    · rintro ⟨o, ho, hm⟩
      cases ho
      exact hm
  | n :: _, m => by
    rw [sameFirst, comparedFirst?]
    exact same_iff n m

theorem sameAll_iff : ∀ ns ms : List Node,
    sameAll ns ms = true ↔ ∃ os, comparedAll? ns = some os ∧ comparedAll? ms = some os
  | [], [] => by simp [sameAll, comparedAll?]
  | [], m :: ms => by
    refine iff_of_false (by simp [sameAll]) ?_
    rintro ⟨os, hos, hos'⟩
    obtain ⟨_, _, -, -, rfl⟩ := comparedAll?_cons.1 hos'
    cases hos
  | n :: ns, [] => by
    refine iff_of_false (by simp [sameAll]) ?_
    rintro ⟨os, hos, hos'⟩
    obtain ⟨_, _, -, -, rfl⟩ := comparedAll?_cons.1 hos
    cases hos'
  | n :: ns, m :: ms => by
    rw [sameAll, Bool.and_eq_true, same_iff n m, sameAll_iff ns ms]
    constructor
    · rintro ⟨⟨o, ho, ho'⟩, os, hos, hos'⟩
      exact ⟨_, comparedAll?_cons.2 ⟨o, os, ho, hos, rfl⟩,
        comparedAll?_cons.2 ⟨o, os, ho', hos', rfl⟩⟩
    · rintro ⟨os, hos, hos'⟩
      obtain ⟨o, os', ho, hr, rfl⟩ := comparedAll?_cons.1 hos
      obtain ⟨_, _, ho', hr', heq⟩ := comparedAll?_cons.1 hos'
      cases heq
      exact ⟨⟨o, ho, ho'⟩, os', hr, hr'⟩

end

theorem same_comm (n m : Node) : n.same m = m.same n := by
  rw [Bool.eq_iff_iff, same_iff, same_iff]
  exact exists_congr fun o => and_comm

theorem same_trans (h1 : n.same m = true) (h2 : m.same o = true) : n.same o = true := by
  obtain ⟨p, hn, hm⟩ := (same_iff n m).1 h1
  obtain ⟨q, hm', ho⟩ := (same_iff m o).1 h2
  rw [hm] at hm'
  exact (same_iff n o).2 ⟨p, hn, Option.some.inj hm' ▸ ho⟩

mutual

/-- An expression whose strings have values is compared. -/
theorem compared?_of_decodes : ∀ n : Node, n.decodes = true → ∃ o, n.compared? = some o
  | .absent, _ => ⟨_, by rw [compared?]⟩
  | .mk h ks ds t a x, hn => by
    rw [decodes, Bool.and_eq_true] at hn
    obtain ⟨hstring, hks⟩ := hn
    by_cases hk : (h.kind == .paren) = true
    · rw [compared?, if_pos hk]
      exact comparedFirst?_of_decodes ks hks
    rw [Bool.not_eq_true] at hk
    obtain ⟨os, hos⟩ := comparedAll?_of_decodes ks hks
    obtain ⟨r, hr⟩ : ∃ r, comparedHead? h = some r := by
      unfold comparedHead?
      split
      · rename_i hs
        rw [hs, Bool.not_true, Bool.false_or] at hstring
        obtain ⟨v, hv⟩ := Option.isSome_iff_exists.1 hstring
        exact ⟨_, by rw [hv, Option.map_some]⟩
      · exact ⟨_, rfl⟩
    exact ⟨_, (compared?_mk hk).2 ⟨r, os, hr, hos, rfl⟩⟩

theorem comparedFirst?_of_decodes : ∀ ns : List Node, decodesAll ns = true →
    ∃ o, comparedFirst? ns = some o
  | [], _ => ⟨_, by rw [comparedFirst?]⟩
  | n :: _, hn => by
    rw [decodesAll, Bool.and_eq_true] at hn
    rw [comparedFirst?]
    exact compared?_of_decodes n hn.1

theorem comparedAll?_of_decodes : ∀ ns : List Node, decodesAll ns = true →
    ∃ os, comparedAll? ns = some os
  | [], _ => ⟨_, by rw [comparedAll?]⟩
  | n :: ns, hn => by
    rw [decodesAll, Bool.and_eq_true] at hn
    obtain ⟨o, ho⟩ := compared?_of_decodes n hn.1
    obtain ⟨os, hos⟩ := comparedAll?_of_decodes ns hn.2
    exact ⟨_, comparedAll?_cons.2 ⟨o, os, ho, hos, rfl⟩⟩

end

theorem same_self (hn : n.decodes = true) : n.same n = true := by
  obtain ⟨o, ho⟩ := compared?_of_decodes n hn
  exact (same_iff n n).2 ⟨o, ho, ho⟩

end

/-! ## What is not compared -/

/-- The text of a head. A string literal stands for its value. Between the quotes of an attribute's
string there are no escapes. -/
def textForm (inAttribute : Bool) (h : Head) : Bytes :=
  if isString h then
    if inAttribute then (h.text.drop 1).dropLast else (StringLiteral.unquote h.text).getD h.text
  else h.text

/-- A head without its place. -/
def headForm (inAttribute : Bool) (h : Head) : Head :=
  { h with span := {}, text := textForm inAttribute h }

mutual

/-- An expression without its places, its parentheses and the spelling of its strings. -/
def formIn (inAttribute : Bool) : Node → Node
  | absent => absent
  | mk h ks ds t a x =>
    if h.kind == .paren then formFirst inAttribute ks
    else
      mk (headForm inAttribute h) (formAll (h.kind == .jsxAttr) ks) (formAll false ds)
        (formIn false t)
        (formIn false a) (formIn false x)

/-- The form of the first of some expressions. -/
def formFirst (inAttribute : Bool) : List Node → Node
  | [] => absent
  | n :: _ => formIn inAttribute n

/-- The forms of several expressions. -/
def formAll (inAttribute : Bool) : List Node → List Node
  | [] => []
  | n :: r => formIn inAttribute n :: formAll inAttribute r

end

/-- The form of an expression that is no value of an attribute. -/
def form (n : Node) : Node := formIn false n

/-- The modifiers that are not compared. -/
def unreadFlags (f : Flags) : Flags :=
  { f with optional := false, computed := false, prefixed := false }

/-- The part of a head that is not compared. -/
def unreadHead (inAttribute : Bool) (h : Head) : Head where
  flags := unreadFlags h.flags
  text := if inAttribute then textForm true h else []
  mark := h.mark

mutual

/-- The parts of an expression that are not compared, where they stand. -/
def unreadIn (inAttribute : Bool) : Node → Node
  | absent => absent
  | mk h ks ds t a x =>
    if h.kind == .paren then unreadFirst inAttribute ks
    else
      mk (unreadHead inAttribute h) (unreadAll (h.kind == .jsxAttr) ks) (formAll false ds)
        (formIn false t)
        (formIn false a) (formIn false x)

/-- The parts of the first of some expressions. -/
def unreadFirst (inAttribute : Bool) : List Node → Node
  | [] => absent
  | n :: _ => unreadIn inAttribute n

/-- The parts of several expressions. -/
def unreadAll (inAttribute : Bool) : List Node → List Node
  | [] => []
  | n :: r => unreadIn inAttribute n :: unreadAll inAttribute r

end

/-- What is not compared of an expression that is no value of an attribute. -/
def unread (n : Node) : Node := unreadIn false n

section

variable {h k r : Head} {ks js ds es : List Node} {t a x t' a' x' n m : Node} {i : Bool}

mutual

theorem formIn_unparen (i : Bool) : ∀ n : Node, formIn i n.unparen = formIn i n
  | .absent => by rw [unparen]
  | .mk h ks ds t a x => by
    rw [unparen]
    split
    · rename_i hk
      rw [formIn, if_pos hk]
      exact formFirst_unparen i ks
    · rfl

theorem formFirst_unparen (i : Bool) : ∀ ks : List Node, formIn i (unparenFirst ks) = formFirst i ks
  | [] => by rw [unparenFirst, formIn, formFirst]
  | n :: _ => by
    rw [unparenFirst, formFirst]
    exact formIn_unparen i n

end

mutual

theorem unreadIn_unparen (i : Bool) : ∀ n : Node, unreadIn i n.unparen = unreadIn i n
  | .absent => by rw [unparen]
  | .mk h ks ds t a x => by
    rw [unparen]
    split
    · rename_i hk
      rw [unreadIn, if_pos hk]
      exact unreadFirst_unparen i ks
    · rfl

theorem unreadFirst_unparen (i : Bool) : ∀ ks : List Node,
    unreadIn i (unparenFirst ks) = unreadFirst i ks
  | [] => by rw [unparenFirst, unreadIn, unreadFirst]
  | n :: _ => by
    rw [unparenFirst, unreadFirst]
    exact unreadIn_unparen i n

end

theorem formIn_mk (hk : (h.kind == .paren) = false) : formIn i (mk h ks ds t a x) =
    mk (headForm i h) (formAll (h.kind == .jsxAttr) ks) (formAll false ds) (formIn false t)
      (formIn false a) (formIn false x) := by
  rw [formIn, hk, if_neg Bool.false_ne_true]

theorem unreadIn_mk (hk : (h.kind == .paren) = false) : unreadIn i (mk h ks ds t a x) =
    mk (unreadHead i h) (unreadAll (h.kind == .jsxAttr) ks) (formAll false ds) (formIn false t)
      (formIn false a) (formIn false x) := by
  rw [unreadIn, hk, if_neg Bool.false_ne_true]

theorem flags_eq {f g : Flags} (hc : comparedFlags f = comparedFlags g)
    (hu : unreadFlags f = unreadFlags g) : f = g := by
  calc f = { unreadFlags f with
      optional := (comparedFlags f).optional, computed := (comparedFlags f).computed
      prefixed := (comparedFlags f).prefixed } := rfl
    _ = { unreadFlags g with
      optional := (comparedFlags g).optional, computed := (comparedFlags g).computed
      prefixed := (comparedFlags g).prefixed } := by rw [hc, hu]
    _ = g := rfl

/-- A head is what is compared of it and what is not. -/
theorem headForm_eq (hh : comparedHead? h = some r) (hk : comparedHead? k = some r)
    (hu : unreadHead i h = unreadHead i k) : headForm i h = headForm i k := by
  obtain ⟨u, hu', rfl⟩ := Option.map_eq_some_iff.1 hh
  obtain ⟨v, hv', heq⟩ := Option.map_eq_some_iff.1 hk
  rw [Head.mk.injEq] at heq
  obtain ⟨hkind, hflags, hop, -, rfl, -⟩ := heq
  have hstring : isString k = isString h := by rw [isString, isString, hkind, hop]
  have hrest : unreadFlags h.flags = unreadFlags k.flags := congrArg Head.flags hu
  have hmark : (unreadHead i h).mark = (unreadHead i k).mark := by rw [hu]
  have htext : textForm i h = textForm i k := by
    cases i with
    | true => exact congrArg Head.text hu
    | false =>
      rw [hstring] at hv'
      unfold textForm
      rw [hstring]
      split
      · rename_i hs
        rw [if_pos hs] at hu' hv'
        rw [if_neg Bool.false_ne_true, if_neg Bool.false_ne_true, hu', hv']
        rfl
      · rename_i hs
        rw [if_neg hs] at hu' hv'
        exact Option.some.inj (hu'.trans hv'.symm)
  rw [headForm, headForm, flags_eq hflags.symm hrest, htext, hkind, hop,
    show h.mark = k.mark from hmark]

mutual

/-- Expressions of which the same is compared and that agree in the rest have one form. -/
theorem formIn_eq {o : Node} (i : Bool) :
    ∀ n m : Node, n.compared? = some o → m.compared? = some o →
    unreadIn i n = unreadIn i m → formIn i n = formIn i m
  | .absent, m, hn, hm, hu => by
    rw [compared?] at hn
    cases hn
    have habsent := compared?_absent_iff.1 hm
    rw [← formIn_unparen i m]
    cases hm' : m.unparen with
    | absent => rfl
    | mk => simp [hm', isAbsent, isPresent] at habsent
  | .mk h ks ds t a x, m, hn, hm, hu => by
    by_cases hk : (h.kind == .paren) = true
    · rw [compared?, if_pos hk] at hn
      rw [unreadIn, if_pos hk] at hu
      rw [formIn, if_pos hk]
      exact formFirst_eq i ks m hn hm hu
    rw [Bool.not_eq_true] at hk
    have hm' := kind_unparen m
    rw [← compared?_unparen] at hm
    rw [← unreadIn_unparen i m] at hu
    rw [← formIn_unparen i m]
    obtain ⟨r, os, hr, hos, rfl⟩ := (compared?_mk hk).1 hn
    cases hmk : m.unparen with
    | absent =>
      rw [hmk, compared?] at hm
      cases hm
    | mk k js es t' a' x' =>
      rw [hmk] at hm hm' hu
      have hk' : (k.kind == .paren) = false := beq_eq_false_iff_ne.2 hm'
      obtain ⟨r', os', hr', hos', heq⟩ := (compared?_mk hk').1 hm
      cases heq
      rw [unreadIn_mk hk, unreadIn_mk hk'] at hu
      have hkind : h.kind = k.kind := by
        obtain ⟨_, -, rfl⟩ := Option.map_eq_some_iff.1 hr
        obtain ⟨_, -, heq⟩ := Option.map_eq_some_iff.1 hr'
        exact (congrArg Head.kind heq).symm
      injection hu with hhead hkids hdecos htype htargs haux
      rw [hkind] at hkids
      rw [formIn_mk hk, formIn_mk hk', headForm_eq hr hr' hhead, hkind,
        formAll_eq _ ks js hos hos' hkids,
        hdecos, htype, htargs, haux]

theorem formFirst_eq {o : Node} (i : Bool) :
    ∀ (ns : List Node) (m : Node), comparedFirst? ns = some o →
    m.compared? = some o → unreadFirst i ns = unreadIn i m → formFirst i ns = formIn i m
  | [], m, hn, hm, hu => by
    rw [comparedFirst?] at hn
    cases hn
    have habsent := compared?_absent_iff.1 hm
    rw [← formIn_unparen i m]
    cases hm' : m.unparen with
    | absent => rfl
    | mk => simp [hm', isAbsent, isPresent] at habsent
  | n :: _, m, hn, hm, hu => by
    rw [comparedFirst?] at hn
    rw [unreadFirst] at hu
    rw [formFirst]
    exact formIn_eq i n m hn hm hu

theorem formAll_eq {os : List Node} (i : Bool) : ∀ ns ms : List Node, comparedAll? ns = some os →
    comparedAll? ms = some os → unreadAll i ns = unreadAll i ms → formAll i ns = formAll i ms
  | [], [], _, _, _ => rfl
  | [], m :: ms, hn, hm, hu => by
    rw [unreadAll, unreadAll] at hu
    cases hu
  | n :: ns, [], hn, hm, hu => by
    rw [unreadAll, unreadAll] at hu
    cases hu
  | n :: ns, m :: ms, hn, hm, hu => by
    obtain ⟨o, os', ho, hos, rfl⟩ := comparedAll?_cons.1 hn
    obtain ⟨_, _, ho', hos', heq⟩ := comparedAll?_cons.1 hm
    cases heq
    rw [unreadAll, unreadAll] at hu
    injection hu with hfirst hrest
    rw [formAll, formAll, formIn_eq i n m ho ho' hfirst, formAll_eq i ns ms hos hos' hrest]

end

/-- What is matched and agrees in what is not compared is one expression. -/
theorem form_eq_of_same (hsame : n.same m = true) (hu : n.unread = m.unread) : n.form = m.form := by
  obtain ⟨o, hn, hm⟩ := (same_iff n m).1 hsame
  exact formIn_eq false n m hn hm hu

/-! ### The other way -/

theorem cook_of_unquote {s u : Bytes} (h : StringLiteral.unquote s = some u) :
    StringLiteral.cook (s.drop 1).dropLast = some u := by
  cases s with
  | nil => cases h
  | cons q s =>
    rw [StringLiteral.unquote.eq_def] at h
    dsimp only at h
    split at h
    · exact h
    · cases h

/-- Heads of one form have the same compared and the same not compared. -/
theorem headForm_parts {r' : Head} (hh : comparedHead? h = some r) (hk : comparedHead? k = some r')
    (hform : headForm i h = headForm i k) : r = r' ∧ unreadHead i h = unreadHead i k := by
  obtain ⟨u, hu, rfl⟩ := Option.map_eq_some_iff.1 hh
  obtain ⟨v, hv, rfl⟩ := Option.map_eq_some_iff.1 hk
  rw [headForm, headForm, Head.mk.injEq] at hform
  obtain ⟨hkind, hflags, hop, -, htext, hmark⟩ := hform
  have hstring : isString k = isString h := by rw [isString, isString, hkind, hop]
  have hvalue : u = v := by
    rw [hstring] at hv
    unfold textForm at htext
    rw [hstring] at htext
    by_cases hs : isString h = true
    · rw [if_pos hs] at hu hv
      rw [if_pos hs, if_pos hs] at htext
      cases i with
      | true =>
        rw [if_pos rfl, if_pos rfl] at htext
        have hcook := cook_of_unquote hu
        rw [htext, cook_of_unquote hv] at hcook
        exact (Option.some.inj hcook).symm
      | false =>
        rw [if_neg Bool.false_ne_true, if_neg Bool.false_ne_true, hu, hv] at htext
        exact htext
    · rw [if_neg hs] at hu hv
      rw [if_neg hs, if_neg hs] at htext
      exact Option.some.inj (hu.symm.trans ((congrArg some htext).trans hv))
  refine ⟨by rw [hkind, hop, hflags, hvalue], ?_⟩
  have hraw : (if i then textForm true h else []) = if i then textForm true k else [] := by
    cases i with
    | true => exact htext
    | false => rfl
  rw [unreadHead, unreadHead, hflags, hmark, hraw]

theorem unparen_of_form (h : formIn i n = absent) : n.unparen = absent := by
  rw [← formIn_unparen] at h
  have hk := kind_unparen n
  cases hn : n.unparen with
  | absent => rfl
  | mk k ks ds t a x =>
    rw [hn] at h hk
    have hk : (k.kind == .paren) = false := beq_eq_false_iff_ne.2 hk
    rw [formIn_mk hk] at h
    cases h

mutual

theorem formIn_parts {o p : Node} (i : Bool) : ∀ n m : Node, n.compared? = some o →
    m.compared? = some p → formIn i n = formIn i m → o = p ∧ unreadIn i n = unreadIn i m
  | .absent, m, hn, hm, hform => by
    have habsent : m.unparen = .absent := unparen_of_form (i := i) (by rw [← hform, formIn])
    rw [← compared?_unparen, habsent] at hm
    rw [← unreadIn_unparen i m, habsent]
    exact ⟨Option.some.inj (hn.symm.trans hm), rfl⟩
  | .mk h ks ds t a x, m, hn, hm, hform => by
    by_cases hk : (h.kind == .paren) = true
    · rw [compared?, if_pos hk] at hn
      rw [formIn, if_pos hk] at hform
      rw [unreadIn, if_pos hk]
      exact formFirst_parts i ks m hn hm hform
    rw [Bool.not_eq_true] at hk
    have hm' := kind_unparen m
    rw [← compared?_unparen] at hm
    rw [← formIn_unparen i m, formIn_mk hk] at hform
    rw [← unreadIn_unparen i m]
    obtain ⟨r, os, hr, hos, rfl⟩ := (compared?_mk hk).1 hn
    cases hmk : m.unparen with
    | absent =>
      rw [hmk, formIn] at hform
      cases hform
    | mk k js es t' a' x' =>
      rw [hmk] at hm hm' hform
      have hk' : (k.kind == .paren) = false := beq_eq_false_iff_ne.2 hm'
      obtain ⟨r', os', hr', hos', rfl⟩ := (compared?_mk hk').1 hm
      rw [formIn_mk hk'] at hform
      injection hform with hhead hkids hdecos htype htargs haux
      obtain ⟨hcompared, hunread⟩ := headForm_parts hr hr' hhead
      have hkind : (headForm i h).kind = (headForm i k).kind := by rw [hhead]
      have hkind : h.kind = k.kind := hkind
      rw [hkind] at hkids
      obtain ⟨hall, hrest⟩ := formAll_parts _ ks js hos hos' hkids
      rw [unreadIn_mk hk, unreadIn_mk hk', hkind, hunread, hrest, hdecos, htype,
        htargs, haux, hcompared,
        hall]
      exact ⟨rfl, rfl⟩

theorem formFirst_parts {o p : Node} (i : Bool) : ∀ (ns : List Node) (m : Node),
    comparedFirst? ns = some o → m.compared? = some p → formFirst i ns = formIn i m →
      o = p ∧ unreadFirst i ns = unreadIn i m
  | [], m, hn, hm, hform => by
    have habsent : m.unparen = .absent := unparen_of_form (i := i) (by rw [← hform, formFirst])
    rw [← compared?_unparen, habsent] at hm
    rw [← unreadIn_unparen i m, habsent]
    exact ⟨Option.some.inj (hn.symm.trans hm), rfl⟩
  | n :: _, m, hn, hm, hform => by
    rw [comparedFirst?] at hn
    rw [formFirst] at hform
    rw [unreadFirst]
    exact formIn_parts i n m hn hm hform

theorem formAll_parts {os ps : List Node} (i : Bool) :
    ∀ ns ms : List Node, comparedAll? ns = some os →
    comparedAll? ms = some ps → formAll i ns = formAll i ms → os = ps ∧
    unreadAll i ns = unreadAll i ms
  | [], [], hn, hm, _ => ⟨Option.some.inj (hn.symm.trans hm), rfl⟩
  | [], m :: ms, hn, hm, hform => by
    rw [formAll, formAll] at hform
    cases hform
  | n :: ns, [], hn, hm, hform => by
    rw [formAll, formAll] at hform
    cases hform
  | n :: ns, m :: ms, hn, hm, hform => by
    obtain ⟨o, os', ho, hos, rfl⟩ := comparedAll?_cons.1 hn
    obtain ⟨p, ps', hp, hps, rfl⟩ := comparedAll?_cons.1 hm
    rw [formAll, formAll] at hform
    injection hform with hfirst hrest
    obtain ⟨rfl, hunread⟩ := formIn_parts i n m ho hp hfirst
    obtain ⟨rfl, hunreads⟩ := formAll_parts i ns ms hos hps hrest
    rw [unreadAll, unreadAll, hunread, hunreads]
    exact ⟨rfl, rfl⟩

end

/-- Expressions of one form whose strings have values are matched. -/
theorem same_of_form_eq (hn : n.decodes = true) (hm : m.decodes = true) (hform : n.form = m.form) :
    n.same m = true ∧ n.unread = m.unread := by
  obtain ⟨o, ho⟩ := compared?_of_decodes n hn
  obtain ⟨p, hp⟩ := compared?_of_decodes m hm
  obtain ⟨rfl, hunread⟩ := formIn_parts false n m ho hp hform
  exact ⟨(same_iff n m).2 ⟨o, ho, hp⟩, hunread⟩

end

end ScriptLower.Node

/-! ## Statements behind a test -/

namespace ScriptLower.Lower

open ScriptLower Node

/-- The conditional statement with both branches lowered. -/
def bothBranches (g : Rules) (n : Node) : LowerM (List Node) := do
  let test ← g.expr (n.kid 0)
  let yes ← lowerSingle g (n.kid 1)
  return [like n [test, yes, ← lowerSingle g (n.kid 2)]]

section

variable {g : Rules} {n : Node} {c : Context} {s : State}

theorem lowerIf_eq (g : Rules) (n : Node) (c : Context) (s : State) : lowerIf g n c s =
    (if c.conditionals.any fun d => (n.kid 0).same d.test then
      (if (n.kid 2).isAbsent then Pure.pure [] else g.stmt (n.kid 2) : LowerM (List Node))
    else bothBranches g n) c s := rfl

theorem lowerIf_kept (h : ∀ d ∈ c.conditionals, (n.kid 0).same d.test = false) :
    lowerIf g n c s = bothBranches g n c s := by
  have hany : (c.conditionals.any fun d => (n.kid 0).same d.test) = false := by
    simpa using h
  rw [lowerIf_eq, hany, if_neg Bool.false_ne_true]

theorem lowerIf_dropped {d : Conditional} (hd : d ∈ c.conditionals)
    (h : (n.kid 0).same d.test = true)
    (helse : (n.kid 2).isAbsent = true) : lowerIf g n c s = ([], s) := by
  have hany : (c.conditionals.any fun d => (n.kid 0).same d.test) = true :=
    List.any_eq_true.2 ⟨d, hd, h⟩
  rw [lowerIf_eq, hany, if_pos rfl, if_pos helse]
  rfl

/-- Matching is an equivalence on the expressions whose strings have values. Where the parts that
are not compared agree, it is equality up to parentheses and the spelling of strings; so a
conditional statement loses its first branch only when its test is one of the conditions. -/
theorem conditions_match_exactly (n m : Node) :
    n.same m = m.same n ∧
    (∀ o : Node, n.same m = true → m.same o = true → n.same o = true) ∧
    (n.decodes = true → n.same n = true) ∧
    (n.unread = m.unread → n.same m = true → n.form = m.form) ∧
    (n.decodes = true → m.decodes = true → n.form = m.form → n.same m = true ∧
      n.unread = m.unread) ∧
    ∀ (g : Rules) (n : Node) (c : Context) (s : State),
      (∀ d ∈ c.conditionals, (n.kid 0).same d.test = true → (n.kid 0).unread = d.test.unread) →
      (∀ d ∈ c.conditionals, (n.kid 0).form ≠ d.test.form) →
      lowerIf g n c s = bothBranches g n c s := by
  refine ⟨same_comm n m, fun _ => same_trans, same_self, fun hu hs => form_eq_of_same hs hu,
    same_of_form_eq, ?_⟩
  intro g n c s hunread hform
  refine lowerIf_kept fun d hd => ?_
  rw [← Bool.not_eq_true]
  exact fun hsame => hform d hd (form_eq_of_same hsame (hunread d hd hsame))

/-- A test in parentheses with a string in the other quotes and an escape; another test is kept. -/
theorem conditions_match_spellings :
    let test (name string : Bytes) : Node :=
      .newOp .binary .eqEqEq {} [.ident name {}, .literal .stringLit string {}]
    let n : Node := .new .paren {} [test "x" "'A'"]
    let m : Node := test "x" "\"\\x41\""
    let c : Context := { conditionals := [⟨"x === \"\\x41\"", m⟩] }
    let other : Node := .new .ifStmt {} [test "y" "'A'", .new .empty {} [], .absent]
    n.decodes = true ∧ n.unread = m.unread ∧ n.same m = true ∧ m.same n = true ∧ n.same n = true ∧
      n.form = m.form ∧ lowerIf (rules 3) other c {} = bothBranches (rules 3) other c {} := by
  intro test n m c other
  obtain ⟨hcomm, -, hself, hform, -, hkept⟩ := conditions_match_exactly n m
  have hdecodes : n.decodes = true := by decide
  have hunread : n.unread = m.unread := by rfl
  have hsame : n.same m = true := by decide
  refine ⟨hdecodes, hunread, hsame, hcomm.symm.trans hsame, hself hdecodes, hform hunread hsame, ?_⟩
  have hother : (other.kid 0).same m = false := by decide
  refine hkept (rules 3) other c {} ?_ ?_
  · intro d hd hmatch
    rw [List.mem_singleton.1 hd] at hmatch
    exact absurd (hmatch.symm.trans hother) (by decide)
  · intro d hd heq
    rw [List.mem_singleton.1 hd] at heq
    have hmatch := (same_of_form_eq (by decide) (by decide) heq).1
    exact absurd (hmatch.symm.trans hother) (by decide)

/-- Whether a function is asynchronous is not compared: the statement behind such a test is dropped
by a condition that is another expression. -/
theorem asynchronous_test_dropped :
    ∃ f f' a b, Parse.parseExpressionText "async () => x" = .ok (f, a) ∧
      Parse.parseExpressionText "() => x" = .ok (f', b) ∧ a.same b = true ∧ a.form ≠ b.form ∧
      (lowerIf (rules 3) (.new .ifStmt {} [a, .new .empty {} [], .absent])
        { conditionals := [⟨"() => x", b⟩] } {}).1 = [] := by
  have hrun : (Parse.parseExpressionText "async () => x").toOption.any (fun r =>
      (Parse.parseExpressionText "() => x").toOption.any fun r' =>
        r.2.same r'.2 && (r.2.form.flags.async != r'.2.form.flags.async)) = true := by
          decide +kernel
  cases ha : Parse.parseExpressionText "async () => x" with
  | error => simp [ha, Except.toOption] at hrun
  | ok r =>
    cases hb : Parse.parseExpressionText "() => x" with
    | error => simp [hb, Except.toOption] at hrun
    | ok r' =>
      rw [ha, hb] at hrun
      obtain ⟨hsame, hasync⟩ := Bool.and_eq_true_iff.1 hrun
      refine ⟨r.1, r'.1, r.2, r'.2, rfl, rfl, hsame, fun hform => ?_, ?_⟩
      · rw [hform] at hasync
        simp at hasync
      · let n : Node := .new .ifStmt {} [r.2, .new .empty {} [], .absent]
        have hdropped := lowerIf_dropped (g := rules 3) (n := n) (s := {})
          (c := { conditionals := [⟨"() => x", r'.2⟩] }) (List.mem_singleton.2 rfl) hsame rfl
        rw [hdropped]

end

end ScriptLower.Lower
