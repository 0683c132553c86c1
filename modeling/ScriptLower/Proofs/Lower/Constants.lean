import ScriptLower.Proofs.Meaning.Members
import ScriptLower.Proofs.Lower.Fitting
import ScriptLower.Proofs.Lower.Source
import Mathlib

/-!
# Constants of enumerations

The value that is computed for a member is the one that its initializer would give at run time,
where the members before it are properties of the object: `folded_value`. The object is built by the
assignments in front, each of which may also enter a name under a value, so what has to be seen is
that a constant member keeps its value until it is read (`Knows`), step by step.

What the computation does not look at is excluded: members that share a property with another or
with the number of one, a member of the name of the enumeration, `Infinity` or `NaN`, names from
outside that stand for something else, and texts that lose something when they are written
(`Readable`, `Apart`).
-/

namespace ScriptLower.Enumeration

open ScriptLower Utf8 StringLiteral Lower

/-! ## Reading constants back -/

/-- A number is read back from what it is written as, a negative one behind its sign. -/
def ReadsBack (x : Float) : Prop :=
  if x < Binary64.ofNat 0 || (x == Binary64.ofNat 0 && Binary64.signBit x) then
    Number.value (Number.format (Number.negate x)) = (Number.negate x, true) ∧
      Number.negate (Number.negate x) = x
  else Number.value (Number.format x) = (x, true)

instance (x : Float) : Decidable (ReadsBack x) := by
  unfold ReadsBack
  infer_instance

/-- A constant is written as a literal that has its value. -/
def Written : EnumValue → Prop
  | .num x => ReadsBack x
  | .str s => isValid s = true

instance (v : EnumValue) : Decidable (Written v) := by
  cases v
  · exact inferInstanceAs (Decidable (ReadsBack _))
  · exact inferInstanceAs (Decidable (isValid _ = true))

section

variable {w : World} {o : Object}

theorem eval_number {x : Float} {raw : Bytes} (span : Span) (h : Number.value raw = (x, true)) :
    w.eval (number raw span) o = (.num x, o) := World.eval_literal rfl (literal?_number rfl h)

theorem eval_string {s : Bytes} (span : Span) (h : isValid s = true) :
    w.eval (Lower.string s span) o = (.str (text16 s), o) := by
  obtain ⟨body, hquote, hexact, hcook⟩ := quote_exact (Or.inl rfl) h
  obtain ⟨t, hunquote, hvalid, hunits⟩ := literalUnits_exact (Or.inl rfl) hexact
  rw [unquote_quoted (Or.inl rfl), hcook] at hunquote
  cases hunquote
  exact World.eval_literal rfl (literal?_string rfl ((congrArg literalUnits hquote).trans hunits))

/-- A constant is written as an expression that gives it. -/
theorem eval_constant {v : EnumValue} (span : Span) (h : Written v) :
    w.eval (v.literal span) o = (constant v, o) := by
  cases v with
  | str s => exact eval_string span h
  | num x =>
    have hread : ReadsBack x := h
    rw [ReadsBack] at hread
    rw [EnumValue.literal]
    by_cases hneg : (x < Binary64.ofNat 0 || (x == Binary64.ofNat 0 && Binary64.signBit x)) = true
    · rw [if_pos hneg] at hread ⊢
      obtain ⟨hread, hback⟩ := hread
      refine World.eval_unary rfl (eval_number span hread) ?_
      show some (Value.num (Number.negate (Number.negate x))) = _
      rw [hback]
      rfl
    · rw [if_neg hneg] at hread ⊢
      exact eval_number span hread

/-! ## Names -/

/-- What a name of the source is read as outside the members: neither replaced nor, unless so, taken
from another object than the one that has the value. -/
structure Reads (w : World) (c : Context) (name : Bytes) (v : Value) : Prop where
  /-- No definition replaces it. -/
  kept : c.defines.reverse.find? (·.name == name) = none
  /-- It is a variable of that value, … -/
  plain : exporterAmong name c.scopes = none → w.named name = v
  /-- … or a property of the object of a scope. -/
  exported : ∀ s, exporterAmong name c.scopes = some s →
    ∀ o, w.load o (.slot (w.named s.name) (nameUnits name)) = v

/-- The scope that initializers stand in. -/
def membersScope (enum : Bytes) (names : List Bytes) : Scope :=
  { kind := .enumBody, name := enum, exports := names }

/-- A place in the scope of the members. -/
def within (c : Context) (enum : Bytes) (names : List Bytes) : Context :=
  { c with scopes := membersScope enum names :: c.scopes }

variable {c : Context} {enum : Bytes} {names : List Bytes} {n : Node} {st : State}

theorem eval_qualified {s : Scope} {name : Bytes} (span : Span) :
    w.eval (qualified s name span) o = (w.load o (.slot (w.named s.name) (nameUnits name)), o) := by
  have hbase : w.eval ((qualified s name span).kid 0) o = (w.named s.name, o) :=
    World.eval_ident rfl rfl
  exact World.eval_of_place (World.place_member rfl rfl hbase)

/-- A member that is read by its name alone is a property of the object. -/
theorem eval_nameRef_member (hself : w.named enum = .self) (h : names.contains n.text = true) :
    w.eval (nameRef n (within c enum names) st).1 o = (o (nameUnits n.text), o) := by
  have hexporter :
      exporterAmong n.text (within c enum names).scopes = some (membersScope enum names) :=
    if_pos h
  have hrun : (nameRef n (within c enum names) st).1 =
      qualified (membersScope enum names) n.text n.span := by
    simp only [nameRef, exporter?, bind, ReaderT.bind, StateT.bind, read, readThe,
      MonadReaderOf.read,
      ReaderT.read, pure, ReaderT.pure, StateT.pure, hexporter]
  rw [hrun, eval_qualified]
  show (w.load o (.slot (w.named enum) (nameUnits n.text)), o) = _
  rw [hself]
  rfl

/-- Any other name is read from outside. -/
theorem eval_nameRef_outside {v : Value} (hn : n.kind = .ident) (hr : Reads w c n.text v)
    (hmark : n.mark = 0) (h : names.contains n.text = false) :
    w.eval (nameRef n (within c enum names) st).1 o = (v, o) := by
  have hexporter :
      exporterAmong n.text (within c enum names).scopes = exporterAmong n.text c.scopes := by
    show exporterAmong n.text (membersScope enum names :: c.scopes) = _
    have hno : ¬(membersScope enum names).exports.contains n.text = true := ne_true_of_eq_false h
    rw [exporterAmong, if_neg hno, if_neg (by simp [membersScope])]
  cases hs : exporterAmong n.text c.scopes with
  | some s =>
    have hrun : (nameRef n (within c enum names) st).1 = qualified s n.text n.span := by
      simp only [nameRef, exporter?, bind, ReaderT.bind, StateT.bind, read, readThe,
        MonadReaderOf.read,
        ReaderT.read, pure, ReaderT.pure, StateT.pure, hexporter, hs]
    rw [hrun, eval_qualified, hr.exported s hs]
  | none =>
    have hrun : (nameRef n (within c enum names) st).1 = leaf n := by
      simp only [nameRef, exporter?, define?, bind, ReaderT.bind, StateT.bind, read, readThe,
        MonadReaderOf.read, ReaderT.read, pure, ReaderT.pure, StateT.pure, hexporter, hs]
      rw [show (within c enum names).defines = c.defines from rfl, hr.kept]
      rfl
    have hplain : w.eval (leaf n) o = (w.named n.text, o) := World.eval_ident hn hmark
    rw [hrun, hplain, hr.plain hs]

/-! ## Initializers -/

/-- Whether the value of a constant is a text. -/
def Valid : EnumValue → Prop
  | .num _ => True
  | .str s => isValid s = true

/-- The object holds the constants: each has the value that is known, under its name. -/
def Knows (o : Object) (known : KnownMembers) (names : List Bytes) : Prop :=
  ∀ k v, known.find k = some v → names.contains k = true ∧ o (text16 k) = constant v ∧ Valid v

/-- The names that are numbers by themselves. -/
def globals : List (Bytes × Float) :=
  [(Bytes.ofString "Infinity", Number.infinity false), (Bytes.ofString "NaN", Number.nan)]

/-- What a part of an initializer may be, for its value not to depend on what the computation does
not look at. -/
structure Readable (w : World) (c : Context) (names : List Bytes) (n : Node) : Prop where
  /-- Names are written without escapes. -/
  name : n.kind = .ident → isValid n.text = true ∧ ascii '\\' ∉ n.text ∧ n.mark = 0
  /-- The names of numbers are no members, and stand for the numbers. -/
  global : n.kind = .ident → ∀ p ∈ globals, n.text = p.1 →
    names.contains n.text = false ∧ Reads w c n.text (.num p.2)
  /-- Where separators go, a number is written so that it is read back. -/
  number : n.kind = .literal → n.op = .numberLit → c.target.before .es2021 = true →
    n.text.contains (ascii '_') = true → ∀ x, Number.value n.text = (x, true) →
      Number.value (Number.format x) = (x, true)
  /-- Strings have no half that belongs to no pair. -/
  string : n.kind = .literal → n.op = .stringLit →
    ∃ q body, (q = 34 ∨ q = 39) ∧ n.text = q :: body ++ [q] ∧ Exact body
  /-- Nor have templates, and no line end in them has another meaning. -/
  template : n.kind = .template → n.kids.length = 1 →
    (n.kid 0).kind = .templateElem ∧ Exact (n.kid 0).text ∧ 13 ∉ (n.kid 0).text
  /-- A property behind a point is a name. -/
  member : n.kind = .member → (n.kid 1).kind = .ident
  /-- Where a power becomes a call, the function is there to be called. -/
  power : n.op = .starStar → c.target.before .es2016 = true →
    ∀ o, w.isPower
      (w.load o (.slot (w.named (Bytes.ofString "Math")) (nameUnits (Bytes.ofString "pow")))) =
      true

/-! ### What lowering makes of them -/

attribute [local simp] evalEnum

theorem evalEnumAt_eq (enum : Bytes) (known : KnownMembers) (i : Nat) (ks : List Node) :
    evalEnumAt enum known i ks = evalEnum enum known (ks.getD i .absent) := by
  induction ks generalizing i with
  | nil => cases i <;> simp [evalEnumAt, evalEnum]
  | cons n ks ih =>
    cases i with
    | zero => rfl
    | succ i => exact ih i

/-- A part of a lowered list is the lowered part. -/
theorem mapM_getD {f : Node → LowerM Node} {ks : List Node} {i : Nat} (hi : i < ks.length)
    (c : Context)
    (st : State) :
    ∃ st', ((ks.mapM f) c st).1.getD i .absent = (f (ks.getD i .absent) c st').1 := by
  induction ks generalizing i st with
  | nil => exact absurd hi (Nat.not_lt_zero i)
  | cons n ks ih =>
    have hrun : ((n :: ks).mapM f) c st = ((f n c st).1 :: ((ks.mapM f) c (f n c st).2).1,
        ((ks.mapM f) c (f n c st).2).2) := by
      rw [List.mapM_cons]
      rfl
    rw [hrun]
    cases i with
    | zero => exact ⟨st, rfl⟩
    | succ i => exact ih (Nat.lt_of_succ_lt_succ hi) _

theorem mapM_length {f : Node → LowerM Node} (ks : List Node) (c : Context) (st : State) :
    ((ks.mapM f) c st).1.length = ks.length := by
  induction ks generalizing st with
  | nil => rfl
  | cons n ks ih =>
    rw [List.mapM_cons]
    exact congrArg Nat.succ (ih _)

theorem expr_parts {d : Nat} (h : n.kind = .paren ∨ n.kind = .index ∨ n.kind = .template)
    (c : Context)
    (st : State) :
    ((rules (d + 1)).expr n c st).1 = like n ((n.kids.mapM (rules d).expr) c st).1 := by
  show (lowerExpr (rules d) n c st).1 = _
  unfold lowerExpr
  rcases h with h | h | h <;> rw [Node.isAbsent, isPresent_of_kind h (by decide), h] <;> rfl

theorem expr_member {d : Nat} (h : n.kind = .member) (c : Context) (st : State) :
    ((rules (d + 1)).expr n c st).1 =
    like n [((rules d).expr (n.kid 0) c st).1, leaf (n.kid 1)] := by
  show (lowerExpr (rules d) n c st).1 = _
  rw [lowerExpr, Node.isAbsent, isPresent_of_kind h (by decide), h]
  rfl

theorem expr_ident {d : Nat} (h : n.kind = .ident) (c : Context) (st : State) :
    ((rules (d + 1)).expr n c st).1 = (nameRef n c st).1 := by
  show (lowerExpr (rules d) n c st).1 = _
  rw [lowerExpr, Node.isAbsent, isPresent_of_kind h (by decide), h]
  rfl

theorem expr_unary {d : Nat} (h : n.kind = .unary) (hop : n.op ≠ .kwDelete)
    (c : Context) (st : State) :
    ((rules (d + 1)).expr n c st).1 = like n [((rules d).expr (n.kid 0) c st).1] := by
  have hno : (n.op == .kwDelete) = false := by simpa using hop
  show (lowerExpr (rules d) n c st).1 = _
  rw [lowerExpr, Node.isAbsent, isPresent_of_kind h (by decide), h]
  show (lowerUnary (rules d) n c st).1 = _
  unfold lowerUnary
  simp only [hno, Bool.false_and, Bool.false_eq_true, if_false]
  rfl

/-- A binary operation that is no fallback becomes the same operation, or a call for a power that
the target lacks. -/
theorem expr_binary {d : Nat} (h : n.kind = .binary) (hop : n.op ≠ .questionQuestion) (c : Context)
    (st : State) : ∃ st', ((rules (d + 1)).expr n c st).1 =
      if n.op == .starStar && c.target.before .es2016 then
        mathPow n.span ((rules d).expr (n.kid 0) c st).1 ((rules d).expr (n.kid 1) c st').1
      else like n [((rules d).expr (n.kid 0) c st).1, ((rules d).expr (n.kid 1) c st').1] := by
  have hno : (n.op == .questionQuestion) = false := by simpa using hop
  refine ⟨((rules d).expr (n.kid 0) c st).2, ?_⟩
  show (lowerExpr (rules d) n c st).1 = _
  rw [lowerExpr, Node.isAbsent, isPresent_of_kind h (by decide), h]
  show (lowerBinary (rules d) n c st).1 = _
  unfold lowerBinary
  simp only [hno, Bool.false_and, Bool.false_eq_true, if_false, bind, ReaderT.bind, StateT.bind,
    targetBefore, read, readThe, MonadReaderOf.read, ReaderT.read, pure, ReaderT.pure, StateT.pure]
  generalize (n.op == .starStar && c.target.before .es2016) = call
  cases call <;> rfl

theorem lowerLiteral_eq (n : Node) (c : Context) (st : State) : (lowerLiteral n c st).1 =
    if c.target.before .es2021 && n.op == .numberLit && n.text.contains (ascii '_') then
      if (Number.value n.text).2 then (leaf n).withText (Number.format (Number.value n.text).1)
        else leaf n
    else leaf n := by
  unfold lowerLiteral
  simp only [bind, ReaderT.bind, StateT.bind, targetBefore, read, readThe, MonadReaderOf.read,
    ReaderT.read, pure, ReaderT.pure, StateT.pure]
  generalize (c.target.before .es2021 && n.op == .numberLit && n.text.contains (ascii '_')) = old
  cases old <;> rfl

theorem expr_literal {d : Nat} (h : n.kind = .literal) (c : Context) (st : State) :
    ((rules (d + 1)).expr n c st).1 = (lowerLiteral n c st).1 := by
  show (lowerExpr (rules d) n c st).1 = _
  rw [lowerExpr, Node.isAbsent, isPresent_of_kind h (by decide), h]
  rfl

/-! ### The value of what is lowered -/

section

variable {known : KnownMembers} {v : EnumValue}

/-- The own name of the enumeration gives its object. -/
theorem eval_self {d : Nat} (hn : n.kind = .ident) (hname : n.text = enum) (hmark : n.mark = 0)
    (houtside : names.contains enum = false) (hreads : Reads w c enum .self) (st : State) :
    w.eval ((rules (d + 1)).expr n (within c enum names) st).1 o = (.self, o) := by
  subst hname
  rw [expr_ident hn]
  exact eval_nameRef_outside hn hreads hmark houtside

theorem eval_name {d : Nat} (hself : w.named enum = .self) (hknown : Knows o known names)
    (hn : n.kind = .ident) (hr : Readable w c names n) (hv : evalEnum enum known n = some v)
    (st : State) :
    w.eval ((rules (d + 1)).expr n (within c enum names) st).1 o = (constant v, o) ∧ Valid v := by
  obtain ⟨hvalid, hplain, hmark⟩ := hr.name hn
  rw [expr_ident hn]
  cases n with
  | absent => cases hn
  | mk hd ks ds t a x =>
    rw [evalEnum, show hd.kind = .ident from hn] at hv
    dsimp only at hv
    split at hv
    · rename_i hinf
      obtain ⟨hno, hreads⟩ :=
        hr.global hn (_, Number.infinity false) List.mem_cons_self (eq_of_beq hinf)
      cases hv
      exact ⟨eval_nameRef_outside hn hreads hmark hno, trivial⟩
    split at hv
    · rename_i hnan
      obtain ⟨hno, hreads⟩ :=
        hr.global hn (_, Number.nan) (List.mem_cons_of_mem _ List.mem_cons_self)
        (eq_of_beq hnan)
      cases hv
      exact ⟨eval_nameRef_outside hn hreads hmark hno, trivial⟩
    · obtain ⟨hmem, hvalue, hok⟩ := hknown _ _ hv
      rw [eval_nameRef_member hself hmem, nameUnits_plain hvalid hplain]
      exact ⟨congrArg (·, o) hvalue, hok⟩

/-- A literal keeps its value, also where its separators go. -/
theorem eval_literal_folded {d : Nat} (hn : n.kind = .literal) (hr : Readable w c names n)
    (hv : evalEnum enum known n = some v) (st : State) :
    w.eval ((rules (d + 1)).expr n (within c enum names) st).1 o = (constant v, o) ∧ Valid v := by
  rw [expr_literal hn, lowerLiteral_eq]
  cases n with
  | absent => cases hn
  | mk hd ks ds t a x =>
    rw [evalEnum, show hd.kind = .literal from hn] at hv
    dsimp only at hv
    split at hv
    · rename_i hop
      split at hv
      · rename_i hok
        have hread : Number.value hd.text = ((Number.value hd.text).1, true) := by rw [← hok]
        cases hv
        refine ⟨?_, trivial⟩
        split
        · rename_i hold
          rw [Bool.and_eq_true, Bool.and_eq_true] at hold
          obtain ⟨⟨hbefore, -⟩, hmark⟩ := hold
          rw [if_pos (show (Number.value (Node.mk hd ks ds t a x).text).2 = true from hok)]
          exact World.eval_literal hn (literal?_number hop (hr.number hn hop hbefore hmark _ hread))
        · exact World.eval_literal hn (literal?_number hop hread)
      · cases hv
    · rename_i hop
      have hplain : ¬((within c enum names).target.before .es2021 &&
          (Node.mk hd ks ds t a x).op == .numberLit &&
          (Node.mk hd ks ds t a x).text.contains (ascii '_')) = true := by
        simp [show (Node.mk hd ks ds t a x).op = .stringLit from hop]
      obtain ⟨q, body, hq, htext, hexact⟩ := hr.string hn hop
      obtain ⟨s, hunquote, hvalid, hunits⟩ := literalUnits_exact hq hexact
      have htext : hd.text = q :: body ++ [q] := htext
      rw [htext, hunquote, Option.map_some] at hv
      cases hv
      refine ⟨?_, hvalid⟩
      rw [if_neg hplain]
      exact World.eval_literal hn (literal?_string hop ((congrArg literalUnits htext).trans hunits))
    · cases hv

/-- What a value is computed from, by the kind of the initializer. -/
inductive Computed (enum : Bytes) (known : KnownMembers) (n : Node) : EnumValue → Prop
  | paren {v : EnumValue} (hn : n.kind = .paren) (hv : evalEnum enum known (n.kid 0) = some v) :
      Computed enum known n v
  | literal {v : EnumValue} (hn : n.kind = .literal) : Computed enum known n v
  | name {v : EnumValue} (hn : n.kind = .ident) : Computed enum known n v
  | template {s} (hn : n.kind = .template) (hone : n.kids.length = 1)
    (hs : cook (n.kid 0).text = some s) :
      Computed enum known n (.str s)
  | member {v : EnumValue} (hn : n.kind = .member) (hobject : (n.kid 0).kind = .ident)
    (hname : (n.kid 0).text = enum)
      (hv : known.find (n.kid 1).text = some v) : Computed enum known n v
  | index {v : EnumValue} (hn : n.kind = .index) (hobject : (n.kid 0).kind = .ident)
    (hname : (n.kid 0).text = enum)
      (hv : indexedMember? known (n.kid 1) = some v) : Computed enum known n v
  | unary {x y} (hn : n.kind = .unary) (hx : evalEnum enum known (n.kid 0) = some (.num x))
      (hy : EnumValue.unary? n.op x = some y) : Computed enum known n (.num y)
  | binary {x y v : EnumValue} (hn : n.kind = .binary) (hx : evalEnum enum known (n.kid 0) = some x)
      (hy : evalEnum enum known (n.kid 1) = some y) (hv : EnumValue.combine? n.op x y = some v) :
      Computed enum known n v

theorem computed_of_evalEnum (hv : evalEnum enum known n = some v) : Computed enum known n v := by
  cases n with
  | absent => simp [evalEnum] at hv
  | mk hd ks ds t a x =>
    have hobject
        (h : ((ks.getD 0 .absent).kind == .ident && (ks.getD 0 .absent).text == enum) = true) :
        (ks.getD 0 .absent).kind = .ident ∧ (ks.getD 0 .absent).text = enum := by
      rw [Bool.and_eq_true] at h
      exact ⟨eq_of_beq h.1, eq_of_beq h.2⟩
    rw [evalEnum] at hv
    dsimp only at hv
    split at hv
    · rename_i hkind
      rw [evalEnumAt_eq] at hv
      exact .paren hkind hv
    · rename_i hkind
      exact .literal hkind
    · rename_i hkind
      split at hv
      · rename_i hone
        obtain ⟨s, hs, rfl⟩ := Option.map_eq_some_iff.1 hv
        exact .template hkind (eq_of_beq hone) hs
      · cases hv
    · rename_i hkind
      exact .name hkind
    · rename_i hkind
      split at hv
      · rename_i hself
        exact .member hkind (hobject hself).1 (hobject hself).2 hv
      · cases hv
    · rename_i hkind
      split at hv
      · rename_i hself
        exact .index hkind (hobject hself).1 (hobject hself).2 hv
      · cases hv
    · rename_i hkind
      split at hv
      · rename_i x hx
        obtain ⟨y, hy, rfl⟩ := Option.map_eq_some_iff.1 hv
        rw [evalEnumAt_eq] at hx
        exact .unary hkind hx hy
      · cases hv
    · rename_i hkind
      rw [evalEnumAt_eq, evalEnumAt_eq] at hv
      obtain ⟨x, hx, hv⟩ := Option.bind_eq_some_iff.1 hv
      obtain ⟨y, hy, hv⟩ := Option.bind_eq_some_iff.1 hv
      exact .binary hkind hx hy hv
    · cases hv

theorem isPresent_of_evalEnum (hv : evalEnum enum known n = some v) : n.isPresent = true := by
  cases n with
  | absent => simp [evalEnum] at hv
  | mk => rfl

theorem count_pos (hn : n.isPresent = true) : 0 < n.count := by
  cases n with
  | absent => cases hn
  | mk => rw [Node.count]; omega

theorem evalEnum_string {k : Bytes} (hkind : n.kind = .literal) (hop : n.op = .stringLit)
    (hk : unquote n.text = some k) : evalEnum enum known n = some (.str k) := by
  cases n with
  | absent => cases hkind
  | mk hd ks ds t a x =>
    have hk : unquote hd.text = some k := hk
    rw [evalEnum, show hd.kind = .literal from hkind]
    dsimp only
    rw [show hd.op = .stringLit from hop, hk]
    rfl

/-- The text of a constant is the text of its value. -/
theorem text_constant (hv : Valid v) :
    (constant v).text? = some (text16 v.text) ∧ isValid v.text = true := by
  cases v with
  | num x => exact ⟨rfl, isValid_format x⟩
  | str s => exact ⟨rfl, hv⟩

theorem isArithmetic_of_binary {op : TokenKind} {x y z : Float}
    (h : EnumValue.binary? op x y = some z) :
    isArithmetic op = true := by
  unfold EnumValue.binary? at h
  dsimp only at h
  split at h <;> first | rfl | cases h

/-- Constants are combined as their values are. -/
theorem combine_constant {op : TokenKind} {x y : EnumValue} (hx : Valid x) (hy : Valid y)
    (h : EnumValue.combine? op x y = some v) : isArithmetic op = true ∧
      Value.binary? op (constant x) (constant y) = some (constant v) ∧ Valid v := by
  obtain ⟨htextx, hvalidx⟩ := text_constant hx
  obtain ⟨htexty, hvalidy⟩ := text_constant hy
  obtain ⟨hvalid, hunits⟩ := text16_append hvalidx hvalidy
  have hjoin
      (hv : (if op == .plus then some (EnumValue.str (x.text ++ y.text)) else none) = some v) :
      isArithmetic op = true ∧
        (if op == .plus then Value.join? (constant x) (constant y) else none) = some (constant v) ∧
          Valid v := by
    split at hv
    · rename_i hop
      cases hv
      rw [eq_of_beq hop]
      refine ⟨rfl, ?_, hvalid⟩
      rw [if_pos (beq_self_eq_true _), Value.join?, htextx, htexty]
      exact congrArg (fun us => some (Value.str us)) hunits.symm
    · cases hv
  cases x with
  | str s => cases y <;> exact hjoin h
  | num x =>
    cases y with
    | str s => exact hjoin h
    | num y =>
      obtain ⟨z, hz, rfl⟩ := Option.map_eq_some_iff.1 h
      refine ⟨isArithmetic_of_binary hz, ?_, trivial⟩
      show (EnumValue.binary? op x y).map Value.num = _
      rw [hz]
      rfl

theorem power_numbers {x y : EnumValue} (h : EnumValue.combine? .starStar x y = some v) :
    ∃ a b z, x = .num a ∧ y = .num b ∧ EnumValue.binary? .starStar a b = some z ∧ v = .num z := by
  cases x with
  | str s => cases y <;> cases h
  | num a =>
    cases y with
    | str s => cases h
    | num b =>
      have h : (EnumValue.binary? .starStar a b).map EnumValue.num = some v := h
      obtain ⟨z, hz, rfl⟩ := Option.map_eq_some_iff.1 h
      exact ⟨a, b, z, rfl, rfl, hz, rfl⟩

/-- The function that is called for a power. -/
theorem eval_mathPow {left right : Node} {span : Span} :
    w.eval ((mathPow span left right).kid 0) o =
      (w.load o (.slot (w.named (Bytes.ofString "Math")) (nameUnits (Bytes.ofString "pow"))),
          o) := by
  have hbase : w.eval (((mathPow span left right).kid 0).kid 0) o =
      (w.named (Bytes.ofString "Math"), o) := World.eval_ident rfl rfl
  exact World.eval_of_place (World.place_member rfl rfl hbase)

/-- A part that is there stands among the parts, has fewer nodes, and its parts are parts of the
whole. -/
theorem kid_of_isPresent {i : Nat} (h : (n.kid i).isPresent = true) :
    i < n.kids.length ∧ (n.kid i).count < n.count ∧ ∀ k ∈ (n.kid i).walk, k ∈ n.walk := by
  cases n with
  | absent => cases h
  | mk hd ks ds t a x =>
    have hkid : (Node.mk hd ks ds t a x).kid i = ks.getD i .absent := rfl
    rw [hkid, List.getD_eq_getElem?_getD] at h
    cases hi : ks[i]? with
    | none =>
      rw [hi] at h
      cases h
    | some k =>
      have hmem := List.mem_of_getElem? hi
      have hk : (Node.mk hd ks ds t a x).kid i = k := by
        rw [hkid, List.getD_eq_getElem?_getD, hi, Option.getD_some]
      have hle := count_mem hmem
      rw [hk]
      refine ⟨(List.getElem?_eq_some_iff.1 hi).1, ?_, fun m hm => walk_of_kid hmem hm⟩
      rw [Node.count]
      omega

/-- The parts of parentheses, an index or a template are lowered
parts. -/
theorem kid_parts {d i : Nat} (h : n.kind = .paren ∨ n.kind = .index ∨ n.kind = .template)
    (hi : (n.kid i).isPresent = true) (c : Context) (st : State) :
    ∃ st', ((rules (d + 1)).expr n c st).1.kid i = ((rules d).expr (n.kid i) c st').1 := by
  obtain ⟨st', hst⟩ := mapM_getD (f := (rules d).expr) (kid_of_isPresent hi).1 c st
  exact ⟨st', by rw [expr_parts h]; exact hst⟩

/-- A template of one text keeps its value. -/
theorem eval_template_folded {d : Nat} {s : Bytes} (hn : n.kind = .template)
    (hone : n.kids.length = 1)
    (hs : cook (n.kid 0).text = some s) (hr : Readable w c names n) (hdepth : n.count ≤ d + 1)
    (st : State) :
    w.eval ((rules (d + 1)).expr n (within c enum names) st).1 o = (constant (.str s), o) ∧
      Valid (.str s) := by
  obtain ⟨hkind, hexact, hno⟩ := hr.template hn hone
  obtain ⟨t, hcook, hvalid, hunits⟩ := hexact.cook
  rw [hs] at hcook
  cases hcook
  refine ⟨?_, hvalid⟩
  have hpresent : (n.kid 0).isPresent = true := by
    cases hk : n.kid 0 with
    | absent => rw [hk] at hkind; cases hkind
    | mk => rfl
  obtain ⟨st', hkid⟩ := kid_parts (d := d) (Or.inr (Or.inr hn)) hpresent (within c enum names) st
  obtain ⟨e, rfl⟩ : ∃ e, d = e + 1 := by
    have := (kid_of_isPresent hpresent).2.1
    have := count_pos hpresent
    exact ⟨d - 1, by omega⟩
  have htext : (((rules (e + 1 + 1)).expr n (within c enum names) st).1.kid 0).text =
      (n.kid 0).text := by
    rw [hkid]
    cases hk : n.kid 0 with
    | absent => rw [hk] at hkind; cases hkind
    | mk hd ks ds t a x =>
      rw [hk] at hkind
      show (lowerExpr (rules e) (.mk hd ks ds t a x) (within c enum names) st').1.text = hd.text
      unfold lowerExpr
      rw [show (Node.mk hd ks ds t a x).kind = .templateElem from hkind]
      rfl
  refine World.eval_template ?_ ?_ ?_
  · rw [expr_parts (Or.inr (Or.inr hn))]
    exact hn
  · rw [expr_parts (Or.inr (Or.inr hn))]
    exact (mapM_length _ _ _).trans hone
  · rw [htext, lineFeeds_eq hno, hunits]

/-- What an initializer is lowered to gives the value that is computed for it, from any object that
holds the members it is computed from. -/
theorem eval_folded (hself : w.named enum = .self) (houtside : names.contains enum = false)
    (hreads : Reads w c enum .self) (hknown : Knows o known names)
    (hn : ∀ k ∈ n.walk, Readable w c names k) (hv : evalEnum enum known n = some v) {d : Nat}
    (hdepth : n.count ≤ d) (st : State) :
    w.eval ((rules d).expr n (within c enum names) st).1 o = (constant v, o) ∧ Valid v := by
  induction hcount : n.count using Nat.strongRecOn generalizing n v d st with
  | _ size ih =>
    subst hcount
    have hpresent := isPresent_of_evalEnum hv
    have hr := hn n (walk_self hpresent)
    have hpos := count_pos hpresent
    obtain ⟨d, rfl⟩ : ∃ e, d = e + 1 := ⟨d - 1, by omega⟩
    -- a part that has a value gives it, from whatever state it is lowered
    have hpart {i : Nat} {x : EnumValue} (hx : evalEnum enum known (n.kid i) = some x)
        (st : State) :
        w.eval ((rules d).expr (n.kid i) (within c enum names) st).1 o = (constant x, o) ∧
          Valid x := by
      obtain ⟨-, hlt, hwalk⟩ := kid_of_isPresent (isPresent_of_evalEnum hx)
      exact ih _ hlt (fun k hk => hn k (hwalk k hk)) hx (by omega) st rfl
    -- so does the object
    have hobject (hkind : (n.kid 0).kind = .ident) (hname : (n.kid 0).text = enum) (st : State) :
        w.eval ((rules d).expr (n.kid 0) (within c enum names) st).1 o = (.self, o) := by
      have hpresent := isPresent_of_kind hkind (by decide)
      obtain ⟨-, hlt, hwalk⟩ := kid_of_isPresent hpresent
      have hmark := ((hn _ (hwalk _ (walk_self hpresent))).name hkind).2.2
      have hpos := count_pos hpresent
      obtain ⟨e, rfl⟩ : ∃ e, d = e + 1 := ⟨d - 1, by omega⟩
      exact eval_self hkind hname hmark houtside hreads st
    cases computed_of_evalEnum hv with
    | paren hkind hx =>
      obtain ⟨st', hkid⟩ :=
        kid_parts (d := d) (Or.inl hkind) (isPresent_of_evalEnum hx) (within c enum names) st
      have houter : ((rules (d + 1)).expr n (within c enum names) st).1.kind = .paren := by
        rw [expr_parts (Or.inl hkind)]
        exact hkind
      rw [World.eval_paren houter, hkid]
      exact hpart hx st'
    | literal hkind => exact eval_literal_folded hkind hr hv st
    | name hkind => exact eval_name hself hknown hkind hr hv st
    | template hkind hone hs => exact eval_template_folded hkind hone hs hr hdepth st
    | member hkind hident hname hfound =>
      have hkey := hr.member hkind
      have hpresent := isPresent_of_kind hkey (by decide)
      obtain ⟨hvalid, hplain, -⟩ :=
        (hn _ ((kid_of_isPresent hpresent).2.2 _ (walk_self hpresent))).name hkey
      obtain ⟨-, hvalue, hok⟩ := hknown _ _ hfound
      refine ⟨?_, hok⟩
      have houter := expr_member (d := d) hkind (within c enum names) st
      have hkid₀ := congrArg (fun m => m.kid 0) houter
      have hkid₁ := congrArg (fun m => m.kid 1) houter
      have hplace : w.place ((rules (d + 1)).expr n (within c enum names) st).1 o =
          (.slot .self (nameUnits (((rules (d + 1)).expr n (within c enum names) st).1.kid 1).text),
            o) :=
        World.place_member ((congrArg Node.kind houter).trans hkind)
          ((congrArg Node.kind hkid₁).trans hkey) (hkid₀ ▸ hobject hident hname st)
      rw [World.eval_of_place hplace, hkid₁]
      show (o (nameUnits (n.kid 1).text), o) = _
      rw [nameUnits_plain hvalid hplain, hvalue]
    | index hkind hident hname hfound =>
      unfold indexedMember? at hfound
      split at hfound
      · rename_i hkey
        rw [Bool.and_eq_true] at hkey
        obtain ⟨k, hunquote, hfound⟩ := Option.bind_eq_some_iff.1 hfound
        have hstring : evalEnum enum known (n.kid 1) = some (.str k) :=
          evalEnum_string (eq_of_beq hkey.1) (eq_of_beq hkey.2) hunquote
        obtain ⟨-, hvalue, hok⟩ := hknown _ _ hfound
        refine ⟨?_, hok⟩
        obtain ⟨st₀, hkid₀⟩ := kid_parts (d := d) (Or.inr (Or.inl hkind))
          (isPresent_of_kind hident (by decide)) (within c enum names) st
        obtain ⟨st₁, hkid₁⟩ := kid_parts (d := d) (Or.inr (Or.inl hkind))
          (isPresent_of_evalEnum hstring) (within c enum names) st
        have houter : ((rules (d + 1)).expr n (within c enum names) st).1.kind = .index := by
          rw [expr_parts (Or.inr (Or.inl hkind))]
          exact hkind
        rw [World.eval_of_place (World.place_index houter (hkid₀ ▸ hobject hident hname st₀)
          (hkid₁ ▸ (hpart hstring st₁).1))]
        exact congrArg (·, o) hvalue
      · cases hfound
    | @unary x y hkind hx hy =>
      have hop : n.op ≠ .kwDelete := by
        intro hop
        rw [hop] at hy
        cases hy
      refine ⟨?_, trivial⟩
      rw [expr_unary hkind hop]
      refine World.eval_unary hkind (hpart hx st).1 ?_
      show (EnumValue.unary? n.op x).map Value.num = _
      rw [hy]
      rfl
    | @binary x y _ hkind hx hy hcombine =>
      obtain ⟨harith, hbinary, hok⟩ := combine_constant (hpart hx st).2 (hpart hy st).2 hcombine
      have hop : n.op ≠ .questionQuestion := by
        intro hop
        rw [hop] at harith
        cases harith
      refine ⟨?_, hok⟩
      obtain ⟨st', hout⟩ := expr_binary (d := d) hkind hop (within c enum names) st
      rw [hout]
      split
      · rename_i hpower
        rw [Bool.and_eq_true] at hpower
        have hpow : n.op = .starStar := eq_of_beq hpower.1
        rw [hpow] at hcombine
        obtain ⟨a, b, z, rfl, rfl, hz, rfl⟩ := power_numbers hcombine
        exact World.eval_power rfl rfl eval_mathPow (hr.power hpow hpower.2 o)
          (hpart hx st).1 (hpart hy st').1 hz
      · exact World.eval_binary hkind harith (hpart hx st).1 (hpart hy st').1 hbinary

end

/-! ## The object that is built -/

@[simp] theorem Object.set_of_ne {k key : List Nat} (v : Value) (h : k ≠ key) :
    o.set key v k = o k := by
  unfold Object.set
  split
  · rfl
  · exact if_neg h

theorem Object.set_self {key : List Nat} (v : Value) (h : key ≠ text16 "__proto__") :
    o.set key v key = v := by
  unfold Object.set
  rw [if_neg h]
  exact if_pos rfl

section

variable {key : Bytes} {value : Node} {span : Span} {u : Value} {o₁ : Object}

/-- The assignment of a member sets its property. -/
theorem eval_set (hself : w.named enum = .self) (hkey : isValid key = true)
    (hvalue : w.eval value o = (u, o₁)) :
    w.eval (assign span (.new .index span [.ident enum span, Lower.string key span]) value) o =
      (u, o₁.set (text16 key) u) := by
  have hobject : w.eval (.ident enum span) o = (.self, o) := by
    rw [← hself]
    exact World.eval_ident rfl rfl
  have hplace : w.place (.new .index span [.ident enum span, Lower.string key span]) o =
      (.slot .self (Value.str (text16 key)).key, o) :=
        World.place_index rfl hobject (eval_string span hkey)
  exact World.eval_assign (n := assign span _ value) rfl rfl hplace hvalue

/-- A statement without an entry back sets the property of the member, … -/
theorem build_string (hself : w.named enum = .self) (hkey : isValid key = true)
    (hvalue : w.eval value o = (u, o₁)) :
    (w.eval ((setMember span enum key value true).kid 0) o).2 = o₁.set (text16 key) u :=
  congrArg Prod.snd (eval_set hself hkey hvalue)

/-- … and one with an entry back then enters the name of the member under its value. -/
theorem build_back (hself : w.named enum = .self) (hkey : isValid key = true)
    (hvalue : w.eval value o = (u, o₁)) :
    (w.eval ((setMember span enum key value false).kid 0) o).2 =
      (o₁.set (text16 key) u).set u.key (.str (text16 key)) := by
  have hobject : w.eval (.ident enum span) o = (.self, o) := by
    rw [← hself]
    exact World.eval_ident rfl rfl
  have hplace := World.place_index (n := .new .index span [.ident enum span,
    assign span (.new .index span [.ident enum span, Lower.string key span]) value]) rfl hobject
    (eval_set hself hkey hvalue)
  exact congrArg Prod.snd
    (World.eval_assign (n := assign span _ _) rfl rfl hplace (eval_string span hkey))

end

/-- The value under which a statement enters the name of a member. -/
def backValue? (stmt : Node) : Option Node :=
  let set := ((stmt.kid 0).kid 0).kid 1
  if set.kind == .assign then some (set.kid 1) else none

/-- Members that are kept apart: no two share a property, and none has one that the value of another
finds. -/
structure Apart (w : World) (s : EnumState) : Prop where
  /-- Names are texts. -/
  valid : ∀ k ∈ s.names, isValid k = true
  /-- They name different properties, … -/
  nodup : (s.names.map text16).Nodup
  /-- … and not the prototype. -/
  proto : text16 "__proto__" ∉ s.names.map text16
  /-- Constants are written so that they are read back. -/
  written : ∀ p ∈ s.known, Written p.2
  /-- A value whose entry back is made leaves the object alone and finds no member. -/
  back : ∀ stmt ∈ s.body, ∀ value, backValue? stmt = some value → ∀ o,
    (w.eval value o).2 = o ∧ (w.eval value o).1.key ∉ s.names.map text16

section

variable {s : EnumState} {g : Rules} {m : Node} {ms : List Node}

theorem Apart.of_push {key : Bytes} {span : Span} {v : Option EnumValue} {value : Node}
    (h : Apart w (s.push enum key span v value)) : Apart w s := by
  have hsub : s.names ⊆ (s.push enum key span v value).names := List.subset_append_left _ _
  have hnot {x : List Nat} (hx : x ∉ (s.push enum key span v value).names.map text16) :
      x ∉ s.names.map text16 := fun hmem => hx (List.map_subset text16 hsub hmem)
  refine ⟨fun k hk => h.valid k (hsub hk), ?_, hnot h.proto, ?_, ?_⟩
  · exact (h.nodup.sublist ((List.sublist_append_left _ _).map text16))
  · intro p hp
    refine h.written p ?_
    cases v with
    | none => exact hp
    | some v => exact List.mem_cons_of_mem _ hp
  · intro stmt hstmt value hvalue o
    obtain ⟨hobject, hkey⟩ := h.back stmt (List.mem_append_left _ hstmt) value hvalue o
    exact ⟨hobject, hnot hkey⟩

/-- What a member does to the state: nothing, a constant or another value. -/
theorem lowerEnumMember_cases (g : Rules) (enum : Bytes) (s : EnumState) (m : Node)
    (c : Context) (st : State) :
    ((lowerEnumMember g enum s m) c st).1 = s ∨
      (∃ key v, ((lowerEnumMember g enum s m) c st).1 =
          s.push enum key m.span (some v) (v.literal m.span)) ∨
      ∃ key value, ((lowerEnumMember g enum s m) c st).1 = s.push enum key m.span none value := by
  unfold lowerEnumMember
  cases memberName? (m.kid 0) with
  | none => exact Or.inl rfl
  | some key =>
    cases hinit : (m.kid 1).isPresent with
    | true =>
      cases hv : evalEnum enum s.known (m.kid 1) with
      | some v =>
        refine Or.inr (Or.inl ⟨key, v, ?_⟩)
        simp only [hinit, hv, if_true]
        rfl
      | none =>
        refine Or.inr
          (Or.inr ⟨key, (inScope (membersScope enum s.names) (g.expr (m.kid 1)) c st).1, ?_⟩)
        simp only [hinit, hv, if_true]
        rfl
    | false =>
      cases hnext : s.next with
      | some x =>
        refine Or.inr (Or.inl ⟨key, .num x, ?_⟩)
        simp only [hinit, Bool.false_eq_true, if_false]
        rfl
      | none =>
        refine Or.inl ?_
        simp only [hinit, Bool.false_eq_true, if_false]
        rfl

/-- Properties that other members have stay as they are. -/
theorem knows_update {key : Bytes} {known : KnownMembers} {o' : Object}
    (hknown : Knows o known names) (hupdate : ∀ k ∈ names, o' (text16 k) = o (text16 k)) :
    Knows o' known (names ++ [key]) := by
  intro k v hk
  obtain ⟨hmem, hvalue, hok⟩ := hknown k v hk
  have hmem' : k ∈ names := by simpa using hmem
  exact ⟨by simp [hmem'], (hupdate k hmem').trans hvalue, hok⟩

theorem distinct_of_push {key k : Bytes} {span : Span} {v : Option EnumValue} {value : Node}
    (h : Apart w (s.push enum key span v value)) (hk : k ∈ s.names) : text16 k ≠ text16 key := by
  have hnodup : ((s.names ++ [key]).map text16).Nodup := h.nodup
  rw [List.map_append, List.nodup_append] at hnodup
  exact hnodup.2.2 _ (List.mem_map_of_mem hk) _ List.mem_cons_self

/-- Entering a constant keeps what the object holds and adds it. -/
theorem knows_constant {key : Bytes} {span : Span} {v : EnumValue} (hself : w.named enum = .self)
    (h : Apart w (s.push enum key span (some v) (v.literal span)))
    (hknown : Knows o s.known s.names) :
    Knows (w.eval ((setMember span enum key (v.literal span) v.isString).kid 0) o).2
      ((key, v) :: s.known) (s.names ++ [key]) := by
  have hmem : key ∈ s.names ++ [key] := List.mem_append_right _ List.mem_cons_self
  have hkey : isValid key = true := h.valid key hmem
  have hproto : text16 key ≠ text16 "__proto__" := fun he => h.proto (he ▸ List.mem_map_of_mem hmem)
  have hnew : ∀ k ∈ s.names, text16 k ≠ text16 key := fun k hk => distinct_of_push h hk
  have hvalue : w.eval (v.literal span) o = (constant v, o) :=
    eval_constant span (h.written (key, v) List.mem_cons_self)
  have hok : Valid v := by
    cases v with
    | num x => trivial
    | str s => exact h.written (key, .str s) List.mem_cons_self
  -- the property of the member gets the value, and the properties of the others keep theirs
  suffices hset :
      ∃ o', (w.eval ((setMember span enum key (v.literal span) v.isString).kid 0) o).2 = o' ∧
      o' (text16 key) = constant v ∧ ∀ k ∈ s.names, o' (text16 k) = o (text16 k) by
    obtain ⟨o', hbuilt, hself', hothers⟩ := hset
    rw [hbuilt]
    intro k x hk
    by_cases hsame : key = k
    · subst hsame
      have hx : some v = some x := by simpa [KnownMembers.find] using hk
      cases hx
      exact ⟨by simp, hself', hok⟩
    · have hk : s.known.find k = some x := by simpa [KnownMembers.find, hsame] using hk
      exact knows_update hknown hothers k x hk
  cases v with
  | str t =>
    refine ⟨_, build_string hself hkey hvalue, Object.set_self _ hproto, fun k hk => ?_⟩
    exact Object.set_of_ne _ (hnew k hk)
  | num x =>
    have hback := (h.back _ (List.mem_append_right _ List.mem_cons_self)
      ((EnumValue.num x).literal span) rfl o).2
    rw [hvalue] at hback
    have hapart : ∀ k ∈ s.names ++ [key], text16 k ≠ (constant (.num x)).key := fun k hk he =>
      hback (he ▸ List.mem_map_of_mem hk)
    refine ⟨_, build_back hself hkey hvalue, ?_, fun k hk => ?_⟩
    · rw [Object.set_of_ne _ (hapart key hmem), Object.set_self _ hproto]
    · rw [Object.set_of_ne _ (hapart k (List.mem_append_left _ hk)), Object.set_of_ne _ (hnew k hk)]

/-- So does entering another value. -/
theorem knows_other {key : Bytes} {span : Span} {value : Node} (hself : w.named enum = .self)
    (h : Apart w (s.push enum key span none value)) (hknown : Knows o s.known s.names) :
    Knows (w.eval ((setMember span enum key value false).kid 0) o).2 s.known
    (s.names ++ [key]) := by
  have hmem : key ∈ s.names ++ [key] := List.mem_append_right _ List.mem_cons_self
  have hkey : isValid key = true := h.valid key hmem
  obtain ⟨hobject, hback⟩ := h.back _ (List.mem_append_right _ List.mem_cons_self) value rfl o
  have hvalue : w.eval value o = ((w.eval value o).1, o) := Prod.ext rfl hobject
  rw [build_back hself hkey hvalue]
  refine knows_update hknown fun k hk => ?_
  have hapart : text16 k ≠ (w.eval value o).1.key := fun he =>
    hback (he ▸ List.mem_map_of_mem (List.mem_append_left _ hk))
  rw [Object.set_of_ne _ hapart, Object.set_of_ne _ (distinct_of_push h hk)]

theorem build_append (w : World) (stmts : List Node) (stmt : Node) (o : Object) :
    w.build (stmts ++ [stmt]) o = (w.eval (stmt.kid 0) (w.build stmts o)).2 := by
  rw [World.build, List.foldl_append]
  rfl

theorem foldlM_concat (f : EnumState → Node → LowerM EnumState) (s : EnumState)
    (ms : List Node) (m : Node)
    (c : Context) (st : State) : (((ms ++ [m]).foldlM f s) c st).1 =
      ((f ((ms.foldlM f s) c st).1 m) c ((ms.foldlM f s) c st).2).1 := by
  rw [List.foldlM_append]
  have hone (t : EnumState) : [m].foldlM f t = f t m := by
    rw [List.foldlM_cons]
    exact bind_pure (f t m)
  show (([m].foldlM f ((ms.foldlM f s) c st).1) c ((ms.foldlM f s) c st).2).1 = _
  rw [hone]

/-- The object that the assignments of some members build holds their constants. -/
theorem knows_built (hself : w.named enum = .self) (g : Rules) (c : Context)
    (st : State) (ms : List Node)
    (o : Object) (h : Apart w ((ms.foldlM (lowerEnumMember g enum) {}) c st).1) :
    Knows (w.build ((ms.foldlM (lowerEnumMember g enum) {}) c st).1.body o)
      ((ms.foldlM (lowerEnumMember g enum) {}) c st).1.known
      ((ms.foldlM (lowerEnumMember g enum) {}) c st).1.names := by
  induction ms using List.reverseRecOn with
  | nil => exact fun k v hk => by cases hk
  | append_singleton ms m ih =>
    rw [foldlM_concat] at h ⊢
    rcases lowerEnumMember_cases g enum ((ms.foldlM (lowerEnumMember g enum) {}) c st).1 m c
      ((ms.foldlM (lowerEnumMember g enum) {}) c st).2 with hs | ⟨key, v, hs⟩ | ⟨key, value, hs⟩
    · rw [hs] at h ⊢
      exact ih h
    · rw [hs] at h ⊢
      have hbuilt := knows_constant hself h (ih h.of_push)
      rw [← build_append] at hbuilt
      exact hbuilt
    · rw [hs] at h ⊢
      have hbuilt := knows_other hself h (ih h.of_push)
      rw [← build_append] at hbuilt
      exact hbuilt

/-- The value computed for the initializer of a member is the one that its ordinary lowering gives
in the object that the members in front have built, entries back included, whatever the object held
before. -/
theorem folded_value {init : Node} {v : EnumValue} {d : Nat} {st st' : State}
    (hself : w.named enum = .self)
    (hs : ((ms.foldlM (lowerEnumMember (rules d) enum) {}) c st).1 = s) (hapart : Apart w s)
    (houtside : enum ∉ s.names) (hreads : Reads w c enum .self)
    (hinit : ∀ k ∈ init.walk, Readable w c s.names k) (hdepth : init.count ≤ d)
    (hv : evalEnum enum s.known init = some v) (o : Object) :
    w.eval (inScope (membersScope enum s.names) ((rules d).expr init) c st').1 (w.build s.body o) =
      (constant v, w.build s.body o) := by
  subst hs
  have hknown := knows_built hself (rules d) c st ms o hapart
  have hno :
      (((ms.foldlM (lowerEnumMember (rules d) enum) {}) c st).1.names).contains enum = false := by
    simpa using houtside
  exact (eval_folded hself hno hreads hknown hinit hv hdepth st').1

end

end

/-! ### An enumeration -/

/-- A member with its initializer, or with none. -/
def enumMember (name : Bytes) (init : Node) : Node := .new .enumMember {} [.ident name {}, init]

/-- The members `A = 1, B, S = 's', F = f()`. -/
def sampleMembers : List Node :=
  [enumMember "A" (number "1" {}), enumMember "B" .absent,
    enumMember "S" (Node.literal .stringLit "'s'" {}),
    enumMember "F" (Node.call {} (Node.ident "f" {}) [])]

/-- The initializer `E.S + E["A"] + (B << 4)`. -/
def sampleInit : Node :=
  bin {} .plus
    (bin {} .plus (Node.member (.ident "E" {}) "S" {})
      (.new .index {} [.ident "E" {}, Node.literal .stringLit "\"A\"" {}]))
    (paren (bin {} .shl (.ident "B" {}) (number "4" {})))

/-- A world in which `E` is the object and calls leave it alone. -/
def sampleWorld : World where
  named name := if name = ("E" : Bytes) then .self else .other []
  property _ _ := .other []
  isPower _ := false
  rest _ o := (.other (text16 "result"), o)

/-- The state behind the members. -/
def sampleState : EnumState := ((sampleMembers.foldlM (lowerEnumMember (rules 12) "E") {}) {} {}).1

theorem sample_apart : Apart sampleWorld sampleState where
  valid := by decide +kernel
  nodup := by decide +kernel
  proto := by decide +kernel
  written := by decide +kernel
  back := by
    have hcheck : ∀ stmt ∈ sampleState.body, ∀ value ∈ backValue? stmt, value.kind = .call ∨
        value.kind = .literal ∧ ∃ v ∈ literal? value.head,
          v.key ∉ sampleState.names.map text16 := by
      decide +kernel
    have hcall : text16 "result" ∉ sampleState.names.map text16 := by decide +kernel
    intro stmt hstmt value hvalue o
    rcases hcheck stmt hstmt value hvalue with hkind | ⟨hkind, v, hv, hkey⟩
    · have heval : sampleWorld.eval value o = (.other (text16 "result"), o) := by
        cases value with
        | absent => cases hkind
        | mk hd ks ds t a x =>
          rw [World.eval, World.place, show hd.kind = .call from hkind]
          rfl
      rw [heval]
      exact ⟨rfl, hcall⟩
    · rw [World.eval_literal hkind hv]
      exact ⟨rfl, hkey⟩

theorem sample_readable : ∀ k ∈ sampleInit.walk, Readable sampleWorld {} sampleState.names k := by
  have hname : ∀ k ∈ sampleInit.walk, k.kind = .ident →
      isValid k.text = true ∧ ascii '\\' ∉ k.text ∧ k.mark = 0 := by decide +kernel
  have hglobal : ∀ k ∈ sampleInit.walk, ∀ p ∈ globals.map Prod.fst, k.text ≠ p := by decide +kernel
  have hstring : ∀ k ∈ sampleInit.walk, k.kind = .literal → k.op = .stringLit →
      k.text = 34 :: ofCodePoints [65] ++ [34] := by decide +kernel
  have htemplate : ∀ k ∈ sampleInit.walk, k.kind ≠ .template := by decide +kernel
  have hmember : ∀ k ∈ sampleInit.walk, k.kind = .member → (k.kid 1).kind = .ident := by
    decide +kernel
  have hletter : Exact (ofCodePoints [65]) :=
    ⟨by decide, [65], by decide, by decide, by decide⟩
  refine fun k hk => ⟨hname k hk, ?_, ?_, ?_, ?_, hmember k hk, ?_⟩
  · exact fun _ p hp he => absurd he (hglobal k hk p.1 (List.mem_map_of_mem hp))
  · exact fun _ _ hold => by cases hold
  · exact fun hkind hop => ⟨34, _, Or.inl rfl, hstring k hk hkind hop, hletter⟩
  · exact fun hkind => absurd hkind (htemplate k hk)
  · exact fun _ hold => by cases hold

/-- Numbers, a string and a shift are computed from members that are read in three ways. -/
theorem folded_value_joined :
    Apart sampleWorld sampleState ∧
    (∀ k ∈ sampleInit.walk, Readable sampleWorld {} sampleState.names k) ∧
      (evalEnum "E" sampleState.known sampleInit).map constant = some (.str (text16 "s132")) ∧
      ∀ o, sampleWorld.eval
        (inScope (membersScope "E" sampleState.names) ((rules 12).expr sampleInit) {} {}).1
        (sampleWorld.build sampleState.body o) =
        (.str (text16 "s132"), sampleWorld.build sampleState.body o) := by
  have hvalue :
      (evalEnum "E" sampleState.known sampleInit).map constant = some (.str (text16 "s132")) := by
    decide +kernel
  refine ⟨sample_apart, sample_readable, hvalue, fun o => ?_⟩
  obtain ⟨v, hv, hconstant⟩ := Option.map_eq_some_iff.1 hvalue
  have hreads : Reads sampleWorld {} "E" .self := ⟨rfl, fun _ => rfl, fun s hs => by cases hs⟩
  have hbuilt :
      ((sampleMembers.foldlM (lowerEnumMember (rules 12) "E") {}) {} {}).1 = sampleState := rfl
  rw [← hconstant]
  exact folded_value rfl hbuilt sample_apart (by decide +kernel) hreads sample_readable
    (by decide +kernel)
    hv o

/-- The state behind the member `Infinity = 5`. -/
def infinityState : EnumState :=
  ((([enumMember "Infinity" (number "5" {})] : List Node).foldlM
    (lowerEnumMember (rules 12) "E") {}) {} {}).1

/-- A member of the name `Infinity` is not what is computed for its name: behind `Infinity = 5`, the
initializer `Infinity` is lowered to the property, which is five, and computed to be infinite. -/
theorem infinity_member_overlooked :
    (evalEnum "E" infinityState.known (.ident "Infinity" {})).map constant =
        some (.num (Number.infinity false)) ∧
      (∀ o, sampleWorld.eval
        (inScope (membersScope "E" infinityState.names) ((rules 12).expr (.ident "Infinity" {}))
            {} {}).1
        (sampleWorld.build infinityState.body o) =
        (.num (Binary64.ofNat 5), sampleWorld.build infinityState.body o)) ∧
      Number.infinity false ≠ Binary64.ofNat 5 := by
  have hcheck : ∀ stmt ∈ infinityState.body, ∀ value ∈ backValue? stmt, value.kind = .literal ∧
      ∃ v ∈ literal? value.head, v.key ∉ infinityState.names.map text16 := by decide +kernel
  have hapart : Apart sampleWorld infinityState := by
    refine ⟨by decide +kernel, by decide +kernel, by decide +kernel, by decide +kernel, ?_⟩
    intro stmt hstmt value hvalue o
    obtain ⟨hkind, v, hv, hkey⟩ := hcheck stmt hstmt value hvalue
    rw [World.eval_literal hkind hv]
    exact ⟨rfl, hkey⟩
  have hfound :
      (infinityState.known.find "Infinity").map constant = some (.num (Binary64.ofNat 5)) := by
    decide +kernel
  refine ⟨by decide +kernel, fun o => ?_, by decide +kernel⟩
  obtain ⟨v, hv, hconstant⟩ := Option.map_eq_some_iff.1 hfound
  obtain ⟨hmem, hvalue, -⟩ :=
    knows_built rfl (rules 12) {} {} [enumMember "Infinity" (number "5" {})] o
    hapart _ _ hv
  have hmem : infinityState.names.contains (Node.ident "Infinity" {}).text = true := hmem
  refine (eval_nameRef_member (c := {}) rfl hmem).trans (congrArg (·, _) ?_)
  refine Eq.trans ?_ (hvalue.trans hconstant)
  exact congrArg (sampleWorld.build infinityState.body o) (nameUnits_plain (by decide) (by decide))

end ScriptLower.Enumeration
