import ScriptLower.Proofs.Text.Quotes
import ScriptLower.Number.Literal
import ScriptLower.Lower.Enum

/-!
# Objects of enumerations

The code that fills the object of an enumeration, and the code that reads from it, run over the
properties of that object. A property is found by the UTF-16 units of its name. Numbers, strings and
their operators are what the language says, with the arithmetic of `EnumValue.binary?` and
`EnumValue.unary?`; whatever else code does is up to the world, which may change the object as well.

An expression first gives a place, from which its value is then loaded, since an assignment needs
the place that it sets.
-/

namespace ScriptLower.Enumeration

open ScriptLower Utf8 StringLiteral Lower

/-! ## Values -/

/-- A value that code meets with. -/
inductive Value
  /-- A number. -/
  | num (x : Float)
  /-- A string, by its UTF-16 units. -/
  | str (units : List Nat)
  /-- The object of the enumeration. -/
  | self
  /-- Another value, by the name of the property that it finds as a key. -/
  | other (name : List Nat)
  deriving DecidableEq

/-- A constant as a value. -/
def constant : EnumValue → Value
  | .num x => .num x
  | .str s => .str (text16 s)

namespace Value

/-- The text of a number or a string. -/
def text? : Value → Option (List Nat)
  | num x => some (text16 (Number.format x))
  | str units => some units
  | _ => none

/-- The name of the property that a value finds as a key. -/
def key : Value → List Nat
  | num x => text16 (Number.format x)
  | str units => units
  | self => text16 "[object Object]"
  | other name => name

/-- The result of a prefix operator on a number. -/
def unary? (op : TokenKind) : Value → Option Value
  | num x => (EnumValue.unary? op x).map num
  | _ => none

/-- The text of two numbers or strings, one behind the other. -/
def join? (a b : Value) : Option Value := do return str ((← a.text?) ++ (← b.text?))

/-- The result of an operator on two numbers, or on a string and a string or number. -/
def binary? (op : TokenKind) : Value → Value → Option Value
  | num x, num y => (EnumValue.binary? op x y).map num
  | a, b => if op == .plus then join? a b else none

end Value

/-- The properties of the object. -/
abbrev Object := List Nat → Value

/-- Sets a property. The name of the prototype keeps nothing. -/
def Object.set (o : Object) (key : List Nat) (v : Value) : Object :=
  if key = text16 "__proto__" then o else fun k => if k = key then v else o k

/-! ## Evaluation -/

/-- What code meets with. -/
structure World where
  /-- The values of the variables. -/
  named : Bytes → Value
  /-- The properties of other values. -/
  property : Value → List Nat → Value
  /-- Whether a value is the function that raises to a power. -/
  isPower : Value → Bool
  /-- What any other code comes to, and what it leaves of the object. -/
  rest : Node → Object → Value × Object

/-- Where a value comes from. -/
inductive Place
  /-- A value that has no place. -/
  | value (v : Value)
  /-- A property of a value. -/
  | slot (base : Value) (key : List Nat)

/-- The object behind an assignment to a place. -/
def Object.store (o : Object) (v : Value) : Place → Object
  | .slot .self key => o.set key v
  | _ => o

/-- The operators that need both operands as numbers or strings. -/
def isArithmetic (op : TokenKind) : Bool :=
  [.plus, .minus, .star, .slash, .percent, .starStar, .shl, .shr, .uShr, .amp,
    .pipe, .caret].contains op

/-- The units of a name, escapes decoded. -/
def nameUnits (name : Bytes) : List Nat := (bodyUnits name).getD (text16 name)

/-- The units of the value of a quoted literal. -/
def literalUnits : Bytes → Option (List Nat)
  | [] => none
  | q :: r =>
    if !r.isEmpty && r.getLast? == some q && (q == 34 || q == 39) then bodyUnits r.dropLast
      else none

/-- A text whose line ends are all line feeds, as a template has them. -/
def lineFeeds : Bytes → Bytes
  | 13 :: 10 :: r => 10 :: lineFeeds r
  | b :: r => (if b == 13 then 10 else b) :: lineFeeds r
  | [] => []

/-- The value of a number or string literal. -/
def literal? (h : Head) : Option Value :=
  match h.op with
  | .numberLit => if (Number.value h.text).2 then some (.num (Number.value h.text).1) else none
  | .stringLit => (literalUnits h.text).map .str
  | _ => none

theorem literal?_number {h : Head} {x : Float} (hop : h.op = .numberLit)
    (hx : Number.value h.text = (x, true)) : literal? h = some (.num x) := by
  unfold literal?
  rw [hop, hx]
  rfl

theorem literal?_string {h : Head} {us : List Nat} (hop : h.op = .stringLit)
    (hu : literalUnits h.text = some us) : literal? h = some (.str us) := by
  unfold literal?
  rw [hop, hu]
  rfl

namespace World

variable (w : World)

/-- The value in a place. -/
def load (o : Object) : Place → Value
  | .value v => v
  | .slot .self key => o key
  | .slot base key => w.property base key

/-- A value that is known, or else what the world makes of the code. -/
def orRest (n : Node) (o : Object) : Option Value → Place × Object
  | some v => (.value v, o)
  | none => (.value (w.rest n o).1, (w.rest n o).2)

mutual

/-- The place that an expression gives, and the object behind it. -/
def place : Node → Object → Place × Object
  | .absent, o => w.orRest .absent o none
  | .mk h ks ds t a x, o =>
    let n := Node.mk h ks ds t a x
    match h.kind with
    | .paren => placeAt 0 ks o
    | .literal => w.orRest n o (literal? h)
    | .template =>
      w.orRest n o
        (if ks.length == 1 then (bodyUnits (lineFeeds (ks.getD 0 .absent).text)).map .str else none)
    | .ident => w.orRest n o (if h.mark == 0 then some (w.named h.text) else none)
    | .member =>
      if (ks.getD 1 .absent).kind == .ident then
        let (p, o₁) := placeAt 0 ks o
        (Place.slot (w.load o₁ p) (nameUnits (ks.getD 1 .absent).text), o₁)
      else w.orRest n o none
    | .index =>
      let (p, o₁) := placeAt 0 ks o
      let (q, o₂) := placeAt 1 ks o₁
      (Place.slot (w.load o₁ p) (w.load o₂ q).key, o₂)
    | .unary =>
      let (p, o₁) := placeAt 0 ks o
      w.orRest n o₁ (Value.unary? h.op (w.load o₁ p))
    | .binary =>
      if isArithmetic h.op then
        let (p, o₁) := placeAt 0 ks o
        let (q, o₂) := placeAt 1 ks o₁
        w.orRest n o₂ (Value.binary? h.op (w.load o₁ p) (w.load o₂ q))
      else w.orRest n o none
    | .call =>
      let (f, o₁) := placeAt 0 ks o
      if w.isPower (w.load o₁ f) && ks.length == 3 then
        let (p, o₂) := placeAt 1 ks o₁
        let (q, o₃) := placeAt 2 ks o₂
        match w.load o₂ p, w.load o₃ q with
        | .num x, .num y => w.orRest n o₃ ((EnumValue.binary? .starStar x y).map .num)
        | _, _ => w.orRest n o₃ none
      else w.orRest n o none
    | .assign =>
      if h.op == .assign then
        let (p, o₁) := placeAt 0 ks o
        let (q, o₂) := placeAt 1 ks o₁
        (Place.value (w.load o₂ q), o₂.store (w.load o₂ q) p)
      else w.orRest n o none
    | _ => w.orRest n o none

/-- The place that an expression of a list gives. -/
def placeAt : Nat → List Node → Object → Place × Object
  | _, [], o => w.orRest .absent o none
  | 0, n :: _, o => place n o
  | i + 1, _ :: r, o => placeAt i r o

end

attribute [local simp] place

/-- The value of an expression, and the object behind it. -/
def eval (n : Node) (o : Object) : Value × Object :=
  (w.load (w.place n o).2 (w.place n o).1, (w.place n o).2)

/-- The object behind statements that are expressions. -/
def build (stmts : List Node) (o : Object) : Object :=
  stmts.foldl (fun o n => (w.eval (n.kid 0) o).2) o

/-! ### Kinds of expressions -/

theorem placeAt_eq (i : Nat) (ks : List Node) (o : Object) :
    w.placeAt i ks o = w.place (ks.getD i .absent) o := by
  induction ks generalizing i with
  | nil => cases i <;> simp [placeAt, place]
  | cons n ks ih =>
    cases i with
    | zero => rfl
    | succ i => exact ih i

variable {w} {n : Node} {o : Object} {v : Value}

theorem place_paren (h : n.kind = .paren) : w.place n o = w.place (n.kid 0) o := by
  cases n with
  | absent => contradiction
  | mk hd ks ds t a x =>
    rw [place, show hd.kind = .paren from h]
    exact placeAt_eq w 0 ks o

theorem eval_paren (h : n.kind = .paren) : w.eval n o = w.eval (n.kid 0) o := by
  rw [eval, eval, place_paren h]

theorem eval_literal (h : n.kind = .literal) (hv : literal? n.head = some v) :
    w.eval n o = (v, o) := by
  cases n with
  | absent => contradiction
  | mk hd ks ds t a x =>
    rw [eval, place, show hd.kind = .literal from h]
    simp only [show literal? hd = some v from hv]
    rfl

theorem eval_template (h : n.kind = .template) (hone : n.kids.length = 1) {us : List Nat}
    (hu : bodyUnits (lineFeeds (n.kid 0).text) = some us) : w.eval n o = (.str us, o) := by
  cases n with
  | absent => contradiction
  | mk hd ks ds t a x =>
    have hone : ks.length = 1 := hone
    have hu : bodyUnits (lineFeeds (ks.getD 0 .absent).text) = some us := hu
    rw [eval, place, show hd.kind = .template from h]
    simp only [hone, hu]
    rfl

theorem eval_ident (h : n.kind = .ident) (hmark : n.mark = 0) :
    w.eval n o = (w.named n.text, o) := by
  cases n with
  | absent => contradiction
  | mk hd ks ds t a x =>
    rw [eval, place, show hd.kind = .ident from h]
    simp only [show hd.mark = 0 from hmark]
    rfl

theorem place_member (h : n.kind = .member) (hkey : (n.kid 1).kind = .ident) {base : Value}
    (hbase : w.eval (n.kid 0) o = (base, o)) :
    w.place n o = (.slot base (nameUnits (n.kid 1).text), o) := by
  cases n with
  | absent => contradiction
  | mk hd ks ds t a x =>
    have hbase : w.eval (ks.getD 0 .absent) o = (base, o) := hbase
    have hkey : (ks.getD 1 .absent).kind = .ident := hkey
    rw [eval, Prod.mk.injEq] at hbase
    obtain ⟨hload, hobject⟩ := hbase
    rw [hobject] at hload
    rw [place, show hd.kind = .member from h]
    simp only [hkey, placeAt_eq, hobject, hload]
    rfl

theorem place_index {o₁ o₂ : Object} {base key : Value} (h : n.kind = .index)
    (hbase : w.eval (n.kid 0) o = (base, o₁)) (hkey : w.eval (n.kid 1) o₁ = (key, o₂)) :
    w.place n o = (.slot base key.key, o₂) := by
  cases n with
  | absent => contradiction
  | mk hd ks ds t a x =>
    have hbase : w.eval (ks.getD 0 .absent) o = (base, o₁) := hbase
    have hkey : w.eval (ks.getD 1 .absent) o₁ = (key, o₂) := hkey
    rw [eval, Prod.mk.injEq] at hbase hkey
    obtain ⟨hload, hobject⟩ := hbase
    obtain ⟨hload', hobject'⟩ := hkey
    rw [hobject] at hload
    rw [hobject'] at hload'
    rw [place, show hd.kind = .index from h]
    simp only [placeAt_eq, hobject, hload, hobject', hload']

theorem eval_unary (h : n.kind = .unary) {x : Value} (hx : w.eval (n.kid 0) o = (x, o))
    (hv : Value.unary? n.op x = some v) : w.eval n o = (v, o) := by
  cases n with
  | absent => contradiction
  | mk hd ks ds t a y =>
    have hx : w.eval (ks.getD 0 .absent) o = (x, o) := hx
    have hv : Value.unary? hd.op x = some v := hv
    rw [eval, Prod.mk.injEq] at hx
    obtain ⟨hload, hobject⟩ := hx
    rw [hobject] at hload
    rw [eval, place, show hd.kind = .unary from h]
    simp only [placeAt_eq, hobject, hload, hv]
    rfl

theorem eval_binary (h : n.kind = .binary) (hop : isArithmetic n.op = true) {x y : Value}
    (hx : w.eval (n.kid 0) o = (x, o)) (hy : w.eval (n.kid 1) o = (y, o))
    (hv : Value.binary? n.op x y = some v) : w.eval n o = (v, o) := by
  cases n with
  | absent => contradiction
  | mk hd ks ds t a z =>
    have hx : w.eval (ks.getD 0 .absent) o = (x, o) := hx
    have hy : w.eval (ks.getD 1 .absent) o = (y, o) := hy
    have hop : isArithmetic hd.op = true := hop
    have hv : Value.binary? hd.op x y = some v := hv
    rw [eval, Prod.mk.injEq] at hx hy
    obtain ⟨hload, hobject⟩ := hx
    obtain ⟨hload', hobject'⟩ := hy
    rw [hobject] at hload
    rw [hobject'] at hload'
    rw [eval, place, show hd.kind = .binary from h]
    simp only [placeAt_eq, hop, hobject, hload, hobject', hload', hv]
    rfl

theorem eval_power {f : Value} {x y z : Float} (h : n.kind = .call) (hthree : n.kids.length = 3)
    (hf : w.eval (n.kid 0) o = (f, o)) (hpower : w.isPower f = true)
    (hx : w.eval (n.kid 1) o = (.num x, o)) (hy : w.eval (n.kid 2) o = (.num y, o))
    (hz : EnumValue.binary? .starStar x y = some z) : w.eval n o = (.num z, o) := by
  cases n with
  | absent => contradiction
  | mk hd ks ds t a r =>
    have hf : w.eval (ks.getD 0 .absent) o = (f, o) := hf
    have hx : w.eval (ks.getD 1 .absent) o = (.num x, o) := hx
    have hy : w.eval (ks.getD 2 .absent) o = (.num y, o) := hy
    have hthree : ks.length = 3 := hthree
    rw [eval, Prod.mk.injEq] at hf hx hy
    obtain ⟨hload, hobject⟩ := hf
    obtain ⟨hload', hobject'⟩ := hx
    obtain ⟨hload'', hobject''⟩ := hy
    rw [hobject] at hload
    rw [hobject'] at hload'
    rw [hobject''] at hload''
    rw [eval, place, show hd.kind = .call from h]
    simp only [placeAt_eq, hthree, hobject, hload, hpower, hobject', hload', hobject'', hload'', hz]
    rfl

theorem eval_assign {o₁ o₂ : Object} {p : Place} (h : n.kind = .assign) (hop : n.op = .assign)
    (hp : w.place (n.kid 0) o = (p, o₁)) (hv : w.eval (n.kid 1) o₁ = (v, o₂)) :
    w.eval n o = (v, o₂.store v p) := by
  cases n with
  | absent => contradiction
  | mk hd ks ds t a x =>
    have hp : w.place (ks.getD 0 .absent) o = (p, o₁) := hp
    have hv : w.eval (ks.getD 1 .absent) o₁ = (v, o₂) := hv
    rw [eval, Prod.mk.injEq] at hv
    obtain ⟨hload, hobject⟩ := hv
    rw [hobject] at hload
    rw [eval, place, show hd.kind = .assign from h]
    simp only [placeAt_eq, show hd.op = .assign from hop, hp, hobject, hload]
    rfl

theorem eval_of_place {p : Place} {o₁ : Object} (h : w.place n o = (p, o₁)) :
    w.eval n o = (w.load o₁ p, o₁) := by rw [eval, h]

end World

/-! ## The text of numbers -/

theorem isValid_ascii {s : Bytes} (h : ∀ b ∈ s, b.toNat < 0x80) : isValid s = true := by
  have hcodes : ∀ c ∈ s.map UInt8.toNat, c < 0x80 := by simpa using h
  have hs : ofCodePoints (s.map UInt8.toNat) = s := by
    rw [ofCodePoints_map_ascii hcodes, List.map_map]
    refine (List.map_congr_left fun b _ => ?_).trans (List.map_id s)
    exact UInt8.ofNat_toNat
  rw [← hs]
  exact isValid_ofCodePoints fun c hc => Or.inl (by have := hcodes c hc; omega)

theorem ascii_ofNat (n : Nat) : ∀ b ∈ Bytes.ofNat n, b.toNat < 0x80 := by
  intro b hb
  obtain ⟨d, hd, rfl⟩ := List.mem_map.1 hb
  have hdigit := Nat.isDigit_of_mem_toDigits (by decide) (by decide) hd
  rw [Char.isDigit, Bool.and_eq_true, decide_eq_true_eq, decide_eq_true_eq] at hdigit
  have hle : d.toNat ≤ 57 := hdigit.2
  show d.toNat.toUInt8.toNat < 0x80
  rw [Nat.toUInt8, UInt8.toNat_ofNat']
  exact Nat.lt_of_le_of_lt (Nat.mod_le _ _) (by omega)

theorem ascii_positional (d : Shortest.Decimal) : ∀ b ∈ d.positional, b.toNat < 0x80 := by
  have hdigits : ∀ b ∈ d.text, b.toNat < 0x80 := ascii_ofNat d.digits
  unfold Shortest.Decimal.positional
  intro b hb
  dsimp only at hb
  split at hb
  · rcases List.mem_append.1 hb with hb | hb
    · exact hdigits b hb
    · rw [List.eq_of_mem_replicate hb]
      decide
  split at hb
  · rcases List.mem_append.1 hb with hb | hb
    · exact hdigits b (List.mem_of_mem_take hb)
    · rcases List.mem_cons.1 hb with rfl | hb
      · decide
      · exact hdigits b (List.mem_of_mem_drop hb)
  · rcases List.mem_cons.1 hb with rfl | hb
    · decide
    rcases List.mem_cons.1 hb with rfl | hb
    · decide
    rcases List.mem_append.1 hb with hb | hb
    · rw [List.eq_of_mem_replicate hb]
      decide
    · exact hdigits b hb

theorem ascii_significand (d : Shortest.Decimal) : ∀ b ∈ d.significand, b.toNat < 0x80 := by
  have hdigits : ∀ b ∈ d.text, b.toNat < 0x80 := ascii_ofNat d.digits
  unfold Shortest.Decimal.significand
  intro b hb
  split at hb
  · cases hb
  · rename_i a htext
    exact hdigits b (htext ▸ hb)
  · rename_i a r _ htext
    rw [htext] at hdigits
    rcases List.mem_cons.1 hb with rfl | hb
    · exact hdigits _ List.mem_cons_self
    rcases List.mem_cons.1 hb with rfl | hb
    · decide
    · exact hdigits b (List.mem_cons_of_mem _ hb)

/-- The text of a number is plain. -/
theorem isValid_format (x : Float) : isValid (Number.format x) = true := by
  refine isValid_ascii ?_
  unfold Number.format
  split
  · split
    · decide
    · split <;> decide
  rename_i negative m q _
  split
  · decide
  have hsigned (body : Bytes) (hbody : ∀ b ∈ body, b.toNat < 0x80) :
      ∀ b ∈ (if negative then ascii '-' :: body else body), b.toNat < 0x80 := by
    cases negative
    · exact hbody
    · exact List.forall_mem_cons.2 ⟨by decide, hbody⟩
  refine hsigned _ ?_
  split
  · exact ascii_positional _
  split
  · exact List.forall_mem_append.2
      ⟨List.forall_mem_append.2 ⟨ascii_significand _, by decide⟩, ascii_ofNat _⟩
  · exact List.forall_mem_append.2
      ⟨List.forall_mem_append.2 ⟨ascii_significand _, by decide⟩, ascii_ofNat _⟩

/-! ## Texts -/

theorem nameUnits_plain {name : Bytes} (hvalid : isValid name = true) (hplain : ascii '\\' ∉ name) :
    nameUnits name = text16 name := by
  obtain ⟨cs, hcs, rfl⟩ := exists_ofCodePoints hvalid
  have hno : ∀ c ∈ cs, c ≠ 92 := by
    rintro c hc rfl
    exact hplain (List.mem_flatMap.2 ⟨92, hc, List.mem_singleton.2 rfl⟩)
  rw [nameUnits, bodyUnits, unitsFrom_plain hcs hno, Option.map_some, Option.getD_some, text16,
    codePoints_ofCodePoints hcs]

/-- The units of a valid text behind another are theirs, one behind the other. -/
theorem text16_append {s t : Bytes} (hs : isValid s = true) (ht : isValid t = true) :
    isValid (s ++ t) = true ∧ text16 (s ++ t) = text16 s ++ text16 t := by
  obtain ⟨cs, hcs, rfl⟩ := exists_ofCodePoints hs
  obtain ⟨ds, hds, rfl⟩ := exists_ofCodePoints ht
  have hall : ∀ c ∈ cs ++ ds, IsCharacter c := List.forall_mem_append.2 ⟨hcs, hds⟩
  rw [← ofCodePoints_append]
  refine ⟨isValid_ofCodePoints hall, ?_⟩
  rw [text16, text16, text16, codePoints_ofCodePoints hcs, codePoints_ofCodePoints hds,
    codePoints_ofCodePoints hall, List.flatMap_append]

theorem lineFeeds_eq {s : Bytes} (h : 13 ∉ s) : lineFeeds s = s := by
  induction s with
  | nil => rfl
  | cons b s ih =>
    have hb : b ≠ 13 := fun hb => h (hb ▸ List.mem_cons_self)
    have hrest : lineFeeds (b :: s) = (if b == 13 then 10 else b) :: lineFeeds s := by
      rw [lineFeeds]
      rintro r rfl -
      exact hb rfl
    rw [hrest, if_neg (by simpa using hb), ih fun hs => h (List.mem_cons_of_mem _ hs)]

/-- The value of a literal with an exact body has its units. -/
theorem literalUnits_exact {q : UInt8} (hq : q = 34 ∨ q = 39) {body : Bytes} (h : Exact body) :
    ∃ t, unquote (q :: body ++ [q]) = some t ∧ isValid t = true ∧
      literalUnits (q :: body ++ [q]) = some (text16 t) := by
  obtain ⟨t, hcook, hvalid, hunits⟩ := h.cook
  refine ⟨t, (unquote_quoted hq body).trans hcook, hvalid, ?_⟩
  have hquoted :
      (!(body ++ [q]).isEmpty && (body ++ [q]).getLast? == some q && (q == 34 || q == 39)) =
      true := by
    rcases hq with rfl | rfl <;> simp
  exact (if_pos hquoted).trans ((congrArg bodyUnits List.dropLast_concat).trans hunits)

end ScriptLower.Enumeration
