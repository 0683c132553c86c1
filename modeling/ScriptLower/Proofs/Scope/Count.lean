import ScriptLower.Lower.Program
import ScriptLower.Proofs.Lower.Versions
import Mathlib.Algebra.GroupWithZero.Nat

/-!
# Scopes of generated names

A generated name is declared by a variable at the head of a function, a static block or a program,
by an imported name, or as the parameter of a handler. A variable holds in the body whose statement
it is, and so not in the parameters of its function; an imported name holds in the program, and a
parameter in its handler.

For one mark, `loose` counts the uses of the mark in a tree that no declaration in the tree covers,
and `declared` counts its declarations.
-/

namespace ScriptLower

/-! ## Uses and declarations -/

/-- Whether a node is a use of a mark. -/
def Node.isUse (x : Nat) (n : Node) : Bool := n.kind == .ident && n.mark == x

/-- Whether a statement declares a mark, as a variable or as an imported name. -/
def Node.introduces (x : Nat) (n : Node) : Bool :=
  match n.kind with
  | .varDecl => n.text == Bytes.ofString "var"
    && n.kids.any fun d => d.kind == .declarator && (d.kid 0).isUse x
  | .importDecl => n.kids.any fun d => d.kind == .importSpec && (d.kid 1).isUse x
  | _ => false

/-- The place of the body of a function or a static block, if it is made of statements. -/
def Head.bodyAt? (h : Head) : Option Nat :=
  match h.kind with
  | .funcDecl | .funcExpr | .method => some 2
  | .arrow => if h.flags.exprBody then none else some 1
  | .staticBlock => some 0
  | _ => none

/-- Whether a child at a place is a body that declares a mark. -/
def Head.bodyDeclares (x : Nat) (h : Head) (i : Nat) (k : Node) : Bool :=
  h.bodyAt? == some i && k.kids.any (Node.introduces x)

/-- Whether a node declares a mark for all its children: a program that introduces it, or a handler
whose parameter it is. -/
def Head.declaresFor (x : Nat) (h : Head) (kids : List Node) : Bool :=
  match h.kind with
  | .program => kids.any (Node.introduces x)
  | .catchClause => (kids.getD 0 .absent).isUse x
  | _ => false

/-- Which child of a node is a name that the node declares, if there is one. -/
def NodeKind.nameAt? : NodeKind → Option Nat
  | .declarator | .catchClause => some 0
  | .importSpec => some 1
  | _ => none

/-- Kinds of nodes that neither are a use of a mark nor cover or declare one. -/
@[simp] def NodeKind.isOpen (k : NodeKind) : Bool :=
  k ∉ [.ident, .program, .catchClause, .funcDecl, .funcExpr, .method, .arrow, .staticBlock,
    .declarator, .importSpec]

/-- How often a node itself declares a mark. -/
def Head.declares (x : Nat) (h : Head) (kids : List Node) : Nat :=
  match h.kind.nameAt? with
  | some i => if (kids.getD i .absent).isUse x then 1 else 0
  | none => 0

namespace Node

mutual

/-- How many uses of a mark in a tree no declaration in the tree covers. -/
def loose (x : Nat) : Node → Nat
  | absent => 0
  | mk h ks ds t a y =>
    (if h.kind == .ident && h.mark == x then 1 else 0)
      + (if h.declaresFor x ks then 0 else looseKids x h 0 ks)
      + looseKids x {} 0 ds + loose x t + loose x a + loose x y

/-- How many uses of a mark in the children of a node, from a place on, no declaration in a child or
in the body covers. -/
def looseKids (x : Nat) (h : Head) : Nat → List Node → Nat
  | _, [] => 0
  | i, k :: r => (if h.bodyDeclares x i k then 0 else loose x k) + looseKids x h (i + 1) r

end

mutual

/-- How many declarations of a mark a tree holds. -/
def declared (x : Nat) : Node → Nat
  | absent => 0
  | mk h ks ds t a y =>
    h.declares x ks + declaredAll x ks + declaredAll x ds + declared x t + declared x a
      + declared x y

/-- How many declarations of a mark some trees hold. -/
def declaredAll (x : Nat) : List Node → Nat
  | [] => 0
  | k :: r => declared x k + declaredAll x r

end

/-- How many uses of a mark no declaration in some trees covers. -/
def looseAll (x : Nat) (ks : List Node) : Nat := (ks.map (loose x)).sum

section

variable {x : Nat} {h : Head} {n k : Node} {ks rs : List Node}

@[simp] theorem loose_absent : loose x absent = 0 := rfl

@[simp] theorem declared_absent : declared x absent = 0 := rfl

@[simp] theorem looseAll_nil : looseAll x [] = 0 := rfl

@[simp] theorem looseAll_cons : looseAll x (k :: ks) = loose x k + looseAll x ks := rfl

@[simp] theorem looseAll_append : looseAll x (ks ++ rs) = looseAll x ks + looseAll x rs := by
  simp [looseAll]

@[simp] theorem declaredAll_nil : declaredAll x [] = 0 := rfl

@[simp] theorem declaredAll_cons : declaredAll x (k :: ks) = declared x k + declaredAll x ks := rfl

@[simp] theorem declaredAll_append :
    declaredAll x (ks ++ rs) = declaredAll x ks + declaredAll x rs := by
  induction ks with
  | nil => simp
  | cons k ks ih => simp [ih, Nat.add_assoc]

/-- A body covers uses in it; what is left is at most what all children have. -/
theorem looseKids_le (x : Nat) (h : Head) (i : Nat) (ks : List Node) :
    looseKids x h i ks ≤ looseAll x ks := by
  induction ks generalizing i with
  | nil => exact Nat.le_refl _
  | cons k ks ih =>
    rw [looseKids, looseAll_cons]
    have hrest := ih (i + 1)
    split <;> omega

/-- Where no body stands nothing is covered. -/
theorem looseKids_eq (hb : h.bodyAt? = none) (i : Nat) (ks : List Node) :
    looseKids x h i ks = looseAll x ks := by
  induction ks generalizing i with
  | nil => rfl
  | cons k ks ih =>
    have hnone : h.bodyDeclares x i k = false := by simp [Head.bodyDeclares, hb]
    rw [looseKids, looseAll_cons, hnone, ih]
    rfl

/-! ### Nodes that are built -/

theorem loose_mk (x : Nat) (h : Head) (ks ds : List Node) :
    loose x (mk h ks ds absent absent absent) =
      (if h.kind == .ident && h.mark == x then 1 else 0)
        + (if h.declaresFor x ks then 0 else looseKids x h 0 ks) + looseAll x ds := by
  rw [loose, looseKids_eq (h := {}) rfl]
  rfl

theorem loose_ofHead_le (hm : h.mark ≠ x) (ks : List Node) :
    loose x (ofHead h ks) ≤ looseAll x ks := by
  have hkids := looseKids_le x h 0 ks
  have hown : (h.kind == .ident && h.mark == x) = false := by simp [hm]
  rw [ofHead, loose_mk, hown]
  simp only [Bool.false_eq_true, if_false, looseAll_nil]
  split <;> omega

theorem declared_ofHead (x : Nat) (h : Head) (ks : List Node) :
    declared x (ofHead h ks) = h.declares x ks + declaredAll x ks := by
  simp [ofHead, declared]

theorem isUse_of_mark (hm : n.mark = 0) (hx : x ≠ 0) : n.isUse x = false := by
  simp [isUse, hm, Ne.symm hx]

theorem bodyAt?_of_open (hk : h.kind.isOpen = true) : h.bodyAt? = none := by
  unfold Head.bodyAt?
  split <;> simp_all

theorem declaresFor_of_open (hk : h.kind.isOpen = true) : h.declaresFor x ks = false := by
  unfold Head.declaresFor
  split <;> simp_all

theorem loose_ofHead (hk : h.kind.isOpen = true) : loose x (ofHead h ks) = looseAll x ks := by
  have hkind : h.kind ≠ .ident := by
    intro he
    simp [he] at hk
  rw [ofHead, loose_mk, declaresFor_of_open hk, looseKids_eq (bodyAt?_of_open hk)]
  simp [hkind]

theorem declares_of_open (hk : h.kind.isOpen = true) : h.declares x ks = 0 := by
  have hname : h.kind.nameAt? = none := by
    unfold NodeKind.nameAt?
    split <;> simp_all
  simp [Head.declares, hname]

theorem declares_of_unmarked (hx : x ≠ 0) (hks : ∀ k ∈ ks, k.mark = 0) : h.declares x ks = 0 := by
  unfold Head.declares
  split
  · rename_i i _
    have hmark : (ks.getD i .absent).mark = 0 := by
      rw [List.getD_eq_getElem?_getD]
      cases hget : ks[i]? with
      | none => rfl
      | some k => exact hks k (List.mem_of_getElem? hget)
    rw [isUse_of_mark hmark hx]
    rfl
  · rfl

@[simp] theorem loose_new {kind : NodeKind} {span : Span} (hk : kind.isOpen = true) :
    loose x (new kind span ks) = looseAll x ks := loose_ofHead hk

@[simp] theorem declared_new {kind : NodeKind} {span : Span} (hk : kind.isOpen = true) :
    declared x (new kind span ks) = declaredAll x ks := by
  have hzero : Head.declares x { kind := kind, span := span } ks = 0 := declares_of_open hk
  rw [new, declared_ofHead, hzero, Nat.zero_add]

@[simp] theorem loose_newOp {kind : NodeKind} {op : TokenKind} {span : Span}
    (hk : kind.isOpen = true) : loose x (newOp kind op span ks) = looseAll x ks := loose_ofHead hk

@[simp] theorem declared_newOp {kind : NodeKind} {op : TokenKind} {span : Span}
    (hk : kind.isOpen = true) : declared x (newOp kind op span ks) = declaredAll x ks := by
  have hzero : Head.declares x { kind := kind, op := op, span := span } ks = 0 :=
    declares_of_open hk
  rw [newOp, declared_ofHead, hzero, Nat.zero_add]

/-- A leaf declares nothing. -/
theorem declared_ofHead_nil (x : Nat) (h : Head) : declared x (ofHead h []) = 0 := by
  have hzero : h.declares x [] = 0 := by
    unfold Head.declares
    split <;> rfl
  rw [declared_ofHead, hzero]
  rfl

theorem loose_ofHead_nil (hm : h.mark ≠ x) : loose x (ofHead h []) = 0 :=
  Nat.le_zero.1 (loose_ofHead_le hm [])

theorem loose_newText {kind : NodeKind} {span : Span} {text : Bytes} (hx : x ≠ 0) :
    loose x (newText kind span text) = 0 := loose_ofHead_nil (Ne.symm hx)

@[simp] theorem declared_newText {kind : NodeKind} {span : Span} {text : Bytes} :
    declared x (newText kind span text) = 0 := declared_ofHead_nil x _

theorem loose_ident {name : Bytes} {span : Span} (hx : x ≠ 0) : loose x (ident name span) = 0 :=
  loose_newText hx

@[simp] theorem declared_ident {name : Bytes} {span : Span} : declared x (ident name span) = 0 :=
  declared_newText

@[simp] theorem loose_literal {op : TokenKind} {raw : Bytes} {span : Span} :
    loose x (literal op raw span) = 0 := loose_ofHead (by simp)

@[simp] theorem declared_literal {op : TokenKind} {raw : Bytes} {span : Span} :
    declared x (literal op raw span) = 0 := declared_ofHead_nil x _

@[simp] theorem loose_keyword {op : TokenKind} {span : Span} : loose x (keyword op span) = 0 :=
  loose_literal

@[simp] theorem declared_keyword {op : TokenKind} {span : Span} :
    declared x (keyword op span) = 0 :=
  declared_literal

theorem loose_member {name : Bytes} {span : Span} (hx : x ≠ 0) :
    loose x (member n name span) = loose x n := by
  simp [member, loose_ident hx]

@[simp] theorem declared_member {name : Bytes} {span : Span} :
    declared x (member n name span) = declared x n := by
  simp [member]

@[simp] theorem loose_call {span : Span} :
    loose x (call span n ks) = loose x n + looseAll x ks := by
  simp [call]

@[simp] theorem declared_call {span : Span} :
    declared x (call span n ks) = declared x n + declaredAll x ks := by
  simp [call]

/-- A use of a mark is loose. -/
@[simp] theorem loose_marked {name : Bytes} {m : Nat} :
    loose x (marked name m) = if m = x then 1 else 0 := by
  have hfor : Head.declaresFor x
      { kind := .ident, text := name, mark := m, flags := { synth := true } } [] =
      false := rfl
  rw [marked, ofHead, loose_mk, hfor, looseKids_eq rfl]
  simp

@[simp] theorem declared_marked {name : Bytes} {m : Nat} : declared x (marked name m) = 0 :=
  declared_ofHead_nil x _

/-! ### Parts of nodes -/

theorem le_looseAll (hk : k ∈ ks) : loose x k ≤ looseAll x ks := by
  induction ks with
  | nil => cases hk
  | cons k' ks ih =>
    rw [looseAll_cons]
    rcases List.mem_cons.1 hk with rfl | hk
    · exact Nat.le_add_right _ _
    · exact Nat.le_trans (ih hk) (Nat.le_add_left _ _)

theorem le_declaredAll (hk : k ∈ ks) : declared x k ≤ declaredAll x ks := by
  induction ks with
  | nil => cases hk
  | cons k' ks ih =>
    rw [declaredAll_cons]
    rcases List.mem_cons.1 hk with rfl | hk
    · exact Nat.le_add_right _ _
    · exact Nat.le_trans (ih hk) (Nat.le_add_left _ _)

/-- A node of an open kind covers nothing of what its children use. -/
theorem loose_kid_le (hk : n.kind.isOpen = true) (i : Nat) : loose x (n.kid i) ≤ loose x n := by
  rcases Lower.kid_cases n i with hi | ⟨-, hi⟩
  · rw [hi]
    exact Nat.zero_le _
  · cases n with
    | absent => cases hi
    | mk h ks ds t a y =>
      have hle := le_looseAll (x := x) hi
      rw [loose, declaresFor_of_open (h := h) hk, looseKids_eq (bodyAt?_of_open (h := h) hk)]
      simp only [Node.kids, Bool.false_eq_true, if_false] at hle ⊢
      omega

theorem declared_kid_le (i : Nat) : declared x (n.kid i) ≤ declared x n := by
  rcases Lower.kid_cases n i with hi | ⟨-, hi⟩
  · rw [hi]
    exact Nat.zero_le _
  · cases n with
    | absent => cases hi
    | mk h ks ds t a y =>
      have hle := le_declaredAll (x := x) hi
      rw [declared]
      simp only [Node.kids] at hle
      omega

/-! ### Uses -/

/-- A statement that introduces a mark holds a declaration of it. -/
theorem declared_of_introduces (h : n.introduces x = true) : 0 < declared x n := by
  have hkid (d : Node) (hd : d ∈ n.kids) (hpos : 0 < declared x d) : 0 < declared x n := by
    cases n with
    | absent => cases hd
    | mk head ks ds t a y =>
      have hle := le_declaredAll (x := x) hd
      rw [declared]
      simp only [Node.kids] at hle
      omega
  have hown (d : Node) (i : Nat) (hk : d.kind.nameAt? = some i) (hm : (d.kid i).isUse x = true) :
      0 < declared x d := by
    cases d with
    | absent => cases hk
    | mk head ks ds t a y =>
      have hk : head.kind.nameAt? = some i := hk
      have hm : (ks.getD i .absent).isUse x = true := hm
      rw [declared, Head.declares, hk]
      simp only [hm, if_true]
      omega
  unfold introduces at h
  split at h
  · obtain ⟨d, hd, hm⟩ := List.any_eq_true.1 (Bool.and_eq_true_iff.1 h).2
    rw [Bool.and_eq_true, beq_iff_eq] at hm
    exact hkid d hd (hown d 0 (by rw [hm.1]; rfl) hm.2)
  · obtain ⟨d, hd, hm⟩ := List.any_eq_true.1 h
    rw [Bool.and_eq_true, beq_iff_eq] at hm
    exact hkid d hd (hown d 1 (by rw [hm.1]; rfl) hm.2)
  · cases h

theorem not_introduces (hd : declaredAll x ks = 0) : ks.any (introduces x) = false := by
  rw [List.any_eq_false]
  intro k hk hm
  have hpos := declared_of_introduces hm
  have hle := le_declaredAll (x := x) hk
  omega

mutual

/-- Where a mark is not declared its uses are loose. -/
theorem loose_of_use : ∀ n : Node, declared x n = 0 → ∀ m ∈ n.walk, m.isUse x = true → 0 < loose x n
  | .absent, _, m, hm, _ => by cases hm
  | .mk h ks ds t a y, hd, m, hm, hu => by
    rw [declared] at hd
    have hks : declaredAll x ks = 0 := by omega
    have hfor : h.declaresFor x ks = false := by
      unfold Head.declaresFor
      split
      · exact not_introduces hks
      · rename_i hk
        have hzero : h.declares x ks = 0 := by omega
        simpa [Head.declares, NodeKind.nameAt?, hk] using hzero
      · rfl
    rw [loose, hfor]
    simp only [Bool.false_eq_true, if_false]
    simp only [Node.walk, List.mem_cons, List.mem_append] at hm
    rcases hm with rfl | (((hm | hm) | hm) | hm) | hm
    · have hown : (h.kind == .ident && h.mark == x) = true := hu
      rw [hown]
      simp only [if_true]
      omega
    · have := looseKids_of_use h 0 ks hks m hm hu
      omega
    · have := looseKids_of_use {} 0 ds (by omega) m hm hu
      omega
    · have := loose_of_use t (by omega) m hm hu
      omega
    · have := loose_of_use a (by omega) m hm hu
      omega
    · have := loose_of_use y (by omega) m hm hu
      omega

theorem looseKids_of_use (h : Head) (i : Nat) : ∀ ks : List Node, declaredAll x ks = 0 →
    ∀ m ∈ walkAll ks, m.isUse x = true → 0 < looseKids x h i ks
  | [], _, m, hm, _ => by cases hm
  | k :: ks, hd, m, hm, hu => by
    rw [declaredAll_cons] at hd
    have hbody : h.bodyDeclares x i k = false := by
      have hkids : declaredAll x k.kids = 0 := by
        cases k with
        | absent => rfl
        | mk head ks' ds t a y =>
          rw [declared] at hd
          show declaredAll x ks' = 0
          omega
      simp [Head.bodyDeclares, not_introduces hkids]
    rw [looseKids, hbody]
    simp only [Bool.false_eq_true, if_false]
    rw [walkAll, List.mem_append] at hm
    rcases hm with hm | hm
    · have := loose_of_use k (by omega) m hm hu
      omega
    · have := looseKids_of_use h (i + 1) ks (by omega) m hm hu
      omega

end

/-! ### Nodes that are changed -/

@[simp] theorem mark_ofHead : (ofHead h ks).mark = h.mark := rfl

@[simp] theorem mark_new {kind : NodeKind} {span : Span} : (new kind span ks).mark = 0 := rfl

@[simp] theorem mark_newOp {kind : NodeKind} {op : TokenKind} {span : Span} :
    (newOp kind op span ks).mark = 0 := rfl

@[simp] theorem mark_newText {kind : NodeKind} {span : Span} {text : Bytes} :
    (newText kind span text).mark = 0 := rfl

@[simp] theorem mark_ident {name : Bytes} {span : Span} : (ident name span).mark = 0 := rfl

@[simp] theorem mark_literal {op : TokenKind} {raw : Bytes} {span : Span} :
    (literal op raw span).mark = 0 := rfl

@[simp] theorem mark_keyword {op : TokenKind} {span : Span} : (keyword op span).mark = 0 := rfl

@[simp] theorem mark_member {name : Bytes} {span : Span} : (member n name span).mark = 0 := rfl

@[simp] theorem mark_call {span : Span} : (call span n ks).mark = 0 := rfl

@[simp] theorem mark_absent : absent.mark = 0 := rfl

/-- The tags of a node say nothing of its uses, unless they make a body of an expression. -/
theorem loose_mapFlags {f : Flags → Flags}
    (hf : ∀ h : Head, ({ h with flags := f h.flags } : Head).bodyAt? = h.bodyAt?) :
    loose x (n.mapFlags f) = loose x n := by
  cases n with
  | absent => rfl
  | mk h ks ds t a y =>
    have hkids (i : Nat) : looseKids x { h with flags := f h.flags } i ks = looseKids x h i ks := by
      induction ks generalizing i with
      | nil => rfl
      | cons k ks ih =>
        have hbody :
            Head.bodyDeclares x { h with flags := f h.flags } i k = h.bodyDeclares x i k := by
          rw [Head.bodyDeclares, hf]
          rfl
        rw [looseKids, looseKids, hbody, ih]
    show loose x (mk { h with flags := f h.flags } ks ds t a y) = _
    rw [loose, loose, hkids]
    rfl

@[simp] theorem declared_mapFlags {f : Flags → Flags} :
    declared x (n.mapFlags f) = declared x n := by
  cases n with
  | absent => rfl
  | mk h ks ds t a y => rfl

@[simp] theorem mark_mapFlags {f : Flags → Flags} : (n.mapFlags f).mark = n.mark := by
  cases n with
  | absent => rfl
  | mk h ks ds t a y => rfl

@[simp] theorem mark_withDecos : (n.withDecos ks).mark = n.mark := by
  cases n with
  | absent => rfl
  | mk h ks ds t a y => rfl

end

end Node

namespace Lower

open Node

/-! ## Code that lowering makes -/

section

variable {x : Nat} {n l r : Node} {ks rs : List Node} {span : Span}

@[simp] theorem mark_like : (like n ks).mark = 0 := rfl

@[simp] theorem mark_leaf : (leaf n).mark = n.mark := rfl

theorem mark_leaf? (hm : n.mark = 0) : (leaf? n).mark = 0 := by
  unfold leaf?
  split
  · rfl
  · exact hm

theorem loose_like_le (hx : x ≠ 0) (n : Node) (ks : List Node) :
    (like n ks).loose x ≤ looseAll x ks := loose_ofHead_le (Ne.symm hx) ks

theorem declared_like (hx : x ≠ 0) (n : Node) (hks : ∀ k ∈ ks, k.mark = 0) :
    (like n ks).declared x = declaredAll x ks := by
  rw [like, declared_ofHead, declares_of_unmarked hx hks, Nat.zero_add]

theorem loose_leaf (hx : x ≠ 0) (hm : n.mark = 0) : (leaf n).loose x = 0 :=
  loose_ofHead_nil (show n.mark ≠ x from hm ▸ Ne.symm hx)

@[simp] theorem declared_leaf : (leaf n).declared x = 0 := declared_ofHead_nil x _

theorem loose_leaf? (hx : x ≠ 0) (hm : n.mark = 0) : (leaf? n).loose x = 0 := by
  unfold leaf?
  split
  · rfl
  · exact loose_leaf hx hm

@[simp] theorem declared_leaf? : (leaf? n).declared x = 0 := by
  unfold leaf?
  split
  · rfl
  · exact declared_leaf

@[simp] theorem mark_bin {op : TokenKind} : (bin span op l r).mark = 0 := rfl

@[simp] theorem loose_bin {op : TokenKind} : (bin span op l r).loose x = l.loose x + r.loose x := by
  simp [bin]

@[simp] theorem declared_bin {op : TokenKind} :
    (bin span op l r).declared x = l.declared x + r.declared x := by
  simp [bin]

@[simp] theorem mark_assign : (assign span l r).mark = 0 := rfl

@[simp] theorem loose_assign : (assign span l r).loose x = l.loose x + r.loose x := by
  simp [assign]

@[simp] theorem declared_assign : (assign span l r).declared x = l.declared x + r.declared x := by
  simp [assign]

@[simp] theorem mark_paren : (paren n).mark = 0 := rfl

@[simp] theorem loose_paren : (paren n).loose x = n.loose x := by simp [paren]

@[simp] theorem declared_paren : (paren n).declared x = n.declared x := by simp [paren]

@[simp] theorem mark_number {raw : Bytes} : (number raw span).mark = 0 := rfl

@[simp] theorem loose_number {raw : Bytes} : (number raw span).loose x = 0 := loose_literal

@[simp] theorem declared_number {raw : Bytes} : (number raw span).declared x = 0 := declared_literal

@[simp] theorem mark_string {value : Bytes} : (string value span).mark = 0 := rfl

@[simp] theorem loose_string {value : Bytes} : (string value span).loose x = 0 := loose_literal

@[simp] theorem declared_string {value : Bytes} : (string value span).declared x = 0 :=
  declared_literal

@[simp] theorem mark_void0 : (void0 span).mark = 0 := rfl

@[simp] theorem loose_void0 : (void0 span).loose x = 0 := by simp [void0]

@[simp] theorem declared_void0 : (void0 span).declared x = 0 := by simp [void0]

/-- A dotted name holds no generated name. -/
theorem dotted_plain (hx : x ≠ 0) (name : Bytes) (span : Span) :
    (dotted name span).loose x = 0 ∧ (dotted name span).declared x = 0 := by
  have hfold (rest : List Bytes) (base : Node) (hl : base.loose x = 0) (hd : base.declared x = 0) :
      (rest.foldl (fun obj p => Node.member obj p span) base).loose x = 0 ∧
        (rest.foldl (fun obj p => Node.member obj p span) base).declared x = 0 := by
    induction rest generalizing base with
    | nil => exact ⟨hl, hd⟩
    | cons p rest ih => exact ih _ (by rw [loose_member hx, hl]) (by rw [declared_member, hd])
  unfold dotted
  split
  · exact ⟨loose_ident hx, declared_ident⟩
  · refine hfold _ _ ?_ ?_
    · split
      · simp
      · exact loose_ident hx
    · split
      · simp
      · exact declared_ident

theorem loose_qualified (hx : x ≠ 0) (s : Scope) (name : Bytes) :
    (qualified s name span).loose x = 0 := by
  simp [qualified, loose_ident hx]

@[simp] theorem declared_qualified {s : Scope} {name : Bytes} :
    (qualified s name span).declared x = 0 := by
  simp [qualified]

@[simp] theorem mark_qualified {s : Scope} {name : Bytes} : (qualified s name span).mark = 0 := rfl

theorem loose_declarator : (declarator span n).loose x = n.loose x := by
  rw [declarator, Node.new, ofHead, loose_mk, looseKids_eq rfl]
  simp [Head.declaresFor]

theorem declared_declarator :
    (declarator span n).declared x = (if n.isUse x then 1 else 0) + n.declared x := by
  rw [declarator, Node.new, declared_ofHead]
  simp [Head.declares, NodeKind.nameAt?]

@[simp] theorem loose_varDecl {keyword : String} :
    (varDecl keyword span ks).loose x = looseAll x ks := loose_ofHead (by simp)

@[simp] theorem declared_varDecl {keyword : String} :
    (varDecl keyword span ks).declared x = declaredAll x ks := by
  have hzero :
      Head.declares x { kind := .varDecl, span := span, text := Bytes.ofString keyword } ks = 0 :=
    declares_of_open (by simp)
  show (ofHead _ ks).declared x = _
  rw [declared_ofHead]
  exact (congrArg (· + _) hzero).trans (Nat.zero_add _)

@[simp] theorem mark_varDecl {keyword : String} : (varDecl keyword span ks).mark = 0 := rfl

theorem takeWhile_dropWhile_sum (p : Node → Bool) (f : List Node → Nat)
    (hf : ∀ as bs, f (as ++ bs) = f as + f bs) (stmts : List Node) :
    f (stmts.takeWhile p) + f (stmts.dropWhile p) = f stmts := by
  rw [← hf, List.takeWhile_append_dropWhile]

@[simp] theorem looseAll_insertAfterDirectives :
    looseAll x (insertAfterDirectives ks rs) = looseAll x ks + looseAll x rs := by
  have hsum := takeWhile_dropWhile_sum isDirective (looseAll x) (fun _ _ => looseAll_append) ks
  simp only [insertAfterDirectives, looseAll_append]
  omega

@[simp] theorem declaredAll_insertAfterDirectives :
    declaredAll x (insertAfterDirectives ks rs) = declaredAll x ks + declaredAll x rs := by
  have hsum :=
    takeWhile_dropWhile_sum isDirective (declaredAll x) (fun _ _ => declaredAll_append) ks
  simp only [insertAfterDirectives, declaredAll_append]
  omega

end

end Lower

end ScriptLower
