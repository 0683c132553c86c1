import Mathlib.Data.List.Forall2
import ScriptLower.Proofs.Lower.Fitting
import ScriptLower.Proofs.Print.Layouts

/-!
# Printing trees that fit

A lowered tree is laid out without a fault. A role asks for nodes of some kinds, and a place of a
lowered tree allows only kinds that the roles played there ask for: so no node is laid out in a role
that it has no rule for, all the way down. A node that is not there stands only at a place that may
be empty, and the roles played there do without it: so no missing node is looked into.

The places that the pieces name are those of nodes, and lie in the file.
-/

namespace ScriptLower.Print

open ScriptLower Lower

/-! ## Pieces -/

/-- A piece that is no fault, and names no place outside of a file. -/
@[simp] def Piece.isClear (f : SourceFile) : Piece → Bool
  | .fault _ => false
  | .map span => f.holds span
  | _ => true

/-- Pieces without a fault that name no place outside of a file. -/
def Clear (f : SourceFile) (ps : Pieces) : Prop := ∀ p ∈ ps, p.isClear f = true

section

variable {f : SourceFile} {ps qs : Pieces} {pss : List Pieces} {c : Prop} [Decidable c]

@[simp] theorem clear_nil : Clear f [] := List.forall_mem_nil _

@[simp] theorem clear_cons {p : Piece} : Clear f (p :: ps) ↔ p.isClear f = true ∧ Clear f ps :=
  List.forall_mem_cons

@[simp] theorem clear_append : Clear f (ps ++ qs) ↔ Clear f ps ∧ Clear f qs :=
    List.forall_mem_append

@[simp] theorem clear_ite :
    Clear f (if c then ps else qs) ↔ (c → Clear f ps) ∧ (¬c → Clear f qs) := by
  split <;> simp_all

@[simp] theorem clear_flatten : Clear f pss.flatten ↔ ∀ ps ∈ pss, Clear f ps := by
  simp only [Clear, List.mem_flatten]
  exact ⟨fun h ps hps p hp => h p ⟨ps, hps, hp⟩, fun h p ⟨ps, hps, hp⟩ => h ps hps p hp⟩

@[simp] theorem clear_flatMap {α : Type} {g : α → Pieces} {xs : List α} :
    Clear f (xs.flatMap g) ↔ ∀ x ∈ xs, Clear f (g x) := by
  rw [List.flatMap_def, clear_flatten, List.forall_mem_map]

@[simp] theorem clear_tok (s : String) : Clear f (tok s) := by simp [tok]

@[simp] theorem clear_word (s : String) : Clear f (word s) := by simp [word]

@[simp] theorem clear_spaced (s : Bytes) : Clear f (spaced s) := by simp [spaced]

@[simp] theorem clear_spacedWord (s : String) : Clear f (spacedWord s) := clear_spaced _

@[simp] theorem clear_wrapIf {wrap : Bool} : Clear f (wrapIf wrap ps) ↔ Clear f ps := by
  cases wrap <;> simp [wrapIf]

theorem clear_commaSeparated (h : ∀ ps ∈ pss, Clear f ps) : Clear f (commaSeparated pss) := by
  fun_induction commaSeparated pss with
  | case1 => exact clear_nil
  | case2 p => exact h p List.mem_cons_self
  | case3 p r hr ih =>
    have hrest := ih fun q hq => h q (List.mem_cons_of_mem _ hq)
    simp [h p List.mem_cons_self, hrest]

end

/-! ## Roles and kinds -/

/-- The kinds of nodes that there is a rule for in a role. -/
def Role.takes : Role → NodeKind → Bool
  | .expr .., k | .key _, k => k.isExpression
  | .stmt, k | .line, k | .body, k => k.isStatement
  | .block, k => k == .block
  | .bindings _, k => k == .varDecl
  | .declarator _, k => k == .declarator
  | .params, k => k == .params
  | .param, k => k == .param
  | .property, k => k.isExpression || k == .objProp || k == .method
  | .template, k => k == .template
  | .decorator _, k => k == .decorator
  | .classBody, k => k == .classBody
  | .member, k => k == .method || k == .property || k == .staticBlock
  | .handler, k => k == .catchClause
  | .branch, k => k == .caseClause
  | .spec, k => k == .importSpec || k == .importDefault || k == .importNamespace || k == .exportSpec
  | .bound, k => k == .importSpec || k == .importDefault || k == .importNamespace

attribute [local simp] Role.takes

/-- The roles that do without a node. -/
def Role.mayLack : Role → Bool
  | .expr .. | .line | .block | .bindings _ | .params | .key true | .handler | .bound => true
  | _ => false

/-- The places of expressions, and of the names and patterns that are printed like them. -/
def isExpressionPlace : Place → Bool
  | .expr | .optExpr | .name | .optName | .binder | .optBinder | .pattern | .optPattern => true
  | _ => false

/-- The places whose nodes play a role, whatever their kind. -/
def Role.fills : Role → Place → Bool
  | .expr .., p => isExpressionPlace p
  | .key _, p => p == .expr || p == .name
  | .stmt, p | .line, p | .body, p => p == .stmt || p == .declaration
  | .block, p => p == .block || p == .optBlock
  | .bindings _, _ => false
  | .declarator _, p => p == .declarator
  | .params, p => p == .params
  | .param, p => p == .param
  | .property, p => p == .objectMember || p == .patternMember
  | .template, p => p == .template
  | .decorator _, p => p == .decorator
  | .classBody, p => p == .classBody
  | .member, p => p == .member
  | .handler, p => p == .handler
  | .branch, p => p == .branch
  | .spec, p => p == .importItem || p == .exportItem
  | .bound, p => p == .importItem

theorem isExpression_of_isName {k : NodeKind} (h : k.isName = true) : k.isExpression = true := by
  unfold NodeKind.isName at h
  split at h
  · rfl
  · rfl
  · rfl
  · cases h

theorem isExpression_of_place {p : Place} {k : NodeKind} (hp : isExpressionPlace p = true)
    (ha : p.allows true k = true) : k.isExpression = true := by
  unfold isExpressionPlace at hp
  split at hp
  case h_1 | h_2 => simpa [Place.allows] using ha
  case h_3 | h_4 => exact isExpression_of_isName ha
  case h_5 | h_6 =>
    rw [beq_iff_eq.1 ha]
    rfl
  case h_7 | h_8 =>
    simp only [Place.allows, Bool.or_eq_true, beq_iff_eq] at ha
    obtain (rfl | rfl) | rfl := ha <;> rfl
  case h_9 => cases hp

/-- A place allows only kinds that the roles played there take. -/
theorem takes_of_allows {role : Role} {p : Place} {k : NodeKind} (hr : role.fills p = true)
    (ha : p.allows true k = true) : role.takes k = true := by
  cases role <;> simp only [Role.fills, Bool.or_eq_true, beq_iff_eq, Bool.false_eq_true] at hr
  case expr =>
    exact isExpression_of_place hr ha
  case key =>
    obtain rfl | rfl := hr
    · simpa [Role.takes, Place.allows] using ha
    · exact isExpression_of_isName ha
  case stmt | line | body =>
    obtain rfl | rfl := hr <;> simpa [Role.takes, Place.allows] using ha
  case property =>
    obtain rfl | rfl := hr
    · obtain (rfl | rfl) | rfl : (k = .objProp ∨ k = .method) ∨ k = .spread := by
        simpa [Place.allows] using ha
      · rfl
      · rfl
      · rfl
    · obtain rfl | rfl : k = .objProp ∨ k = .restElement := by simpa [Place.allows] using ha
      · rfl
      · rfl
  case block => obtain rfl | rfl := hr <;> exact ha
  case spec =>
    obtain rfl | rfl := hr
    · rw [Role.takes, Bool.or_eq_true]
      exact .inl ha
    · rw [Role.takes, Bool.or_eq_true]
      exact .inr ha
  all_goals
    subst hr
    exact ha

/-- At a place that may be empty only roles are played that do without a node. -/
theorem mayLack_of_fills {role : Role} {p : Place} (hr : role.fills p = true)
    (ho : p.isOptional = true) : role.mayLack = true := by
  cases role <;> simp only [Role.fills, Bool.or_eq_true, beq_iff_eq, Bool.false_eq_true] at hr
  case expr | block | params | handler | bound | line => rfl
  case key computed => obtain rfl | rfl := hr <;> cases ho
  case stmt | body | property | spec => obtain rfl | rfl := hr <;> cases ho
  all_goals
    subst hr
    cases ho

/-! ## Children -/

/-- A layout that is clear for a node in every role that the node has a kind for, and for a missing
node in every role that does without one. -/
def Layout.Suits (f : SourceFile) (n : Node) (k : Layout) : Prop :=
  ∀ p role, Low f p n → (n.isPresent = true → role.takes n.kind = true) →
    (n.isAbsent = true → role.mayLack = true) → Clear f (k role)

/-- Layouts for several nodes. -/
abbrev AllSuit (f : SourceFile) (ns : List Node) (ks : List Layout) : Prop :=
  List.Forall₂ (Layout.Suits f) ns ks

theorem clear_absent {f : SourceFile} {role : Role} (h : role.mayLack = true) :
    Clear f (Layout.absent role) := by
  unfold Role.mayLack at h
  split at h
  · exact clear_nil
  · exact clear_nil
  · simp [Layout.absent]
  · exact clear_nil
  · simp [Layout.absent]
  · simp [Layout.absent]
  · exact clear_nil
  · exact clear_nil
  · cases h

theorem suits_absent {f : SourceFile} : Layout.absent.Suits f .absent :=
  fun _ _ _ _ h => clear_absent (h rfl)

section

variable {f : SourceFile} {n : Node} {ns : List Node} {ks ds : List Layout}
    {k : Layout} {p q : Place}
  {role : Role}

/-- A place at which a node is missing may be empty. -/
theorem optional_of_absent (hn : Low f q n) (ha : n.isAbsent = true) : q.isOptional = true := by
  cases n with
  | absent => exact hn
  | mk => cases ha

theorem Layout.Suits.clear (hk : k.Suits f n) (hn : Low f q n) (hr : role.fills q = true) :
    Clear f (k role) :=
  hk q role hn (fun hp => takes_of_allows hr (hn.placed hp).allowed)
    fun ha => mayLack_of_fills hr (optional_of_absent hn ha)

theorem AllSuit.child (h : AllSuit f ns ks) (i : Nat) :
    (child ks i).Suits f (ns.getD i .absent) := by
  induction h generalizing i with
  | nil => exact suits_absent
  | cons hk _ ih =>
    cases i with
    | zero => exact hk
    | succ i => exact ih i

theorem AllSuit.drop (h : AllSuit f ns ks) (i : Nat) : AllSuit f (ns.drop i) (ks.drop i) :=
  List.forall₂_drop i h

/-- Children at places of one sort. -/
theorem AllSuit.roles (h : AllSuit f ns ks) (hns : LowAll f q ns) (hr : role.fills q = true) :
    ∀ k ∈ ks, Clear f (k role) := by
  induction h with
  | nil => exact List.forall_mem_nil _
  | cons hk _ ih =>
    obtain ⟨hn, hns⟩ := List.forall_mem_cons.1 hns
    exact List.forall_mem_cons.2 ⟨hk.clear hn hr, ih hns⟩

theorem clear_lookingInto {ps : Pieces} (hn : n.isPresent = true) (hps : Clear f ps) :
    Clear f (lookingInto n ps) := by
  rw [lookingInto, if_pos hn]
  exact hps

/-- A node that fits its place, with layouts for its children and decorators. -/
structure Ready (f : SourceFile) (p : Place) (n : Node) (ks ds : List Layout) : Prop where
  /-- It fits. -/
  placed : Placed (.lowered f) p n
  /-- The layouts of its children suit them. -/
  kids : AllSuit f n.kids ks
  /-- Those of its decorators suit them. -/
  decos : AllSuit f n.decos ds

namespace Ready

variable {kind : NodeKind}

theorem span (h : Ready f p n ks ds) : f.holds n.span = true := h.placed.stands

theorem kidSpan (h : Ready f p n ks ds) (hk : n.kind = kind) (i : Nat)
    (hi : (shapeOf p kind n.flags).first[i]? = some q) : f.holds (n.kid i).span = true :=
  Low.span (h.placed.kid hk i hi)

/-- A child in a role that its place is for. -/
theorem kid (h : Ready f p n ks ds) (hk : n.kind = kind) (i : Nat)
    (hi : (shapeOf p kind n.flags).first[i]? = some q) (hr : role.fills q = true) :
    Clear f (child ks i role) := (AllSuit.child h.kids i).clear (h.placed.kid hk i hi) hr

/-- A child that cannot be missing. -/
theorem kidPresent (h : Ready f p n ks ds) (hk : n.kind = kind) (i : Nat)
    (hi : (shapeOf p kind n.flags).first[i]? = some q) (ho : q.isOptional = false) :
    (n.kid i).isPresent = true := (Low.present (h.placed.kid hk i hi) ho).isPresent

/-- A child in a role that its kind is for, and that does without it if it is missing. -/
theorem kidAs (h : Ready f p n ks ds) (hk : n.kind = kind) (i : Nat)
    (hi : (shapeOf p kind n.flags).first[i]? = some q)
    (hr : q.allows true (n.kid i).kind = true → role.takes (n.kid i).kind = true)
    (hl : (n.kid i).isAbsent = true → role.mayLack = true) : Clear f (child ks i role) :=
  AllSuit.child h.kids i q role (h.placed.kid hk i hi)
    (fun hp => hr (Low.placed (h.placed.kid hk i hi) hp).allowed) hl

/-- A child that is there, in a role that its kind is for. -/
theorem kidThere (h : Ready f p n ks ds) (hk : n.kind = kind) (i : Nat)
    (hi : (shapeOf p kind n.flags).first[i]? = some q)
    (hr : q.allows true (n.kid i).kind = true → role.takes (n.kid i).kind = true)
    (hp : (n.kid i).isPresent = true) : Clear f (child ks i role) :=
  h.kidAs hk i hi hr fun ha => by simp [Node.isAbsent, hp] at ha

/-- What stands behind the first children. -/
theorem behind {ps : Pieces} {i : Nat} (h : Ready f p n ks ds) (hk : n.kind = kind)
    (hi : i ≤ (shapeOf p kind n.flags).first.length) (hps : Clear f ps) :
    Clear f (behind i n ps) := by
  subst hk
  rw [Print.behind, if_pos (Nat.le_trans hi (first_le_length h.placed.kids))]
  exact hps

/-- The children behind the first ones. -/
theorem each (h : Ready f p n ks ds) (hk : n.kind = kind)
    (he : (shapeOf p kind n.flags).rest = .each q) (hr : role.fills q = true) :
    ∀ k ∈ ks.drop (shapeOf p kind n.flags).first.length, Clear f (k role) :=
  (AllSuit.drop h.kids _).roles (h.placed.each hk he) hr

/-- Decorators in front of a node. -/
theorem decorated (h : Ready f p n ks ds) (ownLine : Bool) :
    ∀ d ∈ ds, Clear f (d (.decorator ownLine)) :=
  AllSuit.roles h.decos h.placed.decos rfl

end Ready

end

/-! ## Small layouts -/

section

variable {f : SourceFile} {n : Node} {ks ds : List Layout} {k : Layout} {r : Restriction}
  {ascii : Bool}

theorem clear_list {role : Role} (h : ∀ k ∈ ks, Clear f (k role)) :
    Clear f (commaSeparated (ks.map fun k => k role)) :=
  clear_commaSeparated (List.forall_mem_map.2 h)

theorem clear_inParens (h : Clear f (plain k)) : Clear f (inParens k) := by simp [inParens, h]

theorem clear_arguments (h : ∀ k ∈ ks, Clear f (k (.expr Level.comma {}))) :
    Clear f (arguments ks) := by simp [arguments, items, clear_list h]

theorem clear_braced {role : Role} (span : Span) (h : ∀ k ∈ ks, Clear f (k role)) :
    Clear f (braced span (ks.map fun k => k role)) := by
  have hlines : ∀ ps ∈ ks.map (fun k => k role), Clear f ps := List.forall_mem_map.2 h
  unfold braced
  split
  · simp [openBrace]
  · rw [clear_append, clear_append, clear_flatten]
    exact ⟨⟨by simp [openBrace], hlines⟩, by simp [closeBrace]⟩

theorem clear_inBraces {role : Role} (h : ∀ k ∈ ks, Clear f (k role)) :
    Clear f (if ks.isEmpty then [.token [0x7B, 0x7D]]
      else [openBrace, .space] ++ commaSeparated (ks.map fun k => k role) ++
        [.space, closeBrace]) := by
  simp [openBrace, closeBrace, clear_list h]

theorem clear_literal : Clear f (literal ascii n) := by
  unfold literal
  split <;> simp

end

/-! ## Expressions -/

section

variable {f : SourceFile} {n : Node} {ks ds : List Layout} {p : Place} {level : Nat}
    {r : Restriction}
  {ascii : Bool}

/-- The texts of a template are printed as they are, and the expressions between them are clear. -/
theorem clear_templateParts {ns : List Node} (hks : AllSuit f ns ks) (ascii atExpr : Bool)
    (hns : kidsFit (.lowered f) [] (if atExpr then .turns .expr .quasi else .turns .quasi .expr) ns
      = true) :
    Clear f (templateParts ascii atExpr (ns.zip ks)) := by
  induction hks generalizing atExpr with
  | nil => cases atExpr <;> simp [templateParts]
  | cons hk _ ih =>
    cases atExpr with
    | false =>
      obtain ⟨hn, hns⟩ := Bool.and_eq_true_iff.1 hns
      rw [List.zip_cons_cons, templateParts, if_pos (Low.present hn rfl).isPresent]
      exact clear_cons.2 ⟨rfl, ih true hns⟩
    | true =>
      obtain ⟨hn, hns⟩ := Bool.and_eq_true_iff.1 hns
      have hexpr : Clear f (plain _) := hk.clear hn rfl
      simp [List.zip_cons_cons, templateParts, hexpr, ih false hns]

theorem Ready.template (h : Ready f p n ks ds) (hk : n.kind = .template) :
    Clear f (template ascii n ks) := by
  have hkids := h.placed.kids
  rw [hk] at hkids
  have hparts := clear_templateParts h.kids ascii false hkids
  simp [Print.template, hparts]

theorem Ready.memberRead (h : Ready f p n ks ds) (hk : n.kind = .member) :
    Clear f (memberRead ascii n ks r) := by
  have hplain : Clear f (plain (child ks 0)) := h.kid hk 0 rfl rfl
  have hobject : Clear f (object_ (child ks 0) r) := h.kid hk 0 rfl rfl
  have hspan := h.kidSpan hk 1 rfl
  simp only [Print.memberRead, clear_append]
  refine ⟨⟨clear_lookingInto (h.kidPresent hk 0 rfl rfl) ?_, clear_tok _⟩,
    clear_lookingInto (h.kidPresent hk 1 rfl rfl) (by simp [hspan])⟩
  simp [clear_inParens hplain, hobject]

/-- An operator between two operands has a level. -/
theorem Ready.binary (h : Ready f p n ks ds) (hk : n.kind = .binary) :
    Clear f (binary n ks level r) := by
  have hop : n.op.precedence ≠ 0 := by
    have haccepts := h.placed.accepted
    simp only [Canon.accepts, Bool.and_eq_true, Bool.or_eq_true, bne_iff_ne, ne_eq] at haccepts
    exact haccepts.1.2.resolve_left fun hne => hne hk
  unfold Print.binary
  rw [show level? n.op = some (n.op.precedence + Level.conditional) from if_neg hop]
  dsimp only
  have hleft (level : Nat) (r : Restriction) : Clear f (child ks 0 (.expr level r)) :=
    h.kid hk 0 rfl rfl
  have hright (level : Nat) (r : Restriction) : Clear f (child ks 1 (.expr level r)) :=
    h.kid hk 1 rfl rfl
  simp [hleft, hright]

theorem Ready.update (h : Ready f p n ks ds) (hk : n.kind = .update) :
    Clear f (update n ks level) := by
  have hchild (level : Nat) : Clear f (child ks 0 (.expr level {})) := h.kid hk 0 rfl rfl
  simp [Print.update, hchild]

theorem clear_array (h : ∀ k ∈ ks, Clear f (k (.expr Level.comma {}))) : Clear f (array n ks) := by
  simp [array, items, clear_list h]

/-- A module that is loaded on demand has its name among the arguments. -/
theorem Ready.importArguments (h : Ready f p n ks ds) (hk : n.kind = .importCall) :
    Clear f (arguments ks) := by
  have hargs : LowAll f .expr n.kids := by
    have hkids := h.placed.kids
    rw [hk] at hkids
    cases hn : n.kids with
    | nil => exact List.forall_mem_nil _
    | cons m ms =>
      rw [hn] at hkids
      obtain ⟨hm, hms⟩ := Bool.and_eq_true_iff.1 hkids
      exact List.forall_mem_cons.2 ⟨hm, kidsFit_each.1 hms⟩
  exact clear_arguments (AllSuit.roles h.kids hargs rfl)

/-! ### Functions and classes -/

theorem clear_function (hname : Clear f (plain (child ks 0)))
    (hparams : Clear f (child ks 1 .params))
    (hbody : Clear f (child ks 2 .block)) : Clear f (function n ks) := by
  simp [function, hname, hparams, hbody]

/-- The body of an arrow function is an expression or a block, and its kind says which. -/
theorem Ready.arrow (h : Ready f p n ks ds) (hk : n.kind = .arrow) : Clear f (arrow n ks r) := by
  have hparams : Clear f (child ks 0 .params) := h.kid hk 0 rfl rfl
  have hblock (hb : (n.kid 1).kind = .block) : Clear f (child ks 1 .block) :=
    h.kidAs hk 1 rfl (fun _ => by rw [hb]; rfl) fun _ => rfl
  have hexpr (hb : ¬(n.kid 1).kind = .block) :
      Clear f (child ks 1 (.expr Level.comma r.onlyIn)) := by
    refine h.kidAs hk 1 rfl (fun ha => ?_) fun _ => rfl
    split at ha
    · have hrole : (Role.expr Level.comma r.onlyIn).fills .expr = true := rfl
      exact takes_of_allows hrole ha
    · exact absurd (by simpa [Place.allows] using ha) hb
  simp only [Print.arrow, clear_append, clear_ite, clear_word, clear_nil,
    clear_spacedWord, clear_wrapIf,
    beq_iff_eq]
  exact ⟨⟨⟨⟨fun _ => trivial, fun _ => trivial⟩, hparams⟩, trivial⟩, hblock, hexpr⟩

theorem Ready.parameter (h : Ready f p n ks ds) (hk : n.kind = .param) :
    Clear f (parameter n ks ds) := by
  have htarget : Clear f (child ks 0 (.expr Level.comma {})) := h.kid hk 0 rfl rfl
  have hvalue : Clear f (child ks 1 (.expr Level.comma {})) := h.kid hk 1 rfl rfl
  simpa [Print.parameter, h.span, htarget, hvalue] using h.decorated false

theorem fills_declaredPlace (p : Place) :
    (Role.expr Level.lowest {}).fills (declaredPlace p) = true := by
  rcases declaredPlace_eq p with h | h <;> rw [h] <;> rfl

theorem fills_keyPlace (role : Bool) (computed : Bool) :
    (Role.key role).fills (keyPlace computed) = true := by cases computed <;> rfl

theorem Ready.method (h : Ready f p n ks ds) (hk : n.kind = .method) : Clear f (method n ks) := by
  have hkey : Clear f (child ks 0 (.key n.flags.computed)) := h.kid hk 0 rfl (fills_keyPlace _ _)
  have hparams : Clear f (child ks 1 .params) := h.kid hk 1 rfl rfl
  have hbody : Clear f (child ks 2 .block) := h.kid hk 2 rfl rfl
  simp [Print.method, hkey, hparams, hbody]

mutual

/-- What stands in front of property reads is there. -/
theorem present_readRoot : ∀ n : Node, Low f .expr n → (readRoot n).isPresent = true
  | .absent, hn => by cases hn
  | .mk h ks ds t a x, hn => by
    rw [readRoot]
    split
    · rename_i hread
      have hk : h.kind = .member := by simpa using (Bool.and_eq_true_iff.1 hread).1
      have hkids := (hn.placed rfl).kids
      rw [show (Node.mk h ks ds t a x).kind = .member from hk] at hkids
      exact present_readRootFirst ks hkids
    · rfl

theorem present_readRootFirst : ∀ ns : List Node,
    kidsFit (.lowered f) [.expr, .name] .none ns = true → (readRootFirst ns).isPresent = true
  | [], hns => by cases hns
  | n :: _, hns => present_readRoot n (Bool.and_eq_true_iff.1 hns).1

end

/-- What a decorator calls or reads from is there. -/
theorem present_decoratorRoot {n : Node} (hn : Low f .expr n) :
    (decoratorRoot n).isPresent = true := by
  rw [decoratorRoot]
  split
  · rename_i hk
    exact present_readRoot _ ((hn.present rfl).kid (eq_of_beq hk) 0 rfl)
  · exact present_readRoot _ hn

theorem Ready.decorator (h : Ready f p n ks ds) (hk : n.kind = .decorator) (ownLine : Bool) :
    Clear f (decorator n ks ownLine) := by
  have hobject : Clear f (child ks 0 (.expr Level.postfixed {})) := h.kid hk 0 rfl rfl
  have hplain : Clear f (plain (child ks 0)) := h.kid hk 0 rfl rfl
  have hexpr := clear_lookingInto (present_decoratorRoot (h.placed.kid hk 0 rfl))
    (clear_ite (c := isSimpleDecorator (n.kid 0)) |>.2
      ⟨fun _ => hobject, fun _ => clear_inParens hplain⟩)
  cases ownLine <;> simp [Print.decorator, h.span, hexpr]

theorem clear_class (hd : ∀ d ∈ ds, Clear f (d (.decorator true)))
    (hname : Clear f (plain (child ks 0))) (hbase : Clear f (child ks 1 (.expr Level.construct {})))
    (hbody : Clear f (child ks 2 .classBody)) : Clear f (class_ n ks ds) := by
  simpa [class_, hname, hbase, hbody] using hd

theorem Ready.field (h : Ready f p n ks ds) (hk : n.kind = .property) : Clear f (field n ks) := by
  have hkey : Clear f (child ks 0 (.key n.flags.computed)) := h.kid hk 0 rfl (fills_keyPlace _ _)
  have hvalue : Clear f (child ks 1 (.expr Level.comma {})) := h.kid hk 1 rfl rfl
  simp [Print.field, hkey, hvalue]

theorem Ready.member (h : Ready f p n ks ds) (hk : Role.member.takes n.kind = true) :
    Clear f (member n ks ds) := by
  have hfront : Clear f ([Piece.leading n.span.start] ++ ds.flatMap (fun d => d (.decorator true))
      ++ [Piece.map n.span]) := by
    simpa [h.span] using h.decorated true
  refine clear_append.2 ⟨clear_append.2 ⟨hfront, ?_⟩, by simp⟩
  split
  case h_1 hk => exact h.method hk
  case h_2 hk => exact h.field hk
  case h_3 hk => exact clear_append.2 ⟨clear_word _, h.kid hk 0 rfl rfl⟩
  case h_4 hmethod hproperty hstatic =>
    -- no other kind is a member
    simp only [Role.takes, Bool.or_eq_true, beq_iff_eq] at hk
    exact absurd hk (not_or.2 ⟨not_or.2 ⟨hmethod, hproperty⟩, hstatic⟩)

/-! ### All expressions -/

theorem Ready.bareExpr (h : Ready f p n ks ds) (hk : n.kind.isExpression = true) :
    Clear f (bareExpr ascii n ks ds level r) := by
  unfold Print.bareExpr
  dsimp only
  split
  case h_1 | h_2 | h_3 | h_4 | h_5 | h_6 => simp
  case h_7 => exact clear_literal
  case h_8 hk => exact h.template hk
  case h_9 hk =>
    have htag : Clear f (object_ (child ks 0) r) := h.kid hk 0 rfl rfl
    exact clear_wrapIf.2 (clear_append.2 ⟨htag, h.kid hk 1 rfl rfl⟩)
  case h_10 hk => exact clear_inParens (h.kid hk 0 rfl rfl)
  case h_11 hk | h_12 hk => exact clear_array (h.each hk rfl rfl)
  case h_13 hk | h_14 hk => exact clear_inBraces (h.each hk rfl rfl)
  case h_15 => exact clear_nil
  case h_16 hk | h_17 hk => exact clear_append.2 ⟨clear_tok _, h.kid hk 0 rfl rfl⟩
  case h_18 hk =>
    have htarget : Clear f (child ks 0 (.expr Level.assign {})) := h.kid hk 0 rfl rfl
    have hvalue : Clear f (child ks 1 (.expr Level.comma r.onlyIn)) := h.kid hk 1 rfl rfl
    simp [htarget, hvalue]
  case h_19 hk =>
    exact clear_function (h.kid hk 0 rfl rfl) (h.kid hk 1 rfl rfl) (h.kid hk 2 rfl rfl)
  case h_20 hk =>
    exact clear_class (h.decorated true) (h.kid hk 0 rfl rfl) (h.kid hk 1 rfl rfl)
      (h.kid hk 2 rfl rfl)
  case h_21 hk => exact clear_wrapIf.2 (h.arrow hk)
  case h_22 hk =>
    have hchild : Clear f (child ks 0 (.expr (Level.prefixed - 1) {})) := h.kid hk 0 rfl rfl
    simp [hchild]
  case h_23 hk => exact h.update hk
  case h_24 hk => exact clear_wrapIf.2 (clear_append.2 ⟨clear_word _, h.kid hk 0 rfl rfl⟩)
  case h_25 hk =>
    have hchild : Clear f (child ks 0 (.expr Level.yields r.onlyIn)) := h.kid hk 0 rfl rfl
    simp [hchild]
  case h_26 hk => exact h.binary hk
  case h_27 hk =>
    have htarget : Clear f (child ks 0 (.expr Level.assign r.onlyIn)) := h.kid hk 0 rfl rfl
    have hvalue : Clear f (child ks 1 (.expr (Level.assign - 1) r.onlyIn)) := h.kid hk 1 rfl rfl
    simp [htarget, hvalue]
  case h_28 hk =>
    have hchild (level : Nat) (r : Restriction) : Clear f (child ks 0 (.expr level r)) ∧
        Clear f (child ks 1 (.expr level r)) ∧ Clear f (child ks 2 (.expr level r)) :=
      ⟨h.kid hk 0 rfl rfl, h.kid hk 1 rfl rfl, h.kid hk 2 rfl rfl⟩
    simp [hchild]
  case h_29 hk => exact clear_wrapIf.2 (clear_list (h.each hk rfl rfl))
  case h_30 hk =>
    have hcallee : Clear f (object_ (child ks 0) {}) := h.kid hk 0 rfl rfl
    have hargs : Clear f (arguments (ks.drop 1)) := clear_arguments (h.each hk rfl rfl)
    exact clear_wrapIf.2 (clear_append.2 ⟨by simp [hcallee], h.behind hk (Nat.le_refl 1) hargs⟩)
  case h_31 hk => exact clear_append.2 ⟨clear_tok _, h.importArguments hk⟩
  case h_32 hk =>
    have hcallee : Clear f (child ks 0 (.expr Level.construct { noCall := true })) :=
      h.kid hk 0 rfl rfl
    have hargs : Clear f (arguments (ks.drop 1)) := clear_arguments (h.each hk rfl rfl)
    exact clear_append.2 ⟨by simp [hcallee], h.behind hk (Nat.le_refl 1) hargs⟩
  case h_33 hk => exact h.memberRead hk
  case h_34 hk =>
    have hobject : Clear f (object_ (child ks 0) r) := h.kid hk 0 rfl rfl
    have hindex : Clear f (plain (child ks 1)) := h.kid hk 1 rfl rfl
    simp [hobject, hindex]
  case h_35 hk => exact h.kid hk 0 rfl rfl
  case h_36 =>
    -- no other kind is an expression
    exfalso
    revert hk
    unfold NodeKind.isExpression
    split
    all_goals first | contradiction | exact Bool.false_ne_true

theorem Ready.expr (h : Ready f p n ks ds) (hk : n.kind.isExpression = true) :
    Clear f (expr ascii n ks ds level r) := clear_cons.2 ⟨h.span, h.bareExpr hk⟩

/-! ### Members of objects -/

theorem Ready.key (h : Ready f p n ks ds) (hk : n.kind.isExpression = true) (computed : Bool) :
    Clear f (key ascii n computed fun _ => Print.expr ascii n ks ds Level.comma {}) := by
  have hself : Clear f (Print.expr ascii n ks ds Level.comma {}) := h.expr hk
  unfold Print.key
  split
  · simp [hself]
  · refine clear_cons.2 ⟨h.span, ?_⟩
    split
    · simp
    · simp
    · exact hself

/-- A member of an object has a key and a value, and a default has a target. -/
theorem Ready.lacksName (h : Ready f p n ks ds) (hk : n.kind = .objProp) :
    lacksName n = false := by
  have hkey : (n.kid 0).isPresent = true := h.kidPresent hk 0 rfl (isOptional_keyPlace _)
  have hvalue : Placed (.lowered f) .expr (n.kid 1) := Low.present (h.placed.kid hk 1 rfl) rfl
  have hnamed : (namedValue n).isPresent = true := by
    unfold namedValue
    split
    · rename_i hdefault
      exact (Low.present (hvalue.kid (eq_of_beq hdefault) 0 rfl) rfl).isPresent
    · exact hvalue.isPresent
  simp [Print.lacksName, Node.isAbsent, hkey, hvalue.isPresent, hnamed]

theorem Ready.property (h : Ready f p n ks ds) (hk : Role.property.takes n.kind = true) :
    Clear f (property n ks fun _ => Print.expr ascii n ks ds Level.comma {}) := by
  refine clear_cons.2 ⟨h.span, ?_⟩
  split
  case h_1 hk =>
    have hkey : Clear f (child ks 0 (.key n.flags.computed)) := h.kid hk 0 rfl (fills_keyPlace _ _)
    have hvalue : Clear f (child ks 1 (.expr Level.comma {})) := h.kid hk 1 rfl rfl
    simp [h.lacksName hk, hkey, hvalue]
  case h_2 hk => exact h.method hk
  case h_3 hprop hmethod =>
    simp only [Role.takes, Bool.or_eq_true, beq_iff_eq] at hk
    exact h.expr ((hk.resolve_right hmethod).resolve_right hprop)

end

/-! ## Statements -/

section

variable {f : SourceFile} {n : Node} {ks ds : List Layout} {p q : Place} {kind : NodeKind}
  {r : Restriction} {ascii : Bool}

theorem Ready.bindings (h : Ready f p n ks ds) (hk : n.kind = .varDecl) :
    Clear f (bindings n ks r) := clear_append.2 ⟨by simp, clear_list (h.each hk rfl rfl)⟩

theorem Ready.declarator (h : Ready f p n ks ds) (hk : n.kind = .declarator) :
    Clear f (declarator n ks r) := by
  have htarget : Clear f (child ks 0 (.expr Level.comma {})) := h.kid hk 0 rfl rfl
  have hvalue : Clear f (child ks 1 (.expr Level.comma r)) := h.kid hk 1 rfl rfl
  simp [Print.declarator, h.span, htarget, hvalue]

theorem clear_optional {m : Node} {k : Layout} (h : Clear f (plain k)) :
    Clear f (optional m k) := by
  simp [optional, h]

/-- A loop begins with a declaration or with an expression, and the kind says which. -/
theorem Ready.loopHead (h : Ready f p n ks ds) (hk : n.kind = kind)
    (hi : (shapeOf p kind n.flags).first[0]? = some q) (hq : q = .loopInit ∨ q = .loopTarget) :
    Clear f (loopHead (n.kid 0) (child ks 0)) := by
  unfold Print.loopHead
  split
  · rename_i hvar
    exact h.kidAs hk 0 hi (fun _ => hvar) fun _ => rfl
  · rename_i hvar
    have hvar : (n.kid 0).kind ≠ .varDecl := by simpa using hvar
    refine h.kidAs hk 0 hi (fun ha => ?_) fun _ => rfl
    obtain rfl | rfl := hq <;> simpa [Role.takes, Place.allows, hvar] using ha

mutual

/-- The search for a condition that would take an else does not fail: the last part of a loop is
always there. -/
theorem searchFailure?_of_fits : ∀ (p : Place) (n : Node), Low f p n → n.isPresent = true →
    searchFailure? n = none
  | _, .absent, _, hp => by cases hp
  | p, .mk h ks ds t a x, hn, hp => by
    have hplaced := hn.placed hp
    have hsearch (i : Nat) (hi : (ks.getD i .absent).isPresent = true) :
        searchFailureAt? i ks = none := searchFailureAt?_of_fits _ _ ks hplaced.kids i hi
    have hlast {k : NodeKind} (hk : h.kind = k) (hr : (shapeOf p k h.flags).rest = .none)
        (hi : (shapeOf p k h.flags).first[(shapeOf p k h.flags).first.length - 1]? = some .stmt) :
        searchFailureAt? (ks.length - 1) ks = none := by
      subst hk
      have hlength := length_eq_of_fits (hr ▸ hplaced.kids)
      have hbody : Low f .stmt (ks.getD (ks.length - 1) .absent) := by
        rw [show ks.length = _ from hlength]
        exact hplaced.kid rfl _ hi
      exact hsearch _ (hbody.present rfl).isPresent
    unfold searchFailure?
    split
    · split
      · rfl
      · rename_i hno
        exact hsearch 2 (by simpa [Node.isAbsent] using hno)
    case h_2 hk | h_3 hk | h_4 hk | h_5 hk | h_6 hk | h_7 hk => exact hlast hk rfl rfl
    · rfl

theorem searchFailureAt?_of_fits : ∀ (ps : List Place) (rest : Rest) (ns : List Node),
    kidsFit (.lowered f) ps rest ns = true → ∀ i, (ns.getD i .absent).isPresent = true →
      searchFailureAt? i ns = none
  | _, _, [], _, _, hi => by cases hi
  | p :: _, _, n :: _, hns, 0, hi => searchFailure?_of_fits p n (Bool.and_eq_true_iff.1 hns).1 hi
  | [], .each p, n :: _, hns, 0, hi => searchFailure?_of_fits p n (Bool.and_eq_true_iff.1 hns).1 hi
  | [], .turns p _, n :: _, hns, 0, hi =>
    searchFailure?_of_fits p n (Bool.and_eq_true_iff.1 hns).1 hi
  | _ :: ps, rest, _ :: ns, hns, i + 1, hi =>
    searchFailureAt?_of_fits ps rest ns (Bool.and_eq_true_iff.1 hns).2 i hi
  | [], .each p, _ :: ns, hns, i + 1, hi =>
    searchFailureAt?_of_fits [] (.each p) ns (Bool.and_eq_true_iff.1 hns).2 i hi
  | [], .turns p q, _ :: ns, hns, i + 1, hi =>
    searchFailureAt?_of_fits [] (.turns q p) ns (Bool.and_eq_true_iff.1 hns).2 i hi

end

theorem Ready.ifStatement (h : Ready f p n ks ds) (hk : n.kind = .ifStmt) :
    Clear f (ifStatement n ks) := by
  have htest : Clear f (inParens (child ks 0)) := clear_inParens (h.kid hk 0 rfl rfl)
  have hyes : Clear f (child ks 1 .line) ∧ Clear f (child ks 1 .body) :=
    ⟨h.kid hk 1 rfl rfl, h.kid hk 1 rfl rfl⟩
  have hsearch : searchFailure? (n.kid 1) = none :=
    searchFailure?_of_fits .stmt _ (h.placed.kid hk 1 rfl) (h.kidPresent hk 1 rfl rfl)
  have hfirst (guarded : Bool) : Clear f (if guarded then
      [Piece.space, openBrace, .push, .newline] ++ child ks 1 .line
        ++ [Piece.pop, .dropSemi, .newline, closeBrace]
      else child ks 1 .body) := by simp [openBrace, closeBrace, hyes]
  have hgap (c : Bool) : Clear f [if c then Piece.space else .newline] := by cases c <;> simp
  -- whether there is an else, its place does not say
  have helse (hno : ¬(n.kid 2).isAbsent = true) : Clear f (if (n.kid 2).kind == .ifStmt then
      [Piece.space, .map (n.kid 2).span] ++ child ks 2 .stmt else child ks 2 .body) := by
    have hno : (n.kid 2).isPresent = true := by simpa [Node.isAbsent] using hno
    have htakes (ha : Place.optStmt.allows true (n.kid 2).kind = true) :
        (n.kid 2).kind.isStatement = true := by simpa using ha
    have hstmt : Clear f (child ks 2 .stmt) := h.kidThere hk 2 rfl htakes hno
    have hbody : Clear f (child ks 2 .body) := h.kidThere hk 2 rfl htakes hno
    simp [hstmt, hbody, h.kidSpan hk 2 rfl]
  simp only [Print.ifStatement, hsearch, Option.map_none, Option.getD_none, ite_self, clear_append]
  refine ⟨⟨⟨by simp, htest⟩, hfirst _⟩, clear_ite.2 ⟨fun _ => clear_nil, fun hno => ?_⟩⟩
  exact clear_append.2 ⟨clear_append.2 ⟨hgap _, clear_tok _⟩, helse hno⟩

theorem Ready.forStatement (h : Ready f p n ks ds) (hk : n.kind = .forStmt) :
    Clear f (forStatement n ks) := by
  have hhead : Clear f (Print.loopHead (n.kid 0) (child ks 0)) := h.loopHead hk rfl (.inl rfl)
  have htest : Clear f (optional (n.kid 1) (child ks 1)) := clear_optional (h.kid hk 1 rfl rfl)
  have hupdate : Clear f (optional (n.kid 2) (child ks 2)) := clear_optional (h.kid hk 2 rfl rfl)
  have hbody : Clear f (child ks 3 .body) := h.kid hk 3 rfl rfl
  simp [Print.forStatement, hhead, htest, hupdate, hbody]

theorem clear_forEach (hhead : Clear f (lookingInto (n.kid 0) (loopHead (n.kid 0) (child ks 0))))
    (hobject : ∀ level, Clear f (child ks 1 (.expr level {})))
    (hbody : Clear f (child ks 2 .body)) :
    Clear f (forEach n ks) := by
  simp [forEach, hhead, hobject, hbody]

theorem Ready.tryStatement (h : Ready f p n ks ds) (hk : n.kind = .tryStmt) :
    Clear f (tryStatement n ks) := by
  have hbody : Clear f (child ks 0 .block) := h.kid hk 0 rfl rfl
  have hhandler : Clear f (child ks 1 .handler) := h.kid hk 1 rfl rfl
  have hlast : Clear f (child ks 2 .block) := h.kid hk 2 rfl rfl
  simp [Print.tryStatement, hbody, hhandler, hlast]

theorem Ready.handler (h : Ready f p n ks ds) (hk : n.kind = .catchClause) :
    Clear f (handler n ks) := by
  have hname : Clear f (inParens (child ks 0)) := clear_inParens (h.kid hk 0 rfl rfl)
  have hbody : Clear f (child ks 1 .block) := h.kid hk 1 rfl rfl
  simp [Print.handler, h.span, hname, hbody]

theorem Ready.switchStatement (h : Ready f p n ks ds) (hk : n.kind = .switchStmt) :
    Clear f (switchStatement n ks) := by
  have hvalue : Clear f (inParens (child ks 0)) := clear_inParens (h.kid hk 0 rfl rfl)
  have hbranches : Clear f ((ks.drop 1).flatMap fun k => k .branch) :=
    clear_flatMap.2 (h.each hk rfl rfl)
  unfold Print.switchStatement
  rw [clear_append, clear_append]
  exact ⟨⟨by simp [hvalue, openBrace], h.behind hk (Nat.le_refl 1) hbranches⟩,
    by simp [closeBrace]⟩

theorem kid_beyond {i : Nat} (hi : n.kids.length ≤ i) : n.kid i = .absent := by
  rw [Node.kid, List.getD_eq_getElem?_getD, List.getElem?_eq_none hi, Option.getD_none]

theorem kid_mem_drop {i : Nat} (hk : (n.kid i).kind = kind) (hp : kind ≠ .invalid) :
    n.kid i ∈ n.kids.drop i := by
  have hi : i < n.kids.length := by
    by_contra hi
    rw [kid_beyond (by omega)] at hk
    exact hp hk.symm
  have hget : n.kid i = n.kids[i] := by
    rw [Node.kid, List.getD_eq_getElem?_getD, List.getElem?_eq_getElem hi, Option.getD_some]
  rw [hget, List.drop_eq_getElem_cons hi]
  exact List.mem_cons_self

/-- A branch whose only statement is a block is printed as that block. -/
theorem Ready.branch (h : Ready f p n ks ds) (hk : n.kind = .caseClause) :
    Clear f (branch n ks) := by
  have hvalue : Clear f (plain (child ks 0)) := h.kid hk 0 rfl rfl
  have hlines : Clear f ((ks.drop 1).flatMap fun k => k .line) :=
    clear_flatMap.2 (h.each hk rfl rfl)
  have hblock (hb : (n.kid 1).kind = .block) : Clear f (child ks 1 .block) := by
    have hmem : n.kid 1 ∈ n.kids.drop 1 := kid_mem_drop hb (by simp)
    refine AllSuit.child h.kids 1 .stmt .block (h.placed.each hk rfl _ hmem)
      (fun _ => ?_) fun _ => rfl
    rw [show n.kids.getD 1 .absent = n.kid 1 from rfl, hb]
    rfl
  simp only [Print.branch, clear_append, clear_cons, clear_ite]
  refine ⟨⟨⟨⟨rfl, h.span, clear_nil⟩, by simp [hvalue], by simp⟩, by simp⟩,
    h.behind hk (Nat.le_refl 1) ?_⟩
  simp only [clear_append, clear_ite, Bool.and_eq_true, beq_iff_eq]
  exact ⟨fun hb => ⟨⟨by simp, hblock hb.2⟩, by simp⟩, fun _ => ⟨⟨by simp, hlines⟩, by simp⟩⟩

/-! ### Imports and exports -/

theorem clear_source (hmodule : Clear f (plain (child ks 0)))
    (hwith : Clear f (plain (child ks 1))) :
    Clear f (source n ks) := by
  simp [source, hmodule, hwith]

/-- A node with one child has no second one. -/
theorem Ready.alone (h : Ready f p n ks ds) (hk : n.kind = kind)
    (hs : shapeOf p kind n.flags = { first := [q] })
    {b : Prop} (hp : (n.kid 1).isPresent = true) : b := by
  have hkids := h.placed.kids
  rw [hk, hs] at hkids
  have hlength : n.kids.length ≤ 1 := by
    match hn : n.kids with
    | [] | [_] => simp
    | _ :: _ :: _ => simp [hn] at hkids
  rw [kid_beyond hlength] at hp
  cases hp

/-- A name with its other name, or a name that stands alone. -/
theorem Ready.spec (h : Ready f p n ks ds) (hk : Role.spec.takes n.kind = true) :
    Clear f (spec n ks) := by
  have hnames : Clear f (plain (child ks 0)) ∧ (n.kid 0).isPresent = true ∧
      ((n.kid 1).isPresent = true → Clear f (plain (child ks 1))) := by
    simp only [Role.takes, Bool.or_eq_true, beq_iff_eq] at hk
    obtain ((hk | hk) | hk) | hk := hk
    · exact ⟨h.kid hk 0 rfl rfl, h.kidPresent hk 0 rfl rfl, fun _ => h.kid hk 1 rfl rfl⟩
    · exact ⟨h.kid hk 0 rfl rfl, h.kidPresent hk 0 rfl rfl, h.alone hk rfl⟩
    · exact ⟨h.kid hk 0 rfl rfl, h.kidPresent hk 0 rfl rfl, h.alone hk rfl⟩
    · exact ⟨h.kid hk 0 rfl rfl, h.kidPresent hk 0 rfl rfl, fun _ => h.kid hk 1 rfl rfl⟩
  simp +contextual [Print.spec, lookingInto, Node.isAbsent, h.span, hnames]

theorem Ready.bound (h : Ready f p n ks ds) (hk : Role.bound.takes n.kind = true) :
    Clear f (plain (child ks 0)) := by
  simp only [Role.takes, Bool.or_eq_true, beq_iff_eq] at hk
  obtain (hk | hk) | hk := hk <;> exact h.kid hk 0 rfl rfl

theorem Ready.exportNamed (h : Ready f p n ks ds) (hk : n.kind = .exportNamed) :
    Clear f (exportNamed n ks) := by
  have hspecs : Clear f (specList (ks.drop 2)) := clear_inBraces (h.each hk rfl rfl)
  have hsource : Clear f (source n ks) := clear_source (h.kid hk 0 rfl rfl) (h.kid hk 1 rfl rfl)
  have hbehind := h.behind hk (Nat.le_refl 2) hspecs
  unfold Print.exportNamed
  simp [hbehind, hsource]

theorem Ready.exportAll (h : Ready f p n ks ds) (hk : n.kind = .exportAll) :
    Clear f (exportAll n ks) := by
  have hname : Clear f (plain (child ks 2)) := h.kid hk 2 rfl rfl
  have hsource : Clear f (source n ks) := clear_source (h.kid hk 0 rfl rfl) (h.kid hk 1 rfl rfl)
  simp [Print.exportAll, hname, hsource]

theorem clear_importBindings (hs : ∀ k ∈ ks, Clear f (k .spec)) (hb : ∀ k ∈ ks, Clear f (k .bound))
    (specs : List Node) : Clear f (importBindings specs ks) := by
  unfold importBindings
  split
  · rename_i k _
    have hbound : Clear f (k .bound) := hb k List.mem_cons_self
    have hspecs : Clear f (specList (k :: _)) := clear_inBraces hs
    simp [hbound, hspecs]
  · exact clear_nil

theorem clear_child {role : Role} (hl : role.mayLack = true) (h : ∀ k ∈ ks, Clear f (k role))
    (i : Nat) : Clear f (child ks i role) := by
  rw [child, List.getD_eq_getElem?_getD]
  cases hi : ks[i]? with
  | none => exact clear_absent hl
  | some k => exact h k (List.mem_of_getElem? hi)

theorem Ready.importStatement (h : Ready f p n ks ds) (hk : n.kind = .importDecl) :
    Clear f (importStatement n ks) := by
  have hspecs : ∀ k ∈ ks.drop 2, Clear f (k .spec) := h.each hk rfl rfl
  have hbound : ∀ k ∈ ks.drop 2, Clear f (k .bound) := h.each hk rfl rfl
  have hfirst : Clear f (child (ks.drop 2) 0 .bound) := clear_child rfl hbound 0
  have hall := clear_importBindings hspecs hbound (n.kids.drop 2)
  have hmore : Clear f (importBindings ((n.kids.drop 2).drop 1) ((ks.drop 2).drop 1)) :=
    clear_importBindings (fun k hk => hspecs k (List.mem_of_mem_drop hk))
      (fun k hk => hbound k (List.mem_of_mem_drop hk)) _
  have hbindings := clear_ite (c := ((n.kids.drop 2).headD .absent).kind == .importDefault) |>.2
    ⟨fun _ =>
      clear_append.2 ⟨clear_append.2 ⟨hfirst, clear_ite (c := 1 < (n.kids.drop 2).length) |>.2
      ⟨fun _ => clear_word ",", fun _ => clear_nil⟩⟩, hmore⟩, fun _ => hall⟩
  have hsource : Clear f (source n ks) := clear_source (h.kid hk 0 rfl rfl) (h.kid hk 1 rfl rfl)
  have hfrom := clear_append.2 ⟨hbindings, clear_spacedWord "from"⟩
  refine clear_append.2 ⟨clear_word _, h.behind hk (Nat.le_refl 2) ?_⟩
  simp only [clear_append]
  exact ⟨⟨clear_ite.2 ⟨fun _ => clear_nil, fun _ => hfrom⟩, hsource⟩, by simp⟩

/-- What is exported as the default is a declaration or an expression, and its kind says which. -/
theorem Ready.exportDefault (h : Ready f p n ks ds) (hk : n.kind = .exportDefault) :
    Clear f (exportDefault n ks) := by
  have hp := h.kidPresent hk 0 rfl rfl
  refine clear_append.2 ⟨by simp, clear_lookingInto hp ?_⟩
  split
  case h_1 hd | h_2 hd => exact h.kidThere hk 0 rfl (fun _ => by rw [hd]; rfl) hp
  case h_3 hfunc hclass =>
    have hexpr : Clear f (child ks 0 (.expr Level.comma {})) := by
      refine h.kidAs hk 0 rfl (fun ha => ?_) fun _ => rfl
      simpa [Role.takes, Place.allows, show (n.kid 0).kind ≠ .funcDecl from hfunc,
        show (n.kid 0).kind ≠ .classDecl from hclass] using ha
    simp [hexpr]

/-! ### All statements -/

theorem Ready.lines (h : Ready f p n ks ds) (hk : n.kind = .block) :
    Clear f (.map n.span :: braced n.span (ks.map fun k => k .line)) :=
  clear_cons.2 ⟨h.span, clear_braced _ (h.each hk rfl rfl)⟩

theorem Ready.statement (h : Ready f p n ks ds) (hk : n.kind.isStatement = true) :
    Clear f (statement n ks ds) := by
  have hjump {w : String} (hchild : Clear f (plain (child ks 0))) :
      Clear f (tok w ++ optional (n.kid 0) (child ks 0) ++ [Piece.semi]) := by
    simp [clear_optional hchild]
  unfold Print.statement
  dsimp only
  split
  case h_1 hk =>
    have hexpr : Clear f (plain (child ks 0)) := h.kid hk 0 rfl rfl
    simp [hexpr]
  case h_2 hk => exact clear_append.2 ⟨h.bindings hk, by simp⟩
  case h_3 hk =>
    exact clear_function (h.kid hk 0 rfl (fills_declaredPlace p)) (h.kid hk 1 rfl rfl)
      (h.kid hk 2 rfl rfl)
  case h_4 hk =>
    exact clear_class (h.decorated true) (h.kid hk 0 rfl (fills_declaredPlace p))
      (h.kid hk 1 rfl rfl) (h.kid hk 2 rfl rfl)
  case h_5 hk => exact h.lines hk
  case h_6 | h_7 => simp
  case h_8 hk => exact h.ifStatement hk
  case h_9 hk => exact h.forStatement hk
  case h_10 hk | h_11 hk =>
    exact clear_forEach
      (clear_lookingInto (h.kidPresent hk 0 rfl rfl) (h.loopHead hk rfl (.inr rfl)))
      (fun _ => h.kid hk 1 rfl rfl) (h.kid hk 2 rfl rfl)
  case h_12 hk =>
    have htest : Clear f (inParens (child ks 0)) := clear_inParens (h.kid hk 0 rfl rfl)
    exact clear_append.2 ⟨by simp [htest], h.kid hk 1 rfl rfl⟩
  case h_13 hk =>
    have hgap : Clear f [if (n.kid 0).kind == .block then Piece.space else .newline] := by
      split <;> simp
    have hbody : Clear f (child ks 0 .body) := h.kid hk 0 rfl rfl
    have htest : Clear f (inParens (child ks 1)) := clear_inParens (h.kid hk 1 rfl rfl)
    simp only [clear_append]
    exact ⟨⟨⟨⟨⟨clear_tok _, hbody⟩, hgap⟩, clear_word _⟩, htest⟩, by simp⟩
  case h_14 hk | h_15 hk | h_16 hk | h_17 hk => exact hjump (h.kid hk 0 rfl rfl)
  case h_18 hk => exact h.tryStatement hk
  case h_19 hk => exact h.switchStatement hk
  case h_20 hk =>
    have hlabel : Clear f (plain (child ks 0)) := h.kid hk 0 rfl rfl
    have hbody : Clear f (child ks 1 .stmt) := h.kid hk 1 rfl rfl
    simp [hlabel, hbody]
  case h_21 hk =>
    have hobject : Clear f (inParens (child ks 0)) := clear_inParens (h.kid hk 0 rfl rfl)
    exact clear_append.2 ⟨by simp [hobject], h.kid hk 1 rfl rfl⟩
  case h_22 hk => exact h.importStatement hk
  case h_23 hk => exact h.exportNamed hk
  case h_24 hk => exact h.exportAll hk
  case h_25 hk =>
    have hspan := h.kidSpan hk 0 rfl
    exact clear_append.2 ⟨by simp [hspan], h.kid hk 0 rfl rfl⟩
  case h_26 hk => exact h.exportDefault hk
  case h_27 =>
    -- no other kind is a statement
    exfalso
    revert hk
    unfold NodeKind.isStatement
    split
    all_goals first | contradiction | exact Bool.false_ne_true

theorem Ready.controlled (h : Ready f p n ks ds) (hk : n.kind.isStatement = true) :
    Clear f (controlled n ks ds) := by
  unfold Print.controlled
  split
  case h_1 hblock => exact clear_cons.2 ⟨rfl, h.lines hblock⟩
  case h_2 => simp
  case h_3 => simp [h.span, h.statement hk]

/-! ## Trees -/

/-- A node has a rule for each role that its kind is for. -/
theorem Ready.rule (h : Ready f p n ks ds) {role : Role} (ht : role.takes n.kind = true) :
    Clear f (rule ascii n ks ds role) := by
  cases role with
  | expr level r => exact h.expr ht
  | stmt => exact h.statement ht
  | line => simp [Print.rule, h.span, h.statement ht]
  | block => exact h.lines (eq_of_beq ht)
  | body => exact h.controlled ht
  | bindings r => exact h.bindings (eq_of_beq ht)
  | declarator r => exact h.declarator (eq_of_beq ht)
  | params =>
    have hparams : ∀ k ∈ ks, Clear f (k .param) := h.each (eq_of_beq ht) rfl rfl
    have hlist := clear_list hparams
    exact clear_append.2 ⟨clear_append.2 ⟨clear_tok _, hlist⟩, clear_tok _⟩
  | param =>
    have hk : n.kind = .param := eq_of_beq ht
    rw [Print.rule, if_pos (beq_iff_eq.2 hk)]
    exact h.parameter hk
  | property => exact h.property ht
  | key computed => exact h.key ht computed
  | template => exact h.template (eq_of_beq ht)
  | decorator ownLine => exact h.decorator (eq_of_beq ht) ownLine
  | classBody => exact clear_braced _ (h.each (eq_of_beq ht) rfl rfl)
  | member => exact h.member ht
  | handler => exact h.handler (eq_of_beq ht)
  | branch => exact h.branch (eq_of_beq ht)
  | spec => exact h.spec ht
  | bound => exact h.bound ht

mutual

/-- The layout of a tree is clear in the roles that the tree is for. -/
theorem suits_layout (f : SourceFile) (ascii : Bool) : ∀ n : Node, (layout ascii n).Suits f n
  | .absent => suits_absent
  | .mk _ ks ds _ _ _ => fun _ _ hn ht _ =>
    Ready.rule ⟨Low.placed hn rfl, allSuit_layoutAll f ascii ks, allSuit_layoutAll f ascii ds⟩
      (ht rfl)

theorem allSuit_layoutAll (f : SourceFile) (ascii : Bool) :
    ∀ ns : List Node, AllSuit f ns (layoutAll ascii ns)
  | [] => .nil
  | n :: ns => .cons (suits_layout f ascii n) (allSuit_layoutAll f ascii ns)

end

/-- The pieces of a program that fits are clear. -/
theorem clear_programPieces {root : Node} (hroot : FitsAsProgram (.lowered f) root) (ascii : Bool) :
    Clear f (programPieces ascii root) := by
  have hlines : ∀ k ∈ layoutAll ascii root.kids, Clear f (k .line) :=
    AllSuit.roles (allSuit_layoutAll f ascii root.kids) hroot.stmts rfl
  exact clear_append.2 ⟨clear_flatMap.2 hlines, by simp⟩

theorem faults_of_clear {ps : Pieces} (h : Clear f ps) : ps.flatMap Piece.faults = [] := by
  rw [List.flatMap_eq_nil_iff]
  intro piece hpiece
  have hclear := h piece hpiece
  cases piece with
  | fault d => cases hclear
  | _ => rfl

end

theorem code_checkOutput (ascii : Bool) (out : Bytes) :
    ∀ d ∈ checkOutput ascii out, d.code = .badOutput := by
  unfold checkOutput
  split
  · exact List.forall_mem_singleton.2 rfl
  split
  · exact List.forall_mem_nil _
  split
  · exact List.forall_mem_singleton.2 rfl
  · exact List.forall_mem_nil _

theorem code_mapDiagnostic (e : MapError) :
    (mapDiagnostic e).code = .spanOutOfRange ∨ (mapDiagnostic e).code = .mapMismatch := by
  cases e
  · exact .inl rfl
  · exact .inr rfl

/-- Printing a program that fits reports nothing that cannot be printed: only an entry that the map
refuses, or a text that is no good. -/
theorem printTree_fits {f : SourceFile} {root : Node} (hroot : FitsAsProgram (.lowered f) root)
    (comments : CommentTable) (o : Settings) :
    ∀ d ∈ (printTree root comments o).reports,
      d.code = .badOutput ∨ d.code = .spanOutOfRange ∨ d.code = .mapMismatch := by
  have hfaults := faults_of_clear (clear_programPieces hroot o.asciiOnly)
  unfold printTree
  rw [if_neg (by simp [hroot.kind])]
  dsimp only
  rw [List.findIdx?_eq_none_iff.2 (sound_of_faultless hfaults)]
  dsimp only
  rw [reports_finish, State.reports_run, reports_hashbang, hfaults, List.append_nil,
    List.nil_append]
  intro d hd
  rcases List.mem_append.1 hd with hd | hd
  · obtain ⟨e, -, rfl⟩ := Option.map_eq_some_iff.1 (Option.mem_toList.1 hd)
    exact .inr (code_mapDiagnostic e)
  · exact .inl (code_checkOutput _ _ d hd)

/-- A tree that does not fit may fail: here a property is read without a name. -/
example :
    let root := Node.new .program {} [.new .exprStmt {} [.new .member {} [.ident "x" {}]]]
    (printTree root {} {}).reports =
      [.error .printingFailure {} ("internal printer failure: " ++ Failure.missingNode)] := by
  decide +kernel

end ScriptLower.Print
