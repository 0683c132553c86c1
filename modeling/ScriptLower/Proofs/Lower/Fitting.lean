import ScriptLower.Proofs.Lower.Programs
import ScriptLower.Proofs.Tree.Places

/-!
# What lowering is given and what it gives

Lowering looks into nodes by their kinds and reports a kind that it does not expect, and the rules
that are tied to a depth report when it is not enough. Both would be faults of lowering itself. A
step is free of them when it never adds such a report; `Gives` says this along with what is known of
the value of the step, which in most cases is a tree of the plain language that fits a place.

A rule is given a node whose turn it is: the node fits its place and the depth left is enough for
its parts. What the rule hands on to other rules are parts of the node, which are smaller.
-/

namespace ScriptLower.Lower

open ScriptLower

/-! ## Faults -/

/-- The codes of the reports that say that lowering itself has failed. -/
def faults : List Code := [.unknownNode, .typeLeaked, .noFreeName, .loweringFailure]

/-- No report of a state is a fault. -/
def State.Clean (s : State) : Prop := ∀ d ∈ s.reports, d.code ∉ faults

/-- A step adds no fault, and of its value `Q` holds. -/
def Gives {α : Type} (m : LowerM α) (Q : α → Prop) : Prop :=
  ∀ c s, s.Clean → (m c s).2.Clean ∧ Q (m c s).1

/-- A step that adds no fault, whatever its value. -/
class Calm {α : Type} (m : LowerM α) : Prop where
  clean : Gives m fun _ => True

section

variable {α β : Type} {m m' : LowerM α} {Q R : α → Prop} {P : β → Prop}

theorem Gives.pure {a : α} (h : Q a) : Gives (Pure.pure a) Q := fun _ _ hs => ⟨hs, h⟩

theorem Gives.bind {f : α → LowerM β} (hm : Gives m R) (hf : ∀ a, R a → Gives (f a) P) :
    Gives (m >>= f) P := by
  intro c s hs
  obtain ⟨hs', hR⟩ := hm c s hs
  exact hf _ hR c _ hs'

theorem Gives.mono (hm : Gives m R) (h : ∀ a, R a → Q a) : Gives m Q :=
  fun c s hs => ⟨(hm c s hs).1, h _ (hm c s hs).2⟩

theorem Gives.map {f : α → β} (hm : Gives m R) (h : ∀ a, R a → P (f a)) : Gives (f <$> m) P :=
  fun c s hs => ⟨(hm c s hs).1, h _ (hm c s hs).2⟩

/-- A step of which only its calm matters. -/
theorem Gives.skip [h : Calm m] {f : α → LowerM β} (hf : ∀ a, Gives (f a) P) : Gives (m >>= f) P :=
  .bind h.clean fun a _ => hf a

theorem Gives.branch {p : Prop} [Decidable p] (yes : p → Gives m Q) (no : ¬p → Gives m' Q) :
    Gives (if p then m else m') Q := by
  split
  · exact yes ‹_›
  · exact no ‹_›

/-- One of two steps, and then the same in either case. -/
theorem Gives.either {p : Prop} [Decidable p] {f : α → LowerM β} (yes : p → Gives m R)
    (no : ¬p → Gives m' R) (hf : ∀ a, R a → Gives (f a) P) :
    Gives (if p then m >>= f else m' >>= f) P :=
  .branch (fun hp => .bind (yes hp) hf) fun hp => .bind (no hp) hf

/-- A step that is taken at another place. -/
theorem Gives.elsewhere {f : Context → Context} (hm : Gives m Q) : Gives (withReader f m) Q :=
  fun c s hs => hm (f c) s hs

theorem Gives.mapM {f : α → LowerM β} {as : List α} (h : ∀ a ∈ as, Gives (f a) P) :
    Gives (as.mapM f) fun bs => ∀ b ∈ bs, P b := by
  induction as with
  | nil => exact .pure fun _ h => by cases h
  | cons a as ih =>
    rw [List.mapM_cons]
    refine .bind (h a List.mem_cons_self) fun b hb => ?_
    refine .bind (ih fun a ha => h a (List.mem_cons_of_mem _ ha)) fun bs hbs => ?_
    exact .pure (List.forall_mem_cons.2 ⟨hb, hbs⟩)

theorem Gives.foldlM {f : β → α → LowerM β} {as : List α} {init : β} (hinit : P init)
    (h : ∀ a ∈ as, ∀ b, P b → Gives (f b a) P) : Gives (as.foldlM f init) P := by
  induction as generalizing init with
  | nil => exact .pure hinit
  | cons a as ih =>
    rw [List.foldlM_cons]
    refine .bind (h a List.mem_cons_self init hinit) fun b hb => ?_
    exact ih hb fun a ha => h a (List.mem_cons_of_mem _ ha)

/-- The temporaries of a function are set aside, the reports are not. -/
theorem Gives.collectTemps (hm : Gives m Q) : Gives (collectTemps m) fun r => Q r.1 :=
  fun c s hs => hm c { s with temps := [] } hs

/-! ### Calm steps -/

/-- A step that changes nothing. -/
theorem Calm.of_still (h : ∀ c s, (m c s).2 = s) : Calm m :=
  ⟨fun c s hs => ⟨(h c s).symm ▸ hs, trivial⟩⟩

instance : Calm (read : LowerM Context) := .of_still fun _ _ => rfl

instance : Calm (get : LowerM State) := .of_still fun _ _ => rfl

instance (t : Target) : Calm (targetBefore t) := .of_still fun _ _ => rfl

instance (name : Bytes) : Calm (exporter? name) := .of_still fun _ _ => rfl

instance (name : Bytes) : Calm (define? name) := .of_still fun _ _ => rfl

instance (name : Bytes) : Calm (keepsImport name) := .of_still fun _ _ => rfl

instance (test : Node) : Calm (isStripped test) := .of_still fun _ _ => rfl

instance : Calm namespaceScope? := by
  refine ⟨.skip fun c => ?_⟩
  split
  · exact .pure trivial
  · exact .pure trivial

/-- A change of the state that leaves the reports alone. -/
theorem calm_modify {f : State → State} (h : ∀ s, (f s).reports = s.reports) :
    Calm (modify f : LowerM Unit) :=
  ⟨fun _ s hs => ⟨show ∀ d ∈ (f s).reports, d.code ∉ faults by rw [h s]; exact hs, trivial⟩⟩

theorem Gives.modify_then {f : State → State} {k : Unit → LowerM β}
    (h : ∀ s, (f s).reports = s.reports) (hk : ∀ u, Gives (k u) P) : Gives (modify f >>= k) P :=
  .bind (calm_modify h).clean fun u _ => hk u

instance (f : CommentTable → CommentTable) : Calm (onComments f) := calm_modify fun _ => rfl

instance (wish : Bytes) : Calm (fresh wish) := ⟨fun _ _ hs => ⟨hs, trivial⟩⟩

instance : Calm temp := ⟨fun _ _ hs => ⟨hs, trivial⟩⟩

instance (name : Bytes) : Calm (declareOnce name) := by
  refine ⟨.skip fun s => .branch (fun _ => .pure trivial) fun _ => ?_⟩
  exact .modify_then (fun _ => rfl) fun _ => .pure trivial

theorem calm_report {d : Diagnostic} (hd : d.code ∉ faults) : Calm (report d) := by
  refine ⟨fun _ s hs => ⟨?_, trivial⟩⟩
  exact List.forall_mem_append.2 ⟨hs, List.forall_mem_singleton.2 hd⟩

/-- What the target lacks is no fault. -/
instance (span : Span) (message : Bytes) : Calm (errorAt span .unsupported message) :=
  calm_report (show Code.unsupported ∉ faults by decide)

instance (span : Span) (message : Bytes) : Calm (warnAt span .unsupported message) :=
  calm_report (show Code.unsupported ∉ faults by decide)

instance (n : Node) : Calm (noteUnlowered n) := by
  constructor
  unfold noteUnlowered
  split
  · exact .pure trivial
  · refine .skip fun c => .skip fun s => .branch (fun _ => ?_) fun _ => .pure trivial
    exact .modify_then (fun _ => rfl) fun _ => Calm.clean

end

/-! ## Trees of the plain language -/

/-- A lowered tree fits a place. -/
abbrev Low (f : SourceFile) (p : Place) (n : Node) : Prop := n.fits (.lowered f) p = true

/-- Lowered trees fit places of one sort. -/
abbrev LowAll (f : SourceFile) (p : Place) (ns : List Node) : Prop := ∀ n ∈ ns, Low f p n

section

variable {f : SourceFile} {p q : Place} {n : Node} {ns ms : List Node} {k : NodeKind} {s : Span}

@[simp] theorem plain_lowered : (Canon.lowered f).plain = true := rfl

/-- Nothing is dropped from a lowered tree. -/
theorem Low.placed (hn : Low f p n) (hp : n.isPresent = true) : Placed (.lowered f) p n :=
  ((fits_present hp).1 hn).resolve_left fun h => Bool.noConfusion h.1.1

/-- What stands at a place of a lowered tree that is never empty. -/
theorem Low.present (hn : Low f p n) (ho : p.isOptional = false) : Placed (.lowered f) p n := by
  cases n with
  | absent =>
    rw [Low, fits_absent, ho] at hn
    cases hn
  | mk h ks ds t a x => exact hn.placed rfl

theorem LowAll.nil : LowAll f p [] := fun _ h => by cases h

theorem LowAll.cons (hn : Low f p n) (hns : LowAll f p ns) : LowAll f p (n :: ns) :=
  List.forall_mem_cons.2 ⟨hn, hns⟩

theorem LowAll.one (hn : Low f p n) : LowAll f p [n] := .cons hn .nil

theorem LowAll.append (hns : LowAll f p ns) (hms : LowAll f p ms) : LowAll f p (ns ++ ms) :=
  List.forall_mem_append.2 ⟨hns, hms⟩

theorem LowAll.flatten {nss : List (List Node)} (h : ∀ ns ∈ nss, LowAll f p ns) :
    LowAll f p nss.flatten := by
  intro n hn
  obtain ⟨ns, hns, hn⟩ := List.mem_flatten.1 hn
  exact h ns hns n hn

theorem low_new (ha : p.allows true k = true) (hb : k ≠ .binary) (hs : f.holds s = true)
    (hk : kidsFit (.lowered f) (shapeOf p k {}).first (shapeOf p k {}).rest ns = true) :
    Low f p (.new k s ns) := fits_new ha hb hs hk

theorem low_ident {text : Bytes} (ha : p.allows true .ident = true) (hs : f.holds s = true) :
    Low f p (.ident text s) := fits_ofHead ha hs (.inl (by simp)) fit_none

theorem low_literal {op : TokenKind} {text : Bytes} (ha : p.allows true .literal = true)
    (hs : f.holds s = true) : Low f p (.literal op text s) :=
  fits_ofHead ha hs (.inl (by simp)) fit_none

theorem low_string {value : Bytes} (ha : p.allows true .literal = true) (hs : f.holds s = true) :
    Low f p (string value s) := low_literal ha hs

theorem low_marked {text : Bytes} {mark : Nat} (ha : p.allows true .ident = true) :
    Low f p (.marked text mark) := fits_ofHead ha rfl (.inl (by simp)) fit_none

theorem low_void0 (hs : f.holds s = true) : Low f .expr (void0 s) :=
  fits_ofHead rfl hs (.inl (by simp)) (fit_first (low_literal rfl hs) fit_none)

theorem low_assign {x y : Node} (hs : f.holds s = true) (hx : Low f .expr x) (hy : Low f .expr y) :
    Low f .expr (assign s x y) :=
  fits_ofHead rfl hs (.inl (by simp)) (fit_first hx (fit_first hy fit_none))

theorem low_bin {op : TokenKind} {x y : Node} (ho : op.precedence ≠ 0) (hs : f.holds s = true)
    (hx : Low f .expr x) (hy : Low f .expr y) : Low f .expr (bin s op x y) :=
  fits_ofHead rfl hs (.inr ho) (fit_first hx (fit_first hy fit_none))

/-- A lowered tree stands in the file. -/
theorem Low.span (hn : Low f p n) : f.holds n.span = true := fits_stands rfl hn

theorem low_paren (hn : Low f .expr n) : Low f .expr (paren n) :=
  low_new rfl (by simp) hn.span (fit_first hn fit_none)

theorem low_member {name : Bytes} (hs : f.holds s = true) (hn : Low f .expr n) :
    Low f .expr (.member n name s) :=
  low_new rfl (by simp) hs (fit_first hn (fit_first (low_ident rfl hs) fit_none))

theorem low_call (hs : f.holds s = true) (hn : Low f .expr n) (hns : LowAll f .expr ns) :
    Low f .expr (.call s n ns) := low_new rfl (by simp) hs (fit_first hn (fit_each hns))

theorem low_dotted (name : Bytes) (hs : f.holds s = true) : Low f .expr (dotted name s) := by
  have hfold (parts : List Bytes) (base : Node) (hb : Low f .expr base) :
      Low f .expr (parts.foldl (fun obj part => .member obj part s) base) := by
    induction parts generalizing base with
    | nil => exact hb
    | cons part parts ih => exact ih _ (low_member hs hb)
  unfold dotted
  split
  · exact low_ident rfl hs
  · refine hfold _ _ ?_
    split
    · exact low_new rfl (by simp) hs fit_none
    · exact low_ident rfl hs

theorem low_qualified {x : Scope} {name : Bytes} (hs : f.holds s = true) :
    Low f .expr (qualified x name s) := low_member hs (low_ident rfl hs)

theorem low_varDecl {keyword : String} (hs : f.holds s = true) (hns : LowAll f .declarator ns) :
    Low f .stmt (varDecl keyword s ns) := fits_withText (low_new rfl (by simp) hs (fit_each hns))

theorem low_declarator (hs : f.holds s = true) (hn : Low f .expr n) :
    Low f .declarator (declarator s n) :=
  low_new rfl (by simp) hs (fit_first hn (fit_first rfl fit_none))

theorem low_exprStmt (hs : f.holds s = true) (hn : Low f .expr n) :
    Low f .stmt (.new .exprStmt s [n]) := low_new rfl (by simp) hs (fit_first hn fit_none)

/-- Statements with the declaration of their temporaries in front. -/
theorem gives_withTemps {temps : List Nat} (hns : LowAll f .stmt ns) :
    Gives (withTemps ns temps) (LowAll f .stmt) := by
  refine .branch (fun _ => .pure hns) fun _ => ?_
  refine .bind (.mapM fun mark _ => ?_) fun decls (hdecls : LowAll f .declarator decls) => .pure ?_
  · exact fun c s hs => ⟨hs, low_declarator rfl (low_marked rfl)⟩
  · exact forall_insertAfterDirectives hns (LowAll.one (low_varDecl rfl hdecls))

/-! ### Copies of nodes of the source -/

/-- A copy of a node with lowered children. -/
theorem low_like (hn : Placed (.source f) p n) (hk : n.kind = k) (ha : q.allows true k = true)
    (hkids :
      kidsFit (.lowered f) (shapeOf q k n.flags).first (shapeOf q k n.flags).rest ns = true) :
    Low f q (like n ns) := by
  subst hk
  have hacc := hn.accepted
  simp only [Canon.accepts, Bool.and_eq_true, Bool.or_eq_true, bne_iff_ne, ne_eq] at hacc
  refine fits_ofHead (h := { n.head with flags := n.flags.runtime, mark := 0 }) ha hn.span
    hacc.1.2 ?_
  rw [shapeOf_congr (f := n.flags.runtime) (g := n.flags) rfl rfl]
  exact hkids

/-- A copy of a node that has no children. -/
theorem low_leaf (hn : Placed (.source f) p n) (ha : q.allows true n.kind = true)
    (hshape : (shapeOf q n.kind n.flags).first = []) : Low f q (leaf n) := by
  have hacc := hn.accepted
  simp only [Canon.accepts, Bool.and_eq_true, Bool.or_eq_true, bne_iff_ne, ne_eq] at hacc
  have hkids :
      kidsFit (.lowered f) (shapeOf q n.kind n.flags).first (shapeOf q n.kind n.flags).rest []
      = true := by
    rw [hshape]
    exact fit_none
  refine fits_ofHead (h := { n.head with flags := n.flags.runtime }) ha hn.span hacc.1.2 ?_
  rw [shapeOf_congr (f := n.flags.runtime) (g := n.flags) rfl rfl]
  exact hkids

theorem shapeOf_name (hk : k.isName = true) (g : Flags) : shapeOf p k g = {} := by
  unfold NodeKind.isName at hk
  split at hk
  · rfl
  · rfl
  · rfl
  · cases hk

theorem low_name (hn : Fits f .name n) : Low f .name (leaf n) := by
  rcases absent_or_placed hn fun _ => rfl with ⟨-, hopt⟩ | hplaced
  · cases hopt
  · exact low_leaf hplaced hplaced.allowed (by rw [shapeOf_name hplaced.allowed])

theorem low_optName (hn : Fits f .optName n) : Low f .optName (leaf? n) := by
  rcases absent_or_placed hn fun _ => rfl with ⟨rfl, -⟩ | hplaced
  · rfl
  · rw [leaf?, Node.isAbsent, hplaced.isPresent]
    exact low_leaf hplaced hplaced.allowed (by rw [shapeOf_name hplaced.allowed])

/-- A name of a function or class. -/
theorem low_declared (hq : q = .optName ∨ q = .optBinder ∨ q = .binder) (hn : Fits f q n) :
    Low f q (leaf? n) := by
  rcases hq with rfl | hq
  · exact low_optName hn
  · rcases absent_or_placed hn fun _ => by rcases hq with rfl | rfl <;> rfl with
      ⟨rfl, hopt⟩ | hplaced
    · exact hopt
    · have hk : n.kind = .ident := by
        rcases hq with rfl | rfl <;> exact beq_iff_eq.1 hplaced.allowed
      rw [leaf?, Node.isAbsent, hplaced.isPresent]
      refine low_leaf hplaced ?_ (by rw [hk]; rfl)
      rw [hk]
      rcases hq with rfl | rfl <;> rfl

/-! ## Parts -/

/-- A part of a node that a rule at a depth is asked to lower. -/
structure Due (f : SourceFile) (depth : Nat) (p : Place) (n : Node) : Prop where
  /-- It fits its place. -/
  fits : Fits f p n
  /-- The depth is enough for it. -/
  depth_le : 2 * n.count + 2 ≤ depth

/-- A node whose turn it is, and which is not dropped. -/
structure Turn (f : SourceFile) (depth : Nat) (p : Place) (n : Node) : Prop where
  /-- It fits its place. -/
  placed : Placed (.source f) p n
  /-- The depth is enough for its parts. -/
  depth_le : 2 * n.count ≤ depth

variable {d : Nat}

theorem count_mem (hn : n ∈ ns) : n.count ≤ Node.countAll ns := by
  induction ns with
  | nil => cases hn
  | cons m ns ih =>
    rw [Node.countAll]
    rcases List.mem_cons.1 hn with rfl | hn
    · omega
    · have := ih hn
      omega

theorem count_getD (ns : List Node) (i : Nat) : (ns.getD i .absent).count ≤ Node.countAll ns := by
  rw [List.getD_eq_getElem?_getD]
  cases hi : ns[i]? with
  | none => exact Nat.zero_le _
  | some m => exact count_mem (List.mem_of_getElem? hi)

theorem Turn.countAll_lt (hn : Turn f d p n) :
    2 * Node.countAll n.kids + 2 ≤ d ∧ 2 * Node.countAll n.decos + 2 ≤ d := by
  have hp := hn.placed.isPresent
  have hd := hn.depth_le
  cases n with
  | absent => cases hp
  | mk h ks ds t a x =>
    rw [Node.count] at hd
    show 2 * Node.countAll ks + 2 ≤ d ∧ 2 * Node.countAll ds + 2 ≤ d
    omega

theorem Turn.kid (hn : Turn f d p n) (hk : n.kind = k) (i : Nat)
    (hi : (shapeOf p k n.flags).first[i]? = some q) : Due f d q (n.kid i) := by
  have := count_getD n.kids i
  have := hn.countAll_lt.1
  exact ⟨hn.placed.kid hk i hi, by unfold Node.kid; omega⟩

theorem Turn.each (hn : Turn f d p n) (hk : n.kind = k)
    (hr : (shapeOf p k n.flags).rest = .each q) :
    ∀ m ∈ n.kids.drop (shapeOf p k n.flags).first.length, Due f d q m := by
  intro m hm
  have := count_mem (List.mem_of_mem_drop hm)
  have := hn.countAll_lt.1
  exact ⟨hn.placed.each hk hr m hm, by omega⟩

theorem Turn.decos (hn : Turn f d p n) : ∀ m ∈ n.decos, Due f d .decorator m := by
  intro m hm
  have := count_mem hm
  have := hn.countAll_lt.2
  exact ⟨hn.placed.decos m hm, by omega⟩

theorem Due.turn (hn : Due f d p n) (hp : n.isPresent = true) (hd : p.drops n.kind = false) :
    Turn f d p n := ⟨fits_placed hn.fits hp hd, by have := hn.depth_le; omega⟩

/-- What stands at a place that is neither empty nor dropped from. -/
theorem Due.present (hn : Due f d p n) (ho : p.isOptional = false) (hd : ∀ k, p.drops k = false) :
    Turn f d p n := by
  rcases absent_or_placed hn.fits hd with ⟨-, hopt⟩ | hplaced
  · rw [ho] at hopt
    cases hopt
  · exact hn.turn hplaced.isPresent (hd _)

theorem Due.le (hn : Due f d p n) (h : p.Le q) : Due f d q n := ⟨fits_le h hn.fits, hn.depth_le⟩

end

/-! ## Rules -/

/-- How much deeper the rules must be tied than the parts of a node need before an expression is
lowered: patterns are handed on to the rule for patterns. -/
def exprDepth (n : Node) : Nat :=
  match n.kind with
  | .arrayPattern | .objectPattern | .assignPattern | .restElement => 2 * n.count + 2
  | _ => 2 * n.count + 1

/-- The same for a pattern: what is no pattern is handed on to the rule for expressions. -/
def patternDepth (n : Node) : Nat :=
  match n.kind with
  | .arrayPattern | .objectPattern | .assignPattern | .restElement => 2 * n.count + 1
  | _ => 2 * n.count + 2

/-- Whether the rule for expressions lowers what stands at a place. -/
def isExprPlace : Place → Bool
  | .expr | .optExpr | .quasi | .template => true
  | _ => false

/-- The rules lower all that fits and for which the depth is enough. -/
structure Handles (f : SourceFile) (depth : Nat) (g : Rules) : Prop where
  /-- Expressions. -/
  expr : ∀ p n, isExprPlace p = true → Fits f p n → exprDepth n ≤ depth →
    Gives (g.expr n) (Low f p)
  /-- Patterns. -/
  pattern : ∀ assigns n, Fits f .expr n → patternDepth n ≤ depth →
    Gives (g.pattern assigns n) (Low f .expr)
  /-- Patterns that bind names. -/
  bound : ∀ n, Fits f .pattern n → patternDepth n ≤ depth →
    Gives (g.pattern false n) (Low f .pattern)
  /-- Statements. -/
  stmt : ∀ n, Fits f .stmt n → 2 * n.count + 1 ≤ depth → Gives (g.stmt n) (LowAll f .stmt)
  /-- Namespaces. -/
  namespaceDecl : ∀ n exported, Fits f .namespaceDecl n → 2 * n.count + 1 ≤ depth →
    Gives (g.namespaceDecl n exported) (LowAll f .stmt)

section

variable {f : SourceFile} {d : Nat} {g : Rules} {p : Place} {n : Node} {ns : List Node}

theorem exprDepth_le (n : Node) : exprDepth n ≤ 2 * n.count + 2 := by
  unfold exprDepth
  split <;> omega

theorem patternDepth_le (n : Node) : patternDepth n ≤ 2 * n.count + 2 := by
  unfold patternDepth
  split <;> omega

theorem Handles.exprAt (hg : Handles f d g) (hp : isExprPlace p = true) (hn : Due f d p n) :
    Gives (g.expr n) (Low f p) :=
  hg.expr p n hp hn.fits (Nat.le_trans (exprDepth_le n) hn.depth_le)

theorem Handles.exprOf (hg : Handles f d g) (hn : Due f d .expr n) :
    Gives (g.expr n) (Low f .expr) :=
  hg.exprAt rfl hn

theorem Handles.patternOf (hg : Handles f d g) {assigns : Bool} (hn : Due f d .expr n) :
    Gives (g.pattern assigns n) (Low f .expr) :=
  hg.pattern assigns n hn.fits (Nat.le_trans (patternDepth_le n) hn.depth_le)

theorem Handles.boundOf (hg : Handles f d g) (hn : Due f d .pattern n) :
    Gives (g.pattern false n) (Low f .pattern) :=
  hg.bound n hn.fits (Nat.le_trans (patternDepth_le n) hn.depth_le)

theorem Handles.stmtOf (hg : Handles f d g) (hn : Due f d .stmt n) :
    Gives (g.stmt n) (LowAll f .stmt) := hg.stmt n hn.fits (Nat.le_of_succ_le hn.depth_le)

theorem Handles.exprs (hg : Handles f d g) (hns : ∀ n ∈ ns, Due f d .expr n) :
    Gives (ns.mapM g.expr) (LowAll f .expr) := .mapM fun n hn => hg.exprOf (hns n hn)

end

end ScriptLower.Lower
