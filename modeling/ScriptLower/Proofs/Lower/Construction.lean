import ScriptLower.Proofs.Lower.Aim
import Mathlib.Data.List.Basic
import Mathlib.Data.List.TakeWhile

/-!
# Parameter properties of derived classes

In a derived class a constructor has no object before it has called the constructor of the parent.
So the assignments that parameter properties stand for belong directly behind that call. Lowering
puts them behind the first statement that is the call, and it looks for that statement among the
outermost ones only. What a run of the constructor does is described by the statements that it
begins and by the moment at which the parent's constructor has been called. Every run is as it
should be when the first statement that may call the parent's constructor is nothing but that call.
-/

namespace ScriptLower.Lower

open ScriptLower

/-! ## Code that may call the parent's constructor -/

/-- How many children of a node belong to the function around it: the key of a member and everything
in an arrow function do, the parts of another function do not. -/
def ownParts (k : NodeKind) (parts : Nat) : Nat :=
  match k with
  | .funcDecl | .funcExpr | .staticBlock => 0
  | .method | .property => 1
  | _ => parts

mutual

/-- The nodes of code that belong to the function around it. -/
def ownWalk : Node → List Node
  | .absent => []
  | .mk h ks ds t a x =>
    .mk h ks ds t a x :: (ownWalkFirst (ownParts h.kind ks.length) ks ++ ownWalkFirst ds.length ds)

/-- The nodes of the first of some codes that belong to the function around them. -/
def ownWalkFirst : Nat → List Node → List Node
  | _, [] => []
  | 0, _ :: _ => []
  | count + 1, n :: r => ownWalk n ++ ownWalkFirst count r

end

/-- Whether a node calls the parent's constructor, or the function that takes its argument for code
of the constructor. -/
def callsParent (n : Node) : Bool :=
  n.kind == .call && ((n.kid 0).kind == .superExpr || (n.kid 0).unparen.isIdent "eval")

/-- Whether running code may call the parent's constructor of the function around it. -/
def mayCallParent (n : Node) : Bool := (ownWalk n).any callsParent

/-- Whether a statement is a call of the parent's constructor with arguments that do not call it. -/
def isPlainSuperCall (n : Node) : Bool :=
  isSuperCall n && !((n.kid 0).kids.drop 1).any mayCallParent

/-- Whether the first statement that may call the parent's constructor is nothing but that call. -/
def callsParentFirst (body : List Node) : Bool := (body.find? mayCallParent).any isPlainSuperCall

theorem mem_ownWalkFirst {ks : List Node} {k m : Node} (hk : k ∈ ks) (hm : m ∈ ownWalk k) :
    m ∈ ownWalkFirst ks.length ks := by
  induction ks with
  | nil => cases hk
  | cons k' ks ih =>
    rw [List.length_cons, ownWalkFirst]
    rcases List.mem_cons.1 hk with rfl | hk
    · exact List.mem_append_left _ hm
    · exact List.mem_append_right _ (ih hk)

/-- A call that is a statement belongs to the function around it. -/
theorem mayCallParent_of_isSuperCall {n : Node} (h : isSuperCall n = true) :
    mayCallParent n = true := by
  simp only [isSuperCall, Bool.and_eq_true, beq_iff_eq] at h
  obtain ⟨⟨hstmt, hcall⟩, hsuper⟩ := h
  have hself : n.kid 0 ∈ ownWalk (n.kid 0) := by
    cases hk : n.kid 0 with
    | absent =>
      rw [hk] at hcall
      cases hcall
    | mk => exact List.mem_cons_self
  have hmem : n.kid 0 ∈ ownWalk n := by
    cases n with
    | absent => cases hstmt
    | mk head ks ds t a x =>
      have hkind : head.kind = .exprStmt := hstmt
      cases ks with
      | nil => cases hcall
      | cons k ks =>
        rw [ownWalk, hkind]
        exact List.mem_cons_of_mem _
          (List.mem_append_left _ (mem_ownWalkFirst List.mem_cons_self hself))
  refine List.any_eq_true.2 ⟨n.kid 0, hmem, ?_⟩
  rw [callsParent, hcall, hsuper]
  rfl

theorem mayCallParent_of_isPlainSuperCall {n : Node} (h : isPlainSuperCall n = true) :
    mayCallParent n = true :=
  mayCallParent_of_isSuperCall (Bool.and_eq_true_iff.1 h).1

/-! ## Runs of a constructor -/

/-- What a run does. -/
inductive Act
  /-- The parent's constructor has been called, so there is an object. -/
  | parent
  /-- The statement with this index begins. -/
  | begins (i : Nat)
  deriving DecidableEq

/-- What a statement may do, from whether there is an object to whether there is one afterwards, and
whether it completes. A second call of the parent's constructor never completes. -/
inductive Executes : Node → Bool → List Act → Bool → Bool → Prop
  /-- Code that does not call the parent's constructor. -/
  | quiet {n : Node} {bound completes : Bool} (h : mayCallParent n = false) :
      Executes n bound [] bound completes
  /-- The call, when there is no object yet. -/
  | called {n : Node} (h : isPlainSuperCall n = true) : Executes n false [.parent] true true
  /-- The call may fail. -/
  | failed {n : Node} {bound : Bool} (h : isPlainSuperCall n = true) :
    Executes n bound [] bound false
  /-- Other code that holds such a call may leave it out. -/
  | passed {n : Node} {bound completes : Bool} (h : mayCallParent n = true)
      (hplain : isPlainSuperCall n = false) : Executes n bound [] bound completes
  /-- It may do it, once. -/
  | within {n : Node} {completes : Bool} (h : mayCallParent n = true)
      (hplain : isPlainSuperCall n = false) : Executes n false [.parent] true completes

/-- The runs of statements, the first of which has an index, from whether there is an object. -/
inductive Runs : List Node → Nat → Bool → List Act → Prop
  /-- There is no statement left. -/
  | done {i : Nat} {bound : Bool} : Runs [] i bound []
  /-- A statement returns, throws or never ends. -/
  | left {n : Node} {ns : List Node} {i : Nat} {bound bound' : Bool} {acts : List Act}
      (h : Executes n bound acts bound' false) : Runs (n :: ns) i bound (.begins i :: acts)
  /-- A statement completes, and the next one begins. -/
  | next {n : Node} {ns : List Node} {i : Nat} {bound bound' : Bool} {acts rest : List Act}
      (h : Executes n bound acts bound' true) (hs : Runs ns (i + 1) bound' rest) :
      Runs (n :: ns) i bound (.begins i :: (acts ++ rest))

/-- Some statements one after the other. -/
def beginsFrom (i count : Nat) : List Act := (List.range' i count).map .begins

theorem beginsFrom_succ (i count : Nat) :
    beginsFrom i (count + 1) = .begins i :: beginsFrom (i + 1) count := rfl

theorem parent_not_mem_beginsFrom (i count : Nat) : .parent ∉ beginsFrom i count := by
  simp [beginsFrom]

/-- Some statements run directly behind the call of the parent's constructor, and at no other
time. -/
structure RunBehindParent (acts : List Act) (first count : Nat) : Prop where
  /-- None of them begins before the call. -/
  after : ∀ i, first ≤ i → i < first + count → ∀ as bs, acts = as ++ .begins i :: bs → .parent ∈ as
  /-- Behind the call they begin one after the other, unless the run ends before the last of
  them. -/
  follow : ∀ as bs, acts = as ++ .parent :: bs →
    bs <+: beginsFrom first count ∨ beginsFrom first count <+: bs
  /-- No statement begins twice. -/
  once : ∀ i, acts.count (.begins i) ≤ 1

variable {n : Node} {ns pre rest : List Node} {i : Nat} {bound bound' completes : Bool}
    {acts : List Act}

theorem Executes.acts_cases (h : Executes n bound acts bound' completes) :
    (acts = [] ∧ bound' = bound) ∨ (acts = [.parent] ∧ bound = false ∧ bound' = true) := by
  cases h with
  | quiet | failed | passed => exact .inl ⟨rfl, rfl⟩
  | called | within => exact .inr ⟨rfl, rfl, rfl⟩

/-- A statement only begins what is its own. -/
theorem Runs.begins_le (h : Runs ns i bound acts) {j : Nat} (hj : .begins j ∈ acts) : i ≤ j := by
  induction h with
  | done => cases hj
  | left h =>
    rcases List.mem_cons.1 hj with heq | hin
    · exact Nat.le_of_eq (Act.begins.inj heq).symm
    · rcases h.acts_cases with ⟨rfl, -⟩ | ⟨rfl, -, -⟩
      · cases hin
      · cases List.mem_singleton.1 hin
  | next h hs ih =>
    rcases List.mem_cons.1 hj with heq | hin
    · exact Nat.le_of_eq (Act.begins.inj heq).symm
    · rcases List.mem_append.1 hin with hown | hrest
      · rcases h.acts_cases with ⟨rfl, -⟩ | ⟨rfl, -, -⟩
        · cases hown
        · cases List.mem_singleton.1 hown
      · exact Nat.le_of_succ_le (ih hrest)

theorem Runs.begins_once (h : Runs ns i bound acts) (j : Nat) : acts.count (.begins j) ≤ 1 := by
  induction h with
  | done => exact Nat.zero_le _
  | @left n ns i bound bound' acts h =>
    have hown : acts.count (.begins j) = 0 := by
      rcases h.acts_cases with ⟨rfl, -⟩ | ⟨rfl, -, -⟩ <;> rfl
    rw [List.count_cons, hown]
    split <;> omega
  | @next n ns i bound bound' acts rest h hs ih =>
    have hown : acts.count (.begins j) = 0 := by
      rcases h.acts_cases with ⟨rfl, -⟩ | ⟨rfl, -, -⟩ <;> rfl
    rw [List.count_cons, List.count_append, hown]
    by_cases hij : i = j
    · -- What comes later has later indices.
      have hnone : rest.count (.begins j) = 0 := List.count_eq_zero.2 fun hj => by
        have := hs.begins_le hj
        omega
      rw [hnone]
      split <;> omega
    · have hne : (Act.begins i == Act.begins j) = false := by simpa using hij
      rw [hne]
      simpa using ih

/-- With an object there is no further call that completes. -/
theorem Runs.no_parent (h : Runs ns i true acts) : .parent ∉ acts := by
  generalize hb : true = bound at h
  induction h with
  | done => exact List.not_mem_nil
  | left h =>
    subst hb
    rcases h.acts_cases with ⟨rfl, -⟩ | ⟨-, hfalse, -⟩
    · simp
    · cases hfalse
  | next h hs ih =>
    subst hb
    rcases h.acts_cases with ⟨rfl, rfl⟩ | ⟨-, hfalse, -⟩
    · simpa using ih rfl
    · cases hfalse

/-- Statements that do not call the parent's constructor begin one after the other, and then the
rest runs, unless the run ends among them. -/
theorem Runs.quiet (hquiet : ∀ n ∈ pre, mayCallParent n = false)
    (h : Runs (pre ++ rest) i bound acts) :
    acts <+: beginsFrom i pre.length ∨
      ∃ later, acts = beginsFrom i pre.length ++ later ∧
        Runs rest (i + pre.length) bound later := by
  induction pre generalizing i acts with
  | nil => exact .inr ⟨acts, rfl, h⟩
  | cons n pre ih =>
    have hn : mayCallParent n = false := hquiet n List.mem_cons_self
    have hown {own : List Act} {bound' completes : Bool}
        (h : Executes n bound own bound' completes) :
        own = [] ∧ bound' = bound := by
      cases h with
      | quiet => exact ⟨rfl, rfl⟩
      | called hp => rw [mayCallParent_of_isPlainSuperCall hp] at hn; cases hn
      | failed hp => exact ⟨rfl, rfl⟩
      | passed => exact ⟨rfl, rfl⟩
      | within hm => rw [hm] at hn; cases hn
    rw [List.length_cons, beginsFrom_succ]
    cases h with
    | left h =>
      obtain ⟨rfl, -⟩ := hown h
      exact .inl (List.cons_prefix_cons.2 ⟨rfl, List.nil_prefix⟩)
    | next h hs =>
      obtain ⟨rfl, rfl⟩ := hown h
      rcases ih (fun m hm => hquiet m (List.mem_cons_of_mem _ hm)) hs
        with hends | ⟨later, rfl, hlater⟩
      · exact .inl (List.cons_prefix_cons.2 ⟨rfl, hends⟩)
      · refine .inr ⟨later, rfl, ?_⟩
        rw [show i + (pre.length + 1) = i + 1 + pre.length by omega]
        exact hlater

/-- A call of the parent's constructor fails, or completes with an object. -/
theorem Runs.plainSuperCall {call : Node} (hcall : isPlainSuperCall call = true)
    (h : Runs (call :: rest) i false acts) :
    acts = [.begins i] ∨ ∃ later, acts = .begins i :: .parent :: later ∧
    Runs rest (i + 1) true later := by
  have hmay := mayCallParent_of_isPlainSuperCall hcall
  cases h with
  | left h =>
    cases h with
    | quiet hq => rw [hmay] at hq; cases hq
    | failed => exact .inl rfl
    | passed _ hp => rw [hcall] at hp; cases hp
    | within _ hp => rw [hcall] at hp; cases hp
  | next h hs =>
    cases h with
    | quiet hq => rw [hmay] at hq; cases hq
    | called => exact .inr ⟨_, rfl, hs⟩
    | passed _ hp => rw [hcall] at hp; cases hp
    | within _ hp => rw [hcall] at hp; cases hp

/-- A run that ends before the parent's constructor has been called begins none of the statements
behind the call. -/
theorem RunBehindParent.of_early {first count : Nat}
    (hearly : ∀ x ∈ acts, ∃ j < first, x = .begins j)
    (honce : ∀ i, acts.count (.begins i) ≤ 1) : RunBehindParent acts first count where
  after i hi _ as bs hacts := by
    have hmem : .begins i ∈ acts := hacts ▸ List.mem_append_right _ List.mem_cons_self
    obtain ⟨j, hj, heq⟩ := hearly _ hmem
    cases heq
    omega
  follow as bs hacts := by
    have hmem : .parent ∈ acts := hacts ▸ List.mem_append_right _ List.mem_cons_self
    obtain ⟨j, -, heq⟩ := hearly _ hmem
    cases heq
  once := honce

/-- Statements directly behind a call of the parent's constructor, in front of which nothing calls
it, run directly behind the call. -/
theorem runBehindParent {call : Node} {sets post : List Node}
    (hpre : ∀ n ∈ pre, mayCallParent n = false) (hcall : isPlainSuperCall call = true)
    (hsets : ∀ n ∈ sets, mayCallParent n = false)
    (h : Runs (pre ++ call :: (sets ++ post)) 0 false acts) :
    RunBehindParent acts (pre.length + 1) sets.length := by
  have honce := h.begins_once
  have hearly : ∀ x ∈ beginsFrom 0 (pre.length + 1), ∃ j < pre.length + 1, x = .begins j := by
    intro x hx
    obtain ⟨j, hj, rfl⟩ := List.mem_map.1 hx
    have := (List.mem_range'_1.1 hj).2
    exact ⟨j, by omega, rfl⟩
  have hsplit :
      beginsFrom 0 (pre.length + 1) = beginsFrom 0 pre.length ++ [Act.begins pre.length] := by
    simp [beginsFrom, List.range'_concat]
  rcases h.quiet hpre with hends | ⟨later, rfl, hlater⟩
  · refine .of_early (fun x hx => hearly x ?_) honce
    rw [hsplit]
    exact List.mem_append_left _ (hends.subset hx)
  rw [Nat.zero_add] at hlater
  rcases hlater.plainSuperCall hcall with rfl | ⟨later, rfl, hbehind⟩
  · exact .of_early (fun x hx => hearly x (hsplit ▸ hx)) honce
  -- In front of the call there are the statements up to it, and behind it there is no other call.
  have hacts : beginsFrom 0 pre.length ++ Act.begins pre.length :: .parent :: later =
      beginsFrom 0 (pre.length + 1) ++ .parent :: later := by
    rw [hsplit, List.append_assoc]
    rfl
  rw [hacts] at honce ⊢
  constructor
  case once => exact honce
  case after =>
    intro i hi _ as bs heq
    rcases List.append_eq_append_iff.1 heq with ⟨more, rfl, hrest⟩ | ⟨more, hfront, hrest⟩
    · cases more with
      | nil => cases hrest
      | cons x more =>
        obtain ⟨rfl, -⟩ := List.cons.inj hrest
        exact List.mem_append_right _ List.mem_cons_self
    · cases more with
      | nil => cases hrest
      | cons x more =>
        obtain ⟨rfl, -⟩ := List.cons.inj hrest
        obtain ⟨j, hj, hij⟩ :=
          hearly (.begins i) (hfront ▸ List.mem_append_right _ List.mem_cons_self)
        cases hij
        omega
  case follow =>
    intro as bs heq
    have hbs : bs = later := by
      rcases List.append_eq_append_iff.1 heq with ⟨more, -, hrest⟩ | ⟨more, hfront, hrest⟩
      · cases more with
        | nil => exact (List.cons.inj hrest).2.symm
        | cons x more =>
          refine absurd ?_ hbehind.no_parent
          rw [(List.cons.inj hrest).2]
          exact List.mem_append_right _ List.mem_cons_self
      · cases more with
        | nil => exact (List.cons.inj hrest).2
        | cons x more =>
          obtain ⟨rfl, -⟩ := List.cons.inj hrest
          refine absurd ?_ (parent_not_mem_beginsFrom 0 (pre.length + 1))
          exact hfront ▸ List.mem_append_right _ List.mem_cons_self
    subst hbs
    rcases hbehind.quiet hsets with hends | ⟨last, rfl, -⟩
    · exact .inl hends
    · exact .inr (List.prefix_append ..)

/-! ## Where lowering puts the assignments -/

/-- The name that a parameter declares. -/
def paramName (p : Node) : Node :=
  if (p.kid 0).kind == .assignPattern then (p.kid 0).kid 0 else p.kid 0

/-- The assignment that a parameter property stands for; a pattern has none. -/
def propertySet? (p : Node) : Option Node :=
  if (paramName p).kind != .ident then none
  else some (.new .exprStmt p.span [assign p.span
    (.member (.new .thisExpr p.span []) (paramName p).text p.span)
      (.ident (paramName p).text p.span)])

/-- The assignments of the parameter properties among some parameters, in order. -/
def propertySets (params : Node) : List Node :=
  (params.kids.filter (·.flags.hasAccess)).filterMap propertySet?

variable {c : Context} {g : Rules} {s : State} {sets stmts vars body : List Node}

theorem propertyOfParam_sets (p : Node) :
    Always c (propertyOfParam p) fun sets => sets = (propertySet? p).toList := by
  unfold propertyOfParam propertySet? paramName
  dsimp only
  refine .branch (fun hk => ?_) fun hk => .pure ?_
  · rw [if_pos hk]
    exact .then fun _ => .pure rfl
  · rw [if_neg hk]
    rfl

/-- Steps that always yield the same, one after the other. -/
theorem Always.mapM_eq {α β : Type} {f : α → LowerM β} {h : α → β}
    (hf : ∀ x, Always c (f x) (· = h x))
    (xs : List α) : Always c (xs.mapM f) (· = xs.map h) := by
  induction xs with
  | nil => exact .pure rfl
  | cons x xs ih =>
    rw [List.mapM_cons]
    refine (hf x).bind fun y hy => ih.bind fun ys hys => .pure ?_
    rw [hy, hys, List.map_cons]

theorem propertiesOfParams_sets (params : Node) :
    Always c (propertiesOfParams params) fun sets => sets = propertySets params := by
  refine (Always.mapM_eq propertyOfParam_sets _).bind fun sets hsets => .pure ?_
  rw [hsets, propertySets, List.filterMap_eq_flatMap_toList, List.flatMap_def]

/-- An assignment to the object does not call the parent's constructor. -/
theorem propertySets_quiet {params : Node} :
    ∀ n ∈ propertySets params, mayCallParent n = false := by
  intro n hn
  obtain ⟨p, -, hp⟩ := List.mem_filterMap.1 hn
  unfold propertySet? at hp
  split at hp
  · cases hp
  · cases hp
    rfl

theorem isSuperCall_of_quiet (h : ∀ n ∈ ns, mayCallParent n = false) :
    ∀ n ∈ ns, isSuperCall n = false := by
  intro n hn
  cases hsuper : isSuperCall n with
  | false => rfl
  | true => exact (mayCallParent_of_isSuperCall hsuper).symm.trans (h n hn)

/-- What stands in front of the first call of the parent's constructor, among some statements. -/
abbrev beforeSuper (body : List Node) : List Node := body.takeWhile fun n => !isSuperCall n

/-- The first call of the parent's constructor, and what stands behind it. -/
abbrev fromSuper (body : List Node) : List Node := body.dropWhile fun n => !isSuperCall n

theorem fromSuper_append (h : ∀ n ∈ ns, isSuperCall n = false) :
    fromSuper (ns ++ rest) = fromSuper rest :=
  List.dropWhile_append_of_pos fun n hn => by rw [h n hn]; rfl

theorem isSuperCall_of_isDirective {n : Node} (h : isDirective n = true) :
    isSuperCall n = false := by
  simp only [isDirective, Bool.and_eq_true, beq_iff_eq] at h
  simp [isSuperCall, h.1.1.2]

theorem fromSuper_insertAfterDirectives (hvars : ∀ n ∈ vars, isSuperCall n = false) :
    fromSuper (insertAfterDirectives stmts vars) = fromSuper stmts := by
  have hdirectives : ∀ n ∈ stmts.takeWhile isDirective, isSuperCall n = false := fun n hn =>
    isSuperCall_of_isDirective (List.mem_takeWhile_imp hn)
  rw [insertAfterDirectives, List.append_assoc, fromSuper_append hdirectives,
    fromSuper_append hvars,
    ← fromSuper_append hdirectives, List.takeWhile_append_dropWhile]

theorem fromSuper_afterSuper (hsets : ∀ n ∈ sets, isSuperCall n = false) :
    fromSuper (afterSuper true sets stmts) = match fromSuper stmts with
      | [] => []
      | call :: rest => call :: (sets ++ rest) := by
  unfold afterSuper
  cases hfrom : stmts.dropWhile (fun n => !isSuperCall n) with
  | nil =>
    have hnone : fromSuper stmts = [] := hfrom
    rw [hnone]
    exact (fromSuper_insertAfterDirectives hsets).trans hnone
  | cons call rest =>
    have hsome : fromSuper stmts = call :: rest := hfrom
    have hcall : isSuperCall call = true := by
      have hhead :=
        List.dropWhile_get_zero_not (fun n => !isSuperCall n) stmts (by rw [hfrom]; simp)
      simpa [hfrom] using hhead
    have hbefore : ∀ n ∈ beforeSuper stmts, isSuperCall n = false := fun n hn => by
      simpa using List.mem_takeWhile_imp hn
    rw [hsome]
    dsimp only
    rw [List.append_assoc, List.append_assoc, fromSuper_append hbefore]
    have hstop : ¬ (!isSuperCall call) = true := by simp [hcall]
    exact List.dropWhile_cons_of_neg hstop

/-- Declarations of temporaries are put among the directives and what follows them. -/
theorem withTemps_vars (stmts : List Node) (temps : List Nat) :
    Always c (withTemps stmts temps) fun body =>
      ∃ vars, body = insertAfterDirectives stmts vars ∧ ∀ n ∈ vars, isSuperCall n = false := by
  refine .branch (fun _ => .pure ⟨[], ?_, by simp⟩) fun _ => .then fun decls => .pure ⟨_, rfl, ?_⟩
  · rw [insertAfterDirectives, List.append_nil, List.takeWhile_append_dropWhile]
  · intro n hn
    obtain rfl := List.mem_singleton.1 hn
    rfl

theorem always_inFunction {α : Type} {params block : Node} {m : LowerM α} {P : α → Prop}
    (h : ∀ c, Always c m P) : Always c (inFunction params block m) P :=
  .then fun _ => .branch (fun _ => h c) fun _ => fun s => h _ s

theorem always_collectTemps {α : Type} {m : LowerM α} {P : α → Prop} (h : Always c m P) :
    Always c (collectTemps m) fun r => P r.1 :=
  .then fun _ => .then fun _ => h.bind fun _ ha => .then fun _ => .then fun _ => .pure ha

/-- The statements of a body, with what the prologue places among them. -/
theorem lowerBody_kids {params block : Node} {prologue : List Node → List Node} :
    Always c (lowerBody g params block prologue) fun body => body.kids = [] ∨
      ∃ stmts vars, body.kids = insertAfterDirectives (prologue stmts) vars ∧
        ∀ n ∈ vars, isSuperCall n = false := by
  refine .branch (fun _ => .pure (.inl rfl)) fun _ => always_inFunction fun c => ?_
  have hplaced : Always c (do return prologue (← lowerList g block.kids)) fun r =>
      ∃ stmts, r = prologue stmts :=
    .then fun stmts => .pure ⟨stmts, rfl⟩
  refine (always_collectTemps hplaced).bind fun r hr => ?_
  obtain ⟨stmts, hstmts⟩ := hr
  refine (withTemps_vars r.1 r.2).bind fun body hbody => .pure (.inr ?_)
  obtain ⟨vars, hvars, hquiet⟩ := hbody
  exact ⟨stmts, vars, hstmts ▸ hvars, hquiet⟩

theorem always_inConstructor {α : Type} {derived : Bool} {m : LowerM α} {P : α → Prop}
    (h : ∀ c, Always c m P) : Always c (inConstructor derived m) P := fun s => h _ s

/-- The place of assignments among the statements of a derived constructor. -/
theorem fromSuper_placed (hsets : ∀ n ∈ sets, isSuperCall n = false)
    (hvars : ∀ n ∈ vars, isSuperCall n = false) :
    let body :=
    insertAfterDirectives ((if sets.isEmpty then id else afterSuper true sets) stmts) vars
    fromSuper body = [] ∨ ∃ call rest, fromSuper body = call :: (sets ++ rest) := by
  intro body
  have hbody :
      fromSuper body = fromSuper ((if sets.isEmpty then id else afterSuper true sets) stmts) :=
    fromSuper_insertAfterDirectives hvars
  rw [hbody]
  cases sets with
  | nil =>
    cases hfrom : fromSuper stmts with
    | nil => exact .inl hfrom
    | cons call rest => exact .inr ⟨call, rest, hfrom⟩
  | cons set sets =>
    rw [if_neg (by simp), fromSuper_afterSuper hsets]
    cases fromSuper stmts with
    | nil => exact .inl rfl
    | cons call rest => exact .inr ⟨call, rest, rfl⟩

/-- In a constructor of a derived class the assignments stand directly behind the first statement
that calls the parent's constructor, if there is one. -/
theorem lowerMethod_fromSuper (hname : n.text = Bytes.ofString "constructor") :
    Always c (lowerMethod g true n) fun out => fromSuper (out.kid 2).kids = [] ∨
      ∃ call rest, fromSuper (out.kid 2).kids = call :: (propertySets (n.kid 1) ++ rest) := by
  have hsets : ∀ m ∈ propertySets (n.kid 1), isSuperCall m = false :=
    isSuperCall_of_quiet propertySets_quiet
  unfold lowerMethod
  rw [hname]
  extract_lets isConstructor
  have hconstructor : isConstructor = true := beq_self_eq_true _
  refine always_inConstructor fun c => .then fun key => .then fun params => ?_
  refine .branch (fun _ => ?_) fun hno => absurd hconstructor hno
  refine (propertiesOfParams_sets (n.kid 1)).bind fun sets heq => ?_
  subst heq
  refine lowerBody_kids.bind fun body hbody => .then fun _ => .then fun decos => .pure ?_
  show fromSuper body.kids = [] ∨ ∃ call rest, fromSuper body.kids = call ::
    (propertySets (n.kid 1) ++ rest)
  rcases hbody with hnone | ⟨stmts, vars, hkids, hvars⟩
  · rw [hnone]
    exact .inl rfl
  · rw [hkids]
    exact fromSuper_placed hsets hvars

theorem beforeSuper_append (h : ∀ n ∈ pre, isSuperCall n = false) {call : Node}
    (hcall : isSuperCall call = true) : beforeSuper (pre ++ call :: rest) = pre := by
  have hstop : (call :: rest).takeWhile (fun n => !isSuperCall n) = [] :=
    List.takeWhile_cons_of_neg (by simp [hcall])
  have hpre : ∀ n ∈ pre, (!isSuperCall n) = true := fun n hn => by rw [h n hn]; rfl
  exact (List.takeWhile_append_of_pos hpre).trans (by rw [hstop, List.append_nil])

/-- In every run of the constructor of a derived class the assignments of its parameter properties
begin in order, once, and directly behind the call of the parent's constructor, when the first
statement that may call it is nothing but that call. -/
theorem parameter_properties_run_behind_parent (g : Rules) (n : Node) (c : Context) (s : State)
    (hname : n.text = Bytes.ofString "constructor")
    (hfirst : callsParentFirst ((lowerMethod g true n c s).1.kid 2).kids = true) :
    let body := ((lowerMethod g true n c s).1.kid 2).kids
    let k := (beforeSuper body).length + 1
    propertySets (n.kid 1) <+: body.drop k ∧
      ∀ acts, Runs body 0 false acts → RunBehindParent acts k (propertySets (n.kid 1)).length := by
  intro body k
  have hplace : fromSuper body = [] ∨ ∃ call rest,
      fromSuper body = call :: (propertySets (n.kid 1) ++ rest) := lowerMethod_fromSuper hname s
  obtain ⟨call, hfound, hcall⟩ := Option.any_eq_true _ _ |>.1 hfirst
  obtain ⟨-, pre, later, hbody, hpre⟩ := List.find?_eq_some_iff_append.1 hfound
  have hquiet : ∀ m ∈ pre, mayCallParent m = false := fun m hm => by simpa using hpre m hm
  have hsuper : isSuperCall call = true := (Bool.and_eq_true_iff.1 hcall).1
  -- The first statement that may call the parent's constructor is the one that lowering found.
  have hfrom : fromSuper body = call :: later := by
    rw [show body = pre ++ call :: later from hbody, fromSuper_append (isSuperCall_of_quiet hquiet)]
    exact List.dropWhile_cons_of_neg (by simp [hsuper])
  have hk : k = pre.length + 1 := by
    rw [show k = (beforeSuper body).length + 1 from rfl, show body = pre ++ call ::
      later from hbody,
      beforeSuper_append (isSuperCall_of_quiet hquiet) hsuper]
  rw [hfrom] at hplace
  rcases hplace with hnone | ⟨call', rest, heq⟩
  · cases hnone
  obtain ⟨rfl, rfl⟩ := List.cons.inj heq
  rw [hk, show body = pre ++ call :: (propertySets (n.kid 1) ++ rest) from hbody]
  refine ⟨?_, fun acts h => runBehindParent hquiet hcall propertySets_quiet h⟩
  rw [List.drop_append, List.drop_of_length_le (Nat.le_succ _), Nat.add_sub_cancel_left]
  exact List.prefix_append ..

/-- Two parameter properties, and statements around the call. -/
theorem two_properties_run_behind_parent :
    let param (name : Bytes) : Node := .ofHead { kind := .param, flags := { isPublic := true } }
      [.ident name {}, .absent]
    let call (callee : Node) : Node := .new .exprStmt {} [.call {} callee []]
    let n : Node := .ofHead { kind := .method, text := "constructor" } [.ident "constructor" {},
      .new .params {} [param "x", param "y"],
      .new .block {} [call (.ident "f" {}), call (.new .superExpr {} []), call (.ident "g" {})]]
    let body := ((lowerMethod (rules 3) true n {} {}).1.kid 2).kids
    callsParentFirst body = true ∧ (propertySets (n.kid 1)).length = 2 ∧
      Runs body 0 false [.begins 0, .begins 1, .parent, .begins 2, .begins 3, .begins 4] ∧
      propertySets (n.kid 1) <+: body.drop 2 ∧
      ∀ acts, Runs body 0 false acts → RunBehindParent acts 2 2 := by
  intro param call n body
  have hfirst : callsParentFirst body = true := by decide
  obtain ⟨f, parent, x, y, g, hbody, hparent, hquiet⟩ :
      ∃ f parent x y g, body = [f, parent, x, y, g] ∧
      isPlainSuperCall parent = true ∧ ∀ m ∈ [f, x, y, g], mayCallParent m = false :=
    ⟨_, _, _, _, _, rfl, by decide, by decide⟩
  obtain ⟨hplace, hruns⟩ := parameter_properties_run_behind_parent (rules 3) n {} {} rfl hfirst
  refine ⟨hfirst, by decide, ?_, hplace, hruns⟩
  rw [hbody]
  exact .next (.quiet (hquiet f (by simp))) (.next (.called hparent)
    (.next (.quiet (hquiet x (by simp))) (.next (.quiet (hquiet y (by simp)))
      (.next (.quiet (hquiet g (by simp))) .done))))

/-- A call in parentheses is not found: the assignment runs in front of it. -/
theorem property_set_before_parent :
    let param : Node :=
    .ofHead { kind := .param, flags := { isPublic := true } } [.ident "x" {}, .absent]
    let n : Node := .ofHead { kind := .method, text := "constructor" } [.ident "constructor" {},
      .new .params {} [param],
      .new .block {} [.new .exprStmt {} [.new .paren {} [.call {} (.new .superExpr {} []) []]]]]
    let body := ((lowerMethod (rules 4) true n {} {}).1.kid 2).kids
    ∃ set call, body = [set, call] ∧ propertySets (n.kid 1) = [set] ∧ mayCallParent call = true ∧
      Runs body 0 false [.begins 0, .begins 1, .parent] := by
  intro param n body
  obtain ⟨set, call, hbody, hset, hquiet, hmay, hplain⟩ : ∃ set call, body = [set, call] ∧
      propertySets (n.kid 1) = [set] ∧ mayCallParent set = false ∧ mayCallParent call = true ∧
        isPlainSuperCall call = false :=
    ⟨_, _, rfl, rfl, by decide, by decide, by decide⟩
  refine ⟨set, call, hbody, hset, hmay, ?_⟩
  rw [hbody]
  exact .next (.quiet hquiet) (.next (.within hmay hplain) .done)

end ScriptLower.Lower
