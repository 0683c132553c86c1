import ScriptLower.Lower.Expression
import ScriptLower.Lower.Statement
import ScriptLower.Proofs.Scope.Declarations
import ScriptLower.Proofs.Scope.Elements
import ScriptLower.Proofs.Scope.Functions

/-!
# Marks in expressions and statements
-/

/-!
## Marks in expressions and patterns

One case for each kind of expression and of pattern. What stays as it is puts its children in once
each.
-/

namespace ScriptLower.Lower

open ScriptLower Node

section

variable {x : Nat} {c : Context} {g : Rules} {n : Node}

theorem held_likeOf {J : Held} {ks : List Node} (hx : x ≠ 0) (h : heldAll x ks ≤ J) :
    held x (like n ks) ≤ J := Held.le_trans (held_like hx n ks) h

/-- A node with one child. -/
theorem Issues.like {m : LowerM Node} (hx : x ≠ 0) (hm : Issues x c 0 m (held x)) :
    Issues x c 0 (do return Lower.like n [← m]) (held x) :=
  .bind hm fun _ => .pure (held_likeOf hx (by simp))

/-! ## Members -/

theorem issues_lowerLiteral (hx : x ≠ 0) (hm : n.mark = 0) :
    Issues x c 0 (lowerLiteral n) (held x) := by
  have hleaf := held_leaf hx hm
  refine .skip (issues_targetBefore _) fun _ => .branch (fun _ => ?_) fun _ => .pure hleaf
  dsimp only
  refine .pure ?_
  split
  · have hhead (h : Head) (hh : h.mark = 0) : held x (ofHead h []) ≤ 0 := by
      simpa using held_ofHead hx hh []
    exact hhead _ hm
  · exact hleaf

theorem issues_lowerProp (hx : x ≠ 0) (hg : Keeps x g) {value : Node → LowerM Node} (hn : Tidy n)
    (hv : Issues x c 0 (value (n.kid 1)) (held x)) :
    Issues x c 0 (lowerProp g value n) (held x) := by
  refine .bind (issues_lowerKey hx hg hn) fun key => .step hv fun v => ?_
  have hout : held x (like n [key, v]) ≤ held x key + held x v := held_likeOf hx (by simp)
  refine .branch (fun _ => .pure (Held.le_trans (fun hm => ?_) hout)) fun _ => .pure hout
  refine ⟨mark_mapFlags.trans hm, fun hu => ?_, Nat.le_of_eq declared_mapFlags⟩
  rw [held_uses, loose_mapFlags fun h => rfl] at hu
  exact hu

theorem issues_lowerObjectMember (hx : x ≠ 0) (hg : Keeps x g) (hn : Tidy n) :
    Issues x c 0 (lowerObjectMember g n) (held x) := by
  unfold lowerObjectMember
  split
  · exact issues_lowerProp hx hg hn (hg.expr c _ (hn.kid 1))
  · exact issues_lowerMethod hx hg hn ‹_›
  · exact .like hx (hg.expr c _ (hn.kid 0))
  · exact hg.expr c n hn

theorem issues_lowerObject (hx : x ≠ 0) (hg : Keeps x g) (hn : Tidy n) :
    Issues x c 0 (lowerObject g n) (held x) := by
  refine .bind (.mapM fun k hk => issues_lowerObjectMember hx hg (hn.mem hk)) fun kids => ?_
  refine .skip (issues_targetBefore _) fun _ => .branch (fun _ => .pure ?_) fun _ => .pure ?_
  · exact Held.le_trans (held_lowerObjectSpread hx _ kids) fun _ => ⟨trivial, id, Nat.le_refl _⟩
  · exact held_like hx n kids

/-! ## Operators -/

theorem issues_lowerBinary (hx : x ≠ 0) (hg : Keeps x g) (hn : Tidy n) :
    Issues x c 0 (lowerBinary g n) (held x) := by
  refine .bind (hg.expr c _ (hn.kid 0)) fun left => .skip (issues_targetBefore _) fun _ => ?_
  refine .branch (fun _ => ?_) fun _ => ?_
  · refine (issues_lowerNullish hx (hg.expr c _ (hn.kid 1))).given ?_
    rw [Held.zero_add]
    exact counted_le_held
  · refine .step (hg.expr c _ (hn.kid 1)) fun right => .skip (issues_targetBefore _) fun _ => ?_
    refine .branch (fun _ => .pure fun _ => ?_) fun _ => .pure (held_likeOf hx (by simp))
    simp [mathPow, dotted_plain hx]

theorem issues_lowerAssignment (hx : x ≠ 0) (hg : Keeps x g) (hn : Tidy n) :
    Issues x c 0 (lowerAssignment g n) (held x) := by
  refine .skip (issues_targetBefore _) fun _ => ?_
  refine .branch (fun _ => issues_lowerPowerAssign hx hg hn) fun _ => ?_
  refine .skip (issues_targetBefore _) fun _ => ?_
  refine .branch (fun _ => issues_lowerLogicalAssign hx hg hn) fun _ => ?_
  refine .bind (hg.pattern c true _ (hn.kid 0)) fun target => ?_
  exact .step (hg.expr c _ (hn.kid 1)) fun value => .pure (held_likeOf hx (by simp))

theorem issues_lowerUnary (hx : x ≠ 0) (hg : Keeps x g) (hn : Tidy n) :
    Issues x c 0 (lowerUnary g n) (held x) := by
  refine .skip (issues_targetBefore _) fun _ => ?_
  exact .branch (fun _ => issues_lowerChain hx hg (Tidy.unparen _ (hn.kid 0)) true)
    fun _ => .like hx (hg.expr c _ (hn.kid 0))

/-! ## Expressions -/

theorem issues_lowerExpr (hx : x ≠ 0) (hg : Keeps x g) (hn : Tidy n) :
    Issues x c 0 (lowerExpr g n) (held x) := by
  have hleaf : Issues x c 0 (pure (leaf n)) (held x) := .pure (held_leaf hx hn.mark)
  have hkids : Issues x c 0 (do return like n (← n.kids.mapM g.expr)) (held x) :=
    .bind (hg.exprs c fun k hk => hn.mem hk) fun kids => .pure (held_like hx n kids)
  unfold lowerExpr
  refine .branch (fun _ => .pure fun _ => by simp [held]) fun _ => ?_
  split
  case h_1 => exact issues_nameRef hx hn.mark
  case h_2 => exact issues_lowerLiteral hx hn.mark
  case h_3 | h_4 | h_5 | h_6 | h_7 | h_8 | h_9 => exact hleaf
  case h_10 | h_11 | h_12 | h_13 | h_14 => exact hg.expr c _ (hn.kid 0)
  case h_15 | h_16 | h_17 | h_18 | h_19 | h_20 | h_21 | h_22 | h_23 | h_24 | h_25 | h_26 | h_27 =>
    exact hkids
  case h_28 =>
    refine .bind (hg.expr c _ (hn.kid 0)) fun obj => .pure (held_likeOf hx ?_)
    have hname := held_leaf hx (hn.kid 1).mark
    simpa using Held.add_le_add_left hname (held x obj)
  case h_29 => exact issues_lowerObject hx hg hn
  case h_30 hk => exact issues_lowerFunction hx hg hn (.inr hk)
  case h_31 hk => exact issues_lowerArrow hx hg hn hk
  case h_32 => exact issues_lowerClass hx hg hn
  case h_33 => exact issues_lowerUnary hx hg hn
  case h_34 => exact .like hx (hg.pattern c true _ (hn.kid 0))
  case h_35 => exact issues_lowerBinary hx hg hn
  case h_36 => exact issues_lowerAssignment hx hg hn
  case h_37 =>
    refine .skip (issues_targetBefore _) fun _ => ?_
    exact .branch (fun _ => issues_lowerChain hx hg hn false) fun _ =>
      .like hx (hg.expr c _ (hn.kid 0))
  case h_38 | h_39 => exact issues_lowerElement hx hg hn
  case h_40 | h_41 | h_42 | h_43 => exact hg.pattern c true n hn
  case h_44 =>
    refine .skip (issues_errorAt rfl) fun _ => .pure fun _ => ?_
    simp [held, loose_newText hx]

/-! ## Patterns -/

theorem issues_lowerPatternMember (hx : x ≠ 0) (hg : Keeps x g) {assigns : Bool} (hn : Tidy n) :
    Issues x c 0 (lowerPatternMember g assigns n) (held x) := by
  have hrest : Issues x c 0 (do return like n [← g.pattern assigns (n.kid 0)]) (held x) :=
    .like hx (hg.pattern c assigns _ (hn.kid 0))
  refine .branch (fun _ => .skip (issues_targetBefore _) fun _ => ?_) fun _ => ?_
  · exact .branch (fun _ => .skip (issues_errorAt (by decide)) fun _ => hrest) fun _ => hrest
  · exact issues_lowerProp hx hg hn (hg.pattern c assigns _ (hn.kid 1))

theorem issues_lowerPattern (hx : x ≠ 0) (hg : Keeps x g) {assigns : Bool} (hn : Tidy n) :
    Issues x c 0 (lowerPattern g assigns n) (held x) := by
  have hleaf := held_leaf hx hn.mark
  unfold lowerPattern
  refine .branch (fun _ => .pure fun _ => by simp [held]) fun _ => ?_
  split
  case h_1 =>
    refine .skip (issues_look fun _ => rfl) fun o => ?_
    split
    · refine .pure ?_
      split
      · exact fun _ => by simp [held, loose_qualified hx]
      · exact hleaf
    · exact .pure hleaf
  case h_2 => exact .pure hleaf
  case h_3 =>
    refine .bind (.mapM fun k hk => hg.pattern c assigns k (hn.mem hk)) fun kids => ?_
    exact .pure (held_like hx n kids)
  case h_4 =>
    refine .bind (.mapM fun k hk => issues_lowerPatternMember hx hg (hn.mem hk)) fun kids => ?_
    exact .pure (held_like hx n kids)
  case h_5 =>
    refine .bind (hg.pattern c assigns _ (hn.kid 0)) fun target => ?_
    exact .step (hg.expr c _ (hn.kid 1)) fun init => .pure (held_likeOf hx (by simp))
  case h_6 | h_7 => exact .like hx (hg.pattern c assigns _ (hn.kid 0))
  case h_8 | h_9 | h_10 | h_11 => exact hg.pattern c assigns _ (hn.kid 0)
  case h_12 => exact hg.expr c n hn

end

end ScriptLower.Lower

/-!
## Marks in statements

One case for each kind of statement. A handler whose parameter is made up declares its mark at once,
and covers it.
-/

namespace ScriptLower.Lower

open ScriptLower Node

section

variable {x : Nat} {c : Context} {g : Rules} {n : Node}

theorem issues_lowerVariables (hx : x ≠ 0) (hg : Keeps x g) (hn : Tidy n) :
    Issues x c 0 (lowerVariables g n) (held x) := by
  refine .bind (.mapM fun d hd => ?_) fun decls => .pure (held_like hx n decls)
  refine .bind (hg.pattern c false _ ((hn.mem hd).kid 0)) fun binding => ?_
  refine .step (issues_lowerOptional hg ((hn.mem hd).kid 1)) fun init => ?_
  exact .pure (held_likeOf hx (by simp))

theorem issues_lowerSingle (hx : x ≠ 0) (hg : Keeps x g) (hn : Tidy n) :
    Issues x c 0 (lowerSingle g n) (held x) := by
  refine .branch (fun _ => .pure fun _ => by simp [held]) fun _ => ?_
  refine .bind (hg.stmt c n hn) fun rs => ?_
  split
  · exact .pure fun _ => by simp [held]
  · exact .pure (by simp)
  · exact .pure (held_new hx _ _ _)

theorem issues_lowerBlock (hx : x ≠ 0) (hg : Keeps x g) (hn : Tidy n) :
    Issues x c 0 (lowerBlock g n) (held x) :=
  .bind (issues_lowerList hg fun _ => hn.mem) fun stmts => .pure (held_like hx n stmts)

theorem issues_lowerLoopHead (hx : x ≠ 0) (hg : Keeps x g) {other : LowerM Node} (hn : Tidy n)
    (ho : Issues x c 0 other (held x)) : Issues x c 0 (lowerLoopHead g n other) (held x) :=
  .branch (fun _ => issues_lowerVariables hx hg hn) fun _ => ho

theorem issues_lowerCase (hx : x ≠ 0) (hg : Keeps x g) (hn : Tidy n) :
    Issues x c 0 (lowerCase g n) (held x) := by
  refine .bind (issues_lowerOptional hg (hn.kid 0)) fun test => ?_
  refine .step (issues_lowerList hg fun s hs => hn.drop hs) fun stmts => ?_
  exact .pure (held_likeOf hx (by simp))

/-! ## Handlers -/

/-- The parameter of a handler, which declares itself when it is made up. -/
def heldParam (x : Nat) (p : Node) : Held :=
  ⟨True, if p.isUse x then 0 else p.loose x, (if p.isUse x then 1 else 0) + p.declared x⟩

theorem heldParam_le_held (hx : x ≠ 0) (p : Node) : heldParam x p ≤ held x p := by
  intro hm
  simp [heldParam, isUse_of_mark hm hx]

theorem held_handler {param body : Node} (hk : n.kind = .catchClause) :
    held x (like n [param, body]) ≤ heldParam x param + held x body := by
  have hk : n.head.kind = .catchClause := hk
  refine fun h => ⟨mark_like, fun hu => ?_, ?_⟩
  · have hle := looseKids_le x { n.head with flags := n.flags.runtime, mark := 0 } 0 [param, body]
    rw [held_uses, like, ofHead, loose_mk] at hu
    simp [Head.declaresFor, hk, heldParam] at hu hle ⊢
    split at hu
    · contradiction
    · rw [if_neg ‹_›]
      omega
  · rw [held_decls, like, declared_ofHead]
    simp [Head.declares, NodeKind.nameAt?, hk, heldParam]
    omega

/-- A parameter that is made up. -/
theorem issues_freshParam (m : Nat) :
    Issues x c ⟨True, 0, if m = x then 1 else 0⟩ (ref m) (heldParam x) := by
  refine fun outside K s hb => ⟨hb.mono (Held.add_le_add_left (fun _ => ?_) K), Nat.le_refl _⟩
  have hvalue : (ref m c s).1 = Node.marked (s.supply.wish m) m := rfl
  rw [hvalue]
  refine ⟨trivial, fun hu => ?_, ?_⟩
  · simp only [heldParam, isUse_marked, loose_marked, beq_iff_eq] at hu
    split at hu <;> omega
  · simp [heldParam, isUse_marked]

mutual

theorem issues_lowerSimple (hx : x ≠ 0) (hg : Keeps x g) :
    ∀ n, Tidy n → Issues x c 0 (lowerSimple g n) (held x)
  | .absent, _ => .pure fun _ => by simp [held]
  | .mk h ks ds t a y, hn => by
    unfold lowerSimple
    extract_lets n
    have hks : ∀ k ∈ ks, Tidy k := fun k hk => hn.mem hk
    split
    case h_1 => exact .like hx (hg.expr c _ (hn.kid 0))
    case h_2 => exact issues_lowerBlock hx hg hn
    case h_3 | h_4 => exact .pure (held_leaf hx hn.mark)
    case h_5 =>
      refine .bind (issues_lowerLoopHead hx hg (hn.kid 0) (issues_lowerOptional hg (hn.kid 0)))
        fun init => ?_
      refine .step (issues_lowerOptional hg (hn.kid 1)) fun test => ?_
      refine .step (issues_lowerOptional hg (hn.kid 2)) fun update => ?_
      refine .step (issues_lowerSingle hx hg (hn.kid 3)) fun body => ?_
      exact .pure (held_likeOf hx (by simp))
    case h_6 | h_7 =>
      refine .bind (issues_lowerLoopHead hx hg (hn.kid 0) (hg.pattern c true _ (hn.kid 0)))
        fun left => ?_
      refine .step (hg.expr c _ (hn.kid 1)) fun right => ?_
      refine .step (issues_lowerSingle hx hg (hn.kid 2)) fun body => ?_
      exact .pure (held_likeOf hx (by simp))
    case h_8 | h_9 =>
      refine .bind (hg.expr c _ (hn.kid 0)) fun test => ?_
      refine .step (issues_lowerSingle hx hg (hn.kid 1)) fun body => ?_
      exact .pure (held_likeOf hx (by simp))
    case h_10 =>
      refine .bind (issues_lowerSingle hx hg (hn.kid 0)) fun body => ?_
      refine .step (hg.expr c _ (hn.kid 1)) fun test => ?_
      exact .pure (held_likeOf hx (by simp))
    case h_11 | h_12 => exact .like hx (issues_lowerOptional hg (hn.kid 0))
    case h_13 | h_14 =>
      exact .pure (held_likeOf hx (by simpa using held_leaf? hx (hn.kid 0).mark))
    case h_15 hk =>
      refine .bind (issues_lowerSimpleAt hx hg 0 ks hks) fun body => ?_
      refine .step (issues_lowerHandlerAt hx hg 1 ks hks fun hp => hn.handler hk hp)
        fun handler => ?_
      refine .step (issues_lowerSimpleAt hx hg 2 ks hks) fun last => ?_
      exact .pure (held_likeOf hx (by simp))
    case h_16 =>
      refine .bind (hg.expr c _ (hn.kid 0)) fun value => ?_
      refine .step (.mapM fun k hk => issues_lowerCase hx hg (hn.drop hk)) fun cases => ?_
      exact .pure (held_likeOf hx (by simp))
    case h_17 =>
      refine .bind (issues_lowerSingle hx hg (hn.kid 1)) fun body => .pure (held_likeOf hx ?_)
      simpa using Held.add_le_add (held_leaf hx (hn.kid 0).mark) (Held.le_refl (held x body))
    case h_18 => exact .skip (issues_errorAt rfl) fun _ => .pure fun _ => by simp [held]

theorem issues_lowerSimpleAt (hx : x ≠ 0) (hg : Keeps x g) :
    ∀ i (ks : List Node), (∀ k ∈ ks, Tidy k) → Issues x c 0 (lowerSimpleAt g i ks) (held x)
  | _, [], _ => .pure fun _ => by simp [held]
  | 0, n :: _, hks => issues_lowerSimple hx hg n (hks n List.mem_cons_self)
  | i + 1, _ :: ks, hks =>
    issues_lowerSimpleAt hx hg i ks fun k hk => hks k (List.mem_cons_of_mem _ hk)

theorem issues_lowerHandlerAt (hx : x ≠ 0) (hg : Keeps x g) : ∀ i (ks : List Node),
    (∀ k ∈ ks, Tidy k) →
      ((ks.getD i .absent).isPresent = true → (ks.getD i .absent).kind = .catchClause) →
      Issues x c 0 (lowerHandlerAt g i ks) (held x)
  | _, [], _, _ => .pure fun _ => by simp [held]
  | i + 1, _ :: ks, hks, hk =>
    issues_lowerHandlerAt hx hg i ks (fun k hk => hks k (List.mem_cons_of_mem _ hk)) hk
  | 0, .absent :: _, _, _ => .pure fun _ => by simp [held]
  | 0, .mk h ks ds t a y :: _, hks, hk => by
    unfold lowerHandlerAt
    extract_lets n jp
    have hn : Tidy n := hks n List.mem_cons_self
    have hjp (param : Node) : Issues x c (heldParam x param) (jp param) (held x) := by
      refine .step (issues_lowerSimpleAt hx hg 1 ks fun k hk => hn.mem hk) fun body => .pure ?_
      exact held_handler (hk rfl)
    refine .skip (issues_targetBefore _) fun _ => .branch (fun _ => ?_) fun _ => ?_
    · refine .bind (hg.pattern c false _ (hn.kid 0)) fun param => ?_
      exact (hjp param).given (heldParam_le_held hx param)
    · refine .branch (fun _ => ?_) fun _ => ?_
      · exact .bind (issues_fresh _) fun m => .bind (issues_freshParam m) hjp
      · exact .bind (.pure fun _ => by simp [heldParam, isUse, kind, head]) hjp

end

/-! ## Statements -/

theorem issues_lowerIf (hx : x ≠ 0) (hg : Keeps x g) (hn : Tidy n) :
    Issues x c 0 (lowerIf g n) (heldAll x) := by
  refine .skip (issues_look fun _ => rfl) fun stripped => .branch (fun _ => ?_) fun _ => ?_
  · exact .branch (fun _ => .pure (by simp)) fun _ => hg.stmt c _ (hn.kid 2)
  · refine .bind (hg.expr c _ (hn.kid 0)) fun test => ?_
    refine .step (issues_lowerSingle hx hg (hn.kid 1)) fun yes => ?_
    refine .step (issues_lowerSingle hx hg (hn.kid 2)) fun no => .pure ?_
    rw [heldAll_cons, heldAll_nil, Held.add_zero]
    exact held_likeOf hx (by simp)

theorem issues_lowerStmt (hx : x ≠ 0) (hg : Keeps x g) (hn : Tidy n) :
    Issues x c 0 (lowerStmt g n) (heldAll x) := by
  have hnone : Issues x c 0 (pure []) (heldAll x) := .pure (by simp)
  have hsingle {m : LowerM Node} (hm : Issues x c 0 m (held x)) :
      Issues x c 0 (if n.flags.declared then return [] else return [← m]) (heldAll x) :=
    .branch (fun _ => hnone) fun _ => .bind hm fun _ => .pure (by simp)
  unfold lowerStmt
  split
  case h_1 | h_2 | h_3 | h_4 => exact hnone
  case h_5 => exact hsingle (issues_lowerVariables hx hg hn)
  case h_6 hk => exact hsingle (issues_lowerFunction hx hg hn (.inl hk))
  case h_7 => exact hsingle (issues_lowerClass hx hg hn)
  case h_8 => exact issues_lowerEnum hx hg hn
  case h_9 => exact issues_lowerNamespace hx hg hn
  case h_10 => exact .one (issues_lowerImport hx hg hn)
  case h_11 => exact .one (issues_lowerAlias hx hg hn)
  case h_12 => exact .one (issues_lowerExportNamed hx hg hn)
  case h_13 => exact .one (issues_lowerExportAll hx hg hn)
  case h_14 => exact issues_lowerExportDecl hx hg hn
  case h_15 => exact .one (issues_lowerExportDefault hx hg hn)
  case h_16 => exact .skip (issues_errorAt (by decide)) fun _ => hnone
  case h_17 => exact issues_lowerIf hx hg hn
  case h_18 => exact .one (issues_lowerSimple hx hg n hn)

end

end ScriptLower.Lower
