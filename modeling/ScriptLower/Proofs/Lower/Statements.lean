import ScriptLower.Proofs.Lower.Declarations
import ScriptLower.Proofs.Lower.Expressions

/-!
# Lowering statements

One case for each kind of statement. A handler without a binding gets one where the target needs it,
and a binding that is there stays, so a handler that has none is of the version.
-/

namespace ScriptLower.Lower

open ScriptLower

section

variable {a : Aim} {c : Context} {n : Node} {g : Rules} {given : Prop}

theorem yields_lowerVariables (hg : Lowers a g) (hk : n.kind = .varDecl) :
    Yields c (At a c n) (lowerVariables g n) (Fine a) := by
  have hhead : n.head.kind = .varDecl := hk
  have hA (h : At a c n) {d : Node} (hd : d ∈ n.kids) : IsA .declarator d :=
    h.source.toSpine.mem_isA (j := 0) hd fun i => kindsAt_of_kind hhead _
  refine .bind (R := fun ds => ∀ d ∈ ds, Fine a d) (.mapM fun d hd => ?_) fun decls => ?_
  · have hat (h : At a c n) : At a c d := h.kids hk (fun _ => rfl) hd
    refine hg.pattern_then (fun h => (hat h).part (hA h hd) 0 rfl) fun binding => ?_
    refine .bind (yields_lowerOptional hg fun h => (hat h.1).part (hA h.1 hd) 1 rfl) fun init => ?_
    exact .pure fun h => .likeA (hA h.1.1 hd) rfl (by simp [h.1.2, h.2])
  · exact .pure fun h => .like hk rfl h.2

theorem yields_lowerSingle (hg : Lowers a g) (hn : given → At a c n) :
    Yields c given (lowerSingle g n) (Fine a) := by
  refine .branch (fun _ => .pure fun _ => .absent) fun _ => ?_
  refine .bind ((hg.stmt c n).under hn) fun rs => ?_
  split
  · exact .pure fun _ => .new rfl _ (by simp)
  · exact .pure fun h => h.2 _ List.mem_cons_self
  · exact .pure fun h => .new rfl _ h.2

theorem yields_lowerBlock (hg : Lowers a g) (hk : n.kind = .block) :
    Yields c (At a c n) (lowerBlock g n) (Fine a) :=
  .bind (yields_lowerList hg fun h _ hx => h.kids hk (fun _ => rfl) hx) fun _ =>
    .pure fun h => .like hk rfl h.2

theorem yields_lowerLoopHead {other : LowerM Node} (hg : Lowers a g) (hn : given → At a c n)
    (ho : Yields c given other (Fine a)) : Yields c given (lowerLoopHead g n other) (Fine a) :=
  .branch (fun hk => (yields_lowerVariables hg (beq_iff_eq.1 hk)).under hn) fun _ => ho

theorem yields_lowerCase (hg : Lowers a g) (hn : given → At a c n ∧ IsA .caseClause n) :
    Yields c given (lowerCase g n) (Fine a) := by
  have hkids (h : given) : ∀ x ∈ n.kids, At a c x := fun x hx =>
    (hn h).1.parts (hn h).2 (fun _ => rfl) hx
  refine .bind (yields_lowerOptional hg fun h => (hn h).1.part (hn h).2 0 rfl) fun test => ?_
  refine .bind (yields_lowerList hg fun h x hx => hkids h.1 x (List.mem_of_mem_drop hx))
    fun rs => ?_
  exact .pure fun h => .likeA (hn h.1.1).2 rfl (List.forall_mem_cons.2 ⟨h.1.2, h.2⟩)

/-- A handler has a binding, or the version can do without. -/
theorem fine_handler {param body : Node} (hk : n.kind = .catchClause) (hp : Fine a param)
    (hb : Fine a body) (hbinds : param.isPresent = true ∨ a.version.before .es2019 = false) :
    Fine a (like n [param, body]) := by
  have hhead : n.head.kind = .catchClause := hk
  refine .ofHead ?_ (by change n.head.kind ≠ _; rw [hhead]; decide)
    (by change n.head.kind ≠ _; rw [hhead]; decide) (by simp [hp, hb])
  simp only [Head.since, List.isEmpty_cons, hhead, List.getD_cons_zero, Bool.false_eq_true,
    if_false]
  split
  · exact before_es2015 a
  · rename_i hno
    exact hbinds.resolve_left hno

mutual

theorem yields_lowerSimple (hg : Lowers a g) :
    ∀ n, Yields c (At a c n) (lowerSimple g n) (Fine a)
  | .absent => .pure fun _ => .absent
  | .mk h ks ds t x y => by
    unfold lowerSimple
    extract_lets n
    split
    case h_1 hk =>
      refine hg.expr_then (fun h => h.kid hk 0 rfl) fun r => .pure fun h => ?_
      exact .like hk rfl (by simpa using h.2)
    case h_2 hk => exact yields_lowerBlock hg hk
    case h_3 hk | h_4 hk =>
      exact .pure fun _ => .leaf (.of_kind (by show h.kind ≠ .ident; rw [hk]; decide))
    case h_5 hk =>
      refine .bind (yields_lowerLoopHead hg (fun h => h.kid hk 0 rfl)
        (yields_lowerOptional hg fun h => h.kid hk 0 rfl)) fun init => ?_
      refine .bind (yields_lowerOptional hg fun h => h.1.kid hk 1 rfl) fun test => ?_
      refine .bind (yields_lowerOptional hg fun h => h.1.1.kid hk 2 rfl) fun update => ?_
      refine .bind (yields_lowerSingle hg fun h => h.1.1.1.kid hk 3 rfl) fun body => ?_
      exact .pure fun h => .like hk rfl (by simp [h.1.1.1.2, h.1.1.2, h.1.2, h.2])
    case h_6 hk | h_7 hk =>
      refine .bind (yields_lowerLoopHead hg (fun h => h.kid hk 0 rfl)
        (hg.patternOf fun h => h.kid hk 0 rfl)) fun left => ?_
      refine hg.expr_then (fun h => h.1.kid hk 1 rfl) fun right => ?_
      refine .bind (yields_lowerSingle hg fun h => h.1.1.kid hk 2 rfl) fun body => ?_
      exact .pure fun h => .like hk rfl (by simp [h.1.1.2, h.1.2, h.2])
    case h_8 hk | h_9 hk =>
      refine hg.expr_then (fun h => h.kid hk 0 rfl) fun test => ?_
      refine .bind (yields_lowerSingle hg fun h => h.1.kid hk 1 rfl) fun body => ?_
      exact .pure fun h => .like hk rfl (by simp [h.1.2, h.2])
    case h_10 hk =>
      refine .bind (yields_lowerSingle hg fun h => h.kid hk 0 rfl) fun body => ?_
      refine hg.expr_then (fun h => h.1.kid hk 1 rfl) fun test => ?_
      exact .pure fun h => .like hk rfl (by simp [h.1.2, h.2])
    case h_11 hk | h_12 hk =>
      refine .bind (yields_lowerOptional hg fun h => h.kid hk 0 rfl) fun r => .pure fun h => ?_
      exact .like hk rfl (by simpa using h.2)
    case h_13 hk | h_14 hk =>
      exact .pure fun _ => .unread hk rfl (fun _ _ => rfl) (by simpa using .leaf? _)
    case h_15 hk =>
      have hhead : (Node.mk h ks ds t x y).head.kind = .tryStmt := hk
      refine .bind ((yields_lowerSimpleAt hg 0 ks).under fun h => h.kid hk 0 rfl) fun body => ?_
      refine .bind ((yields_lowerHandlerAt hg 1 ks).under fun h => ⟨h.1.kid hk 1 rfl, ?_⟩) ?_
      · exact h.1.source.toSpine.kid_isA 1 (kindsAt_of_kind hhead _)
      intro handler
      refine .bind ((yields_lowerSimpleAt hg 2 ks).under fun h => h.1.1.kid hk 2 rfl) fun last => ?_
      exact .pure fun h => .like hk rfl (by simp [h.1.1.2, h.1.2, h.2])
    case h_16 hk =>
      have hhead : (Node.mk h ks ds t x y).head.kind = .switchStmt := hk
      refine hg.expr_then (fun h => h.kid hk 0 rfl) fun value => ?_
      refine .bind (.mapM fun x hx => yields_lowerCase hg fun h => ⟨?_, ?_⟩) fun cases => ?_
      · exact h.1.kids_drop hk 1 (fun _ => rfl) hx
      · exact h.1.source.toSpine.mem_isA hx fun i => kindsAt_of_kind hhead _
      · exact .pure fun h => .like hk rfl (List.forall_mem_cons.2 ⟨h.1.2, h.2⟩)
    case h_17 hk =>
      refine .bind (yields_lowerSingle hg fun h => h.kid hk 1 rfl) fun body => .pure fun h => ?_
      refine .headed hk rfl (.leafOf _) (fun hr => ?_) (by simpa using h.2)
      contradiction
    case h_18 => exact .error_then (.pure False.elim)

theorem yields_lowerSimpleAt (hg : Lowers a g) : ∀ i (ks : List Node),
    Yields c (At a c (ks.getD i .absent)) (lowerSimpleAt g i ks) (Fine a)
  | _, [] => .pure fun _ => .absent
  | 0, n :: _ => yields_lowerSimple hg n
  | i + 1, _ :: ks => yields_lowerSimpleAt hg i ks

theorem yields_lowerHandlerAt (hg : Lowers a g) : ∀ i (ks : List Node),
    Yields c (At a c (ks.getD i .absent) ∧ IsA .catchClause (ks.getD i .absent))
      (lowerHandlerAt g i ks) (Fine a)
  | _, [] => .pure fun _ => .absent
  | i + 1, _ :: ks => yields_lowerHandlerAt hg i ks
  | 0, .absent :: _ => .pure fun _ => .absent
  | 0, .mk h ks ds t x y :: _ => by
    unfold lowerHandlerAt
    extract_lets n jp
    refine (?_ : Yields c (At a c n ∧ n.kind = .catchClause) _ (Fine a)).under fun h => ⟨h.1, ?_⟩
    · have hjp (param : Node) : Yields c ((At a c n ∧ n.kind = .catchClause) ∧ Fine a param ∧
          (param.isPresent = true ∨ a.version.before .es2019 = false)) (jp param) (Fine a) := by
        refine .bind ((yields_lowerSimpleAt hg 1 ks).under fun h => h.1.1.kid h.1.2 1 rfl) ?_
        exact fun body => .pure fun h => fine_handler h.1.1.2 h.1.2.1 h.2 h.1.2.2
      refine .target_then (.branch (fun hp => ?_) fun _ => .branch (fun _ => ?_) fun hnew => ?_)
      · refine .bind
          (((hg.pattern c _ _).under fun h => h.1.kid h.2 0 rfl).mono fun r h hr => ?_) hjp
        refine ⟨hr.1, .inl (hr.2 ?_)⟩
        have hkinds : kindsAt n.head 0 = [.ident, .arrayPattern, .objectPattern] :=
          kindsAt_of_kind (show n.head.kind = .catchClause from h.2) _
        have hmem := h.1.source.toSpine.kind_at 0 hp (by simp [hkinds])
        simp only [hkinds, List.mem_cons, List.not_mem_nil, or_false] at hmem
        rcases hmem with hmem | hmem | hmem <;> rw [hmem] <;> rfl
      · refine .bind (yields_fresh _) fun m =>
          .bind ((yields_ref a m).mono fun r _ hr => ?_) fun r =>
          (hjp r).under fun h => ⟨h.1.1, h.2⟩
        exact ⟨hr.1, .inl hr.2⟩
      · refine .bind (.pure fun h => ⟨.absent, .inr (h.1.ctx.before ?_)⟩) hjp
        simpa using hnew
    · rcases h.2 with h | h
      · cases h
      · exact h

end

theorem yields_isStripped (test : Node) : Yields c given (isStripped test) fun _ => True :=
  .bind yields_read fun _ => .pure fun _ => trivial

theorem yields_lowerIf (hg : Lowers a g) (hk : n.kind = .ifStmt) :
    Yields c (At a c n) (lowerIf g n) fun rs => ∀ r ∈ rs, Fine a r := by
  refine .bind (yields_isStripped _) fun stripped => .branch (fun _ => ?_) fun _ => ?_
  · refine .branch (fun _ => .pure fun _ => by simp) fun _ => ?_
    exact (hg.stmt c _).under fun h => h.1.kid hk 2 rfl
  · refine hg.expr_then (fun h => h.1.kid hk 0 rfl) fun test => ?_
    refine .bind (yields_lowerSingle hg fun h => h.1.1.kid hk 1 rfl) fun yes => ?_
    refine .bind (yields_lowerSingle hg fun h => h.1.1.1.kid hk 2 rfl) fun no => .pure fun h => ?_
    have hif : Fine a (like n [test, yes, no]) := .like hk rfl (by simp [h.1.1.2, h.1.2, h.2])
    simpa using hif

theorem yields_lowerStmt (hg : Lowers a g) :
    Yields c (At a c n) (lowerStmt g n) fun rs => ∀ r ∈ rs, Fine a r := by
  have hone {m : LowerM Node} (hm : Yields c (At a c n) m (Fine a)) :
      Yields c (At a c n) (do return one (← m)) fun rs => ∀ r ∈ rs, Fine a r :=
    .bind hm fun _ => .pure fun h => fine_one h.2
  have hsingle {m : LowerM Node} (hm : Yields c (At a c n) m (Fine a)) :
      Yields c (At a c n) (if n.flags.declared then return [] else return [← m])
        fun rs => ∀ r ∈ rs, Fine a r :=
    .branch (fun _ => .pure fun _ => by simp) fun _ => .bind hm fun _ => .pure fun h => by
      simpa using h.2
  unfold lowerStmt
  split
  case h_1 | h_2 | h_3 | h_4 => exact .pure fun _ => by simp
  case h_5 hk => exact hsingle (yields_lowerVariables hg hk)
  case h_6 hk => exact hsingle (yields_lowerFunction hg (.inl hk))
  case h_7 hk => exact hsingle (yields_lowerClass hg (.inl hk))
  case h_8 hk => exact yields_lowerEnum hg hk
  case h_9 hk => exact (yields_lowerNamespace hg).under fun h => ⟨h, hk⟩
  case h_10 hk => exact hone (yields_lowerImport hg hk)
  case h_11 hk => exact hone (yields_lowerAlias hg hk)
  case h_12 hk => exact hone (yields_lowerExportNamed hg hk)
  case h_13 hk => exact hone (yields_lowerExportAll hg hk)
  case h_14 hk => exact yields_lowerExportDecl hg hk
  case h_15 hk => exact hone (yields_lowerExportDefault hg hk)
  case h_16 => exact .error_then (.pure False.elim)
  case h_17 hk => exact yields_lowerIf hg hk
  case h_18 => exact hone (yields_lowerSimple hg n)

end

end ScriptLower.Lower
