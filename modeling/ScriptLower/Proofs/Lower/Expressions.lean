import ScriptLower.Proofs.Lower.Elements
import ScriptLower.Proofs.Lower.Functions

/-!
# Lowering expressions and patterns

One case for each kind of expression and of pattern. An operator or a link that the target lacks is
spelled out, so what keeps its operator is of the version; a link is optional only where chains
stay.
-/

namespace ScriptLower.Lower

open ScriptLower

section

variable {a : Aim} {c : Context} {n : Node} {g : Rules} {given : Prop}

/-! ## Versions -/

theorem Ctx.target_before (hc : Ctx a c) {t : Target} (ht : a.version.before t = true) :
    c.target.before t = true := by
  cases hb : c.target.before t with
  | true => rfl
  | false => rw [hc.before hb] at ht; contradiction

/-- A link of closed code is not optional where chains are lowered. -/
theorem Source.optional (h : Source a n)
    (hk : n.kind = .member ∨ n.kind = .index ∨ n.kind = .call) (ho : n.flags.optional = true) :
    a.version.before .es2020 = false := by
  cases hv : a.version.before .es2020 with
  | false => rfl
  | true =>
    have hc := h.closed hv
    cases n with
    | absent => rcases hk with hk | hk | hk <;> cases hk
    | mk head ks ds t x y =>
      have ho : head.flags.optional = true := ho
      have hk : head.kind = .member ∨ head.kind = .index ∨ head.kind = .call := hk
      unfold Node.opensChain at hc
      rcases hk with hk | hk | hk <;> simp [hk, ho] at hc

/-! ## Literals and members -/

theorem yields_lowerLiteral (a : Aim) (hk : n.kind = .literal) :
    Yields c given (lowerLiteral n) (Fine a) := by
  have hleaf : Fine a (leaf n) := .leaf (.of_kind (by rw [hk]; decide))
  refine .target_then (.branch (fun _ => ?_) fun _ => .pure fun _ => hleaf)
  dsimp only
  refine .pure fun _ => ?_
  split
  · exact ⟨.leaf _, .of_kind (show n.kind ≠ .ident by rw [hk]; decide)⟩
  · exact hleaf

theorem yields_lowerProp {value : Node → LowerM Node} (hg : Lowers a g)
    (hn : given → At a c n) (hA : given → IsA .objProp n)
    (hv : Yields c given (value (n.kid 1)) (Fine a)) :
    Yields c given (lowerProp g value n) fun r => Fine a r ∧ r.kind = n.kind := by
  have hkey : Yields c given (lowerKey g n) fun r =>
      Good a r ∧ (n.flags.computed = true → Ref a r) ∧ (n = .absent → Ref a r) := by
    refine .branch (fun hc => ?_) fun hc => .pure fun h => ⟨.leafOf _, fun e => absurd e hc, ?_⟩
    · refine (hg.exprOf fun h => ?_).mono fun r _ hr => ⟨hr.good, fun _ => hr.ref, fun _ => hr.ref⟩
      exact (hn h).part (hA h) 0 (by rw [hc]; rfl)
    · rintro rfl
      exact .of_kind (by decide)
  refine .bind hkey fun key => .bind (hv.under And.left) fun v => ?_
  have hout (h : (given ∧ Good a key ∧ (n.flags.computed = true → Ref a key) ∧
      (n = .absent → Ref a key)) ∧ Fine a v) : Fine a (like n [key, v]) := by
    obtain ⟨⟨hgiven, hgood, hcomputed, habsent⟩, hv⟩ := h
    rcases hA hgiven with hn | hn
    · have hkid : Fine a key := ⟨hgood, habsent hn⟩
      have hplain : isPlain n.kind = true := by rw [hn]; rfl
      exact .like rfl hplain (by simp [hkid, hv])
    · exact .keyed hn (.inl rfl) hgood hcomputed (by simpa using hv)
  refine .branch (fun _ => .pure fun h => ⟨?_, rfl⟩) fun _ => .pure fun h => ⟨hout h, rfl⟩
  exact (hout h).mapFlags (plain_of_isA (hA h.1.1) rfl) rfl

/-- A member stays a spread or stays none. -/
theorem yields_lowerObjectMember (hg : Lowers a g) (hn : given → At a c n)
    (hk : given → n = .absent ∨ n.kind ∈ [.objProp, .method, .spread]) :
    Yields c given (lowerObjectMember g n) fun r =>
      Fine a r ∧ (n.kind ≠ .spread → r.kind ≠ .spread) := by
  unfold lowerObjectMember
  split
  · rename_i hkind
    refine (yields_lowerProp hg hn (fun _ => .inr hkind) ?_).mono fun r _ hr => ⟨hr.1, fun _ => ?_⟩
    · exact hg.exprOf fun h => (hn h).kid hkind 1 (by simp [enters, NodeKind.reads])
    · rw [hr.2, hkind]
      decide
  · rename_i hkind
    refine ((yields_lowerMethod hg hkind).under hn).mono fun r _ hr => ⟨hr.1, fun _ => ?_⟩
    rw [hr.2]
    decide
  · rename_i hkind
    refine hg.expr_then (fun h => (hn h).kid hkind 0 rfl) fun r => .pure fun h => ?_
    exact ⟨.like hkind rfl (by simpa using h.2), fun hne => absurd hkind hne⟩
  · rename_i hprop hmethod hspread
    have habsent (h : given) : n = .absent := by
      rcases hk h with h | h
      · exact h
      · simp only [List.mem_cons, List.not_mem_nil, or_false] at h
        rcases h with h | h | h
        · exact absurd h hprop
        · exact absurd h hmethod
        · exact absurd h hspread
    cases n with
    | absent =>
      refine ((hg.absent c).under fun _ => trivial).mono fun r _ hr => ?_
      rw [hr]
      exact ⟨.absent, fun h => h⟩
    | mk head ks ds t x y =>
      refine (hg.exprOf hn).mono fun r h _ => ?_
      cases habsent h

theorem yields_lowerObject (hg : Lowers a g) (hk : n.kind = .object) :
    Yields c (At a c n) (lowerObject g n) (Fine a) := by
  have hhead : n.head.kind = .object := hk
  -- each member of the result comes from one of the source that is a spread when it is
  have hkids : Yields c (At a c n) (n.kids.mapM (lowerObjectMember g)) fun rs => ∀ r ∈ rs,
      Fine a r ∧ ((n.kids.any (·.kind == .spread)) = false → r.kind ≠ .spread) := by
    refine .mapM fun x hx => ?_
    refine (yields_lowerObjectMember hg (fun h => h.kids hk (fun _ => rfl) hx) fun h => ?_).mono
      fun r _ hr => ⟨hr.1, fun hnone => hr.2 fun hs => ?_⟩
    · exact h.source.toSpine.kind_mem (j := 0) hx (fun i => kindsAt_of_kind hhead _) (by simp)
    · rw [List.any_eq_false] at hnone
      exact hnone x hx (beq_iff_eq.2 hs)
  refine .bind hkids fun kids => .target_then ?_
  refine .branch (fun _ => .pure fun h => ?_) fun hs => .pure fun h => ?_
  · exact fine_lowerObjectSpread n.span fun r hr => (h.2 r hr).1
  · refine .objectOf hk (fun r hr => (h.2 r hr).1) fun hv r hr => (h.2 r hr).2 ?_
    rw [h.1.ctx.target_before hv, Bool.true_and] at hs
    simpa using hs

/-! ## Operators -/

theorem yields_lowerBinary (hg : Lowers a g) (hk : n.kind = .binary) :
    Yields c (At a c n) (lowerBinary g n) (Fine a) := by
  refine hg.expr_then (fun h => h.kid hk 0 rfl) fun left => .target_then ?_
  refine .branch (fun _ => ?_) fun hn => ?_
  · exact yields_lowerNullish And.right (hg.exprOf fun h => h.1.kid hk 1 rfl)
  · refine hg.expr_then (fun h => h.1.kid hk 1 rfl) fun right => .target_then ?_
    refine .branch (fun _ => .pure fun h => fine_mathPow _ h.1.2 h.2) fun hp => .pure fun h => ?_
    refine .binary hk ?_ (by simp [h.1.2, h.2])
    show a.version.before n.op.since = false
    unfold TokenKind.since
    split
    · rename_i hop
      exact h.1.1.ctx.before (by simpa [hop] using hp)
    · rename_i hop
      exact h.1.1.ctx.before (by simpa [hop] using hn)
    · exact before_es2015 a

theorem yields_lowerAssignment (hg : Lowers a g) (hk : n.kind = .assign) :
    Yields c (At a c n) (lowerAssignment g n) (Fine a) := by
  refine .target_then (.branch (fun _ => yields_lowerPowerAssign hg hk) fun hp => .target_then ?_)
  refine .branch (fun _ => yields_lowerLogicalAssign hg hk) fun hl => ?_
  refine hg.pattern_then (fun h => h.kid hk 0 rfl) fun target => ?_
  refine hg.expr_then (fun h => h.1.kid hk 1 rfl) fun value => .pure fun h => ?_
  refine .assignment hk ?_ (by simp [h.1.2, h.2])
  show a.version.before n.op.assignSince = false
  unfold TokenKind.assignSince
  split
  case h_1 hop => exact h.1.1.ctx.before (by simpa [hop] using hp)
  case h_2 hop | h_3 hop | h_4 hop =>
    exact h.1.1.ctx.before (by simpa [hop, isLogicalAssign] using hl)
  case h_5 => exact before_es2015 a

mutual

theorem Source.unparen : ∀ n, Source a n → Source a n.unparen
  | .absent, h => h
  | .mk head ks ds t x y, h => by
    unfold Node.unparen
    split
    · rename_i hp
      refine Source.unparenFirst ks ?_
      rw [← kid_zero head ks ds t x y]
      exact h.kid (beq_iff_eq.1 hp) 0 rfl
    · exact h

theorem Source.unparenFirst :
    ∀ ks : List Node, Source a (ks.headD .absent) → Source a (Node.unparenFirst ks)
  | [], h => h
  | n :: _, h => Source.unparen n h

end

theorem yields_lowerUnary (hg : Lowers a g) (hk : n.kind = .unary) :
    Yields c (At a c n) (lowerUnary g n) (Fine a) := by
  refine .target_then (.branch (fun hd => ?_) fun _ => ?_)
  · have hchain : (n.kid 0).unparen.kind = .optChain := by
      simp only [Bool.and_eq_true, beq_iff_eq] at hd
      exact hd.1.2
    refine (yields_lowerChain hg hchain true).under fun h => ⟨h.ctx, ?_⟩
    exact (h.kid hk 0 rfl).source.unparen
  · refine hg.expr_then (fun h => h.kid hk 0 rfl) fun r => .pure fun h => ?_
    exact .like hk rfl (by simpa using h.2)

/-! ## Expressions -/

/-- Code of which all children are expressions. -/
theorem yields_likeKids {k : NodeKind} (hg : Lowers a g) (hk : n.kind = k)
    (hi : ∀ computed i, enters k computed i = true)
    (hf : Source a n → ∀ rs : List Node, (∀ r ∈ rs, Fine a r) → Fine a (like n rs)) :
    Yields c (At a c n) (do return like n (← n.kids.mapM g.expr)) (Fine a) := by
  refine .bind (hg.exprs fun h x hx => h.kids hk (hi _) hx) fun rs => .pure fun h => ?_
  exact hf h.1.source rs h.2

theorem yields_lowerThis (hk : n.kind = .thisExpr) :
    Yields c given (lowerExpr g n) (Fine a) := by
  unfold lowerExpr
  refine .branch (fun _ => .pure fun _ => .absent) fun _ => ?_
  rw [hk]
  exact .pure fun _ => .leaf (.of_kind (by rw [hk]; decide))

theorem yields_lowerExpr (hg : Lowers a g) : Yields c (At a c n) (lowerExpr g n) (Fine a) := by
  have hleaf {k : NodeKind} (hk : n.kind = k) (hne : k ≠ .ident) : Fine a (leaf n) :=
    .leaf (.of_kind (by rw [hk]; exact hne))
  have hplain {k : NodeKind} (hk : n.kind = k) (hp : isPlain k = true)
      (hi : ∀ computed i, enters k computed i = true) :
      Yields c (At a c n) (do return like n (← n.kids.mapM g.expr)) (Fine a) :=
    yields_likeKids hg hk hi fun _ _ hrs => .like hk hp hrs
  unfold lowerExpr
  refine .branch (fun _ => .pure fun _ => .absent) fun _ => ?_
  split
  case h_1 hk => exact yields_nameRef fun h => ⟨h.ctx, fun _ => h.source.covers.ident hk⟩
  case h_2 hk => exact yields_lowerLiteral a hk
  case h_3 hk | h_4 hk | h_5 hk | h_6 hk | h_7 hk | h_8 hk | h_9 hk =>
    exact .pure fun _ => hleaf hk (by decide)
  case h_10 hk | h_11 hk | h_12 hk | h_13 hk | h_14 hk =>
    exact hg.exprOf fun h => h.kid hk 0 rfl
  case h_15 hk | h_16 hk | h_17 hk | h_18 hk | h_19 hk | h_20 hk | h_21 hk | h_22 hk | h_23 hk
      | h_24 hk | h_25 hk => exact hplain hk rfl fun _ _ => rfl
  case h_26 hk =>
    refine yields_likeKids hg hk (fun _ _ => rfl) fun h rs hrs => ?_
    exact .link (.inl hk) (h.optional (.inr (.inl hk))) hrs
  case h_27 hk =>
    refine yields_likeKids hg hk (fun _ _ => rfl) fun h rs hrs => ?_
    exact .link (.inr hk) (h.optional (.inr (.inr hk))) hrs
  case h_28 hk =>
    refine hg.expr_then (fun h => h.kid hk 0 rfl) fun obj => .pure fun h => ?_
    exact .memberOf hk (h.1.source.optional (.inl hk)) h.2 (.leafOf _)
  case h_29 hk => exact yields_lowerObject hg hk
  case h_30 hk => exact yields_lowerFunction hg (.inr hk)
  case h_31 hk => exact yields_lowerArrow hg hk
  case h_32 hk => exact yields_lowerClass hg (.inr hk)
  case h_33 hk => exact yields_lowerUnary hg hk
  case h_34 hk =>
    refine hg.pattern_then (fun h => h.kid hk 0 rfl) fun r => .pure fun h => ?_
    exact .like hk rfl (by simpa using h.2)
  case h_35 hk => exact yields_lowerBinary hg hk
  case h_36 hk => exact yields_lowerAssignment hg hk
  case h_37 hk =>
    refine .target_then (.branch (fun _ => yields_lowerChain hg hk false) fun hnew => ?_)
    refine hg.expr_then (fun h => ⟨h.ctx, h.source.toSpine.kid 0 (by rw [hk]; rfl), fun hv => ?_⟩)
      fun r => .pure fun h => .like hk rfl (by simpa using h.2)
    exact absurd (h.ctx.target_before hv) hnew
  case h_38 hk => exact yields_lowerElement hg (.inl hk)
  case h_39 hk => exact yields_lowerElement hg (.inr hk)
  case h_40 | h_41 | h_42 | h_43 => exact hg.patternOf id
  case h_44 => exact .error_then (.pure False.elim)

/-! ## Patterns -/

theorem yields_lowerPatternMember {assigns : Bool} (hg : Lowers a g) (hn : given → At a c n)
    (hk : given → n = .absent ∨ n.kind ∈ [.objProp, .restElement]) :
    Yields c given (lowerPatternMember g assigns n) (Fine a) := by
  refine .branch (fun hr => .target_then ?_) fun hr => ?_
  · have hkind : n.kind = .restElement := beq_iff_eq.1 hr
    have hrest : Yields c given (do return like n [← g.pattern assigns (n.kid 0)]) (Fine a) := by
      refine hg.pattern_then (fun h => (hn h).kid hkind 0 rfl) fun r => .pure fun h => ?_
      exact .like hkind rfl (by simpa using h.2)
    exact .branch (fun _ => .error_then (hrest.under False.elim)) fun _ => hrest
  · have hA (h : given) : IsA .objProp n := by
      rcases hk h with h | h
      · exact .inl h
      · simp only [List.mem_cons, List.not_mem_nil, or_false] at h
        rcases h with h | h
        · exact .inr h
        · exact absurd (beq_iff_eq.2 h) hr
    refine (yields_lowerProp hg hn hA (hg.patternOf fun h => ?_)).mono fun r _ hr => hr.1
    exact (hn h).part (hA h) 1 (by simp [enters, NodeKind.reads])

theorem yields_lowerPattern {assigns : Bool} (hg : Lowers a g) :
    Yields c (At a c n) (lowerPattern g assigns n) fun r =>
      Fine a r ∧ (isBinding n.kind = true → r.isPresent = true) := by
  unfold lowerPattern
  refine .branch (fun hn => .pure fun _ => ⟨.absent, fun hb => ?_⟩) fun _ => ?_
  · cases n with
    | absent => exact absurd hb (by decide)
    | mk head ks ds t x y => contradiction
  split
  case h_1 hk =>
    have hleaf (h : At a c n) : Fine a (leaf n) := .leaf h.source.ref
    refine .bind ((yields_exporter? n.text).under At.ctx) fun o => ?_
    split
    · refine .pure fun h => ?_
      split
      · exact ⟨fine_qualified (h.2 _ rfl) _ _, fun _ => rfl⟩
      · exact ⟨hleaf h.1, fun _ => rfl⟩
    · exact .pure fun h => ⟨hleaf h.1, fun _ => rfl⟩
  case h_2 hk => exact .pure fun _ => ⟨.leaf (.of_kind (by rw [hk]; decide)), fun _ => rfl⟩
  case h_3 hk =>
    refine .bind (.mapM fun x hx => hg.patternOf fun h => h.kids hk (fun _ => rfl) hx) fun rs => ?_
    exact .pure fun h => ⟨.like hk rfl h.2, fun _ => rfl⟩
  case h_4 hk =>
    have hhead : n.head.kind = .objectPattern := hk
    refine .bind (.mapM fun x hx => yields_lowerPatternMember hg
      (fun h => h.kids hk (fun _ => rfl) hx) fun h => ?_) fun rs => ?_
    · exact h.source.toSpine.kind_mem (j := 0) hx (fun i => kindsAt_of_kind hhead _) (by simp)
    · exact .pure fun h => ⟨.like hk rfl h.2, fun _ => rfl⟩
  case h_5 hk =>
    refine hg.pattern_then (fun h => h.kid hk 0 rfl) fun target => ?_
    refine hg.expr_then (fun h => h.1.kid hk 1 rfl) fun init => .pure fun h => ?_
    exact ⟨.like hk rfl (by simp [h.1.2, h.2]), fun _ => rfl⟩
  case h_6 hk | h_7 hk =>
    refine hg.pattern_then (fun h => h.kid hk 0 rfl) fun r => .pure fun h => ?_
    exact ⟨.like hk rfl (by simpa using h.2), fun _ => rfl⟩
  case h_8 hk | h_9 hk | h_10 hk | h_11 hk =>
    refine (hg.patternOf fun h => h.kid hk 0 rfl).mono fun r _ hr => ⟨hr, fun hb => ?_⟩
    rw [hk] at hb
    contradiction
  case h_12 =>
    refine (hg.exprOf id).mono fun r _ hr => ⟨hr, fun hb => ?_⟩
    unfold isBinding at hb
    split at hb <;> simp_all

end

end ScriptLower.Lower
