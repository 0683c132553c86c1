import ScriptLower.Proofs.Scope.Operators
import ScriptLower.Lower.Function

/-!
# Marks in functions and classes

The temporaries of a body are declared in it, so from outside the body only uses of other marks are
loose. Parameters, keys, fields and decorators stand outside of the body, and their temporaries
belong to the function around.
-/

namespace ScriptLower.Lower

open ScriptLower Node

/-- A body, seen from outside. -/
def heldBlock (x : Nat) (body : Node) : Held :=
  ⟨body.mark = 0, if body.kids.any (Node.introduces x) then 0 else body.loose x, body.declared x⟩

section

variable {x : Nat} {c : Context} {g : Rules} {n : Node} {J : Held} {ks ds stmts : List Node}

/-! ## Lists of statements -/

theorem issues_lowerEach (hg : Keeps x g) (hs : ∀ n ∈ stmts, Tidy n) (orphans : List Nat) :
    Issues x c 0 (lowerEach g stmts orphans) (heldAll x) := by
  induction stmts generalizing orphans with
  | nil => exact .pure fun _ => by simp
  | cons n rest ih =>
    have hrest (orphans : List Nat) := ih (fun x hx => hs x (List.mem_cons_of_mem _ hx)) orphans
    refine .bind (hg.stmt c n (hs n List.mem_cons_self)) fun rs => ?_
    split
    · refine .skip (issues_onComments _) fun _ => .skip issues_get fun s => ?_
      rw [heldAll_nil]
      exact hrest _
    · have hjoin (first : Node) (more : List Node) (orphans : List Nat) :
          Issues x c (heldAll x (first :: more))
            (do return (first :: more) ++ (← lowerEach g rest orphans)) (heldAll x) := by
        refine .step (hrest orphans) fun out => .pure ?_
        rw [← heldAll_append]
        exact Held.le_refl _
      refine .branch (fun _ => hjoin _ _ _) fun _ => .skip (issues_onComments _) fun _ =>
        hjoin _ _ _

theorem issues_lowerList (hg : Keeps x g) (hs : ∀ n ∈ stmts, Tidy n) :
    Issues x c 0 (lowerList g stmts) (heldAll x) := by
  refine .skip issues_get fun s => .skip (issues_modify fun _ => ⟨rfl, rfl, rfl, rfl⟩) fun _ => ?_
  refine .bind (.elsewhere (issues_lowerEach hg hs [])) fun out => ?_
  exact .skip (issues_modify fun _ => ⟨rfl, rfl, rfl, rfl⟩) fun _ => .pure (Held.le_refl _)

/-! ## Nodes with a body -/

/-- A body covers its uses of what it declares. -/
theorem looseKids_body {h : Head} {i : Nat} (ks : List Node) (body : Node)
    (hb : h.bodyAt? = some (i + ks.length)) :
    looseKids x h i (ks ++ [body]) ≤
      looseAll x ks + if body.kids.any (Node.introduces x) then 0 else body.loose x := by
  induction ks generalizing i with
  | nil =>
    have hdeclares : h.bodyDeclares x i body = body.kids.any (Node.introduces x) := by
      simp [Head.bodyDeclares, hb]
    simp [looseKids, hdeclares]
  | cons k ks ih =>
    have hrest := ih (i := i + 1) (by rw [hb, List.length_cons]; congr 1; omega)
    rw [List.cons_append, looseKids, looseAll_cons]
    split <;> omega

theorem held_withBody {h : Head} (ks : List Node) (body : Node) (hx : x ≠ 0) (hm : h.mark = 0)
    (hb : h.bodyAt? = some ks.length) :
    held x (ofHead h (ks ++ [body])) ≤ heldAll x ks + heldBlock x body := by
  intro hmarks
  have hkids : ∀ k ∈ ks ++ [body], k.mark = 0 :=
    List.forall_mem_append.2 ⟨hmarks.1, List.forall_mem_singleton.2 hmarks.2⟩
  have hcover := looseKids_body (x := x) (i := 0) ks body (by rw [hb, Nat.zero_add])
  have hown : (h.kind == .ident && h.mark == x) = false := by simp [hm, Ne.symm hx]
  refine ⟨hm, fun hu => ?_, ?_⟩
  · rw [held_uses, ofHead, loose_mk, hown] at hu
    simp only [Bool.false_eq_true, if_false, looseAll_nil] at hu
    show 0 < looseAll x ks + if body.kids.any (Node.introduces x) then 0 else body.loose x
    split at hu <;> omega
  · rw [held_decls, declared_ofHead, declares_of_unmarked hx hkids]
    simp [heldAll, heldBlock]

theorem held_withDecos : held x (n.withDecos ds) ≤ held x n + heldAll x ds := by
  intro hmarks
  cases n with
  | absent => exact ⟨hmarks.1, fun hu => by simp [withDecos] at hu, by simp [withDecos]⟩
  | mk h ks ds' t a y =>
    refine ⟨hmarks.1, fun hu => ?_, ?_⟩
    · simp only [withDecos, held_uses, loose, Held.uses_add, heldAll] at hu ⊢
      rw [looseKids_eq (h := {}) rfl] at hu
      omega
    · simp only [withDecos, held_decls, declared, Held.decls_add, heldAll]
      omega

theorem held_dropOptional : held x (dropOptional n) ≤ held x n := by
  intro hm
  rw [dropOptional]
  refine ⟨mark_mapFlags.trans hm, fun hu => ?_, Nat.le_of_eq declared_mapFlags⟩
  rw [held_uses, loose_mapFlags fun h => rfl] at hu
  exact hu

theorem heldBlock_like (hx : x ≠ 0) (body : Node) (stmts : List Node) :
    heldBlock x (like body stmts) ≤ heldBody x stmts := by
  intro hmarks
  refine ⟨mark_like, fun hu => ?_, Nat.le_of_eq (declared_like hx body hmarks)⟩
  have hle := loose_like_le hx body stmts
  change 0 < if stmts.any (Node.introduces x) then 0 else (like body stmts).loose x at hu
  show 0 < if stmts.any (Node.introduces x) then 0 else looseAll x stmts
  split at hu
  · omega
  · rw [if_neg ‹_›]
    omega

theorem heldAll_insertAfterDirectives {add : List Node} :
    heldAll x (insertAfterDirectives stmts add) ≤ heldAll x add + heldAll x stmts := by
  intro h
  refine ⟨fun n hn => ?_, fun hu => ?_, ?_⟩
  · rcases mem_insertAfterDirectives.1 hn with hn | hn
    · exact h.2 n hn
    · exact h.1 n hn
  · simp [heldAll] at hu ⊢
    omega
  · simp [heldAll]
    omega

/-! ## Functions -/

theorem Issues.inFunction {α : Type} {m : LowerM α} {Q : α → Held} {params body : Node}
    (hm : ∀ c', Issues x c' J m Q) : Issues x c J (Lower.inFunction params body m) Q :=
  .skip issues_read fun _ => .branch (fun _ => hm c) fun _ => .elsewhere (hm _)

theorem issues_lowerOptional (hg : Keeps x g) (hn : Tidy n) :
    Issues x c 0 (lowerOptional g n) (held x) :=
  .branch (fun _ => .pure fun _ => by simp [held]) fun _ => hg.expr c n hn

theorem issues_lowerParam (hx : x ≠ 0) (hg : Keeps x g) (hn : Tidy n) :
    Issues x c 0 (lowerParam g n) (held x) := by
  have hrest : Issues x c 0 (do
      let binding ← g.pattern false (n.kid 0)
      let init ← lowerOptional g (n.kid 1)
      return dropOptional (like n [binding, init])) (held x) := by
    refine .bind (hg.pattern c false _ (hn.kid 0)) fun binding => ?_
    refine .step (issues_lowerOptional hg (hn.kid 1)) fun init => .pure ?_
    refine Held.le_trans held_dropOptional (Held.le_trans (held_like hx n _) ?_)
    simp
  unfold lowerParam
  split
  · exact hrest
  · exact .skip (issues_warnAt (by decide)) fun _ => hrest

theorem issues_lowerParams (hx : x ≠ 0) (hg : Keeps x g) (hn : Tidy n) :
    Issues x c 0 (lowerParams g n) (held x) := by
  refine .branch (fun _ => .pure fun _ => by simp [held]) fun _ => ?_
  refine .bind (.mapM fun p hp => issues_lowerParam hx hg (hn.mem (List.mem_filter.1 hp).1)) ?_
  exact fun kids => .pure (held_like hx n kids)

theorem issues_lowerBody (hx : x ≠ 0) (hg : Keeps x g) {params : Node}
    {prologue : List Node → List Node} (hn : Tidy n)
    (hp : ∀ stmts, heldAll x (prologue stmts) ≤ J + heldAll x stmts) :
    Issues x c J (lowerBody g params n prologue) (heldBlock x) := by
  refine .branch (fun _ => .pure fun _ => ?_) fun _ => .inFunction fun c' => ?_
  · exact ⟨rfl, fun hu => by simp [heldBlock] at hu, Nat.zero_le _⟩
  refine .bind (issues_collectTemps (Q := heldAll x) ?_) fun r => ?_
  · exact .step (issues_lowerList hg fun _ => hn.mem) fun stmts => .pure (hp stmts)
  · exact .bind (issues_withTemps r.1 r.2) fun stmts => .pure (heldBlock_like hx n stmts)

theorem issues_ownBody (hx : x ≠ 0) (hg : Keeps x g) {params : Node} (hn : Tidy n) :
    Issues x c 0 (lowerBody g params n id) (heldBlock x) := by
  exact issues_lowerBody hx hg hn fun stmts => Held.le_add_left _ _

theorem issues_lowerFunction (hx : x ≠ 0) (hg : Keeps x g) (hn : Tidy n)
    (hk : n.kind = .funcDecl ∨ n.kind = .funcExpr) : Issues x c 0 (lowerFunction g n) (held x) := by
  refine .elsewhere ?_
  refine .bind (issues_lowerParams hx hg (hn.kid 1)) fun params => ?_
  refine .step (issues_ownBody hx hg (hn.kid 2)) fun body => ?_
  refine .skip issues_noteUnlowered fun _ => .pure ?_
  have hbody : Head.bodyAt? { n.head with flags := n.flags.runtime, mark := 0 } = some 2 := by
    have hk : n.head.kind = .funcDecl ∨ n.head.kind = .funcExpr := hk
    unfold Head.bodyAt?
    rcases hk with hk | hk <;> simp [hk]
  refine Held.le_trans (held_withBody [leaf? (n.kid 0), params] _ hx rfl hbody) ?_
  refine Held.add_le_add ?_ (Held.le_refl _)
  have hname := held_leaf? hx (hn.kid 0).mark
  simpa [Held.add_zero, Held.zero_add] using Held.add_le_add hname (Held.le_refl (held x params))

/-- An arrow function has a body once the expression it was became a block. -/
theorem issues_lowerArrow (hx : x ≠ 0) (hg : Keeps x g) (hn : Tidy n) (hk : n.kind = .arrow) :
    Issues x c 0 (lowerArrow g n) (held x) := by
  have hk : n.head.kind = .arrow := hk
  have hbody (h : Head) (hkind : h.kind = .arrow) (hb : h.flags.exprBody = false) :
      h.bodyAt? = some 1 := by
    simp [Head.bodyAt?, hkind, hb]
  refine .bind (issues_lowerParams hx hg (hn.kid 0)) fun params => ?_
  have hparams : heldAll x [params] ≤ held x params := by
    rw [heldAll_cons, heldAll_nil, Held.add_zero]
    exact Held.le_refl _
  refine .skip issues_noteUnlowered fun _ => .branch (fun hb => ?_) fun _ => ?_
  · have hb : n.flags.exprBody = false := by simpa using hb
    refine .step (issues_ownBody hx hg (hn.kid 1)) fun body => .pure ?_
    refine Held.le_trans (held_withBody [params] _ hx rfl (hbody _ hk hb)) ?_
    exact Held.add_le_add hparams (Held.le_refl _)
  · refine .step (.inFunction fun c' => issues_collectTemps (hg.expr c' _ (hn.kid 1))) fun r => ?_
    refine .branch (fun he => .pure ?_) fun _ => ?_
    · obtain ⟨value, temps⟩ := r
      obtain rfl := List.isEmpty_iff.1 he
      refine Held.le_trans (held_like hx n _) fun h => ?_
      simpa [Held.behind] using h
    · extract_lets span
      have hreturn : (heldAll x [.new .returnStmt span [r.1]]).behind x r.2 ≤
          (held x r.1).behind x r.2 := fun _ => by simp [Held.behind]
      refine .using (issues_withTemps _ r.2) (Held.add_le_add_left hreturn _) fun stmts => .pure ?_
      refine Held.le_trans (held_withBody [params] _ hx rfl (hbody _ hk rfl)) ?_
      refine Held.add_le_add hparams fun h => ⟨mark_new, fun hu => ?_, ?_⟩
      · change 0 < if stmts.any (Node.introduces x) then 0
          else (Node.new .block span stmts).loose x at hu
        rwa [loose_new (by simp)] at hu
      · simp [heldBlock, heldBody]

/-! ## Members -/

theorem issues_lowerKey (hx : x ≠ 0) (hg : Keeps x g) (hn : Tidy n) :
    Issues x c 0 (lowerKey g n) (held x) :=
  .branch (fun _ => hg.expr c _ (hn.kid 0)) fun _ => .pure (held_leaf hx (hn.kid 0).mark)

theorem issues_lowerDecorators (hx : x ≠ 0) (hg : Keeps x g) (hd : ∀ d ∈ ds, Tidy d) :
    Issues x c 0 (lowerDecorators g ds) (heldAll x) := by
  refine .mapM fun d hmem => .bind (hg.expr c _ ((hd d hmem).kid 0)) fun r => .pure ?_
  refine Held.le_trans (held_like hx d _) ?_
  simp

/-- The assignments of parameter properties hold no generated name. -/
theorem issues_propertyOfParam (hx : x ≠ 0) {p : Node} :
    Issues x c 0 (propertyOfParam p) fun sets => heldAll x sets := by
  unfold propertyOfParam
  extract_lets name target
  refine .branch (fun _ => .skip (issues_errorAt (by decide)) fun _ => .pure fun _ => by simp) ?_
  intro _
  refine .pure fun _ => ?_
  simp [target, loose_member hx, loose_ident hx]

theorem issues_propertiesOfParams (hx : x ≠ 0) {params : Node} :
    Issues x c 0 (propertiesOfParams params) (heldAll x) :=
  .bind (.mapM_flatten fun _ _ => issues_propertyOfParam hx) fun _ => .pure (Held.le_refl _)

theorem heldAll_afterSuper {derived : Bool} {add : List Node} :
    heldAll x (afterSuper derived add stmts) ≤ heldAll x add + heldAll x stmts := by
  unfold afterSuper
  split
  · rename_i call rest hdrop
    have hsplit : heldAll x stmts =
        heldAll x (stmts.takeWhile fun n => !isSuperCall n) + heldAll x (call :: rest) := by
      rw [← hdrop, ← heldAll_append, List.takeWhile_append_dropWhile]
    intro h
    rw [hsplit] at h ⊢
    simp only [heldAll_append, heldAll_cons, heldAll_nil, Held.add_zero, Held.facts_add,
      Held.uses_add,
      Held.decls_add] at h ⊢
    exact ⟨⟨⟨⟨h.2.1, h.2.2.1⟩, h.1⟩, h.2.2.2⟩, fun hu => by omega, by omega⟩
  · exact heldAll_insertAfterDirectives

theorem issues_lowerMethod (hx : x ≠ 0) (hg : Keeps x g) {derived : Bool} (hn : Tidy n)
    (hk : n.kind = .method) : Issues x c 0 (lowerMethod g derived n) (held x) := by
  unfold lowerMethod
  extract_lets isConstructor
  refine .elsewhere ?_
  refine .bind (issues_lowerKey hx hg hn) fun key => ?_
  refine .step (issues_lowerParams hx hg (hn.kid 1)) fun params => ?_
  refine .either (Q := heldAll x) (fun _ => issues_propertiesOfParams hx)
    (fun _ => .pure fun _ => by simp) fun props => ?_
  refine .using (issues_lowerBody hx hg (hn.kid 2) (J := heldAll x props) fun stmts => ?_)
    (Held.le_refl _) fun body => .skip issues_noteUnlowered fun _ => ?_
  · split
    · exact Held.le_add_left _ _
    · exact heldAll_afterSuper
  refine .step (issues_lowerDecorators hx hg fun d hd => hn.deco hd) fun decos => .pure ?_
  have hk : n.head.kind = .method := hk
  have hbody : Head.bodyAt? { n.head with flags := n.flags.runtime, mark := 0 } = some 2 := by
    simp [Head.bodyAt?, hk]
  refine Held.le_trans held_withDecos (Held.add_le_add (Held.le_trans held_dropOptional ?_)
    (Held.le_refl _))
  refine Held.le_trans (held_withBody [key, params] _ hx rfl hbody) ?_
  simp

theorem issues_lowerField (hx : x ≠ 0) (hg : Keeps x g) (hn : Tidy n) :
    Issues x c 0 (lowerField g n) (held x) := by
  refine .bind (issues_lowerDecorators hx hg fun d hd => hn.deco hd) fun decos => ?_
  refine .step (issues_lowerKey hx hg hn) fun key => ?_
  refine .step (issues_lowerOptional hg (hn.kid 1)) fun init => ?_
  refine .skip issues_noteUnlowered fun _ => .pure ?_
  refine Held.le_trans held_withDecos ?_
  rw [Held.add_assoc, Held.add_comm]
  refine Held.add_le_add_left
    (Held.le_trans held_dropOptional (Held.le_trans (held_like hx n _) ?_)) _
  simp

theorem issues_lowerStaticBlock (hx : x ≠ 0) (hg : Keeps x g) (hn : Tidy n)
    (hk : n.kind = .staticBlock) : Issues x c 0 (lowerStaticBlock g n) (held x) := by
  have hk : n.head.kind = .staticBlock := hk
  have hbody : Head.bodyAt? { n.head with flags := n.flags.runtime, mark := 0 } = some 0 := by
    simp [Head.bodyAt?, hk]
  refine .skip issues_noteUnlowered fun _ => ?_
  refine .bind (issues_collectTemps (issues_lowerList hg fun _ => (hn.kid 0).mem)) fun r => ?_
  refine .bind (issues_withTemps r.1 r.2) fun stmts => .pure ?_
  refine Held.le_trans (held_withBody [] _ hx rfl hbody) ?_
  rw [heldAll_nil, Held.zero_add]
  exact heldBlock_like hx _ stmts

theorem issues_lowerMember (hx : x ≠ 0) (hg : Keeps x g) {derived : Bool} (hn : Tidy n) :
    Issues x c 0 (lowerMember g derived n) (heldAll x) := by
  have hone {m : LowerM Node} (hm : Issues x c 0 m (held x)) :
      Issues x c 0 (do return [← m]) (heldAll x) :=
    .bind hm fun r => .pure (by simp)
  have hnone : Issues x c 0 (do onComments (·.drop n.span.start); return []) (heldAll x) :=
    .skip (issues_onComments _) fun _ => .pure (by simp [Held.le_refl])
  unfold lowerMember
  split
  · exact hone (issues_lowerMethod hx hg hn ‹_›)
  · exact .branch (fun _ => hnone) fun _ => hone (issues_lowerField hx hg hn)
  · exact hone (issues_lowerStaticBlock hx hg hn ‹_›)
  · refine .branch (fun _ => .skip (issues_errorAt ?_) fun _ => hnone) fun _ => hnone
    rfl

theorem issues_lowerClass (hx : x ≠ 0) (hg : Keeps x g) (hn : Tidy n) :
    Issues x c 0 (lowerClass g n) (held x) := by
  refine .bind (issues_lowerOptional hg (hn.kid 1)) fun parent => .elsewhere ?_
  refine .step (.mapM_flatten fun m hm => issues_lowerMember hx hg ((hn.kid 2).mem hm))
    fun members => ?_
  refine .step (issues_lowerDecorators hx hg fun d hd => hn.deco hd) fun decos => .pure ?_
  refine Held.le_trans held_withDecos (Held.add_le_add (Held.le_trans (held_like hx n _) ?_)
    (Held.le_refl _))
  have hname := held_leaf? hx (hn.kid 0).mark
  have hrest := Held.add_le_add (Held.le_refl (held x parent))
    (held_like hx (n.kid 2) members.flatten)
  simpa [Held.add_zero, Held.zero_add] using Held.add_le_add hname hrest

end

end ScriptLower.Lower
