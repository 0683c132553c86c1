import ScriptLower.Proofs.Lower.Output

/-!
# Lowering operators

Captured operands, assignment targets, chains and objects with spreads are lowered to good code:
what takes the place of an operator or a link that the target lacks has neither.
-/

namespace ScriptLower.Lower

open ScriptLower

section

variable {a : Aim} {c : Context} {n : Node} {g : Rules} {given : Prop}

/-! ## New code -/

theorem fine_void0 (span : Span) : Fine a (void0 span) :=
  .plain rfl (by simpa using .literal _ _ _)

theorem fine_keyword (op : TokenKind) (span : Span) : Fine a (.keyword op span) := .literal _ _ _

theorem fine_string (value : Bytes) (span : Span) : Fine a (string value span) := .literal _ _ _

theorem fine_number (raw : Bytes) (span : Span) : Fine a (number raw span) := .literal _ _ _

theorem fine_varDecl {decls : List Node} (keyword : String) (span : Span)
    (h : ∀ d ∈ decls, Fine a d) : Fine a (varDecl keyword span decls) := .plain rfl h

theorem splitOn_eq (sep : UInt8) (s : Bytes) :
    ∃ rest, Bytes.splitOn sep s = s.takeWhile (· != sep) :: rest := by
  induction s with
  | nil => exact ⟨[], rfl⟩
  | cons b r ih =>
    obtain ⟨rest, hr⟩ := ih
    rw [Bytes.splitOn]
    by_cases hb : (b == sep) = true
    · rw [if_pos hb]
      exact ⟨Bytes.splitOn sep r, by simp [bne, hb]⟩
    · rw [if_neg hb, hr]
      exact ⟨rest, by simp [bne, hb]⟩

/-- A dotted name reads its first part only. -/
theorem fine_dotted {name : Bytes} (hx : a.names (rootName name)) (span : Span) :
    Fine a (dotted name span) := by
  have hfold (rest : List Bytes) (base : Node) (hbase : Fine a base) :
      Fine a (rest.foldl (fun obj p => .member obj p span) base) := by
    induction rest generalizing base with
    | nil => exact hbase
    | cons p rest ih => exact ih _ (hbase.member p span)
  obtain ⟨rest, hsplit⟩ := splitOn_eq (ascii '.') name
  unfold dotted
  rw [hsplit]
  refine hfold rest _ ?_
  split
  · exact .new rfl span (by simp)
  · exact .ident hx span

theorem yields_fresh (wish : Bytes) : Yields c given (fresh wish) fun _ => True :=
  fun s => ⟨Nat.le_refl s.errors, fun _ _ => trivial⟩

/-- A generated name is none that the source could mean. -/
theorem yields_ref (a : Aim) (m : Nat) :
    Yields c given (ref m) fun r => Fine a r ∧ r.isPresent = true := by
  refine fun s => ⟨Nat.le_refl s.errors, fun _ _ => ⟨⟨.leaf _, fun _ hm => ?_⟩, rfl⟩⟩
  have hzero : m = 0 := hm
  show a.names (s.supply.wish m)
  rw [hzero]
  exact a.nameless

theorem yields_temp : Yields c given temp fun _ => True :=
  fun s => ⟨Nat.le_refl s.errors, fun _ _ => trivial⟩

@[simp] theorem mem_insertAfterDirectives {stmts add : List Node} {x : Node} :
    x ∈ insertAfterDirectives stmts add ↔ x ∈ stmts ∨ x ∈ add := by
  have hsplit : x ∈ stmts ↔ x ∈ stmts.takeWhile isDirective ∨ x ∈ stmts.dropWhile isDirective := by
    rw [← List.mem_append, List.takeWhile_append_dropWhile]
  simp only [insertAfterDirectives, List.mem_append, hsplit]
  exact or_right_comm

theorem forall_insertAfterDirectives {P : Node → Prop} {stmts add : List Node}
    (hs : ∀ x ∈ stmts, P x)
    (ha : ∀ x ∈ add, P x) : ∀ x ∈ insertAfterDirectives stmts add, P x :=
  fun x hx => (mem_insertAfterDirectives.1 hx).elim (hs x) (ha x)

theorem forall_afterSuper {P : Node → Prop} {derived : Bool} {add body : List Node}
    (ha : ∀ x ∈ add, P x) (hb : ∀ x ∈ body, P x) : ∀ x ∈ afterSuper derived add body, P x := by
  unfold afterSuper
  split
  · rename_i call rest hdrop
    have hrest : ∀ x ∈ call :: rest, P x := fun x hx =>
      hb x ((List.dropWhile_sublist _).subset (hdrop ▸ hx))
    obtain ⟨hcall, hrest⟩ := List.forall_mem_cons.1 hrest
    simp only [List.forall_mem_append, List.forall_mem_singleton]
    exact ⟨⟨⟨fun x hx => hb x ((List.takeWhile_sublist _).subset hx), hcall⟩, ha⟩, hrest⟩
  · exact forall_insertAfterDirectives hb ha

theorem yields_withTemps (a : Aim) {stmts : List Node} {temps : List Nat}
    (hs : given → ∀ x ∈ stmts, Fine a x) :
    Yields c given (withTemps stmts temps) fun rs => ∀ r ∈ rs, Fine a r := by
  refine .branch (fun _ => .pure hs) fun _ => ?_
  refine .bind (R := fun ds => ∀ d ∈ ds, Fine a d) (.mapM fun m _ => ?_) fun decls => ?_
  · refine .bind (yields_ref a m) fun r => .pure fun h => ?_
    exact .new rfl _ (by simp [h.2.1, Fine.absent])
  · refine .pure fun h => forall_insertAfterDirectives (hs h.1) ?_
    simpa using fine_varDecl _ _ h.2

/-! ## Names -/

theorem exporterAmong_mem {name : Bytes} {scopes : List Scope} {s : Scope}
    (h : exporterAmong name scopes = some s) : s ∈ scopes := by
  induction scopes with
  | nil => cases h
  | cons t r ih =>
    rw [exporterAmong] at h
    split at h
    · cases h
      exact List.mem_cons_self
    · split at h
      · cases h
      · exact List.mem_cons_of_mem _ (ih h)

/-- The object that a name is read from has a name that may be read. -/
theorem yields_exporter? (name : Bytes) :
    Yields c (Ctx a c) (exporter? name) fun o => ∀ s ∈ o, a.names s.name := by
  refine fun s => ⟨Nat.le_refl s.errors, fun _ hc => ?_⟩
  intro scope hscope
  exact hc.scopes scope (exporterAmong_mem hscope)

theorem fine_qualified {s : Scope} (hs : a.names s.name) (name : Bytes) (span : Span) :
    Fine a (qualified s name span) := .memberOf rfl (by simp) (.ident hs span) (.leaf _)

theorem yields_nameRef (hn : given → Ctx a c ∧ (n.mark = 0 → a.names n.text)) :
    Yields c given (nameRef n) (Fine a) := by
  refine .bind ((yields_exporter? n.text).under fun h => (hn h).1) fun o => ?_
  split
  · exact .pure fun h => fine_qualified (h.2 _ rfl) _ _
  · refine .bind (R := fun _ => True) (fun s => ⟨Nat.le_refl s.errors, fun _ _ => trivial⟩)
      fun d => ?_
    have hleaf : given → Fine a (leaf n) := fun h => .leaf fun _ hm => (hn h).2 hm
    split
    · refine .pure fun h => ?_
      split
      · unfold Define.replacement
        split
        · exact ⟨.leaf _, .of_kind (show NodeKind.raw ≠ .ident by decide)⟩
        · exact .new rfl _
            (by simpa using ⟨.leaf _, .of_kind (show NodeKind.raw ≠ .ident by decide)⟩)
      · exact hleaf h.1.1
    · exact .pure fun h => hleaf h.1.1

/-! ## Captured operands -/

/-- Both uses of a captured expression are good code. -/
structure Captured.Fine (a : Aim) (k : Captured) : Prop where
  first : Lower.Fine a k.first
  again : Lower.Fine a k.again

theorem yields_capture (hn : given → Fine a n) : Yields c given (capture n) (Captured.Fine a) := by
  refine .branch (fun hr => .pure fun h => ⟨hn h, ⟨.leaf _, fun hk _ => ?_⟩⟩) fun _ => ?_
  · have hident : n.kind = .ident := hk
    simp only [isRepeatable, hident, Bool.or_eq_true, Bool.and_eq_true, decide_eq_true_eq,
      beq_iff_eq, reduceCtorEq, or_false, true_and] at hr
    exact (hn h).ref hident hr
  · refine .bind yields_temp fun m => .bind (yields_ref a m) fun stored => .pure fun h => ?_
    exact ⟨.paren (.assign _ h.2.1 (hn h.1.1)), h.2.1⟩

theorem fine_mathPow {x y : Node} (span : Span) (hx : Fine a x) (hy : Fine a y) :
    Fine a (mathPow span x y) :=
  .call span (fine_dotted (show a.names (rootName "Math.pow") from a.math) span) (by simp [hx, hy])

theorem fine_nullTest {k : Captured} {join compare : TokenKind} (span : Span)
    (hj : join.since = .es2015) (hc : compare.since = .es2015) (hk : k.Fine a) :
    Fine a (nullTest span join compare k) := by
  have hold : a.version.before .es2015 = false := before_es2015 a
  refine .bin (by rw [hj]; exact hold) span ?_ ?_
  · exact .bin (by rw [hc]; exact hold) span hk.first (fine_keyword _ _)
  · exact .bin (by rw [hc]; exact hold) span hk.again (fine_void0 _)

theorem yields_lowerNullish {span : Span} {left : Node} {right : LowerM Node}
    (hl : given → Fine a left) (hr : Yields c given right (Fine a)) :
    Yields c given (lowerNullish span left right) (Fine a) := by
  refine .bind (yields_capture hl) fun k => .bind (hr.under And.left) fun r => .pure fun h => ?_
  have htest : Fine a (nullTest span .andAnd .bangEqEq k) := fine_nullTest span rfl rfl h.1.2
  exact .new rfl span (by simp [htest, h.1.2.again, h.2])

/-! ## Assignment targets -/

theorem memberAccess_fine {k : Captured} (hk : k.Fine a) (span : Span) (prop : Bytes) :
    (memberAccess span k prop).Fine a := ⟨hk.first.member _ _, hk.again.member _ _⟩

theorem indexAccess_fine {obj key : Captured} (ho : obj.Fine a) (hk : key.Fine a) (span : Span) :
    (indexAccess span obj key).Fine a :=
  ⟨.link (.inl rfl) (by simp) (by simp [ho.first, hk.first]),
    .link (.inl rfl) (by simp) (by simp [ho.again, hk.again])⟩

theorem kid_zero (h : Head) (ks ds : List Node) (t x y : Node) :
    (Node.mk h ks ds t x y).kid 0 = ks.headD .absent := by cases ks <;> rfl

mutual

theorem yields_access? (hg : Lowers a g) :
    ∀ n, Yields c (At a c n) (access? g n) fun o => ∀ k ∈ o, k.Fine a
  | .absent => .pure fun _ => by simp
  | .mk h ks ds t x y => by
    unfold access?
    have hfirst (hk : enters h.kind h.flags.computed 0 = true) :
        Yields c (At a c (.mk h ks ds t x y)) (accessFirst? g ks) fun o => ∀ k ∈ o, k.Fine a := by
      refine (yields_accessFirst? hg ks).under fun hat => ?_
      rw [← kid_zero h ks ds t x y]
      exact hat.kid rfl 0 hk
    split
    case h_1 | h_2 | h_3 | h_4 | h_5 => exact hfirst (by simp only [*]; rfl)
    case h_6 hk =>
      refine .bind ((yields_exporter? h.text).under fun h => h.ctx) fun o => ?_
      split
      · refine .bind (yields_capture fun h => .ident (h.2 _ rfl) _) fun k => .pure fun h => ?_
        simpa using memberAccess_fine h.2 _ _
      · refine .pure fun hat => ?_
        have hname : Fine a (leaf (.mk h ks ds t x y)) :=
          .leaf fun _ _ => hat.1.source.covers.ident hk
        simpa using ⟨hname, hname⟩
    case h_7 hk =>
      refine .branch (fun _ => .pure fun _ => by simp) fun _ => ?_
      refine hg.expr_then (fun h => h.kid hk 0 rfl) fun obj => ?_
      refine .bind (yields_capture And.right) fun k => .pure fun h => ?_
      simpa using memberAccess_fine h.2 _ _
    case h_8 hk =>
      refine hg.expr_then (fun h => h.kid hk 0 rfl) fun obj => ?_
      refine .bind (yields_capture And.right) fun obj => ?_
      refine hg.expr_then (fun h => h.1.1.kid hk 1 rfl) fun key => ?_
      refine .bind (yields_capture And.right) fun key => .pure fun h => ?_
      simpa using indexAccess_fine h.1.1.2 h.2 _
    case h_9 => exact .pure fun _ => by simp

theorem yields_accessFirst? (hg : Lowers a g) :
    ∀ ks : List Node, Yields c (At a c (ks.headD .absent)) (accessFirst? g ks) fun o =>
    ∀ k ∈ o, k.Fine a
  | [] => .pure fun _ => by simp
  | n :: _ => yields_access? hg n

end

/-- An assignment whose target cannot be split is reported. -/
theorem yields_keepAssignment {P : Node → Prop} (hg : Lowers a g) :
    Yields c given (keepAssignment g n) P := by
  refine .error_then ?_
  refine hg.pattern_then False.elim fun _ => hg.expr_then (fun h => h.1.elim) fun _ => ?_
  exact .pure fun h => h.1.1.elim

theorem yields_lowerPowerAssign (hg : Lowers a g) (hn : n.kind = .assign) :
    Yields c (At a c n) (lowerPowerAssign g n) (Fine a) := by
  refine .bind ((yields_access? hg _).under fun h => h.kid hn 0 rfl) fun o => ?_
  split
  · exact yields_keepAssignment hg
  · refine hg.expr_then (fun h => h.1.kid hn 1 rfl) fun value => .pure fun h => ?_
    have hacc := h.1.2 _ rfl
    exact .assign _ hacc.first (fine_mathPow _ hacc.again h.2)

theorem yields_lowerLogicalAssign (hg : Lowers a g) (hn : n.kind = .assign) :
    Yields c (At a c n) (lowerLogicalAssign g n) (Fine a) := by
  refine .bind ((yields_access? hg _).under fun h => h.kid hn 0 rfl) fun o => ?_
  split
  · exact yields_keepAssignment hg
  · rename_i acc
    extract_lets set
    have hset : Yields c (At a c n ∧ ∀ k ∈ some acc, k.Fine a) set (Fine a) := by
      refine hg.expr_then (fun h => h.1.kid hn 1 rfl) fun value => .pure fun h => ?_
      exact .paren (.assign _ (h.1.2 _ rfl).again h.2)
    split
    · refine .bind hset fun r => .pure fun h => ?_
      exact .bin (before_es2015 a) _ (h.1.2 _ rfl).first h.2
    · refine .bind hset fun r => .pure fun h => ?_
      exact .bin (before_es2015 a) _ (h.1.2 _ rfl).first h.2
    · refine .target_then ?_
      refine .branch (fun _ => yields_lowerNullish (fun h => (h.2 _ rfl).first) hset) fun hnew => ?_
      refine .bind hset fun r => .pure fun h => ?_
      have hop : a.version.before .es2020 = false := h.1.1.ctx.before (by simpa using hnew)
      exact .bin hop _ (h.1.2 _ rfl).first h.2

/-! ## Optional chains -/

/-- The links of a chain, and the code it begins with. -/
def Links (a : Aim) (r : Node × List Node) : Prop :=
  Source a r.1 ∧ ∀ link ∈ r.2, Spine a link ∧
    (link.kind = .member ∨ link.kind = .index ∨ link.kind = .call)

mutual

theorem links_chainOf : ∀ n, Spine a n → Links a (chainOf n)
  | .absent, _ => ⟨.absent, by simp [chainOf]⟩
  | .mk h ks ds t x y, hn => by
    have hfirst (hk : h.kind.reads h.flags.computed 0 = true) : Links a (chainOfFirst ks) := by
      refine links_chainOfFirst ks ?_
      rw [← kid_zero h ks ds t x y]
      exact hn.kid 0 hk
    unfold chainOf
    split
    case h_1 hk | h_2 hk | h_3 hk =>
      obtain ⟨hbase, hlinks⟩ := hfirst (by rw [hk]; rfl)
      exact ⟨hbase, List.forall_mem_append.2 ⟨hlinks, List.forall_mem_singleton.2
        ⟨hn, by simp [Node.kind, Node.head, hk]⟩⟩⟩
    case h_4 hk => exact hfirst (by rw [hk]; rfl)
    case h_5 => exact ⟨⟨hn, fun _ => by simp_all [Node.opensChain]⟩, by simp⟩

theorem links_chainOfFirst :
    ∀ ks : List Node, Spine a (ks.headD .absent) → Links a (chainOfFirst ks)
  | [], _ => ⟨.absent, by simp [chainOfFirst]⟩
  | n :: _, hn => links_chainOf n hn

end

/-- The parts of a chain in the making are good code. -/
structure Chain.Fine (a : Aim) (k : Chain) : Prop where
  value : Lower.Fine a k.value
  tests : ∀ t ∈ k.tests, Lower.Fine a t
  receiver : ∀ r ∈ k.receiver, Lower.Fine a r

theorem yields_guard {k : Chain} (span : Span) (hk : given → k.Fine a) :
    Yields c given (k.guard span) (Chain.Fine a) := by
  refine .bind (yields_capture fun h => (hk h).value) fun v => .pure fun h => ?_
  refine ⟨h.2.again, List.forall_mem_append.2 ⟨(hk h.1).tests, ?_⟩, (hk h.1).receiver⟩
  exact List.forall_mem_singleton.2 (fine_nullTest span rfl rfl h.2)

theorem yields_chainRead {k : Chain} {link : Node} {callFollows : Bool} (hg : Lowers a g)
    (hlink : given → Ctx a c ∧ Spine a link)
    (hkind : given → link.kind = .member ∨ link.kind = .index)
    (hk : given → k.Fine a) : Yields c given (k.read g link callFollows) (Chain.Fine a) := by
  refine .either (R := fun o : Option Captured => ∀ x ∈ o, x.Fine a) (fun _ => .map ?_)
    (fun _ => .pure fun _ => by simp) fun o => ?_
  · exact (yields_capture fun h => (hk h).value).mono fun x _ hx => by simpa using hx
  -- the key of an index is code, the name behind a point is not read
  refine .either (R := fun p => Good a p ∧ (link.kind = .index → Fine a p)) (fun hm => ?_)
    (fun hm => ?_) fun prop => ?_
  · refine .pure fun _ => ⟨.leafOf _, fun hi => ?_⟩
    rw [hi] at hm
    contradiction
  · refine (hg.exprOf fun h => ⟨(hlink h.1).1, ?_⟩).mono fun r _ hr => ⟨hr.good, fun _ => hr⟩
    refine (hlink h.1).2.rest 0 ?_
    rcases hkind h.1 with hl | hl <;> rw [hl] at hm ⊢
    · contradiction
    · rfl
  have hnew (x : Node) (hgiven : given) (hx : Fine a x)
      (hp : Good a prop ∧ (link.kind = .index → Fine a prop)) :
      Fine a (.new link.kind link.span [x, prop]) := by
    rcases hkind hgiven with hl | hl
    · rw [hl]
      exact .memberOf rfl (by simp) hx hp.1
    · have hprop := hp.2 hl
      rw [hl]
      exact .link (.inl rfl) (by simp) (by simp [hx, hprop])
  split
  · refine .pure fun h => ?_
    have ho := h.1.2 _ rfl
    exact ⟨hnew _ h.1.1 ho.first h.2, (hk h.1.1).tests, by simpa using ho.again⟩
  · refine .pure fun h => ?_
    exact ⟨hnew _ h.1.1 (hk h.1.1).value h.2, (hk h.1.1).tests, (hk h.1.1).receiver⟩

theorem yields_chainCall {k : Chain} {link : Node} (hg : Lowers a g)
    (hlink : given → Ctx a c ∧ Spine a link) (hkind : link.kind = .call)
    (hk : given → k.Fine a) : Yields c given (k.call g link) (Chain.Fine a) := by
  refine .bind (hg.exprs fun h x hx => ?_) fun args => ?_
  · obtain ⟨i, rfl⟩ := exists_kid_drop hx
    refine ⟨(hlink h).1, (hlink h).2.rest i ?_⟩
    rw [hkind]
    rfl
  split
  · rename_i this _ hthis
    refine .pure fun h => ⟨.call _ ((hk h.1).value.member _ _) ?_, (hk h.1).tests, by simp⟩
    exact List.forall_mem_cons.2 ⟨(hk h.1).receiver _ hthis, h.2⟩
  · exact .pure fun h => ⟨.call _ (hk h.1).value h.2, (hk h.1).tests, (hk h.1).receiver⟩

theorem yields_follow {links : List Node} (span : Span) (hg : Lowers a g) :
    ∀ {k : Chain} {given : Prop}, (given → Ctx a c) → (given → k.Fine a) →
      (given → ∀ link ∈ links, Spine a link ∧
        (link.kind = .member ∨ link.kind = .index ∨ link.kind = .call)) →
      Yields c given (Chain.follow g span k links) (Chain.Fine a) := by
  induction links with
  | nil => exact fun _ hk _ => .pure hk
  | cons link rest ih =>
    intro k given hc hk hlinks
    have hlink (h : given) := hlinks h link List.mem_cons_self
    refine .either (fun _ => yields_guard span hk) (fun _ => .pure hk) fun k' => ?_
    refine .either (R := Chain.Fine a) (fun hcall => ?_) (fun hcall => ?_) fun k'' => ?_
    · exact yields_chainCall hg (fun h => ⟨hc h.1, (hlink h.1).1⟩) (beq_iff_eq.1 hcall) And.right
    · refine yields_chainRead hg (fun h => ⟨hc h.1, (hlink h.1).1⟩) (fun h => ?_) And.right
      rcases (hlink h.1).2 with hl | hl | hl
      · exact .inl hl
      · exact .inr hl
      · exact absurd (beq_iff_eq.2 hl) hcall
    · refine ih (fun h => hc h.1.1) And.right fun h x hx => ?_
      exact hlinks h.1.1 x (List.mem_cons_of_mem _ hx)

theorem fine_tests {tests : List Node} {span : Span} {short value : Node}
    (ht : ∀ t ∈ tests, Fine a t) (hs : Fine a short) (hv : Fine a value) :
    Fine a (tests.foldr (fun test rest => .new .conditional span [test, short, rest]) value) := by
  induction tests with
  | nil => exact hv
  | cons t ts ih =>
    have hrest := ih fun x hx => ht x (List.mem_cons_of_mem _ hx)
    exact .new rfl span (by simpa using ⟨ht t List.mem_cons_self, hs, hrest⟩)

theorem yields_lowerChain (hg : Lowers a g) (hn : n.kind = .optChain) (deletes : Bool) :
    Yields c (At a c n) (lowerChain g n deletes) (Fine a) := by
  have hlinks (h : At a c n) : Links a (chainOf (n.kid 0)) :=
    links_chainOf _ (h.source.toSpine.kid 0 (by rw [hn]; rfl))
  unfold lowerChain
  refine hg.expr_then (fun h => ⟨h.ctx, (hlinks h).1⟩) fun base => ?_
  refine .bind (yields_follow n.span hg (fun h => h.1.ctx) (fun h => ?_) fun h => (hlinks h.1).2) ?_
  · exact ⟨h.2, by simp, by simp⟩
  · refine fun k => .pure fun h => fine_tests h.2.tests ?_ ?_
    · split
      · exact fine_keyword _ _
      · exact fine_void0 _
    · split
      · exact .plain rfl (by simpa using h.2.value)
      · exact h.2.value

/-! ## Spreads in objects -/

/-- What a spread spreads is code. -/
theorem Fine.spread_kid (hn : Fine a n) (hk : n.kind = .spread) : Fine a (n.kid 0) := by
  have href : Ref a (n.kid 0) := by
    cases hn.good with
    | absent => cases hk
    | mk hfit _ _ =>
      refine hfit.reads 0 ?_
      simp only [Node.readsAt, hk]
      rfl
  refine ⟨?_, href⟩
  rcases kid_cases n 0 with h0 | ⟨-, h0⟩
  · rw [h0]
    exact .absent
  · cases hn.good with
    | absent => cases hk
    | mk _ hks _ => exact hks _ h0

/-- The groups of members hold no spread. -/
theorem fine_spreadGroups {props : List Node} (span : Span) (hp : ∀ p ∈ props, Fine a p) :
    (∀ x ∈ (spreadGroups span props).1, Fine a x ∧ x.kind ≠ .spread) ∧
      ∀ x ∈ (spreadGroups span props).2, Fine a x := by
  induction props with
  | nil => simp [spreadGroups]
  | cons p r ih =>
    obtain ⟨hgroup, hargs⟩ := ih fun x hx => hp x (List.mem_cons_of_mem _ hx)
    have hfirst := hp p List.mem_cons_self
    rw [spreadGroups]
    dsimp only
    split
    · rename_i hs
      refine ⟨by simp, List.forall_mem_cons.2 ⟨hfirst.spread_kid (beq_iff_eq.1 hs), ?_⟩⟩
      split
      · exact hargs
      · refine List.forall_mem_cons.2 ⟨.objectOf rfl (fun x hx => (hgroup x hx).1) ?_, hargs⟩
        exact fun _ x hx => (hgroup x hx).2
    · rename_i hs
      exact ⟨List.forall_mem_cons.2 ⟨⟨hfirst, fun e => hs (beq_iff_eq.2 e)⟩, hgroup⟩, hargs⟩

theorem fine_lowerObjectSpread {props : List Node} (span : Span) (hp : ∀ p ∈ props, Fine a p) :
    Fine a (lowerObjectSpread span props) := by
  obtain ⟨hgroup, hargs⟩ := fine_spreadGroups span hp
  have hassign : Fine a (dotted "Object.assign" span) :=
    fine_dotted (show a.names (rootName "Object.assign") from a.object) span
  refine .call span hassign ?_
  split
  · exact List.forall_mem_cons.2 ⟨.objectOf rfl (by simp) (by simp), hargs⟩
  · refine List.forall_mem_cons.2 ⟨.objectOf rfl (fun x hx => (hgroup x hx).1) ?_, hargs⟩
    exact fun _ x hx => (hgroup x hx).2

theorem yields_noteUnlowered : Yields c given (noteUnlowered n) fun _ => True := by
  unfold noteUnlowered
  split
  · exact .pure fun _ => trivial
  · refine .bind yields_read fun x => .bind yields_get fun s => .branch (fun _ => ?_) fun _ => ?_
    · exact .bind (yields_modify fun _ => rfl) fun _ => yields_warnAt _ _ _
    · exact .pure fun _ => trivial

end

end ScriptLower.Lower
