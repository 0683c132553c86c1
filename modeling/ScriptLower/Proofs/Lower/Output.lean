import ScriptLower.Proofs.Lower.Source

/-!
# Lowered code

How good code is put together: a new node is good when its children are, unless it is one of the few
that came with a later version or that hold names which are not read. At the end stands what the
rules of lowering promise of each other.
-/

namespace ScriptLower.Lower

open ScriptLower

section

variable {a : Aim} {c : Context} {n : Node} {h : Head} {ks : List Node}

/-! ## Names -/

theorem Ref.of_kind (hn : n.kind ≠ .ident) : Ref a n := fun e => absurd e hn

theorem Ref.absent : Ref a .absent := .of_kind (by decide)

theorem Fine.absent : Fine a .absent := ⟨.absent, .absent⟩

theorem ref_of_getD (hks : ∀ k ∈ ks, Fine a k) (i : Nat) : Ref a (ks.getD i .absent) := by
  rw [List.getD_eq_getElem?_getD]
  cases hi : ks[i]? with
  | none => exact .absent
  | some k => exact (hks k (List.mem_of_getElem? hi)).ref

/-! ## Versions -/

theorem before_es2015 (a : Aim) : a.version.before .es2015 = false := by
  have hknown := a.known
  unfold Target.before Target.es2015
  exact decide_eq_false (by dsimp only; omega)

/-- Whether nodes of a kind are of every version, and all their children are code. -/
def isPlain : NodeKind → Bool
  | .ident | .binary | .assign | .object | .catchClause | .member | .index | .call
  | .exportNamed => false
  | _ => true

theorem since_plain (hk : isPlain h.kind = true) (ks : List Node) : h.since ks = .es2015 := by
  unfold Head.since
  split
  · rfl
  · unfold isPlain at hk
    split <;> simp_all

/-! ## Trees -/

theorem Good.ofHead (hs : a.version.before (h.since ks) = false)
    (hr : ∀ i, (Node.ofHead h ks).readsAt i = true → Ref a (ks.getD i .absent))
    (hk : h.kind ≠ .exportNamed) (hks : ∀ k ∈ ks, Good a k) : Good a (.ofHead h ks) :=
  .mk ⟨hs, hr, by simp [Node.decos], fun e => absurd e hk⟩ hks (by simp)

theorem Good.leaf (h : Head) : Good a (.ofHead h []) :=
  .mk ⟨before_es2015 a, fun _ _ => .absent, by simp [Node.decos], fun _ _ => by simp [Node.kids]⟩
    (by simp) (by simp)

/-- Code whose children are code. -/
theorem Fine.ofHead (hs : a.version.before (h.since ks) = false) (hi : h.kind ≠ .ident)
    (hk : h.kind ≠ .exportNamed) (hks : ∀ k ∈ ks, Fine a k) : Fine a (.ofHead h ks) where
  good := .ofHead hs (fun i _ => ref_of_getD hks i) hk fun k hk => (hks k hk).good
  ref := .of_kind hi

theorem Fine.plain (hk : isPlain h.kind = true) (hks : ∀ k ∈ ks, Fine a k) :
    Fine a (.ofHead h ks) := by
  refine .ofHead (by rw [since_plain hk]; exact before_es2015 a) ?_ ?_ hks
  · rintro e
    rw [e] at hk
    contradiction
  · rintro e
    rw [e] at hk
    contradiction

theorem Fine.like {k : NodeKind} (hn : n.kind = k) (hk : isPlain k = true)
    (hks : ∀ x ∈ ks, Fine a x) : Fine a (like n ks) := .plain (by subst hn; exact hk) hks

theorem Fine.likeA {k : NodeKind} (hn : IsA k n) (hk : isPlain k = true)
    (hks : ∀ x ∈ ks, Fine a x) : Fine a (Lower.like n ks) := by
  rcases hn with rfl | hn
  · exact .plain rfl hks
  · exact .like hn hk hks

theorem Fine.new {k : NodeKind} (hk : isPlain k = true) (span : Span) (hks : ∀ x ∈ ks, Fine a x) :
    Fine a (.new k span ks) := .plain hk hks

theorem Good.leafOf (n : Node) : Good a (Lower.leaf n) := .leaf _

theorem Good.leaf? (n : Node) : Good a (Lower.leaf? n) := by
  unfold Lower.leaf?
  split
  · exact .absent
  · exact .leafOf n

theorem Fine.leaf (hn : Ref a n) : Fine a (Lower.leaf n) := ⟨.leafOf n, hn⟩

theorem Fine.leaf? (hn : Ref a n) : Fine a (Lower.leaf? n) := by
  unfold Lower.leaf?
  split
  · exact .absent
  · exact .leaf hn

theorem Fine.ident {x : Bytes} (hx : a.names x) (span : Span) : Fine a (.ident x span) :=
  ⟨.leaf _, fun _ _ => hx⟩

theorem Fine.literal (op : TokenKind) (raw : Bytes) (span : Span) : Fine a (.literal op raw span) :=
  ⟨.leaf _, .of_kind (show NodeKind.literal ≠ .ident by decide)⟩

/-- An operation of two operands whose operator is of the version. -/
theorem Fine.binary (hk : h.kind = .binary) (hop : a.version.before h.op.since = false)
    (hks : ∀ k ∈ ks, Fine a k) : Fine a (.ofHead h ks) := by
  refine .ofHead ?_ (by rw [hk]; decide) (by rw [hk]; decide) hks
  unfold Head.since
  split
  · exact before_es2015 a
  · simpa only [hk] using hop

/-- An assignment whose operator is of the version. -/
theorem Fine.assignment (hk : h.kind = .assign) (hop : a.version.before h.op.assignSince = false)
    (hks : ∀ k ∈ ks, Fine a k) : Fine a (.ofHead h ks) := by
  refine .ofHead ?_ (by rw [hk]; decide) (by rw [hk]; decide) hks
  unfold Head.since
  split
  · exact before_es2015 a
  · simpa only [hk] using hop

theorem Fine.bin {x y : Node} {op : TokenKind} (hop : a.version.before op.since = false)
    (span : Span) (hx : Fine a x) (hy : Fine a y) : Fine a (bin span op x y) :=
  .binary rfl hop (by simp [hx, hy])

theorem Fine.assign {x y : Node} (span : Span) (hx : Fine a x) (hy : Fine a y) :
    Fine a (assign span x y) := .assignment rfl (before_es2015 a) (by simp [hx, hy])

/-- A link that is not optional, or that may be. -/
theorem since_link (hk : h.kind = .member ∨ h.kind = .index ∨ h.kind = .call)
    (ho : h.flags.optional = true → a.version.before .es2020 = false) :
    a.version.before (h.since ks) = false := by
  unfold Head.since
  split
  · exact before_es2015 a
  · have hopt : a.version.before (if h.flags.optional then .es2020 else .es2015) = false := by
      split
      · exact ho ‹_›
      · exact before_es2015 a
    rcases hk with hk | hk | hk <;> simp only [hk] <;> exact hopt

theorem Fine.link (hk : h.kind = .index ∨ h.kind = .call)
    (ho : h.flags.optional = true → a.version.before .es2020 = false) (hks : ∀ k ∈ ks, Fine a k) :
    Fine a (.ofHead h ks) :=
  .ofHead (since_link (.inr hk) ho) (by rcases hk with hk | hk <;> rw [hk] <;> decide)
    (by rcases hk with hk | hk <;> rw [hk] <;> decide) hks

/-- A property read by name: the name is not read. -/
theorem Fine.memberOf {x p : Node} (hk : h.kind = .member)
    (ho : h.flags.optional = true → a.version.before .es2020 = false) (hx : Fine a x)
    (hp : Good a p) : Fine a (.ofHead h [x, p]) := by
  refine ⟨.ofHead (since_link (.inl hk) ho) (fun i hi => ?_) (by rw [hk]; decide) ?_,
    .of_kind (by change h.kind ≠ _; rw [hk]; decide)⟩
  · simp only [Node.readsAt, Node.kind, Node.head, Node.ofHead, hk, NodeKind.reads,
      Bool.and_eq_true, beq_iff_eq] at hi
    obtain rfl := hi.1
    exact hx.ref
  · simpa using ⟨hx.good, hp⟩

theorem Fine.member {x : Node} (hx : Fine a x) (name : Bytes) (span : Span) :
    Fine a (.member x name span) := .memberOf rfl (by simp) hx (.leaf _)

theorem Fine.call {f : Node} {args : List Node} (span : Span) (hf : Fine a f)
    (hargs : ∀ k ∈ args, Fine a k) : Fine a (.call span f args) :=
  .link (.inr rfl) (by simp) (List.forall_mem_cons.2 ⟨hf, hargs⟩)

theorem Fine.paren {x : Node} (hx : Fine a x) : Fine a (paren x) := .new rfl _ (by simpa using hx)

/-- A node whose first child need not be read. -/
theorem Fine.headed {first : Node} {rest : List Node} {k : NodeKind} (hk : h.kind = k)
    (hp : isPlain k = true) (hfirst : Good a first)
    (href : k.reads h.flags.computed 0 = true → Ref a first) (hrest : ∀ x ∈ rest, Fine a x) :
    Fine a (.ofHead h (first :: rest)) := by
  subst hk
  refine ⟨.ofHead (by rw [since_plain hp]; exact before_es2015 a) (fun i hi => ?_) (fun e => ?_) ?_,
    .of_kind fun e => ?_⟩
  · cases i with
    | zero => exact href (Bool.and_eq_true _ _ ▸ hi).1
    | succ i => exact ref_of_getD hrest i
  · rw [e] at hp
    contradiction
  · exact List.forall_mem_cons.2 ⟨hfirst, fun x hx => (hrest x hx).good⟩
  · have hkind : h.kind = .ident := e
    rw [hkind] at hp
    contradiction

/-- A node with a key: the key is read only when it is computed. -/
theorem Fine.keyed {key : Node} {rest : List Node} {k : NodeKind} (hk : h.kind = k)
    (hkeyed : k = .objProp ∨ k = .method ∨ k = .property) (hkey : Good a key)
    (href : h.flags.computed = true → Ref a key) (hrest : ∀ x ∈ rest, Fine a x) :
    Fine a (.ofHead h (key :: rest)) := by
  refine .headed hk ?_ hkey (fun hr => href ?_) hrest
  · rcases hkeyed with rfl | rfl | rfl <;> rfl
  · rcases hkeyed with rfl | rfl | rfl <;> simpa [NodeKind.reads] using hr

/-- A part of an import or an export holds names that are not read. -/
theorem Fine.unread {k : NodeKind} (hk : h.kind = k) (hp : isPlain k = true)
    (hr : ∀ computed i, k.reads computed i = false) (hks : ∀ x ∈ ks, Good a x) :
    Fine a (.ofHead h ks) := by
  subst hk
  refine ⟨.ofHead (by rw [since_plain hp]; exact before_es2015 a) (fun i hi => ?_)
    (fun e => ?_) hks,
    .of_kind fun e => ?_⟩
  · have hread := (Bool.and_eq_true _ _ ▸ hi).1
    exact Bool.noConfusion ((hr _ i).symm.trans hread)
  · rw [e] at hp
    contradiction
  · have hkind : h.kind = .ident := e
    rw [hkind] at hp
    contradiction

/-- An object has no spread among its members, or may have one. -/
theorem Fine.objectOf (hk : h.kind = .object) (hks : ∀ k ∈ ks, Fine a k)
    (hs : a.version.before .es2018 = true → ∀ k ∈ ks, k.kind ≠ .spread) :
    Fine a (.ofHead h ks) := by
  refine .ofHead ?_ (by rw [hk]; decide) (by rw [hk]; decide) hks
  unfold Head.since
  split
  · exact before_es2015 a
  · simp only [hk]
    split
    · rename_i hany
      obtain ⟨k, hmem, hkind⟩ := List.any_eq_true.1 hany
      cases hv : a.version.before .es2018 with
      | false => rfl
      | true => exact absurd (beq_iff_eq.1 hkind) (hs hv k hmem)
    · exact before_es2015 a

/-- The node of a statement or a member with other flags. -/
theorem Fine.mapFlags {f : Flags → Flags} (hn : isPlain n.kind = true) (hx : Fine a n)
    (hf : (f n.flags).computed = n.flags.computed) : Fine a (n.mapFlags f) := by
  obtain ⟨hgood, href⟩ := hx
  cases hgood with
  | absent => exact .absent
  | @mk h ks ds hfit hks hds =>
    have hplain : isPlain ({ h with flags := f h.flags } : Head).kind = true := hn
    have hs := since_plain hplain ks
    refine ⟨.mk ⟨?_, fun i hi => hfit.reads i ?_, hfit.decos, hfit.specs⟩ hks hds, href⟩
    · show a.version.before (Head.since { h with flags := f h.flags } ks) = false
      rw [hs]
      exact before_es2015 a
    · rw [← hi]
      simp only [Node.readsAt, Node.kind, Node.head, Node.flags, Node.kid, Node.kids] at hf ⊢
      rw [hf]

theorem Fine.withDecos {ds : List Node} (hx : Fine a n) (hds : ∀ d ∈ ds, Fine a d) :
    Fine a (n.withDecos ds) := by
  obtain ⟨hgood, href⟩ := hx
  cases hgood with
  | absent => exact .absent
  | mk hfit hks _ =>
    refine ⟨.mk ⟨hfit.since, hfit.reads, ?_, hfit.specs⟩ hks fun d hd => (hds d hd).good, href⟩
    exact fun d hd => (hds d hd).ref

/-! ## What the rules promise -/

/-- A place from which code is lowered towards an aim. -/
structure Ctx (a : Aim) (c : Context) : Prop where
  version : c.target.level ≤ a.version.level
  scopes : ∀ s ∈ c.scopes, a.names s.name
  classic : a.elements → c.elements.runtime = .classic →
    a.names (rootName c.elements.factory) ∧ a.names (rootName c.elements.fragment)

/-- What the target has the version has. -/
theorem Ctx.before (hc : Ctx a c) {t : Target} (ht : c.target.before t = false) :
    a.version.before t = false := by
  have hle := hc.version
  simp only [Target.before, decide_eq_false_iff_not, Nat.not_lt] at ht ⊢
  exact Nat.le_trans ht hle

/-- Code of the source at a place. -/
structure At (a : Aim) (c : Context) (n : Node) : Prop where
  ctx : Ctx a c
  source : Source a n

theorem At.kid {k : NodeKind} (h : At a c n) (hn : n.kind = k) (i : Nat)
    (hi : enters k n.flags.computed i = true) : At a c (n.kid i) := ⟨h.ctx, h.source.kid hn i hi⟩

theorem At.kids {k : NodeKind} (h : At a c n) (hn : n.kind = k)
    (hi : ∀ i, enters k n.flags.computed i = true) {x : Node} (hx : x ∈ n.kids) : At a c x :=
  ⟨h.ctx, h.source.kids hn hi x hx⟩

theorem At.kids_drop {k : NodeKind} (h : At a c n) (hn : n.kind = k) (j : Nat)
    (hi : ∀ i, enters k n.flags.computed (i + j) = true) {x : Node} (hx : x ∈ n.kids.drop j) :
    At a c x := ⟨h.ctx, h.source.kids_drop hn j hi x hx⟩

theorem At.part {k : NodeKind} (h : At a c n) (hn : IsA k n) (i : Nat)
    (hi : enters k n.flags.computed i = true) : At a c (n.kid i) := ⟨h.ctx, h.source.part hn i hi⟩

theorem At.parts {k : NodeKind} (h : At a c n) (hn : IsA k n)
    (hi : ∀ i, enters k n.flags.computed i = true) {x : Node} (hx : x ∈ n.kids) : At a c x :=
  ⟨h.ctx, h.source.parts hn hi x hx⟩

/-- Whether a kind binds names. -/
def isBinding : NodeKind → Bool
  | .ident | .arrayPattern | .objectPattern => true
  | _ => false

/-- The rules lower code towards an aim. A pattern that binds names stays one. -/
structure Lowers (a : Aim) (g : Rules) : Prop where
  expr : ∀ c n, Yields c (At a c n) (g.expr n) (Fine a)
  absent : ∀ c, Yields c True (g.expr .absent) (· = .absent)
  this : ∀ c n, n.kind = .thisExpr → Yields c True (g.expr n) (Fine a)
  pattern : ∀ c assigns n, Yields c (At a c n) (g.pattern assigns n) fun r =>
    Fine a r ∧ (isBinding n.kind = true → r.isPresent = true)
  stmt : ∀ c n, Yields c (At a c n) (g.stmt n) fun rs => ∀ r ∈ rs, Fine a r
  namespaceDecl : ∀ c n exported, Yields c (At a c n ∧ n.kind = .namespaceDecl)
    (g.namespaceDecl n exported) fun rs => ∀ r ∈ rs, Fine a r

section

variable {g : Rules} {given : Prop} {β : Type} {Q : β → Prop}

theorem Lowers.exprOf (hg : Lowers a g) (h : given → At a c n) :
    Yields c given (g.expr n) (Fine a) := (hg.expr c n).under h

theorem Lowers.expr_then (hg : Lowers a g) {f : Node → LowerM β} (h : given → At a c n)
    (hf : ∀ r, Yields c (given ∧ Fine a r) (f r) Q) : Yields c given (g.expr n >>= f) Q :=
  .bind (hg.exprOf h) hf

theorem Lowers.exprs (hg : Lowers a g) {ks : List Node} (h : given → ∀ k ∈ ks, At a c k) :
    Yields c given (ks.mapM g.expr) fun rs => ∀ r ∈ rs, Fine a r :=
  .mapM fun k hk => hg.exprOf fun hgiven => h hgiven k hk

theorem Lowers.patternOf (hg : Lowers a g) {assigns : Bool} (h : given → At a c n) :
    Yields c given (g.pattern assigns n) (Fine a) :=
  ((hg.pattern c assigns n).under h).mono fun _ _ hr => hr.1

theorem Lowers.pattern_then (hg : Lowers a g) {assigns : Bool} {f : Node → LowerM β}
    (h : given → At a c n) (hf : ∀ r, Yields c (given ∧ Fine a r) (f r) Q) :
    Yields c given (g.pattern assigns n >>= f) Q := .bind (hg.patternOf h) hf

theorem Yields.target_then {t : Target} {f : Bool → LowerM β}
    (hf : Yields c given (f (c.target.before t)) Q) : Yields c given (targetBefore t >>= f) Q := hf

theorem Yields.error_then {span : Span} {code : Code} {message : Bytes} {f : Unit → LowerM β}
    (hf : Yields c False (f ()) Q) : Yields c given (errorAt span code message >>= f) Q :=
  .bind (yields_errorAt span code message) fun _ => hf.under And.right

end

end

end ScriptLower.Lower
