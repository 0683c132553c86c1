import ScriptLower.Proofs.Lower.Lists
import ScriptLower.Proofs.Tree.Grown

/-!
# Where the nodes of lowered code come from

A node of lowered code is a copy of one of the source, one that lowering makes itself, or the value
of a definition. So what is promised of lowered nodes by their kind and text has to be promised of
the copies of source nodes and of the values that stand for names of the source; the nodes that
lowering makes are of a few kinds only.

Exported declarations are a case of their own: in the body of a namespace they are replaced, and
elsewhere they stay. So where they may not stay, they have to stand in the body of a namespace.
-/

namespace ScriptLower

/-! ## Exported declarations in their place -/

/-- Whether children of nodes of the kind may be statements. -/
def NodeKind.holdsStatements : NodeKind → Bool
  | .program | .block | .caseClause | .ifStmt | .forStmt | .forIn | .forOf | .whileStmt | .doWhile
  | .withStmt | .labeled | .exportDecl | .namespaceDecl => true
  | _ => false

/-- Whether no child is an exported declaration. -/
def Node.exportsNothing (n : Node) : Bool := n.kids.all (·.kind != .exportDecl)

/-- Whether exported declarations stand only in blocks, blocks that have them only in namespaces,
and namespaces only among statements. -/
def Node.housesExports (n : Node) : Bool :=
  (n.kind == .block || n.exportsNothing) && n.decos.all (·.kind != .exportDecl)
    && (n.kind == .namespaceDecl || n.kids.all fun k => k.kind != .block || k.exportsNothing)
    && (n.kind.holdsStatements || n.kids.all (·.kind != .namespaceDecl))

namespace Lower

/-! ## What is asked of nodes -/

/-- Whether lowering makes nodes of a kind that are not in the source, wherever it stands. What it
copies from an absent node is of no kind. -/
def isMade : NodeKind → Bool
  | .invalid | .ident | .literal | .member | .index | .call | .paren | .assign | .binary | .unary
  | .conditional | .object | .objProp | .array | .spread | .thisExpr | .funcExpr | .params | .param
  | .block | .varDecl | .declarator | .exprStmt | .returnStmt | .empty | .importSpec => true
  | _ => false

/-- What is asked of the nodes of a source and of lowered code, by their kinds, texts and places. -/
structure Origin where
  /-- What is asked of a node of the source. -/
  source : NodeKind → Bytes → Span → Prop
  /-- What is asked of a node of lowered code. -/
  lowered : NodeKind → Bytes → Span → Prop
  /-- Whether exported declarations may stand anywhere. -/
  exports : Prop
  /-- The names that are replaced. -/
  defines : List Define
  /-- A copy is fine, of an exported declaration only where it may stand. -/
  copied : ∀ {k text span}, source k text span → (k = .exportDecl → exports) → lowered k text span
  /-- What lowering makes is fine. -/
  made : ∀ {k text span}, isMade k = true → lowered k text span
  /-- So is an exported declaration that lowering makes. -/
  wrapped : ∀ {span}, exports → lowered .exportDecl [] span
  /-- So is what stands for a name, at its place. -/
  replaced : ∀ {k name span} {d : Define}, source k name span → k = .ident ∨ k = .jsxName →
    defines.reverse.find? (·.name == name) = some d → lowered .raw d.value span

/-- Code of the source. -/
inductive From (p : Origin) : Node → Prop
  | absent : From p .absent
  | mk {h ks ds t a x} : p.source h.kind h.text h.span →
      (p.exports ∨ (Node.mk h ks ds t a x).housesExports = true) → h.isTagged ks = true →
      (∀ k ∈ ks, From p k) → (∀ d ∈ ds, From p d) → From p (.mk h ks ds t a x)

/-- Lowered code. Nothing of the type level is left of it. -/
inductive Made (p : Origin) : Node → Prop
  | absent : Made p .absent
  | mk {h ks ds} : p.lowered h.kind h.text h.span → (∀ k ∈ ks, Made p k) → (∀ d ∈ ds, Made p d) →
      Made p (.mk h ks ds .absent .absent .absent)

/-- No child is an exported declaration that may not stand there. -/
def Closed (p : Origin) (n : Node) : Prop := ∀ k ∈ n.kids, k.kind = .exportDecl → p.exports

/-- A part of a node that is no statement of it. -/
structure Part (p : Origin) (n : Node) : Prop where
  code : From p n
  closed : Closed p n
  plain : n.kind = .exportDecl → p.exports
  inner : p.exports ∨ n.kind ≠ .namespaceDecl

/-- The innermost scope is the body of a namespace. -/
def InNamespace (c : Context) : Prop := c.scopes.head?.map (·.kind) = some .namespaceBody

/-- A statement at a place where its exports are replaced or may stay. -/
structure Stands (p : Origin) (c : Context) (n : Node) : Prop where
  code : From p n
  closed : Closed p n
  placed : n.kind = .exportDecl → p.exports ∨ InNamespace c

section

variable {p : Origin} {c : Context} {n m k : Node} {ks ds : List Node} {h : Head} {span : Span}
  {kind : NodeKind}

/-! ## Code of the source -/

theorem From.mem (hn : From p n) (hk : k ∈ n.kids) : From p k := by
  cases hn with
  | absent => cases hk
  | mk _ _ _ hks _ => exact hks k hk

theorem From.deco (hn : From p n) (hk : k ∈ n.decos) : From p k := by
  cases hn with
  | absent => cases hk
  | mk _ _ _ _ hds => exact hds k hk

theorem From.kid (hn : From p n) (i : Nat) : From p (n.kid i) := by
  rcases kid_cases n i with hk | ⟨-, hk⟩
  · rw [hk]
    exact .absent
  · exact hn.mem hk

theorem From.source (hn : From p n) (hk : n.kind = kind) (hp : kind ≠ .invalid) :
    p.source n.kind n.text n.span := by
  cases hn with
  | absent => exact absurd hk.symm hp
  | mk hs _ _ _ _ => exact hs

/-- A copy of code is fine, when no exported declaration is copied where it may not stand. -/
theorem From.copied (hn : From p n) (ho : n.kind = .exportDecl → p.exports) :
    p.lowered n.kind n.text n.span := by
  cases hn with
  | absent => exact p.made rfl
  | mk hs _ _ _ _ => exact p.copied hs ho

theorem From.houses (hn : From p n) : p.exports ∨ n.housesExports = true := by
  cases hn with
  | absent => exact .inr rfl
  | mk _ ho _ _ _ => exact ho

theorem From.tagged (hn : From p n) (hk : n.kind = .jsxMemberName) :
    (n.kid 0).kind.isTagName = true := by
  cases hn with
  | absent => cases hk
  | @mk h _ _ _ _ _ _ _ htag _ _ =>
    have hk : h.kind = .jsxMemberName := hk
    simp only [Head.isTagged, hk, bne_self_eq_false, Bool.false_or] at htag
    exact htag

/-- What is read from a file is code of the source when this may be said of each of its nodes. -/
theorem from_of_grown {f : SourceFile} (hn : Grown f n)
    (hp : ∀ m ∈ n.walk, p.source m.kind m.text m.span ∧ (p.exports ∨ m.housesExports = true)) :
    From p n := by
  induction hn with
  | absent => exact .absent
  | @mk h ks ds t a x hself _ _ _ _ _ _ ihk ihd _ _ _ =>
    obtain ⟨hs, ho⟩ := hp _ (walk_self rfl)
    have htag : h.isTagged ks = true := (Bool.and_eq_true_iff.1 hself).2
    refine .mk hs ho htag (fun k hk => ihk k hk fun m hm => ?_) fun d hd => ihd d hd fun m hm => ?_
    · exact hp m (walk_of_kid hk hm)
    · exact hp m (walk_of_deco hd hm)

/-! ### Places of exported declarations -/

/-- Outside of blocks no exported declaration stands. -/
theorem closed_of_houses (hn : p.exports ∨ n.housesExports = true) (hk : n.kind ≠ .block) :
    Closed p n := by
  rcases hn with ho | ho
  · exact fun _ _ _ => ho
  · simp only [Node.housesExports, Node.exportsNothing, Bool.and_eq_true,
      Bool.or_eq_true, beq_iff_eq,
      List.all_eq_true, bne_iff_ne, ne_eq] at ho
    exact fun k hmem he => absurd he (ho.1.1.1.resolve_left hk k hmem)

/-- Only the body of a namespace has exported declarations. -/
theorem closed_mem_of_houses (hn : p.exports ∨ n.housesExports = true)
    (hi : p.exports ∨ n.kind ≠ .namespaceDecl) (hmem : k ∈ n.kids) (hk : From p k) :
    Closed p k := by
  by_cases hblock : k.kind = .block
  · rcases hn with ho | ho
    · exact fun _ _ _ => ho
    · rcases hi with hi | hi
      · exact fun _ _ _ => hi
      · simp only [Node.housesExports, Node.exportsNothing, Bool.and_eq_true, Bool.or_eq_true,
          beq_iff_eq, List.all_eq_true, bne_iff_ne, ne_eq] at ho
        have hall := (ho.1.2.resolve_left hi k hmem).resolve_left fun hne => hne hblock
        exact fun e he hkind => absurd hkind (hall e he)
  · exact closed_of_houses hk.houses hblock

theorem ne_of_holdsNothing (hs : n.kind.holdsStatements = false)
    (hk : kind.holdsStatements = true) :
    n.kind ≠ kind := by
  rintro rfl
  rw [hs] at hk
  cases hk

/-- The children of a node that holds no statements are parts of it. -/
theorem part_of_houses (hn : p.exports ∨ n.housesExports = true)
    (hs : n.kind.holdsStatements = false) (hmem : k ∈ n.kids) (hk : From p k) : Part p k where
  code := hk
  closed := closed_mem_of_houses hn (.inr (ne_of_holdsNothing hs rfl)) hmem hk
  plain := closed_of_houses hn (ne_of_holdsNothing hs rfl) k hmem
  inner := by
    rcases hn with ho | ho
    · exact .inl ho
    · simp only [Node.housesExports, Bool.and_eq_true, Bool.or_eq_true, List.all_eq_true,
        bne_iff_ne,
        ne_eq] at ho
      have hall := ho.2.resolve_left fun htrue => by rw [hs] at htrue; cases htrue
      exact .inr (hall k hmem)

theorem From.closed (hn : From p n) (hk : n.kind ≠ .block) : Closed p n :=
  closed_of_houses hn.houses hk

/-- No decorator is an exported declaration. -/
theorem From.deco_plain (hn : From p n) (hk : k ∈ n.decos) (he : k.kind = .exportDecl) :
    p.exports := by
  rcases hn.houses with ho | ho
  · exact ho
  · simp only [Node.housesExports, Bool.and_eq_true, List.all_eq_true, bne_iff_ne, ne_eq] at ho
    exact absurd he (ho.1.1.2 k hk)

theorem From.closed_mem (hn : From p n) (hi : p.exports ∨ n.kind ≠ .namespaceDecl)
    (hk : k ∈ n.kids) : Closed p k := closed_mem_of_houses hn.houses hi hk (hn.mem hk)

theorem From.part_mem (hn : From p n) (hs : n.kind.holdsStatements = false) (hk : k ∈ n.kids) :
    Part p k := part_of_houses hn.houses hs hk (hn.mem hk)

theorem Part.absent : Part p .absent where
  code := .absent
  closed := fun k hk => by cases hk
  plain := fun hk => by cases hk
  inner := .inr fun hk => by cases hk

theorem part_kid (hn : ∀ k ∈ n.kids, Part p k) (i : Nat) : Part p (n.kid i) := by
  rcases kid_cases n i with hk | ⟨-, hk⟩
  · rw [hk]
    exact .absent
  · exact hn _ hk

theorem From.part (hn : From p n) (hs : n.kind.holdsStatements = false) (i : Nat) :
    Part p (n.kid i) := part_kid (fun _ hk => hn.part_mem hs hk) i

theorem Closed.kid (hn : Closed p n) (i : Nat) (hk : (n.kid i).kind = .exportDecl) : p.exports := by
  rcases kid_cases n i with h0 | ⟨-, h0⟩
  · rw [h0] at hk
    cases hk
  · exact hn _ h0 hk

/-- A statement of a list stands in it when the list is not the body of a namespace. -/
theorem stands_mem (hn : From p n) (hc : Closed p n) (hi : p.exports ∨ n.kind ≠ .namespaceDecl)
    (hk : k ∈ n.kids) : Stands p c k where
  code := hn.mem hk
  closed := hn.closed_mem hi hk
  placed := fun he => .inl (hc k hk he)

theorem Part.stands_mem (hn : Part p n) (hk : k ∈ n.kids) : Stands p c k :=
  Lower.stands_mem hn.code hn.closed hn.inner hk

theorem Part.stands (hn : Part p n) : Stands p c n :=
  ⟨hn.code, hn.closed, fun he => .inl (hn.plain he)⟩

theorem stands_absent : Stands p c .absent := Part.absent.stands

/-- A statement below another one that is not a list. -/
theorem From.stands (hn : From p n) (hb : n.kind ≠ .block) (hi : n.kind ≠ .namespaceDecl)
    (i : Nat) :
    Stands p c (n.kid i) := by
  rcases kid_cases n i with hk | ⟨-, hk⟩
  · rw [hk]
    exact stands_absent
  · exact stands_mem hn (hn.closed hb) (.inr hi) hk

/-! ## Lowered code -/

theorem made_ofHead :
    Made p (.ofHead h ks) ↔ p.lowered h.kind h.text h.span ∧ ∀ k ∈ ks, Made p k := by
  constructor
  · rintro ⟨⟩
    exact ⟨‹_›, ‹_›⟩
  · rintro ⟨hh, hks⟩
    exact .mk hh hks (by simp)

theorem Made.new (hk : isMade kind = true) (hks : ∀ k ∈ ks, Made p k) :
    Made p (.new kind span ks) :=
  made_ofHead.2 ⟨p.made hk, hks⟩

theorem Made.newOp {op : TokenKind} (hk : isMade kind = true) (hks : ∀ k ∈ ks, Made p k) :
    Made p (.newOp kind op span ks) := made_ofHead.2 ⟨p.made hk, hks⟩

theorem Made.newText {text : Bytes} (hk : isMade kind = true) : Made p (.newText kind span text) :=
  made_ofHead.2 ⟨p.made hk, by simp⟩

@[simp] theorem made_absent : Made p .absent := .absent

@[simp] theorem made_ident {name : Bytes} : Made p (.ident name span) := .newText rfl

@[simp] theorem made_marked {name : Bytes} {mark : Nat} : Made p (.marked name mark) :=
  made_ofHead.2 ⟨p.made rfl, by simp⟩

@[simp] theorem made_literal {op : TokenKind} {raw : Bytes} : Made p (.literal op raw span) :=
  made_ofHead.2 ⟨p.made rfl, by simp⟩

@[simp] theorem made_keyword {op : TokenKind} : Made p (.keyword op span) := made_literal

@[simp] theorem made_number {raw : Bytes} : Made p (number raw span) := made_literal

@[simp] theorem made_string {value : Bytes} : Made p (string value span) := made_literal

@[simp] theorem made_this : Made p (.new .thisExpr span []) := .new rfl (by simp)

@[simp] theorem made_void0 : Made p (void0 span) := .newOp rfl (by simp)

theorem Made.member (name : Bytes) (span : Span) (hn : Made p n) : Made p (.member n name span) :=
  .new rfl (by simp [hn])

theorem Made.call (span : Span) (hn : Made p n) (hks : ∀ k ∈ ks, Made p k) :
    Made p (.call span n ks) :=
  .new rfl (List.forall_mem_cons.2 ⟨hn, hks⟩)

theorem Made.assign (span : Span) (hn : Made p n) (hm : Made p m) : Made p (assign span n m) :=
  .newOp rfl (by simp [hn, hm])

theorem Made.bin {op : TokenKind} (span : Span) (hn : Made p n) (hm : Made p m) :
    Made p (bin span op n m) := .newOp rfl (by simp [hn, hm])

theorem Made.paren (hn : Made p n) : Made p (paren n) := .new rfl (by simp [hn])

theorem Made.declarator (span : Span) (hn : Made p n) : Made p (declarator span n) :=
  .new rfl (by simp [hn])

theorem Made.exprStmt (span : Span) (hn : Made p n) : Made p (.new .exprStmt span [n]) :=
  .new rfl (by simp [hn])

theorem Made.varDecl {keyword : String} (span : Span) (hks : ∀ k ∈ ks, Made p k) :
    Made p (varDecl keyword span ks) := by
  show Made p (.ofHead _ ks)
  exact made_ofHead.2 ⟨p.made rfl, hks⟩

@[simp] theorem made_dotted {name : Bytes} : Made p (dotted name span) := by
  have hfold (parts : List Bytes) (base : Node) (hb : Made p base) :
      Made p (parts.foldl (fun obj part => .member obj part span) base) := by
    induction parts generalizing base with
    | nil => exact hb
    | cons part parts ih => exact ih _ (hb.member part span)
  unfold dotted
  split
  · exact made_ident
  · refine hfold _ _ ?_
    split
    · exact made_this
    · exact made_ident

@[simp] theorem made_qualified {s : Scope} {name : Bytes} : Made p (qualified s name span) :=
  .new rfl (by simp)

/-! ### Copies -/

theorem From.like (hn : From p n) (ho : n.kind = .exportDecl → p.exports)
    (hks : ∀ k ∈ ks, Made p k) : Made p (Lower.like n ks) := made_ofHead.2 ⟨hn.copied ho, hks⟩

/-- A copy of a node of a kind that is not exported declarations. -/
theorem From.likeOf (hn : From p n) (hk : n.kind = kind) (hne : kind ≠ .exportDecl)
    (hks : ∀ k ∈ ks, Made p k) : Made p (Lower.like n ks) :=
  hn.like (fun he => absurd (hk.symm.trans he) hne) hks

theorem Part.like (hn : Part p n) (hks : ∀ k ∈ ks, Made p k) : Made p (Lower.like n ks) :=
  hn.code.like hn.plain hks

theorem From.leaf (hn : From p n) (ho : n.kind = .exportDecl → p.exports) : Made p (Lower.leaf n) :=
  made_ofHead.2 ⟨hn.copied ho, by simp⟩

theorem From.leafOf (hn : From p n) (hk : n.kind = kind) (hne : kind ≠ .exportDecl) :
    Made p (Lower.leaf n) := hn.leaf fun he => absurd (hk.symm.trans he) hne

theorem Part.leaf (hn : Part p n) : Made p (Lower.leaf n) := hn.code.leaf hn.plain

theorem Part.leaf? (hn : Part p n) : Made p (Lower.leaf? n) := by
  unfold Lower.leaf?
  split
  · exact .absent
  · exact hn.leaf

theorem Made.mapFlags {f : Flags → Flags} (hn : Made p n) : Made p (n.mapFlags f) := by
  cases hn with
  | absent => exact .absent
  | mk hh hks hds => exact .mk hh hks hds

theorem Made.withDecos (hn : Made p n) (hds : ∀ d ∈ ds, Made p d) : Made p (n.withDecos ds) := by
  cases hn with
  | absent => exact .absent
  | mk hh hks _ => exact .mk hh hks hds

theorem Made.mem (hn : Made p n) (hk : k ∈ n.kids) : Made p k := by
  cases hn with
  | absent => cases hk
  | mk _ hks _ => exact hks k hk

theorem Made.deco (hn : Made p n) (hk : k ∈ n.decos) : Made p k := by
  cases hn with
  | absent => cases hk
  | mk _ _ hds => exact hds k hk

theorem Made.kid (hn : Made p n) (i : Nat) : Made p (n.kid i) := by
  rcases kid_cases n i with hk | ⟨-, hk⟩
  · rw [hk]
    exact .absent
  · exact hn.mem hk

theorem made_flatten {rss : List (List Node)} (h : ∀ rs ∈ rss, ∀ r ∈ rs, Made p r) :
    ∀ r ∈ rss.flatten, Made p r := by
  intro r hr
  obtain ⟨rs, hrs, hr⟩ := List.mem_flatten.1 hr
  exact h rs hrs r hr

/-! ### What is put in front -/

theorem IsTempDecl.made (h : IsTempDecl n) : Made p n := by
  obtain ⟨decls, rfl, hdecls⟩ := h
  refine .varDecl _ fun d hd => ?_
  obtain ⟨x, mark, rfl⟩ := hdecls d hd
  exact made_marked.declarator _

/-- An import of helpers is new below the import itself. -/
theorem IsHelperImport.eq_new (h : IsHelperImport n) :
    ∃ ks, n = .new .importDecl {} ks ∧ ∀ k ∈ ks, Made p k := by
  obtain ⟨source, specs, rfl, hspecs⟩ := h
  have hsource (h : Head) (hk : isMade h.kind = true) : Made p (.ofHead h []) :=
    made_ofHead.2 ⟨p.made hk, by simp⟩
  refine ⟨_, rfl, List.forall_mem_cons.2 ⟨hsource _ rfl, List.forall_mem_cons.2 ⟨.absent, ?_⟩⟩⟩
  intro spec hspec
  obtain ⟨name, x, mark, rfl⟩ := hspecs spec hspec
  exact .new rfl (by simp)

/-! ### All nodes -/

/-- What is promised of the nodes of lowered code holds of all of them. -/
theorem Made.walk (hn : Made p n) : ∀ m ∈ n.walk, p.lowered m.kind m.text m.span := by
  induction hn with
  | absent => simp [Node.walk]
  | mk hh _ _ ihk ihd =>
    intro m hm
    simp only [Node.walk, List.mem_cons, List.mem_append, List.not_mem_nil, or_false] at hm
    rcases hm with rfl | hm | hm
    · exact hh
    · obtain ⟨k, hk, hm⟩ := mem_walkAll hm
      exact ihk k hk m hm
    · obtain ⟨d, hd, hm⟩ := mem_walkAll hm
      exact ihd d hd m hm

end

/-! ## Rules -/

/-- The rules lower code to code. -/
structure Emits (p : Origin) (g : Rules) : Prop where
  expr : ∀ {c given n}, c.defines = p.defines → From p n → Yields c given (g.expr n) (Made p)
  pattern : ∀ {c given n} assigns, c.defines = p.defines → From p n →
    Yields c given (g.pattern assigns n) (Made p)
  stmt : ∀ {c given n}, c.defines = p.defines → Stands p c n →
    Yields c given (g.stmt n) fun rs => ∀ r ∈ rs, Made p r
  namespaceDecl : ∀ {c given n} exported, c.defines = p.defines → From p n →
    n.kind = .namespaceDecl →
    (exported = true → p.exports ∨ InNamespace c) →
    Yields c given (g.namespaceDecl n exported) fun rs => ∀ r ∈ rs, Made p r

section

variable {p : Origin} {c : Context} {n : Node} {g : Rules} {given : Prop} {span : Span}

theorem Emits.exprs {ns : List Node} (hg : Emits p g) (hc : c.defines = p.defines)
    (hns : ∀ n ∈ ns, From p n) : Yields c given (ns.mapM g.expr) fun rs => ∀ r ∈ rs, Made p r :=
  .mapM fun n hn => hg.expr hc (hns n hn)

/-! ## New names -/

theorem yields_ref_made (p : Origin) (mark : Nat) : Yields c given (ref mark) (Made p) :=
  fun s => ⟨Nat.le_refl s.errors, fun _ _ => made_marked⟩

theorem yields_withTemps_made {stmts : List Node} {temps : List Nat}
    (hs : given → ∀ x ∈ stmts, Made p x) :
    Yields c given (withTemps stmts temps) fun rs => ∀ r ∈ rs, Made p r := by
  refine (yields_withTemps_mem stmts temps).mono fun rs hgiven h r hr => ?_
  rcases h.2 r hr with hr | hr
  · exact hs hgiven r hr
  · exact hr.made

/-- A name is read from an object, replaced or copied. -/
theorem yields_nameRef_made {kind : NodeKind} (hc : c.defines = p.defines)
    (hs : p.source kind n.text n.span) (hk : kind = .ident ∨ kind = .jsxName)
    (hn : Made p (leaf n)) :
    Yields c given (nameRef n) (Made p) := by
  refine .bind (R := fun _ => True) (fun s => ⟨Nat.le_refl s.errors, fun _ _ => trivial⟩)
    fun o => ?_
  split
  · exact .pure fun _ => made_qualified
  · refine .bind (R := fun o => o = c.defines.reverse.find? (·.name == n.text))
      (fun s => ⟨Nat.le_refl s.errors, fun _ _ => rfl⟩) fun o => ?_
    split
    · rename_i d
      refine .pure fun h => ?_
      split
      · have hraw : Made p (.newText .raw n.span d.value) :=
          made_ofHead.2 ⟨p.replaced hs hk (hc ▸ h.2.symm), by simp⟩
        unfold Define.replacement
        split
        · exact hraw
        · exact .new rfl (by simpa using hraw)
      · exact hn
    · exact .pure fun _ => hn

/-! ## Captured operands -/

/-- Both uses of a captured expression are lowered code. -/
structure Captured.Made (p : Origin) (k : Captured) : Prop where
  first : Lower.Made p k.first
  again : Lower.Made p k.again

theorem yields_capture_made (hn : given → Made p n) :
    Yields c given (capture n) (Captured.Made p) := by
  refine .branch (fun hr => .pure fun h => ⟨hn h, made_ofHead.2 ⟨?_, by simp⟩⟩) fun _ => ?_
  · refine p.made ?_
    simp only [isRepeatable, Bool.or_eq_true, Bool.and_eq_true, beq_iff_eq] at hr
    rcases hr with ⟨hk, -⟩ | hk <;> rw [hk] <;> rfl
  · refine .bind yields_temp fun m => .bind (yields_ref_made p m) fun stored => .pure fun h => ?_
    exact ⟨.paren (.assign _ h.2 (hn h.1.1)), h.2⟩

theorem made_mathPow {x y : Node} (hx : Made p x) (hy : Made p y) : Made p (mathPow span x y) :=
  .call _ made_dotted (by simp [hx, hy])

theorem made_nullTest {k : Captured} {join compare : TokenKind} (hk : k.Made p) :
    Made p (nullTest span join compare k) :=
  .bin _ (.bin _ hk.first made_keyword) (.bin _ hk.again made_void0)

theorem yields_lowerNullish_made {left : Node} {right : LowerM Node} (hl : given → Made p left)
    (hr : Yields c given right (Made p)) :
    Yields c given (lowerNullish span left right) (Made p) := by
  refine .bind (yields_capture_made hl) fun k => .bind (hr.under And.left) fun r =>
    .pure fun h => ?_
  exact .new rfl (by simp [made_nullTest h.1.2, h.1.2.again, h.2])

/-! ## Assignment targets -/

theorem memberAccess_made {k : Captured} (hk : k.Made p) (prop : Bytes) :
    (memberAccess span k prop).Made p := ⟨hk.first.member _ _, hk.again.member _ _⟩

theorem indexAccess_made {obj key : Captured} (ho : obj.Made p) (hk : key.Made p) :
    (indexAccess span obj key).Made p :=
  ⟨.new rfl (by simp [ho.first, hk.first]), .new rfl (by simp [ho.again, hk.again])⟩

mutual

theorem yields_access?_made (hg : Emits p g) (hc : c.defines = p.defines) :
    ∀ n, From p n → Yields c given (access? g n) fun o => ∀ k ∈ o, k.Made p
  | .absent, _ => .pure fun _ => by simp
  | .mk h ks ds t x y, hn => by
    unfold access?
    extract_lets m
    split
    case h_1 | h_2 | h_3 | h_4 | h_5 =>
      exact yields_accessFirst?_made hg hc ks (kid_zero h ks ds t x y ▸ hn.kid 0)
    case h_6 hk =>
      refine .bind (R := fun _ => True) (fun s => ⟨Nat.le_refl s.errors, fun _ _ => trivial⟩)
        fun o => ?_
      split
      · refine .bind (yields_capture_made (p := p) fun _ => made_ident) fun k => .pure fun h => ?_
        simpa using memberAccess_made h.2 _
      · have hleaf : Made p (leaf m) := hn.leafOf hk (by simp)
        exact .pure fun _ => by simpa using ⟨hleaf, hleaf⟩
    case h_7 hk =>
      refine .branch (fun _ => .pure fun _ => by simp) fun _ => ?_
      refine .bind (hg.expr hc (hn.kid 0)) fun obj => ?_
      refine .bind (yields_capture_made And.right) fun k => .pure fun h => ?_
      simpa using memberAccess_made h.2 _
    case h_8 hk =>
      refine .bind (hg.expr hc (hn.kid 0)) fun obj =>
        .bind (yields_capture_made And.right) fun obj => ?_
      refine .bind (hg.expr hc (hn.kid 1)) fun key => ?_
      refine .bind (yields_capture_made And.right) fun key => .pure fun h => ?_
      simpa using indexAccess_made h.1.1.2 h.2
    case h_9 => exact .pure fun _ => by simp

theorem yields_accessFirst?_made (hg : Emits p g) (hc : c.defines = p.defines) :
    ∀ ks : List Node, From p (ks.headD .absent) →
      Yields c given (accessFirst? g ks) fun o => ∀ k ∈ o, k.Made p
  | [], _ => .pure fun _ => by simp
  | n :: _, hn => yields_access?_made hg hc n hn

end

/-- An assignment whose target cannot be split is reported. -/
theorem yields_keepAssignment_made {P : Node → Prop} (hg : Emits p g) (hc : c.defines = p.defines)
    (hn : From p n) : Yields c given (keepAssignment g n) P := by
  refine .error_then (.bind (hg.pattern true hc (hn.kid 0)) fun _ => ?_)
  exact .bind (hg.expr hc (hn.kid 1)) fun _ => .pure fun h => h.1.1.elim

theorem yields_lowerPowerAssign_made (hg : Emits p g) (hc : c.defines = p.defines) (hn : From p n) :
    Yields c given (lowerPowerAssign g n) (Made p) := by
  refine .bind (yields_access?_made hg hc _ (hn.kid 0)) fun o => ?_
  split
  · exact yields_keepAssignment_made hg hc hn
  · refine .bind (hg.expr hc (hn.kid 1)) fun value => .pure fun h => ?_
    have hacc := h.1.2 _ rfl
    exact .assign _ hacc.first (made_mathPow hacc.again h.2)

theorem yields_lowerLogicalAssign_made (hg : Emits p g) (hc : c.defines = p.defines)
    (hn : From p n) :
    Yields c given (lowerLogicalAssign g n) (Made p) := by
  refine .bind (yields_access?_made hg hc _ (hn.kid 0)) fun o => ?_
  split
  · exact yields_keepAssignment_made hg hc hn
  · rename_i acc
    extract_lets set
    have hset : Yields c (given ∧ ∀ k ∈ some acc, k.Made p) set (Made p) := by
      refine .bind (hg.expr hc (hn.kid 1)) fun value => .pure fun h => ?_
      exact .paren (.assign _ (h.1.2 _ rfl).again h.2)
    split
    · exact .bind hset fun r => .pure fun h => .bin _ (h.1.2 _ rfl).first h.2
    · exact .bind hset fun r => .pure fun h => .bin _ (h.1.2 _ rfl).first h.2
    · refine .target_then (.branch (fun _ => ?_) fun _ => ?_)
      · exact yields_lowerNullish_made (fun h => (h.2 _ rfl).first) hset
      · exact .bind hset fun r => .pure fun h => .bin _ (h.1.2 _ rfl).first h.2

/-! ## Optional chains -/

/-- The links of a chain, and the code it begins with. -/
def LinksFrom (p : Origin) (r : Node × List Node) : Prop :=
  From p r.1 ∧ ∀ link ∈ r.2, From p link ∧
    (link.kind = .member ∨ link.kind = .index ∨ link.kind = .call)

mutual

theorem linksFrom_chainOf : ∀ n, From p n → LinksFrom p (chainOf n)
  | .absent, _ => ⟨.absent, by simp [chainOf]⟩
  | .mk h ks ds t x y, hn => by
    have hfirst : LinksFrom p (chainOfFirst ks) :=
      linksFrom_chainOfFirst ks (kid_zero h ks ds t x y ▸ hn.kid 0)
    unfold chainOf
    split
    case h_1 hk | h_2 hk | h_3 hk =>
      exact ⟨hfirst.1, List.forall_mem_append.2 ⟨hfirst.2, List.forall_mem_singleton.2
        ⟨hn, by simp [Node.kind, Node.head, hk]⟩⟩⟩
    case h_4 => exact hfirst
    case h_5 => exact ⟨hn, by simp⟩

theorem linksFrom_chainOfFirst :
    ∀ ks : List Node, From p (ks.headD .absent) → LinksFrom p (chainOfFirst ks)
  | [], _ => ⟨.absent, by simp [chainOfFirst]⟩
  | n :: _, hn => linksFrom_chainOf n hn

end

/-- The parts of a chain in the making are lowered code. -/
structure Chain.Made (p : Origin) (k : Chain) : Prop where
  value : Lower.Made p k.value
  tests : ∀ t ∈ k.tests, Lower.Made p t
  receiver : ∀ r ∈ k.receiver, Lower.Made p r

theorem yields_guard_made {k : Chain} (hk : given → k.Made p) :
    Yields c given (k.guard span) (Chain.Made p) := by
  refine .bind (yields_capture_made fun h => (hk h).value) fun v => .pure fun h => ?_
  refine ⟨h.2.again, List.forall_mem_append.2 ⟨(hk h.1).tests, ?_⟩, (hk h.1).receiver⟩
  exact List.forall_mem_singleton.2 (made_nullTest h.2)

theorem yields_chainRead_made {k : Chain} {link : Node} {callFollows : Bool} (hg : Emits p g)
    (hc : c.defines = p.defines) (hlink : From p link)
    (hkind : link.kind = .member ∨ link.kind = .index) (hk : given → k.Made p) :
    Yields c given (k.read g link callFollows) (Chain.Made p) := by
  have hpart : link.kind.holdsStatements = false := by rcases hkind with hl | hl <;> rw [hl] <;> rfl
  have hmade : isMade link.kind = true := by rcases hkind with hl | hl <;> rw [hl] <;> rfl
  refine .either (R := fun o : Option Captured => ∀ x ∈ o, x.Made p) (fun _ => .map ?_)
    (fun _ => .pure fun _ => by simp) fun o => ?_
  · exact (yields_capture_made fun h => (hk h).value).mono fun x _ hx => by simpa using hx
  refine .either (R := Made p) (fun _ => .pure fun _ => (hlink.part hpart 1).leaf)
    (fun _ => hg.expr hc (hlink.kid 1)) fun prop => ?_
  split
  · refine .pure fun h => ?_
    have ho := h.1.2 _ rfl
    exact ⟨.new hmade (by simp [ho.first, h.2]), (hk h.1.1).tests, by simpa using ho.again⟩
  · refine .pure fun h => ?_
    exact ⟨.new hmade (by simp [(hk h.1.1).value, h.2]), (hk h.1.1).tests, (hk h.1.1).receiver⟩

theorem yields_chainCall_made {k : Chain} {link : Node} (hg : Emits p g)
    (hc : c.defines = p.defines)
    (hlink : From p link) (hk : given → k.Made p) :
    Yields c given (k.call g link) (Chain.Made p) := by
  refine .bind (hg.exprs hc fun x hx => hlink.mem (List.mem_of_mem_drop hx)) fun args => ?_
  split
  · rename_i this _ hthis
    refine .pure fun h => ⟨.call _ ((hk h.1).value.member _ _) ?_, (hk h.1).tests, by simp⟩
    exact List.forall_mem_cons.2 ⟨(hk h.1).receiver _ hthis, h.2⟩
  · exact .pure fun h => ⟨.call _ (hk h.1).value h.2, (hk h.1).tests, (hk h.1).receiver⟩

theorem yields_follow_made {links : List Node} (hg : Emits p g) (hc : c.defines = p.defines)
    (hlinks : ∀ link ∈ links, From p link ∧
      (link.kind = .member ∨ link.kind = .index ∨ link.kind = .call)) :
    ∀ {k : Chain} {given : Prop}, (given → k.Made p) →
      Yields c given (Chain.follow g span k links) (Chain.Made p) := by
  induction links with
  | nil => exact fun hk => .pure hk
  | cons link rest ih =>
    intro k given hk
    obtain ⟨⟨hlink, hkind⟩, hrest⟩ := List.forall_mem_cons.1 hlinks
    refine .either (fun _ => yields_guard_made hk) (fun _ => .pure hk) fun k' => ?_
    refine .either (R := Chain.Made p) (fun _ => yields_chainCall_made hg hc hlink And.right)
      (fun hcall => yields_chainRead_made hg hc hlink ?_ And.right) fun k'' => ?_
    · rcases hkind with hl | hl | hl
      · exact .inl hl
      · exact .inr hl
      · exact absurd (beq_iff_eq.2 hl) hcall
    · exact ih hrest And.right

theorem made_tests {tests : List Node} {short value : Node} (ht : ∀ t ∈ tests, Made p t)
    (hs : Made p short) (hv : Made p value) :
    Made p (tests.foldr (fun test rest => .new .conditional span [test, short, rest]) value) := by
  induction tests with
  | nil => exact hv
  | cons t ts ih =>
    obtain ⟨hfirst, hrest⟩ := List.forall_mem_cons.1 ht
    exact .new rfl (by simpa using ⟨hfirst, hs, ih hrest⟩)

theorem yields_lowerChain_made (hg : Emits p g) (hc : c.defines = p.defines) (hn : From p n)
    (deletes : Bool) : Yields c given (lowerChain g n deletes) (Made p) := by
  obtain ⟨hbase, hlinks⟩ := linksFrom_chainOf _ (hn.kid 0)
  unfold lowerChain
  refine .bind (hg.expr hc hbase) fun base => ?_
  refine .bind (yields_follow_made hg hc hlinks fun h => ⟨h.2, by simp, by simp⟩) fun k => ?_
  refine .pure fun h => made_tests h.2.tests ?_ ?_
  · split
    · exact made_keyword
    · exact made_void0
  · split
    · exact .newOp rfl (by simpa using h.2.value)
    · exact h.2.value

/-! ## Spreads in objects -/

theorem made_spreadGroups {props : List Node} (hp : ∀ x ∈ props, Made p x) :
    (∀ x ∈ (spreadGroups span props).1, Made p x) ∧ ∀ x ∈ (spreadGroups span props).2,
    Made p x := by
  induction props with
  | nil => simp [spreadGroups]
  | cons x r ih =>
    obtain ⟨hx, hr⟩ := List.forall_mem_cons.1 hp
    obtain ⟨hgroup, hargs⟩ := ih hr
    rw [spreadGroups]
    dsimp only
    split
    · refine ⟨by simp, List.forall_mem_cons.2 ⟨hx.kid 0, ?_⟩⟩
      split
      · exact hargs
      · exact List.forall_mem_cons.2 ⟨.new rfl hgroup, hargs⟩
    · exact ⟨List.forall_mem_cons.2 ⟨hx, hgroup⟩, hargs⟩

theorem made_lowerObjectSpread {props : List Node} (hp : ∀ x ∈ props, Made p x) :
    Made p (lowerObjectSpread span props) := by
  have hgroup : ∀ x ∈ (spreadGroups span props).1, Made p x := (made_spreadGroups hp).1
  have hargs : ∀ x ∈ (spreadGroups span props).2, Made p x := (made_spreadGroups hp).2
  refine .call _ made_dotted ?_
  split
  · exact List.forall_mem_cons.2 ⟨.new rfl (by simp), hargs⟩
  · exact List.forall_mem_cons.2 ⟨.new rfl hgroup, hargs⟩

end

end Lower

end ScriptLower
