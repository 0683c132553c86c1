import ScriptLower.Proofs.Tree.Places

/-!
# Trees read from a file

Every node of a tree that a file is read into names no place, or one inside the file that does not
end before it starts. Here this is said of all nodes, those of types included, together with what
else holds of every node of a source: the tree is tidy, children are of the kinds that the grammar
allows, an exported declaration has a place of its own, and no text is put in as it is.
-/

/-!
## Trees of a source

A tree that a source is read into has no generated name in it, and what handles the errors of a
statement is a handler. Both are said of what runs, the children and decorators: types are erased
before anything is made of them.
-/

namespace ScriptLower

/-- Whether a node with such a head and such children may stand in a source. -/
def Head.isTidy (h : Head) (kids : List Node) : Bool :=
  h.mark == 0 && (h.kind != .tryStmt || (kids.getD 1 .absent).isAbsent
    || (kids.getD 1 .absent).kind == .catchClause)

/-- A tree of a source. -/
inductive Tidy : Node → Prop
  | absent : Tidy .absent
  | mk {h ks ds t a x} : h.isTidy ks = true → (∀ k ∈ ks, Tidy k) → (∀ d ∈ ds, Tidy d) →
      Tidy (.mk h ks ds t a x)

/-- Trees of a source. -/
def TidyAll (ns : List Node) : Prop := ∀ n ∈ ns, Tidy n

section

variable {n : Node} {ns : List Node}

@[simp] theorem tidyAll_nil : TidyAll [] := fun _ h => by cases h

@[simp] theorem tidyAll_cons : TidyAll (n :: ns) ↔ Tidy n ∧ TidyAll ns := List.forall_mem_cons

theorem Tidy.kids (h : Tidy n) : TidyAll n.kids := by
  cases h with
  | absent => exact tidyAll_nil
  | mk _ hks _ => exact hks

theorem Tidy.mem (h : Tidy n) {k : Node} (hk : k ∈ n.kids) : Tidy k := h.kids k hk

theorem Tidy.deco (h : Tidy n) {d : Node} (hd : d ∈ n.decos) : Tidy d := by
  cases h with
  | absent => cases hd
  | mk _ _ hds => exact hds d hd

theorem Tidy.kid (h : Tidy n) (i : Nat) : Tidy (n.kid i) := by
  unfold Node.kid
  rw [List.getD_eq_getElem?_getD]
  cases hi : n.kids[i]? with
  | none => exact .absent
  | some k => exact h.mem (List.mem_of_getElem? hi)

theorem Tidy.drop (h : Tidy n) {k : Node} {i : Nat} (hk : k ∈ n.kids.drop i) : Tidy k :=
  h.mem (List.mem_of_mem_drop hk)

theorem Tidy.mark (h : Tidy n) : n.mark = 0 := by
  cases h with
  | absent => rfl
  | mk hself _ _ =>
    rw [Head.isTidy, Bool.and_eq_true, beq_iff_eq] at hself
    exact hself.1

theorem Tidy.handler (h : Tidy n) (hk : n.kind = .tryStmt) (hp : (n.kid 1).isPresent = true) :
    (n.kid 1).kind = .catchClause := by
  cases h with
  | absent => cases hk
  | @mk head ks _ _ _ _ hself _ _ =>
    have hkind : head.kind = .tryStmt := hk
    have hhandler : (ks.getD 1 .absent).isPresent = true := hp
    have hcheck := (Bool.and_eq_true_iff.1 hself).2
    rw [hkind, Node.isAbsent, hhandler] at hcheck
    exact beq_iff_eq.1 hcheck

mutual

theorem Tidy.unparen : ∀ n, Tidy n → Tidy n.unparen
  | .absent, h => h
  | .mk head ks ds t a y, h => by
    unfold Node.unparen
    split
    · exact Tidy.unparenFirst ks h.kids
    · exact h

theorem Tidy.unparenFirst : ∀ ks, TidyAll ks → Tidy (Node.unparenFirst ks)
  | [], _ => .absent
  | n :: _, h => Tidy.unparen n (tidyAll_cons.1 h).1

end

end

end ScriptLower

namespace ScriptLower

/-- Whether a span names no place, or one inside the file that does not end before it starts. -/
def SourceFile.spans (f : SourceFile) (s : Span) : Bool :=
  s == {} || s.file == f.id && f.base ≤ s.start && s.start ≤ s.stop && s.stop ≤ f.stop

/-- Whether nodes of the kind that fit are read from the file when their children are. -/
def NodeKind.isCommon (k : NodeKind) : Bool :=
  k != .tryStmt && k != .raw && k != .jsxMemberName && k != .exportDecl

/-- Whether the grammar allows nodes of the kind any children. -/
def NodeKind.isLoose : NodeKind → Bool
  | .object | .objectPattern | .params | .varDecl | .funcDecl | .funcExpr | .method | .arrow
  | .staticBlock | .classDecl | .classExpr | .tryStmt | .catchClause | .switchStmt | .importDecl
  | .exportNamed | .enumDecl | .namespaceDecl | .jsxElement | .jsxFragment | .jsxAttrs
  | .jsxMemberName | .importEquals => false
  | _ => true

/-- Whether nodes of the kind are made without a look at their children. -/
def NodeKind.isPlain (k : NodeKind) : Bool := k.isCommon && k.isLoose

/-- Whether nodes of the kind are the names of tags. -/
def NodeKind.isTagName (k : NodeKind) : Bool := k == .jsxName || k == .jsxMemberName

/-- Whether a dotted tag begins with a tag. -/
def Head.isTagged (h : Head) (kids : List Node) : Bool :=
  h.kind != .jsxMemberName || (kids.getD 0 .absent).kind.isTagName

/-- Whether an exported declaration begins in the file. -/
def Head.isPlaced (f : SourceFile) (h : Head) (kids : List Node) : Bool :=
  h.kind != .exportDecl || f.base ≤ (kids.getD 0 .absent).span.start

/-- Whether a node with such a head and such children may stand in a tree read from a file. -/
def Head.grows (f : SourceFile) (h : Head) (kids : List Node) : Bool :=
  (f.spans h.span && h.isPlaced f kids) && h.kind != .raw && h.isTidy kids && h.isTagged kids

/-- A tree read from a file. -/
inductive Grown (f : SourceFile) : Node → Prop
  | absent : Grown f .absent
  | mk {h ks ds t a x} : h.grows f ks = true → placed (.mk h ks ds t a x) = true →
      (∀ k ∈ ks, Grown f k) → (∀ d ∈ ds, Grown f d) → Grown f t → Grown f a → Grown f x →
      Grown f (.mk h ks ds t a x)

/-- Trees read from a file. -/
def GrownAll (f : SourceFile) (ns : List Node) : Prop := ∀ n ∈ ns, Grown f n

/-! ## Spans -/

section

variable {f : SourceFile} {s t : Span}

theorem SourceFile.spans_iff : f.spans s = true ↔ s = {} ∨
    s.file = f.id ∧ f.base ≤ s.start ∧ s.start ≤ s.stop ∧ s.stop ≤ f.stop := by
  simp [SourceFile.spans, and_assoc]

/-- A span that names a place names one inside the file. -/
theorem SourceFile.inside_of_spans (h : f.spans s = true) (hd : ¬s.isDummy = true) :
    s.file = f.id ∧ f.base ≤ s.start ∧ s.start ≤ s.stop ∧ s.stop ≤ f.stop :=
  (SourceFile.spans_iff.1 h).resolve_left fun he => hd (by rw [he]; rfl)

theorem SourceFile.holds_of_spans (h : f.spans s = true) : f.holds s = true := by
  rw [SourceFile.holds_iff]
  rcases SourceFile.spans_iff.1 h with rfl | ⟨hf, hb, ho, hs⟩
  · exact .inl rfl
  · exact .inr ⟨hf, hb, Nat.le_trans ho hs, hs⟩

theorem SourceFile.spans_cover (hs : f.spans s = true) (ht : f.spans t = true) :
    f.spans (s.cover t) = true := by
  unfold Span.cover
  split
  · exact hs
  · split
    · exact ht
    · split
      · exact hs
      · rename_i hdt hds _
        obtain ⟨hf, hsb, hso, hsp⟩ := SourceFile.inside_of_spans hs hds
        obtain ⟨-, htb, hto, htp⟩ := SourceFile.inside_of_spans ht hdt
        refine SourceFile.spans_iff.2
          (.inr ⟨hf, Nat.le_min.2 ⟨hsb, htb⟩, ?_, Nat.max_le.2 ⟨hsp, htp⟩⟩)
        exact Nat.le_trans (Nat.min_le_left _ _) (Nat.le_trans hso (Nat.le_max_left _ _))

/-- What begins in the file still does with more behind it. -/
theorem SourceFile.base_le_cover (hs : f.base ≤ s.start) (ht : f.spans t = true) :
    f.base ≤ (s.cover t).start := by
  unfold Span.cover
  split
  · exact hs
  · rename_i hdt
    have htb := (SourceFile.inside_of_spans ht hdt).2.1
    split
    · exact htb
    · split
      · exact hs
      · exact Nat.le_min.2 ⟨hs, htb⟩

theorem SourceFile.spans_atStart (hs : f.spans s = true) : f.spans s.atStart = true := by
  rw [SourceFile.spans_iff] at hs ⊢
  rcases hs with rfl | ⟨hf, hb, ho, hp⟩
  · exact .inl rfl
  · exact .inr ⟨hf, hb, Nat.le_refl _, Nat.le_trans ho hp⟩

end

/-! ## Looking -/

section

variable {f : SourceFile} {n m : Node} {ns ms : List Node}

@[simp] theorem grownAll_nil : GrownAll f [] := fun _ h => by cases h

@[simp] theorem grownAll_cons : GrownAll f (n :: ns) ↔ Grown f n ∧ GrownAll f ns :=
  List.forall_mem_cons

@[simp] theorem grownAll_append : GrownAll f (ns ++ ms) ↔ GrownAll f ns ∧ GrownAll f ms :=
  List.forall_mem_append

theorem GrownAll.snoc (h : GrownAll f ns) (hn : Grown f n) : GrownAll f (ns ++ [n]) := by
  simp [h, hn]

@[simp] theorem grown_absent : Grown f .absent := .absent

theorem grown_mk {h : Head} {ks ds : List Node} {t a x : Node} : Grown f (.mk h ks ds t a x) ↔
    h.grows f ks = true ∧ placed (.mk h ks ds t a x) = true ∧ GrownAll f ks ∧ GrownAll f ds ∧
      Grown f t ∧ Grown f a ∧ Grown f x :=
  ⟨fun | .mk hself hp hks hds ht ha hx => ⟨hself, hp, hks, hds, ht, ha, hx⟩,
    fun ⟨hself, hp, hks, hds, ht, ha, hx⟩ => .mk hself hp hks hds ht ha hx⟩

theorem Grown.kids (h : Grown f n) : GrownAll f n.kids := by
  cases h with
  | absent => exact grownAll_nil
  | mk _ _ hks _ _ _ _ => exact hks

theorem Grown.kid (h : Grown f n) (i : Nat) : Grown f (n.kid i) := by
  unfold Node.kid
  rw [List.getD_eq_getElem?_getD]
  cases hi : n.kids[i]? with
  | none => exact .absent
  | some k => exact h.kids k (List.mem_of_getElem? hi)

theorem Grown.decos (h : Grown f n) : GrownAll f n.decos := by
  cases h with
  | absent => exact grownAll_nil
  | mk _ _ _ hds _ _ _ => exact hds

theorem Grown.targs (h : Grown f n) : Grown f n.targs := by
  cases h with
  | absent => exact .absent
  | mk _ _ _ _ _ ha _ => exact ha

theorem Grown.span (h : Grown f n) : f.spans n.span = true := by
  cases h with
  | absent => rfl
  | mk hself _ _ _ _ _ _ =>
    simp only [Head.grows, Bool.and_eq_true] at hself
    exact hself.1.1.1.1

/-- The children and decorators are of the kinds that the grammar allows. -/
theorem Grown.kinds (h : Grown f n) : placed n = true := by
  cases h with
  | absent => rfl
  | mk _ hp _ _ _ _ _ => exact hp

theorem Grown.deco_kind (h : Grown f n) {d : Node} (hd : d ∈ n.decos) : d.kind = .decorator := by
  have hp := h.kinds
  simp only [placed, Bool.and_eq_true, List.all_eq_true, beq_iff_eq] at hp
  exact hp.1.2 d hd

/-- An exported declaration begins in the file. -/
theorem Grown.starts (h : Grown f n) (hk : n.kind = .exportDecl) :
    f.base ≤ (n.kid 0).span.start := by
  cases h with
  | absent => cases hk
  | @mk h ks _ _ _ _ hself _ _ _ _ _ _ =>
    have hk : h.kind = .exportDecl := hk
    simp only [Head.grows, Head.isPlaced, hk, Bool.and_eq_true, bne_self_eq_false, Bool.false_or,
      decide_eq_true_eq] at hself
    exact hself.1.1.1.2

theorem Grown.kind_ne_raw (h : Grown f n) : n.kind ≠ .raw := by
  cases h with
  | absent => simp [Node.kind, Node.head]
  | mk hself _ _ _ _ _ _ =>
    simp only [Head.grows, Bool.and_eq_true, bne_iff_ne] at hself
    exact hself.1.1.2

theorem Grown.tidy (h : Grown f n) : Tidy n := by
  induction h with
  | absent => exact .absent
  | mk hself _ _ _ _ _ _ hks hds _ _ _ =>
    simp only [Head.grows, Bool.and_eq_true] at hself
    exact .mk hself.1.2 hks hds

mutual

theorem Grown.unparen : ∀ n, Grown f n → Grown f n.unparen
  | .absent, h => h
  | .mk head ks ds t a y, h => by
    unfold Node.unparen
    split
    · exact Grown.unparenFirst ks h.kids
    · exact h

theorem Grown.unparenFirst : ∀ ks, GrownAll f ks → Grown f (Node.unparenFirst ks)
  | [], _ => .absent
  | n :: _, h => Grown.unparen n (grownAll_cons.1 h).1

end

mutual

/-- What grows in a file is made of nothing else. -/
theorem Grown.walk : ∀ n, Grown f n → GrownAll f n.walk
  | .absent, _ => grownAll_nil
  | .mk h ks ds t a x, hn => by
    obtain ⟨-, -, hks, hds, ht, ha, hx⟩ := grown_mk.1 hn
    simp only [Node.walk, grownAll_cons, grownAll_append]
    exact ⟨hn, ⟨⟨⟨Grown.walkAll ks hks, Grown.walkAll ds hds⟩, Grown.walk t ht⟩, Grown.walk a ha⟩,
      Grown.walk x hx⟩

theorem Grown.walkAll : ∀ ns, GrownAll f ns → GrownAll f (Node.walkAll ns)
  | [], _ => grownAll_nil
  | n :: r, h => by
    obtain ⟨hn, hr⟩ := grownAll_cons.1 h
    exact grownAll_append.2 ⟨Grown.walk n hn, Grown.walkAll r hr⟩

end

end

/-! ## Building -/

section

variable {f : SourceFile} {n : Node} {kind : NodeKind} {span : Span} {kids : List Node}

theorem kindsAt_of_loose {h : Head} (hk : h.kind.isLoose = true) (i : Nat) : kindsAt h i = [] := by
  unfold kindsAt
  split
  case h_31 => rfl
  all_goals
    rename_i hkind
    rw [hkind] at hk
    cases hk

theorem placed_of_loose {h : Head} {ds : List Node} {t a x : Node} (hk : h.kind.isLoose = true)
    (hds : ∀ d ∈ ds, d.kind = .decorator) : placed (.mk h kids ds t a x) = true := by
  have halias : h.kind ≠ .importEquals := fun he => by
    rw [he] at hk
    cases hk
  simp only [placed, Bool.and_eq_true, List.all_eq_true, Bool.or_eq_true, beq_iff_eq, bne_iff_ne]
  refine ⟨⟨fun i _ => .inl (.inr ?_), hds⟩, .inl (.inl halias)⟩
  rw [show (Node.mk h kids ds t a x).head = h from rfl, kindsAt_of_loose hk]
  rfl

theorem grows_of_common {h : Head} (hm : h.mark = 0) (hk : h.kind.isCommon = true)
    (hs : f.spans h.span = true) : h.grows f kids = true := by
  simp only [NodeKind.isCommon, Bool.and_eq_true] at hk
  obtain ⟨⟨⟨htry, hraw⟩, htag⟩, hexport⟩ := hk
  simp only [Head.grows, Head.isPlaced, Head.isTidy, Head.isTagged, hs, hm, htry, hraw, htag,
    hexport, beq_self_eq_true, Bool.true_or, Bool.and_self]

theorem Grown.ofHead {h : Head} (hm : h.mark = 0) (hk : h.kind.isPlain = true)
    (hs : f.spans h.span = true) (hks : GrownAll f kids) : Grown f (.ofHead h kids) := by
  rw [NodeKind.isPlain, Bool.and_eq_true] at hk
  exact .mk (grows_of_common hm hk.1 hs) (placed_of_loose hk.2 (by simp)) hks grownAll_nil .absent
    .absent .absent

theorem Grown.new (hk : kind.isPlain = true) (hs : f.spans span = true) (hks : GrownAll f kids) :
    Grown f (.new kind span kids) := .ofHead rfl hk hs hks

theorem Grown.newOp {op : TokenKind} (hk : kind.isPlain = true) (hs : f.spans span = true)
    (hks : GrownAll f kids) : Grown f (.newOp kind op span kids) := .ofHead rfl hk hs hks

theorem Grown.newText {text : Bytes} (hk : kind.isPlain = true) (hs : f.spans span = true) :
    Grown f (.newText kind span text) := .ofHead rfl hk hs grownAll_nil

theorem Grown.ident {name : Bytes} (hs : f.spans span = true) : Grown f (.ident name span) :=
  .newText rfl hs

theorem Grown.literal {op : TokenKind} {raw : Bytes} (hs : f.spans span = true) :
    Grown f (.literal op raw span) := .ofHead rfl rfl hs grownAll_nil

/-! ## Changing -/

/-- Another kind and other children; the mark and the place have to stay. -/
theorem Grown.rebuild {h h' : Head} {ks ks' ds : List Node} {t a x : Node}
    (hn : Grown f (.mk h ks ds t a x)) (hm : h'.mark = h.mark) (hs : h'.span = h.span)
    (hk : h'.kind.isCommon = true) (hp : placed (.mk h' ks' ds t a x) = true)
    (hks : GrownAll f ks') : Grown f (.mk h' ks' ds t a x) := by
  obtain ⟨-, -, -, hds, ht, ha, hx⟩ := grown_mk.1 hn
  have hspan : f.spans h.span = true := hn.span
  have hmark : h.mark = 0 := hn.tidy.mark
  exact .mk (grows_of_common (hm.trans hmark) hk (hs ▸ hspan)) hp hks hds ht ha hx

theorem kindsAt_congr (h h' : Head) (hk : h'.kind = h.kind)
    (hf : h'.flags.exprBody = h.flags.exprBody) (i : Nat) : kindsAt h' i = kindsAt h i := by
  unfold kindsAt
  rw [hk, hf]

/-- Of the modifiers only the one that makes a body an expression says what kind a child has. -/
theorem Grown.addFlags {flags : Flags} (hf : n.kind.isLoose = true ∨ flags.exprBody = false)
    (h : Grown f n) : Grown f (n.addFlags flags) := by
  have hdecos := fun d => h.deco_kind (d := d)
  cases h with
  | absent => exact .absent
  | @mk h ks ds t a x hself hp hks hds ht ha hx =>
    refine .mk hself ?_ hks hds ht ha hx
    rcases hf with hloose | he
    · exact placed_of_loose hloose hdecos
    · have hkinds (i : Nat) : kindsAt { h with flags := h.flags.or flags } i = kindsAt h i :=
        kindsAt_congr h { h with flags := h.flags.or flags } rfl (by simp [Flags.or, he]) i
      simp only [ScriptLower.placed, Node.head, hkinds] at hp ⊢
      exact hp

theorem Grown.withText {s : Bytes} (h : Grown f n) : Grown f (n.withText s) := by
  cases h with
  | absent => exact .absent
  | mk hself hp hks hds ht ha hx => exact .mk hself hp hks hds ht ha hx

theorem Grown.withSpan (h : Grown f n) (hs : f.spans span = true) : Grown f (n.withSpan span) := by
  cases h with
  | absent => exact .absent
  | mk hself hp hks hds ht ha hx =>
    refine .mk ?_ hp hks hds ht ha hx
    simp only [Head.grows, Bool.and_eq_true] at hself ⊢
    exact ⟨⟨⟨⟨hs, hself.1.1.1.2⟩, hself.1.1.2⟩, hself.1.2⟩, hself.2⟩

theorem Grown.withDecos (h : Grown f n) {ds : List Node} (hd : GrownAll f ds)
    (hk : ∀ d ∈ ds, d.kind = .decorator) : Grown f (n.withDecos ds) := by
  cases h with
  | absent => exact .absent
  | mk hself hp hks _ ht ha hx =>
    refine .mk hself ?_ hks hd ht ha hx
    simp only [ScriptLower.placed, Bool.and_eq_true, List.all_eq_true, beq_iff_eq] at hp ⊢
    exact ⟨⟨hp.1.1, hk⟩, hp.2⟩

theorem Grown.withType (h : Grown f n) {t : Node} (ht : Grown f t) : Grown f (n.withType t) := by
  cases h with
  | absent => exact .absent
  | mk hself hp hks hds _ ha hx => exact .mk hself hp hks hds ht ha hx

theorem Grown.withTargs (h : Grown f n) {a : Node} (ha : Grown f a) : Grown f (n.withTargs a) := by
  cases h with
  | absent => exact .absent
  | mk hself hp hks hds ht _ hx => exact .mk hself hp hks hds ht ha hx

theorem Grown.withAux (h : Grown f n) {x : Node} (hx : Grown f x) : Grown f (n.withAux x) := by
  cases h with
  | absent => exact .absent
  | mk hself hp hks hds ht ha _ => exact .mk hself hp hks hds ht ha hx

end

/-! ## Trees for a place -/

/-- A tree read from a file for a place that it fits. -/
structure Formed (f : SourceFile) (p : Place) (n : Node) : Prop where
  /-- It fits the place. -/
  fits : Fits f p n
  /-- It is read from the file. -/
  grown : Grown f n

/-- Trees read from a file for places of one sort. -/
def FormedAll (f : SourceFile) (p : Place) (ns : List Node) : Prop := ∀ n ∈ ns, Formed f p n

/-- Children read from a file for the places that a node has for them. -/
structure FormedKids (f : SourceFile) (ps : List Place) (r : Rest) (ns : List Node) : Prop where
  /-- They fit the places. -/
  fit : kidsFit (.source f) ps r ns = true
  /-- They are read from the file. -/
  grown : GrownAll f ns

section

variable {f : SourceFile} {p q : Place} {ps : List Place} {r : Rest} {n : Node} {ns : List Node}
  {kind : NodeKind} {s : Span} {ks : List Node}

theorem Formed.span (h : Formed f p n) : f.spans n.span = true := h.grown.span

theorem Formed.absent (h : p.isOptional = true) : Formed f p .absent := ⟨h, .absent⟩

theorem Formed.isPresent (h : Formed f p n) (hp : p.isOptional = false) : n.isPresent = true := by
  cases n with
  | absent =>
    have hfits : p.isOptional = true := h.fits
    rw [hp] at hfits
    cases hfits
  | mk _ _ _ _ _ _ => rfl

/-- What lowering drops may be any node. -/
theorem Formed.dropped (h : Grown f n) (hn : n.isPresent = true) (hd : p.drops n.kind = true) :
    Formed f p n := ⟨fits_dropped hn hd (SourceFile.holds_of_spans h.span), h⟩

theorem Formed.le (hn : Formed f p n) (h : p.Le q) : Formed f q n := ⟨fits_le h hn.fits, hn.grown⟩

/-! ### Lists -/

theorem FormedAll.nil : FormedAll f p [] := fun _ h => by cases h

theorem FormedAll.snoc (hs : FormedAll f p ns) (hn : Formed f p n) : FormedAll f p (ns ++ [n]) :=
  List.forall_mem_append.2 ⟨hs, List.forall_mem_singleton.2 hn⟩

theorem FormedAll.append {ms : List Node} (hn : FormedAll f p ns) (hm : FormedAll f p ms) :
    FormedAll f p (ns ++ ms) := List.forall_mem_append.2 ⟨hn, hm⟩

theorem formedAll_cons : FormedAll f p (n :: ns) ↔ Formed f p n ∧ FormedAll f p ns :=
  List.forall_mem_cons

theorem FormedAll.fit (h : FormedAll f p ns) : FitAll f p ns := fun n hn => (h n hn).fits

theorem FormedAll.grown (h : FormedAll f p ns) : GrownAll f ns := fun n hn => (h n hn).grown

theorem FormedKids.none : FormedKids f [] r [] := ⟨fit_none, grownAll_nil⟩

theorem FormedKids.first (hn : Formed f p n) (hns : FormedKids f ps r ns) :
    FormedKids f (p :: ps) r (n :: ns) :=
  ⟨fit_first hn.fits hns.fit, grownAll_cons.2 ⟨hn.grown, hns.grown⟩⟩

theorem FormedKids.each (h : FormedAll f p ns) : FormedKids f [] (.each p) ns :=
  ⟨fit_each h.fit, h.grown⟩

theorem formedKids_first :
    FormedKids f (p :: ps) r (n :: ns) ↔ Formed f p n ∧ FormedKids f ps r ns := by
  refine ⟨fun h => ?_, fun h => .first h.1 h.2⟩
  have hfit := h.fit
  rw [kidsFit_first, Bool.and_eq_true] at hfit
  obtain ⟨hn, hns⟩ := grownAll_cons.1 h.grown
  exact ⟨⟨hfit.1, hn⟩, ⟨hfit.2, hns⟩⟩

theorem formedKids_each : FormedKids f [] (.each p) ns ↔ FormedAll f p ns :=
  ⟨fun h n hn => ⟨kidsFit_each.1 h.fit n hn, h.grown n hn⟩, .each⟩

/-! ### Making nodes -/

/-- Children that fit are of the kinds that the grammar allows. -/
theorem FormedKids.placed {h : Head}
    (hks : FormedKids f (shapeOf p h.kind h.flags).first (shapeOf p h.kind h.flags).rest ks)
    {t a x : Node} : placed (.mk h ks [] t a x) = true :=
  placed_of_kidsFit p hks.fit (by simp)

theorem Formed.ofHead {h : Head} (ha : p.allows false h.kind = true) (hk : h.kind.isCommon = true)
    (hb : h.kind ≠ .binary ∨ h.op.precedence ≠ 0) (hm : h.mark = 0) (hs : f.spans h.span = true)
    (hks : FormedKids f (shapeOf p h.kind h.flags).first (shapeOf p h.kind h.flags).rest ks) :
    Formed f p (.ofHead h ks) :=
  ⟨fits_ofHead ha (SourceFile.holds_of_spans hs) hb hks.fit,
    .mk (grows_of_common hm hk hs) hks.placed hks.grown grownAll_nil .absent .absent .absent⟩

theorem Formed.new (ha : p.allows false kind = true) (hk : kind.isCommon = true ∧ kind ≠ .binary)
    (hs : f.spans s = true)
    (hks : FormedKids f (shapeOf p kind {}).first (shapeOf p kind {}).rest ks) :
    Formed f p (.new kind s ks) := .ofHead ha hk.1 (.inl hk.2) rfl hs hks

theorem Formed.newOp {op : TokenKind} (ha : p.allows false kind = true) (hk : kind.isCommon = true)
    (hb : kind ≠ .binary ∨ op.precedence ≠ 0) (hs : f.spans s = true)
    (hks : FormedKids f (shapeOf p kind {}).first (shapeOf p kind {}).rest ks) :
    Formed f p (.newOp kind op s ks) := .ofHead ha hk hb rfl hs hks

/-- A leaf with a text. -/
theorem Formed.newText {text : Bytes} (ha : p.allows false kind = true)
    (hk : kind.isCommon = true ∧ kind ≠ .binary) (hs : f.spans s = true)
    (hks : FormedKids f (shapeOf p kind {}).first (shapeOf p kind {}).rest []) :
    Formed f p (.newText kind s text) := .ofHead ha hk.1 (.inl hk.2) rfl hs hks

theorem Formed.ident {text : Bytes} (hs : f.spans s = true) (ha : p.allows false .ident = true) :
    Formed f p (.ident text s) := .newText ha (by decide) hs .none

theorem Formed.literal {op : TokenKind} {text : Bytes} (hs : f.spans s = true)
    (ha : p.allows false .literal = true) : Formed f p (.literal op text s) :=
  .ofHead ha rfl (.inl (by simp)) rfl hs .none

/-- A node with modifiers, which say what kind of key or body it has. -/
theorem Formed.flagged {flags : Flags} (ha : p.allows false kind = true)
    (hk : kind.isCommon = true ∧ kind ≠ .binary) (hs : f.spans s = true)
    (hks : FormedKids f (shapeOf p kind flags).first (shapeOf p kind flags).rest ks) :
    Formed f p ((Node.new kind s ks).addFlags flags) := by
  have hor : ({} : Flags).or flags = flags := by simp [Flags.or]
  have hnode : (Node.new kind s ks).addFlags flags = .ofHead { kind, span := s, flags } ks := by
    show Node.ofHead { kind, span := s, flags := ({} : Flags).or flags } ks = _
    rw [hor]
  rw [hnode]
  exact .ofHead ha hk.1 (.inl hk.2) rfl hs hks

/-- A dotted tag. -/
theorem Formed.newTag {first last : Node} (hs : f.spans s = true) (hf : Formed f .tag first)
    (hl : Formed f .tag last) : Formed f .tag (.new .jsxMemberName s [first, last]) := by
  have hks : FormedKids f [.tag, .tag] .none [first, last] := .first hf (.first hl .none)
  have htag : Head.isTagged { kind := .jsxMemberName, span := s } [first, last] = true := by
    rcases absent_or_placed hf.fits fun _ => rfl with ⟨-, hempty⟩ | hplaced
    · cases hempty
    · exact hplaced.allowed
  refine ⟨fits_new rfl (by decide) (SourceFile.holds_of_spans hs) hks.fit,
    .mk ?_ (FormedKids.placed (p := .tag) hks) hks.grown grownAll_nil .absent .absent .absent⟩
  simp only [Head.grows, hs, htag]
  rfl

/-- A statement with a handler. -/
theorem Formed.newTry {block handler final : Node} (hs : f.spans s = true)
    (hb : Formed f .block block) (hh : Formed f .handler handler) (hf : Formed f .optBlock final) :
    Formed f .stmt (.new .tryStmt s [block, handler, final]) := by
  have hks : FormedKids f [.block, .handler, .optBlock] .none [block, handler, final] :=
    .first hb (.first hh (.first hf .none))
  have htidy : Head.isTidy { kind := .tryStmt, span := s } [block, handler, final] = true := by
    rcases absent_or_placed hh.fits fun _ => rfl with ⟨hempty, -⟩ | hplaced
    · rw [hempty]
      rfl
    · have hkind : (handler.kind == .catchClause) = true := hplaced.allowed
      simp [Head.isTidy, beq_iff_eq.1 hkind]
  refine ⟨fits_new rfl (by decide) (SourceFile.holds_of_spans hs) hks.fit,
    .mk ?_ (FormedKids.placed (p := .stmt) hks) hks.grown grownAll_nil .absent .absent .absent⟩
  simp only [Head.grows, hs, htidy]
  rfl

/-- An exported declaration that begins in the file. -/
theorem Formed.newExport (hs : f.spans s = true) (hn : Formed f .declaration n)
    (hstart : f.base ≤ n.span.start) : Formed f .stmt (.new .exportDecl s [n]) := by
  have hks : FormedKids f [.declaration] .none [n] := .first hn .none
  refine ⟨fits_new rfl (by decide) (SourceFile.holds_of_spans hs) hks.fit,
    .mk ?_ (FormedKids.placed (p := .stmt) hks) hks.grown grownAll_nil .absent .absent .absent⟩
  simp [Head.grows, Head.isPlaced, Head.isTidy, Head.isTagged, hs, hstart]

/-! ### Changing nodes -/

theorem Formed.addFlags {flags : Flags} (hc : flags.computed = false) (he : flags.exprBody = false)
    (h : Formed f p n) : Formed f p (n.addFlags flags) :=
  ⟨fits_addFlags hc he h.fits, h.grown.addFlags (.inr he)⟩

theorem Formed.withText {text : Bytes} (h : Formed f p n) : Formed f p (n.withText text) :=
  ⟨fits_withText h.fits, h.grown.withText⟩

theorem Formed.withSpan (h : Formed f p n) (hs : f.spans s = true) : Formed f p (n.withSpan s) :=
  ⟨fits_withSpan (SourceFile.holds_of_spans hs) h.fits, h.grown.withSpan hs⟩

theorem Formed.withDecos (h : Formed f p n) (hd : FormedAll f .decorator ns) :
    Formed f p (n.withDecos ns) := by
  refine ⟨fits_withDecos hd.fit h.fits, h.grown.withDecos hd.grown fun d hn => ?_⟩
  rcases absent_or_placed (hd d hn).fits fun _ => rfl with ⟨-, hempty⟩ | hplaced
  · cases hempty
  · exact beq_iff_eq.1 hplaced.allowed

theorem Formed.withType (h : Formed f p n) {t : Node} (ht : Grown f t) :
    Formed f p (n.withType t) :=
  ⟨(fits_withType t).trans h.fits, h.grown.withType ht⟩

theorem Formed.withTargs (h : Formed f p n) {a : Node} (ha : Grown f a) :
    Formed f p (n.withTargs a) := ⟨(fits_withTargs a).trans h.fits, h.grown.withTargs ha⟩

theorem Formed.withAux (h : Formed f p n) {x : Node} (hx : Grown f x) : Formed f p (n.withAux x) :=
  ⟨(fits_withAux x).trans h.fits, h.grown.withAux hx⟩

/-- A node of another kind, with other children. -/
theorem Formed.again {h : Head} {ks ks' ds : List Node} {t a x : Node} {k : NodeKind}
    {o : TokenKind}
    (hn : Formed f p (.mk h ks ds t a x)) (hd : p.drops h.kind = false)
    (hk : k.isCommon = true ∧ k ≠ .binary) (ha : q.allows false k = true)
    (hks : FormedKids f (shapeOf q k h.flags).first (shapeOf q k h.flags).rest ks') :
    Formed f q (.mk { h with kind := k, op := o } ks' ds t a x) := by
  have hplaced := fits_placed hn.fits rfl hd
  have hacc := hplaced.accepted
  have hkinds : placed (.mk { h with kind := k, op := o } ks' ds t a x) = true :=
    placed_of_kidsFit q hks.fit fun _ => hn.grown.deco_kind
  refine ⟨Placed.fits ⟨ha, ?_, hks.fit, hplaced.decos⟩,
    hn.grown.rebuild rfl rfl hk.1 hkinds hks.grown⟩
  simp only [Canon.accepts, Bool.and_eq_true, Bool.or_eq_true] at hacc ⊢
  exact ⟨⟨hacc.1.1, .inl (bne_iff_ne.2 hk.2)⟩, rfl⟩

/-- The children of a node that is not dropped. -/
theorem Formed.kids {h : Head} {ks ds : List Node} {t a x : Node}
    (hn : Formed f p (.mk h ks ds t a x)) (hd : p.drops h.kind = false) :
    FormedKids f (shapeOf p h.kind h.flags).first (shapeOf p h.kind h.flags).rest ks :=
  ⟨(fits_placed hn.fits rfl hd).kids, hn.grown.kids⟩

end

end ScriptLower
