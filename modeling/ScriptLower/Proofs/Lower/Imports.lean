import ScriptLower.Proofs.Lower.Lists
import ScriptLower.Proofs.Parse.StatementForms

/-!
# Imports that lowered code needs

A file keeps an import exactly when its name is among the names used, and lowered code reads no
other names of the source. Both together: what is read is still imported. The object of a dotted tag
and the attributes of an import are lowered as code without being counted, so their names have to be
used elsewhere.
-/

namespace ScriptLower.Lower

open ScriptLower

section

variable {a : Aim} {c : Context} {n : Node} {g : Rules} {given : Prop}

/-! ## Names that are read -/

theorem Good.kid (hn : Good a n) (i : Nat) : Good a (n.kid i) := by
  rcases kid_cases n i with h | ⟨-, h⟩
  · rw [h]
    exact .absent
  · cases hn with
    | absent => cases h
    | mk _ hks _ => exact hks _ h

theorem Good.mem (hn : Good a n) {k : Node} (hk : k ∈ n.kids) : Good a k := by
  obtain ⟨i, rfl⟩ := exists_kid hk
  exact hn.kid i

theorem Good.deco (hn : Good a n) {d : Node} (hd : d ∈ n.decos) : Good a d := by
  cases hn with
  | absent => cases hd
  | mk _ _ hds => exact hds d hd

theorem Good.fit (hn : Good a n) (hp : n.isPresent = true) : Fit a n :=
  hn.fit_of_walk n (walk_self hp)

/-- Good code mentions only names that may be read. -/
theorem Fine.mentions {x : Bytes} (hm : n.Mentions x) : Fine a n → a.names x := by
  induction hm with
  | name hk hmark htext =>
    intro hn
    rw [← htext]
    exact hn.ref hk hmark
  | @child n i hi hm ih =>
    intro hn
    cases n with
    | absent => exact ih .absent
    | mk h ks ds t x y => exact ih ⟨hn.good.kid i, (hn.good.fit rfl).reads i hi⟩
  | @decorator n d hd hm ih =>
    intro hn
    cases n with
    | absent => cases hd
    | mk h ks ds t x y => exact ih ⟨hn.good.deco hd, (hn.good.fit rfl).decos d hd⟩
  | @exported n spec hk hlocal hs hm ih =>
    intro hn
    have hp := isPresent_of_kind hk (by decide)
    have hspec : Good a spec := hn.good.mem (List.mem_of_mem_drop hs)
    exact ih ⟨hspec.kid 0, (hn.good.fit hp).specs hk hlocal spec hs⟩

/-! ## Imports that stay -/

/-- Among some statements is an import from the same module that has the name. -/
def ImportedIn (decl spec : Node) (stmts : List Node) : Prop :=
  ∃ r ∈ stmts, r.kind = .importDecl ∧ r.kid 0 = leaf (decl.kid 0) ∧
    like spec (spec.kids.map leaf) ∈ r.kids.drop 2

/-- Among some statements is a variable under the name of an alias. -/
def AliasedIn (decl : Node) (stmts : List Node) : Prop :=
  ∃ r ∈ stmts, r.kind = .varDecl ∧ ∃ d ∈ r.kids, d.kind = .declarator ∧ d.kid 0 = leaf (decl.kid 0)

theorem ImportedIn.mono {decl spec : Node} {stmts stmts' : List Node}
    (h : ImportedIn decl spec stmts) (hsub : ∀ r ∈ stmts, r ∈ stmts') :
    ImportedIn decl spec stmts' := by
  obtain ⟨r, hr, hrest⟩ := h
  exact ⟨r, hsub r hr, hrest⟩

theorem AliasedIn.mono {decl : Node} {stmts stmts' : List Node} (h : AliasedIn decl stmts)
    (hsub : ∀ r ∈ stmts, r ∈ stmts') : AliasedIn decl stmts' := by
  obtain ⟨r, hr, hrest⟩ := h
  exact ⟨r, hsub r hr, hrest⟩

theorem yields_keepsImport_used {name : Bytes} (hused : name ∈ c.used) :
    Yields c given (keepsImport name) fun keeps => keeps = true := by
  refine .bind yields_read fun x => .pure fun h => ?_
  rw [h.2]
  simpa using .inr hused

theorem yields_lowerImportSpec_used {spec : Node} (ht : spec.flags.typeOnly = false)
    (hused : (spec.kids.getLastD .absent).text ∈ c.used) :
    Yields c given (lowerImportSpec spec) fun rs => like spec (spec.kids.map leaf) ∈ rs := by
  refine .branch (fun h => absurd (ht.symm.trans h) (by decide)) fun _ => ?_
  refine .bind (yields_keepsImport_used hused) fun keeps => ?_
  exact .branch (fun _ => .pure fun _ => List.mem_cons_self) fun hno => .pure fun h =>
    absurd h.2 hno

/-- An import whose names are used keeps its source and these names. -/
theorem yields_lowerImport_keeps {spec : Node} (hg : Lowers a g) (ht : n.flags.typeOnly = false)
    (hs : spec ∈ n.kids.drop 2) (hst : spec.flags.typeOnly = false)
    (hused : (spec.kids.getLastD .absent).text ∈ c.used) :
    Yields c given (lowerImport g n) fun r => ∃ attrs specs,
      r = like n (leaf (n.kid 0) :: attrs :: specs) ∧ like spec (spec.kids.map leaf) ∈ specs := by
  refine .branch (fun h => absurd (ht.symm.trans h) (by decide)) fun _ => ?_
  have hattrs : False → At a c (n.kid 1) := False.elim
  refine .bind (yields_lowerOptional hg hattrs).any fun attrs => ?_
  have hany (x : Node) : Yields c (given ∧ True) (lowerImportSpec x) fun _ => True := by
    have hkind : False → x = .absent ∨ x.kind ∈ [.importDefault, .importNamespace, .importSpec] :=
      False.elim
    exact (yields_lowerImportSpec a hkind).any
  refine .bind (.mapM_mem hs (yields_lowerImportSpec_used hst hused) hany) fun specs => ?_
  refine .branch (fun hempty => .pure fun h => ?_) fun _ => .pure fun h => ?_
  · obtain ⟨ys, hys, hmem⟩ := h.2
    rw [Bool.and_eq_true, List.isEmpty_iff] at hempty
    have hflat := List.mem_flatten.2 ⟨ys, hys, hmem⟩
    rw [hempty.1] at hflat
    cases hflat
  · obtain ⟨ys, hys, hmem⟩ := h.2
    exact ⟨attrs, specs.flatten, rfl, List.mem_flatten.2 ⟨ys, hys, hmem⟩⟩

theorem yields_lowerImport_used {spec : Node} (hg : Lowers a g) (hk : n.kind = .importDecl)
    (ht : n.flags.typeOnly = false) (hs : spec ∈ n.kids.drop 2) (hst : spec.flags.typeOnly = false)
    (hused : (spec.kids.getLastD .absent).text ∈ c.used) :
    Yields c given (lowerStmt g n) (ImportedIn n spec) := by
  have hstmt : lowerStmt g n = do return one (← lowerImport g n) := by
    unfold lowerStmt
    simp only [hk]
  rw [hstmt]
  refine .bind (yields_lowerImport_keeps hg ht hs hst hused) fun r => .pure fun h => ?_
  obtain ⟨-, attrs, specs, rfl, hmem⟩ := h
  exact ⟨_, List.mem_singleton_self _, hk, rfl, hmem⟩

/-- An alias that is used becomes a variable. -/
theorem yields_lowerAlias_keeps {exported : Bool} (hg : Lowers a g) (ht : n.flags.typeOnly = false)
    (hused : exported = true ∨ (n.kid 0).text ∈ c.used) :
    Yields c given (lowerAlias g n exported) fun r => ∃ value,
      r = varDecl "var" n.span [.new .declarator n.span [leaf (n.kid 0), value]] := by
  refine .branch (fun h => absurd (ht.symm.trans h) (by decide)) fun _ => ?_
  refine .branch (fun _ => .error_then (.pure False.elim)) fun _ => ?_
  have hkeeps : Yields c given (keepsImport (n.kid 0).text) fun keeps =>
      (exported || keeps) = true := by
    rcases hused with hexported | hused
    · exact (Yields.bind yields_read fun x => .pure fun _ => by simp [hexported])
    · exact (yields_keepsImport_used hused).mono fun keeps _ h => by simp [h]
  refine .bind hkeeps fun keeps => .branch (fun _ => ?_) fun hno => .pure fun h => absurd h.2 hno
  exact .bind (yields_lowerEntity hg _).any fun value => .pure fun _ => ⟨value, rfl⟩

theorem yields_lowerAlias_used (hg : Lowers a g) (hk : n.kind = .importEquals)
    (ht : n.flags.typeOnly = false) (hused : (n.kid 0).text ∈ c.used) :
    Yields c given (lowerStmt g n) (AliasedIn n) := by
  have hstmt : lowerStmt g n = do return one (← lowerAlias g n false) := by
    unfold lowerStmt
    simp only [hk]
  rw [hstmt]
  refine .bind (yields_lowerAlias_keeps hg ht (.inr hused)) fun r => .pure fun h => ?_
  obtain ⟨-, value, rfl⟩ := h
  exact ⟨_, List.mem_singleton_self _, rfl, _, List.mem_cons_self, rfl, rfl⟩

/-! ## Final names -/

section

variable {f : Head → Head} {decl spec : Node} {stmts : List Node}

theorem Respells.leaf (hf : Respells f) (hn : n.mark = 0) : (leaf n).mapHeads f = leaf n := by
  have hsame := hf.same { n.head with flags := n.flags.runtime } hn
  unfold Lower.leaf Node.ofHead
  rw [Node.mapHeads, hsame]
  rfl

theorem Respells.like (hf : Respells f) (hks : ∀ k ∈ n.kids, k.mark = 0) :
    (like n (n.kids.map Lower.leaf)).mapHeads f = like n (n.kids.map Lower.leaf) := by
  have hsame := hf.same { n.head with flags := n.flags.runtime, mark := 0 } rfl
  have hkids : (n.kids.map Lower.leaf).map (Node.mapHeads f) = n.kids.map Lower.leaf := by
    rw [List.map_map]
    exact List.map_congr_left fun k hk => hf.leaf (hks k hk)
  unfold Lower.like Node.ofHead
  rw [Node.mapHeads, hsame, mapAllHeads_eq, hkids]
  rfl

theorem Respells.importedIn (hf : Respells f) (hdecl : (decl.kid 0).mark = 0)
    (hspec : ∀ k ∈ spec.kids, k.mark = 0) (h : ImportedIn decl spec stmts) :
    ImportedIn decl spec (stmts.map (Node.mapHeads f)) := by
  obtain ⟨r, hr, hk, hsource, hmem⟩ := h
  refine ⟨r.mapHeads f, List.mem_map_of_mem hr, (hf.kind_mapHeads r).trans hk, ?_, ?_⟩
  · rw [kid_mapHeads, hsource, hf.leaf hdecl]
  · rw [kids_mapHeads, ← List.map_drop, ← hf.like hspec]
    exact List.mem_map_of_mem hmem

theorem Respells.aliasedIn (hf : Respells f) (hdecl : (decl.kid 0).mark = 0)
    (h : AliasedIn decl stmts) : AliasedIn decl (stmts.map (Node.mapHeads f)) := by
  obtain ⟨r, hr, hk, d, hd, hdk, hname⟩ := h
  refine ⟨r.mapHeads f, List.mem_map_of_mem hr, (hf.kind_mapHeads r).trans hk, d.mapHeads f, ?_,
    (hf.kind_mapHeads d).trans hdk, ?_⟩
  · rw [kids_mapHeads]
    exact List.mem_map_of_mem hd
  · rw [kid_mapHeads, hname, hf.leaf hdecl]

end

end

/-! ## Files -/

/-- Code that reads the names a file uses and those of the objects whose functions stand for
operators. -/
def usesAim (used : List Bytes) (elements : Prop) (t : Target) : Aim where
  version := ⟨t.resolved.level + Target.esNext.level⟩
  known := Nat.le_add_right_of_le (one_le_resolved t)
  names x := x ∈ used ∨ x ∈ [[], Bytes.ofString "Math", Bytes.ofString "Object"]
  nameless := .inr (by simp)
  math := .inr (by simp)
  object := .inr (by simp)
  elements := elements

theorem covers_usedNames (elements : ElementOptions) (root : Node) (t : Target) :
    Covers (usesAim (usedNames elements root) ((uses root).elements = true) t) (uses root) := by
  refine ⟨fun x hx => .inl ?_, fun he => he⟩
  unfold usedNames
  dsimp only
  split
  · exact List.mem_append_left _ hx
  · exact hx

theorem mem_usedNames_of_classic {elements : ElementOptions} {root : Node}
    (he : (uses root).elements = true) (hr : elements.runtime = .classic) :
    rootName elements.factory ∈ usedNames elements root ∧
      rootName elements.fragment ∈ usedNames elements root := by
  simp [usedNames, he, hr]

/-- The names that lowering reads in a file are counted among its uses: the objects of dotted tags
and the names in attributes are used elsewhere too. -/
structure Counted (root : Node) (used : List Bytes) : Prop where
  tags : ∀ n ∈ root.walk, n.kind = .jsxMemberName → (n.kid 0).kind = .jsxName →
    (n.kid 0).text ∈ used
  attributes : ∀ n ∈ root.walk, hasAttributes n.kind = true →
    (∀ y ∈ (uses (n.kid 1)).names, y ∈ used) ∧ (uses (n.kid 1)).elements = false

/-- Whether all names that lowering reads in a file are counted among its uses. -/
def isCounted (root : Node) (used : List Bytes) : Bool :=
  root.walk.all fun n =>
    (n.kind != .jsxMemberName || (n.kid 0).kind != .jsxName || used.contains (n.kid 0).text)
    && (!hasAttributes n.kind
      || ((uses (n.kid 1)).names.all used.contains && !(uses (n.kid 1)).elements))

theorem counted_of_isCounted {root : Node} {used : List Bytes} (h : isCounted root used = true) :
    Counted root used := by
  simp only [isCounted, List.all_eq_true, Bool.and_eq_true, Bool.or_eq_true, bne_iff_ne,
    Bool.not_eq_true', List.contains_iff_mem] at h
  refine ⟨fun n hn hk hkid => ?_, fun n hn hk => ?_⟩
  · rcases (h n hn).1 with (hne | hne) | hmem
    · exact absurd hk hne
    · exact absurd hkid hne
    · exact hmem
  · rcases (h n hn).2 with hno | hboth
    · exact absurd (hno.symm.trans hk) (by decide)
    · exact hboth

section

variable {file : SourceFile} {root out : Node} {comments : CommentTable} {supply : NameSupply}
  {o : Settings}

theorem Counted.at (hc : Counted root (fileContext file root comments o).used)
    (hplaced : ∀ n ∈ root.walk, placed n = true) :
    At (usesAim (fileContext file root comments o).used ((uses root).elements = true) o.target)
      (fileContext file root comments o) root := by
  have hnew : (Target.mk (o.target.resolved.level + Target.esNext.level)).before .es2020 = false :=
    decide_eq_false (by simp only [Target.esNext, Target.es2020]; omega)
  refine ⟨⟨Nat.le_add_right _ _, by simp [fileContext], fun he hr => ?_⟩,
    ⟨⟨fun m hm =>
      ⟨hplaced m hm, fun hv => ?_, fun hk hkid => ?_, fun hk => ⟨fun y hy => ?_, fun he => ?_⟩⟩,
      covers_usedNames _ _ _⟩, fun hv => ?_⟩⟩
  · exact ⟨.inl (mem_usedNames_of_classic he hr).1, .inl (mem_usedNames_of_classic he hr).2⟩
  · exact absurd (hnew.symm.trans hv) (by decide)
  · exact .inl (hc.tags m hm hk hkid)
  · exact .inl ((hc.attributes m hm hk).1 y hy)
  · exact absurd ((hc.attributes m hm hk).2.symm.trans he) (by decide)
  · exact absurd (hnew.symm.trans hv) (by decide)

/-- Lowered code reads no name of the source that the file does not use. -/
theorem Counted.used_of_mentions {x : Bytes}
    (hc : Counted root (fileContext file root comments o).used)
    (hplaced : ∀ n ∈ root.walk, placed n = true)
    (h : (lowerTree file root comments supply o).tree = some out) (hx : out.Mentions x)
    (hnew : x ∉ [[], Bytes.ofString "Math", Bytes.ofString "Object"]) :
    x ∈ (fileContext file root comments o).used := by
  have hfine := fine_lowerTree (hc.at hplaced) h
  exact (Fine.mentions hx hfine).resolve_right hnew

theorem mark_kid_of_unmarked (hunmarked : ∀ n ∈ root.walk, n.mark = 0) {n : Node}
    (hn : n ∈ root.kids) : (n.kid 0).mark = 0 := by
  rcases kid_cases n 0 with h0 | ⟨-, h0⟩
  · rw [h0]
    rfl
  · cases hkid : n.kid 0 with
    | absent => rfl
    | mk head ks ds t y z =>
      rw [← hkid]
      exact hunmarked _ (walk_of_kid hn (walk_of_kid h0 (walk_self (by rw [hkid]; rfl))))

/-- In a tree of the grammar without generated names, what lowered code reads stays. -/
theorem Counted.imported_or_aliased {x : Bytes}
    (hc : Counted root (fileContext file root comments o).used)
    (hplaced : ∀ n ∈ root.walk, placed n = true) (hunmarked : ∀ n ∈ root.walk, n.mark = 0)
    (h : (lowerTree file root comments supply o).tree = some out) (hx : out.Mentions x)
    (hnew : x ∉ [[], Bytes.ofString "Math", Bytes.ofString "Object"]) :
    (∀ decl ∈ root.kids, decl.kind = .importDecl → decl.flags.typeOnly = false →
      ∀ spec ∈ decl.kids.drop 2, spec.flags.typeOnly = false →
        (spec.kids.getLastD .absent).text = x → ImportedIn decl spec out.kids) ∧
    (∀ decl ∈ root.kids, decl.kind = .importEquals → decl.flags.typeOnly = false →
      (decl.kid 0).text = x → AliasedIn decl out.kids) := by
  have hused := hc.used_of_mentions hplaced h hx hnew
  refine ⟨fun decl hdecl hk ht spec hs hst hname => ?_, fun decl hdecl hk ht hname => ?_⟩
  · obtain ⟨part, f, hpart, hf, hsub⟩ := lowered_statement h hdecl fun d =>
      yields_lowerImport_used (lowers_rules codeAim d) hk ht hs hst (by rw [hname]; exact hused)
    have hmark := mark_kid_of_unmarked hunmarked hdecl
    refine (hf.importedIn hmark (fun k hmem => ?_) hpart).mono fun r hr => ?_
    · cases k with
      | absent => rfl
      | mk head ks ds t y z =>
        have hspec : spec ∈ decl.kids := List.mem_of_mem_drop hs
        exact hunmarked _
          (walk_of_kid hdecl (walk_of_kid hspec (walk_of_kid hmem (walk_self rfl))))
    · obtain ⟨r, hmem, rfl⟩ := List.mem_map.1 hr
      exact hsub r hmem
  · obtain ⟨part, f, hpart, hf, hsub⟩ := lowered_statement h hdecl fun d =>
      yields_lowerAlias_used (lowers_rules codeAim d) hk ht (by rw [hname]; exact hused)
    refine (hf.aliasedIn (mark_kid_of_unmarked hunmarked hdecl) hpart).mono fun r hr => ?_
    obtain ⟨r, hmem, rfl⟩ := List.mem_map.1 hr
    exact hsub r hmem

end

/-- A name of the source that lowered code reads is still imported: an imported name is among the
names of an import from its module, and an alias has become a variable. -/
theorem read_names_stay_imported (file : SourceFile) (po : Parse.Options) (root : Node)
    (comments : CommentTable) (supply : NameSupply) (o : Settings) (out : Node) (x : Bytes)
    (hparse : (Parse.parseFile file po).tree = some root)
    (hc : Counted root (fileContext file root comments o).used)
    (h : (lowerTree file root comments supply o).tree = some out) (hx : out.Mentions x)
    (hnew : x ∉ [[], Bytes.ofString "Math", Bytes.ofString "Object"]) :
    (∀ decl ∈ root.kids, decl.kind = .importDecl → decl.flags.typeOnly = false →
      ∀ spec ∈ decl.kids.drop 2, spec.flags.typeOnly = false →
        (spec.kids.getLastD .absent).text = x → ImportedIn decl spec out.kids) ∧
    (∀ decl ∈ root.kids, decl.kind = .importEquals → decl.flags.typeOnly = false →
      (decl.kid 0).text = x → AliasedIn decl out.kids) :=
  hc.imported_or_aliased (Parse.parseFile_placed hparse) (Parse.parseFile_unmarked hparse) h hx hnew

/-- Whether a path through code ends at a name of the source. -/
def readsAlong (x : Bytes) : List Nat → Node → Bool
  | [], n => n.kind == .ident && n.mark == 0 && n.text == x
  | i :: path, n => n.readsAt i && readsAlong x path (n.kid i)

theorem mentions_of_readsAlong {x : Bytes} {path : List Nat} {n : Node}
    (h : readsAlong x path n = true) : n.Mentions x := by
  induction path generalizing n with
  | nil =>
    simp only [readsAlong, Bool.and_eq_true, beq_iff_eq] at h
    exact .name h.1.1 h.1.2 h.2
  | cons i path ih =>
    rw [readsAlong, Bool.and_eq_true] at h
    exact .child i h.1 (ih h.2)

/-- A name that a call reads stays, and so does an alias that an element reads; a name that only a
type needs goes. -/
theorem read_imports_stay :
    let file := (FileSet.empty.add "a.tsx"
      "import { x, y as z, T } from 'm'; import A = x.B; let t: T = <A.C/>; z(t);" true).2
    let r := Parse.parseFile file {}
    ∃ root out, r.tree = some root ∧ (lowerTree file root r.comments {} {}).tree = some out ∧
      (∃ decl ∈ root.kids, ∃ spec ∈ decl.kids.drop 2, (spec.kids.getLastD .absent).text = "z" ∧
        ImportedIn decl spec out.kids) ∧
      ∃ decl ∈ root.kids, (decl.kid 0).text = "A" ∧ AliasedIn decl out.kids := by
  intro file r
  have hrun : r.tree.isSome = true ∧
      (lowerTree file (r.tree.getD .absent) r.comments {} {}).tree.isSome = true ∧
      isCounted (r.tree.getD .absent) (fileContext file (r.tree.getD .absent) r.comments {}).used
        = true ∧
      readsAlong "z" [4, 0, 0]
        ((lowerTree file (r.tree.getD .absent) r.comments {} {}).tree.getD .absent) = true ∧
      readsAlong "A" [3, 0, 1, 1, 0]
        ((lowerTree file (r.tree.getD .absent) r.comments {} {}).tree.getD .absent) = true ∧
      ((r.tree.getD .absent).kids.any fun decl => decl.kind == .importDecl && !decl.flags.typeOnly
        && (decl.kids.drop 2).any fun spec =>
          !spec.flags.typeOnly && (spec.kids.getLastD .absent).text == "z") = true ∧
      ((r.tree.getD .absent).kids.any fun decl => decl.kind == .importEquals && !decl.flags.typeOnly
        && (decl.kid 0).text == "A") = true := by decide +kernel
  obtain ⟨hsome, hlowered, hcounted, hz, hA, himport, halias⟩ := hrun
  obtain ⟨root, hroot⟩ := Option.isSome_iff_exists.1 hsome
  rw [hroot, Option.getD_some] at hlowered hcounted hz hA himport halias
  obtain ⟨out, hout⟩ := Option.isSome_iff_exists.1 hlowered
  rw [hout, Option.getD_some] at hz hA
  have hstay (x : Bytes) (hx : out.Mentions x) :=
    read_names_stay_imported file {} root r.comments {} {} out x hroot
      (counted_of_isCounted hcounted) hout hx
  obtain ⟨decl, hdecl, himport⟩ := List.any_eq_true.1 himport
  simp only [Bool.and_eq_true, beq_iff_eq, Bool.not_eq_true', List.any_eq_true] at himport
  obtain ⟨⟨hk, ht⟩, spec, hspec, hst, hname⟩ := himport
  obtain ⟨decl', hdecl', halias⟩ := List.any_eq_true.1 halias
  simp only [Bool.and_eq_true, beq_iff_eq, Bool.not_eq_true'] at halias
  refine ⟨root, out, hroot, hout, ⟨decl, hdecl, spec, hspec, hname, ?_⟩, decl',
    hdecl', halias.2, ?_⟩
  · exact (hstay "z" (mentions_of_readsAlong hz) (by decide)).1 decl hdecl hk ht
      spec hspec hst hname
  · exact (hstay "A" (mentions_of_readsAlong hA) (by decide)).2 decl' hdecl' halias.1.1 halias.1.2
      halias.2

/-- An import that only a dotted tag with a small letter reads is dropped, though lowered code still
reads it. -/
theorem tag_object_import_dropped :
    let file := (FileSet.empty.add "a.tsx" "import x from 'm'; export default <x.y/>;" true).2
    let r := Parse.parseFile file {}
    ∃ root out, r.tree = some root ∧ (lowerTree file root r.comments {} {}).tree = some out ∧
      out.Mentions "x" ∧
      (∃ decl ∈ root.kids, decl.kind = .importDecl ∧ decl.flags.typeOnly = false ∧
        ∃ spec ∈ decl.kids.drop 2, spec.flags.typeOnly = false ∧
          (spec.kids.getLastD .absent).text = "x") ∧
      ∀ r ∈ out.kids, r.kind = .importDecl → ∀ spec ∈ r.kids.drop 2,
        (spec.kids.getLastD .absent).text ≠ "x" := by
  intro file r
  have hrun : r.tree.isSome = true ∧
      (lowerTree file (r.tree.getD .absent) r.comments {} {}).tree.isSome = true ∧
      readsAlong "x" [1, 0, 1, 0]
        ((lowerTree file (r.tree.getD .absent) r.comments {} {}).tree.getD .absent) = true ∧
      ((r.tree.getD .absent).kids.any fun decl => decl.kind == .importDecl && !decl.flags.typeOnly
        && (decl.kids.drop 2).any fun spec =>
          !spec.flags.typeOnly && (spec.kids.getLastD .absent).text == "x") = true ∧
      (((lowerTree file (r.tree.getD .absent) r.comments {} {}).tree.getD .absent).kids.all fun r =>
        (r.kids.drop 2).all fun spec => (spec.kids.getLastD .absent).text != "x") = true := by
    decide +kernel
  obtain ⟨hsome, hlowered, hx, himport, hnone⟩ := hrun
  obtain ⟨root, hroot⟩ := Option.isSome_iff_exists.1 hsome
  rw [hroot, Option.getD_some] at hlowered hx himport hnone
  obtain ⟨out, hout⟩ := Option.isSome_iff_exists.1 hlowered
  rw [hout, Option.getD_some] at hx hnone
  obtain ⟨decl, hdecl, himport⟩ := List.any_eq_true.1 himport
  simp only [Bool.and_eq_true, beq_iff_eq, Bool.not_eq_true', List.any_eq_true] at himport
  obtain ⟨⟨hk, ht⟩, spec, hspec, hst, hname⟩ := himport
  refine ⟨root, out, hroot, hout, mentions_of_readsAlong hx,
    ⟨decl, hdecl, hk, ht, spec, hspec, hst, hname⟩, fun r hr _ spec hs => ?_⟩
  have hall := List.all_eq_true.1 (List.all_eq_true.1 hnone r hr) spec hs
  exact bne_iff_ne.1 hall

end ScriptLower.Lower
