import ScriptLower.Proofs.Lower.Objects
import ScriptLower.Proofs.Parse.StatementForms

/-!
# Exports of declared names

An export of a name stays unless the name exists only at the type level, and its name is one that
the file uses. What is used and declared as a value stays declared, so an export that stays finds
its name.
-/

namespace ScriptLower.Lower

open ScriptLower

section

variable {x : Bytes} {c : Context} {n r : Node} {f : Head → Head}

/-! ## Statements that export no names -/

/-- The names that a statement exports without declaring them. What is no name has none. -/
def exportedNames (n : Node) : List Bytes :=
  match n.kind with
  | .exportNamed =>
    if (n.kid 0).isPresent then [] else (n.kids.drop 2).map fun spec => nameOf (spec.kid 0)
  | .exportDefault => [nameOf (n.kid 0)]
  | _ => []

/-- Whether statements of a kind export names that are declared elsewhere. -/
def exportsNames : NodeKind → Bool
  | .exportNamed | .exportDefault => true
  | _ => false

theorem exportedNames_of_kind (hk : exportsNames n.kind = false) : exportedNames n = [] := by
  unfold exportedNames
  split
  case h_1 h | h_2 h => rw [h] at hk; cases hk
  case h_3 => rfl

/-- No statement among some exports names that are declared elsewhere. -/
def Exportless (rs : List Node) : Prop := ∀ r ∈ rs, exportsNames r.kind = false

section

variable {g : Rules}

theorem exportless_nil : Exportless [] := by simp [Exportless]

theorem exportless_single (h : exportsNames r.kind = false) : Exportless [r] := by
  simpa [Exportless] using h

theorem exportless_one (h : exportsNames r.kind = false) : Exportless (one r) := by
  unfold one
  split
  · exact exportless_nil
  · exact exportless_single h

theorem fillObject_exportless {span : Span} {name : Node} {body : List Node} {exported : Bool}
    {parent : Option Scope} : Always c (fillObject span name body exported parent) Exportless := by
  have hrest {decl : List Node} {call : Node} (hdecl : Exportless decl)
      (hcall : exportsNames call.kind = false) : Exportless (decl ++ [call]) :=
    List.forall_mem_append.2 ⟨hdecl, exportless_single hcall⟩
  refine .then fun isNew => .branch (fun _ => .then fun c' => ?_) fun _ => ?_
  · refine .bind (R := Exportless) (.pure (exportless_single ?_)) fun decl hd =>
      .pure (hrest hd rfl)
    split <;> rfl
  · exact .bind (.pure exportless_nil) fun decl hd => .pure (hrest hd rfl)

theorem lowerEnum_exportless {exported : Bool} : Always c (lowerEnum g n exported) Exportless :=
  .branch (fun _ => .pure exportless_nil) fun _ => .then fun _ => .then fun _ =>
    fillObject_exportless

theorem lowerNamespace_exportless {exported : Bool} :
    Always c (lowerNamespace g n exported) Exportless := by
  refine .branch (fun _ => .pure exportless_nil) fun _ => ?_
  refine .branch (fun _ => .then fun _ => .pure exportless_nil) fun _ => ?_
  refine .then fun parent => .then fun r => .branch (fun _ => .pure exportless_nil) fun _ => ?_
  exact .then fun stmts => fillObject_exportless

theorem lowerExportDecl_exportless (hscopes : c.scopes = []) :
    Always c (lowerExportDecl g n) Exportless := by
  have hwrap (r : Node) : exportsNames (exportWrap n.span r).kind = false := by
    unfold exportWrap
    split <;> rfl
  refine .bind (namespaceScope?_top hscopes) fun o ho => ?_
  subst ho
  dsimp only
  split
  · exact .then fun _ => lowerEnum_exportless
  · exact .then fun _ => lowerNamespace_exportless
  · exact .then fun r => .pure (exportless_one (hwrap r))
  · refine .then fun rs => ?_
    split
    · exact .pure exportless_nil
    · exact .pure (exportless_single (hwrap _))

/-- Whatever a statement becomes by itself is of its own kind. -/
theorem lowerSimple_exportless (hk : exportsNames n.kind = false) :
    Always c (lowerSimple g n) fun r => exportsNames r.kind = false := by
  intro s
  cases n with
  | absent => rfl
  | mk h ks ds t a y =>
    have hown : exportsNames h.kind = false := hk
    unfold lowerSimple
    split <;> first | exact hown | rfl

/-! ## Expressions that are no names -/

/-- Whether an expression of a kind may be lowered to a name. -/
def mayBeName : NodeKind → Bool
  | .ident | .optChain => true
  | k => k.isTypeWrapper

/-- A node that is no name. -/
def NoName (r : Node) : Prop := (r.kind == .ident) = false

/-- What stays of its kind does not become a name. -/
theorem like_noName (hk : mayBeName n.kind = false) (ks : List Node) : NoName (like n ks) := by
  refine beq_eq_false_iff_ne.2 fun e => ?_
  have hident : n.kind = .ident := e
  rw [hident] at hk
  cases hk

theorem leaf_noName (hk : mayBeName n.kind = false) : NoName (leaf n) := like_noName hk []

theorem lowerNullish_noName {span : Span} {left : Node} {right : LowerM Node} :
    Always c (lowerNullish span left right) NoName :=
  .then fun _ => .then fun _ => .pure rfl

theorem lowerPowerAssign_noName (hk : mayBeName n.kind = false) :
    Always c (lowerPowerAssign g n) NoName := by
  refine .then fun o => ?_
  split
  · exact .then fun _ => .then fun _ => .then fun _ => .pure (like_noName hk _)
  · exact .then fun _ => .pure rfl

theorem lowerLogicalAssign_noName (hk : mayBeName n.kind = false) :
    Always c (lowerLogicalAssign g n) NoName := by
  refine .then fun o => ?_
  split
  · exact .then fun _ => .then fun _ => .then fun _ => .pure (like_noName hk _)
  · dsimp only
    split
    · exact .then fun _ => .pure rfl
    · exact .then fun _ => .pure rfl
    · exact .then fun _ => .branch (fun _ => lowerNullish_noName) fun _ => .then fun _ => .pure rfl

theorem lowerUnary_noName (hk : n.kind = .unary) :
    Always c (lowerUnary g n) NoName := by
  refine .then fun old =>
    .branch (fun _ => .then fun base => .then fun chain => .pure ?_) fun _ => ?_
  · cases chain.tests <;> rfl
  · exact .then fun _ => .pure (like_noName (by rw [hk]; rfl) _)

theorem automaticCall_noName {span : Span} {tag : Node} {attrs : List Node} {kids : List Child} :
    Always c (automaticCall g span tag attrs kids) NoName := by
  refine .then fun props => .either fun tag => ?_
  refine .branch (fun _ => .then fun obj => .then fun f => .pure rfl) fun _ => ?_
  refine .then fun obj => .then fun c' => .branch (fun _ => ?_) fun _ => .then fun f => .pure rfl
  exact .then fun source => .then fun f => .pure rfl

theorem classicCall_noName {span : Span} {tag : Node} {attrs : List Node} {kids : List Child} :
    Always c (classicCall g span tag attrs kids) NoName := by
  refine .then fun c' => ?_
  extract_lets o tag' build
  have hbuild (props : Node) : Always c (build props) NoName := .pure rfl
  exact .branch (fun _ => .then hbuild) fun _ => .then fun p => .then hbuild

theorem lowerElement_noName : Always c (lowerElement g n) NoName := by
  unfold lowerElement
  extract_lets isFragment attrs children
  refine .either fun tag => .then fun kids => .then fun c' => ?_
  exact .branch (fun _ => classicCall_noName) fun _ => automaticCall_noName

/-- A pattern that stands as an expression stays one. -/
theorem lowerPattern_noName {b : Bool}
    (hk : n.kind ∈ [.arrayPattern, .objectPattern, .assignPattern, .restElement]) :
    Always c (lowerPattern g b n) NoName := by
  have hown (ks : List Node) : NoName (like n ks) := by
    refine like_noName ?_ ks
    simp only [List.mem_cons, List.not_mem_nil, or_false] at hk
    rcases hk with hk | hk | hk | hk <;> rw [hk] <;> rfl
  unfold lowerPattern
  refine .branch (fun _ => .pure rfl) fun _ => ?_
  simp only [List.mem_cons, List.not_mem_nil, or_false] at hk
  rcases hk with hk | hk | hk | hk <;> simp only [hk]
  · exact .then fun rs => .pure (hown rs)
  · exact .then fun rs => .pure (hown rs)
  · exact .then fun target => .then fun init => .pure (hown _)
  · exact .then fun r => .pure (hown _)

theorem lowerExpr_noName (d : Nat) (hk : mayBeName n.kind = false) :
    Always c (lowerExpr (rules d) n) NoName := by
  have hown (ks : List Node) : NoName (like n ks) := like_noName hk ks
  have hleaf : NoName (leaf n) := leaf_noName hk
  have hpattern (hp : n.kind ∈ [.arrayPattern, .objectPattern, .assignPattern, .restElement]) :
      Always c ((rules d).pattern true n) NoName := by
    cases d with
    | zero => exact .then fun _ => .pure rfl
    | succ d => exact lowerPattern_noName hp
  unfold lowerExpr
  refine .branch (fun _ => .pure rfl) fun _ => ?_
  split
  case h_1 h | h_10 h | h_11 h | h_12 h | h_13 h | h_14 h | h_37 h => rw [h] at hk; cases hk
  case h_2 =>
    refine .then fun old => .branch (fun _ => ?_) fun _ => .pure hleaf
    dsimp only
    refine .pure ?_
    split
    · exact hleaf
    · exact hleaf
  case h_3 | h_4 | h_5 | h_6 | h_7 | h_8 | h_9 => exact .pure hleaf
  case h_15 | h_16 | h_17 | h_18 | h_19 | h_20 | h_21 | h_22 | h_23 | h_24 | h_25 | h_26 | h_27 =>
    exact .then fun rs => .pure (hown rs)
  case h_28 | h_34 => exact .then fun r => .pure (hown _)
  case h_29 =>
    exact .then fun rs => .then fun old => .branch (fun _ => .pure rfl) fun _ => .pure (hown rs)
  case h_30 | h_32 => exact fun s => hown []
  case h_31 =>
    refine .then fun params => .then fun _ =>
      .branch (fun _ => .then fun body => .pure (hown _)) fun _ => ?_
    exact .then fun r => .branch (fun _ => .pure (hown _)) fun _ => .then fun stmts =>
      .pure (hown [])
  case h_33 h => exact lowerUnary_noName h
  case h_35 =>
    refine .then fun left => .then fun old => .branch (fun _ => lowerNullish_noName) fun _ => ?_
    exact .then fun right => .then fun old => .branch (fun _ => .pure rfl) fun _ => .pure (hown _)
  case h_36 =>
    refine .then fun old => .branch (fun _ => lowerPowerAssign_noName hk) fun _ =>
      .then fun old => ?_
    refine .branch (fun _ => lowerLogicalAssign_noName hk) fun _ => ?_
    exact .then fun target => .then fun value => .pure (hown _)
  case h_38 | h_39 => exact lowerElement_noName
  case h_40 h | h_41 h | h_42 h | h_43 h => exact hpattern (by rw [h]; decide)
  case h_44 => exact .then fun _ => .pure rfl

end

/-! ## Names that are used -/

theorem usesAt_eq (i : Nat) (ks : List Node) : usesAt i ks = uses (ks.getD i .absent) := by
  induction ks generalizing i with
  | nil => cases i <;> rfl
  | cons k ks ih =>
    cases i with
    | zero => rfl
    | succ i => exact ih i

theorem names_append (u v : Uses) : (u ++ v).names = u.names ++ v.names := rfl

theorem mem_usesAll {k : Node} {ks : List Node} (hk : k ∈ ks) (hx : x ∈ (uses k).names) :
    x ∈ (usesAll ks).names := by
  induction ks with
  | nil => cases hk
  | cons k' ks ih =>
    rw [usesAll, names_append, List.mem_append]
    rcases List.mem_cons.1 hk with rfl | hk
    · exact .inl hx
    · exact .inr (ih hk)

/-- These statements use what their parts use. -/
theorem mem_uses_of_kid {k : Node} (hn : n.kind ∈ [.program, .ifStmt, .exportDefault])
    (hk : k ∈ n.kids) (hx : x ∈ (uses k).names) : x ∈ (uses n).names := by
  cases n with
  | absent => cases hk
  | mk h ks ds t a y =>
    have hmem : x ∈ (usesAll ds ++ usesAll ks).names :=
      List.mem_append_right (usesAll ds).names (mem_usesAll hk hx)
    have hn : h.kind ∈ [.program, .ifStmt, .exportDefault] := hn
    simp only [List.mem_cons, List.not_mem_nil, or_false] at hn
    rw [uses]
    rcases hn with hn | hn | hn <;> rw [hn] <;> exact hmem

theorem mem_uses_ident (hn : n.kind = .ident) : n.text ∈ (uses n).names := by
  cases n with
  | absent => cases hn
  | mk h ks ds t a y =>
    have hn : h.kind = .ident := hn
    rw [uses, hn]
    exact List.mem_append_right (usesAll ds).names List.mem_cons_self

theorem mem_usesSpecs {spec : Node} {ks : List Node} {i : Nat} (hs : spec ∈ ks.drop i)
    (ht : spec.flags.typeOnly = false) (hk : (spec.kid 0).kind = .ident) :
    (spec.kid 0).text ∈ (usesSpecs i ks).names := by
  induction ks generalizing i with
  | nil => simp at hs
  | cons k ks ih =>
    cases i with
    | succ i => exact ih (i := i) hs
    | zero =>
      cases k with
      | absent =>
        rcases List.mem_cons.1 hs with rfl | hs
        · cases hk
        · exact ih (i := 0) hs
      | mk h ks' ds t a y =>
        rw [usesSpecs, names_append, List.mem_append]
        rcases List.mem_cons.1 hs with rfl | hs
        · have ht : h.flags.typeOnly = false := ht
          rw [ht, if_neg Bool.false_ne_true, usesAt_eq]
          exact .inl (mem_uses_ident hk)
        · exact .inr (ih (i := 0) hs)

theorem mem_uses_exported {spec : Node} (hn : n.kind = .exportNamed)
    (h0 : (n.kid 0).isPresent = false)
    (hs : spec ∈ n.kids.drop 2) (ht : spec.flags.typeOnly = false)
    (hk : (spec.kid 0).kind = .ident) :
    (spec.kid 0).text ∈ (uses n).names := by
  cases n with
  | absent => cases hn
  | mk h ks ds t a y =>
    have hn : h.kind = .exportNamed := hn
    have h0 : (ks.getD 0 .absent).isPresent = false := h0
    rw [uses, hn]
    refine List.mem_append_right (usesAll ds).names ?_
    show _ ∈ (if (ks.getD 0 .absent).isPresent then ({} : Uses) else usesSpecs 2 ks).names
    rw [h0]
    exact mem_usesSpecs hs ht hk

/-! ## Exports that stay -/

/-- A lowered statement exports only names that are used and are not of the type level, whatever the
generated names become. -/
def ExportsValues (c : Context) (r : Node) : Prop :=
  ∀ f, Respells f → ∀ x ∈ exportedNames (r.mapHeads f), x ≠ [] → x ∈ c.used ∧ x ∉ c.typeLevel

theorem exportsValues_of_kind (hk : exportsNames r.kind = false) : ExportsValues c r := by
  intro f hf x hx
  rw [exportedNames_of_kind (by rw [hf.kind_mapHeads]; exact hk)] at hx
  cases hx

theorem Exportless.exportsValues {rs : List Node} (h : Exportless rs) :
    ∀ r ∈ rs, ExportsValues c r :=
  fun r hr => exportsValues_of_kind (h r hr)

section

variable {g : Rules}

theorem lowerExportSpec_values {reexport : Bool} : Always c (lowerExportSpec reexport n) fun rs =>
    ∀ r ∈ rs, r.kid 0 = leaf (n.kid 0) ∧ n.flags.typeOnly = false ∧
      (reexport = false → (n.kid 0).text ∉ c.typeLevel) := by
  refine .bind .read fun c' hc => .branch (fun _ => .pure (by simp)) fun hno => .pure ?_
  subst hc
  simp only [Bool.or_eq_true, Bool.and_eq_true, not_or, not_and, Bool.not_eq_true,
    Bool.not_eq_eq_eq_not, Bool.not_true] at hno
  intro r hr
  obtain rfl := List.mem_singleton.1 hr
  exact ⟨rfl, hno.1, fun hre => by simpa using hno.2 hre⟩

theorem lowerExportNamed_values (hk : n.kind = .exportNamed) (hn : Tidy n)
    (hused : ∀ y ∈ (uses n).names, y ∈ c.used) :
    Always c (lowerExportNamed g n) (ExportsValues c) := by
  refine .branch (fun _ => .pure (exportsValues_of_kind rfl)) fun _ => .then fun attrs => ?_
  have hspecs : Always c ((n.kids.drop 2).mapM (lowerExportSpec (n.kid 0).isPresent)) fun specs =>
      ∀ rs ∈ specs, ∀ r ∈ rs, ∃ spec ∈ n.kids.drop 2, r.kid 0 = leaf (spec.kid 0) ∧
        spec.flags.typeOnly = false ∧
        ((n.kid 0).isPresent = false → (spec.kid 0).text ∉ c.typeLevel) :=
    .mapM fun spec hs => lowerExportSpec_values.mono fun rs h r hr => ⟨spec, hs, h r hr⟩
  refine .bind hspecs fun specs hspecs => ?_
  refine .branch (fun _ => .pure (exportsValues_of_kind rfl)) fun _ => .pure ?_
  intro f hf x hx hne
  have hkind : (like n (leaf? (n.kid 0) :: attrs :: specs.flatten)).kind = .exportNamed := hk
  have hsource :
      (((like n (leaf? (n.kid 0) :: attrs :: specs.flatten)).mapHeads f).kid 0).isPresent =
      (n.kid 0).isPresent := by
    rw [kid_mapHeads, isPresent_mapHeads]
    show (leaf? (n.kid 0)).isPresent = _
    cases n.kid 0 <;> rfl
  rw [exportedNames, hf.kind_mapHeads, hkind] at hx
  dsimp only at hx
  rw [hsource] at hx
  cases h0 : (n.kid 0).isPresent with
  | true =>
    rw [h0] at hx
    cases hx
  | false =>
    rw [h0, if_neg Bool.false_ne_true, kids_mapHeads, ← List.map_drop, List.map_map] at hx
    obtain ⟨r, hr, hname⟩ := List.mem_map.1 hx
    obtain ⟨rs, hrs, hr⟩ := List.mem_flatten.1 hr
    obtain ⟨spec, hs, hkid, ht, hlevel⟩ := hspecs rs hrs r hr
    have hident : nameOf (spec.kid 0) = x := by
      rw [← hname, Function.comp_apply, kid_mapHeads, hkid, hf.leaf ((hn.drop hs).kid 0).mark]
      rfl
    obtain ⟨hk0, htext⟩ := ident_of_nameOf hident hne
    rw [← htext]
    exact ⟨hused _ (mem_uses_exported hk h0 hs ht hk0), hlevel h0⟩

/-- A name that is read stays itself, or is no name any more. -/
theorem nameRef_name (hk : n.kind = .ident) (hn : n.mark = 0) :
    Always c (nameRef n) fun r => NoName r ∨ ∀ f, Respells f → nameOf (r.mapHeads f) = n.text := by
  have hleaf : ∀ f, Respells f → nameOf ((leaf n).mapHeads f) = n.text := by
    intro f hf
    rw [hf.leaf hn, nameOf, show (leaf n).kind = .ident from hk]
    rfl
  refine .then fun o => ?_
  split
  · exact .pure (.inl rfl)
  · refine .then fun d => ?_
    split
    · rw [if_pos hn]
      refine .pure (.inl ?_)
      unfold Define.replacement
      split <;> rfl
    · exact .pure (.inr hleaf)

theorem nameOf_noName (hf : Respells f) (hr : NoName r) : nameOf (r.mapHeads f) = [] := by
  rw [nameOf, hf.kind_mapHeads, show (r.kind == .ident) = false from hr]
  rfl

theorem lowerExportDefault_values (d : Nat) (hk : n.kind = .exportDefault) (hn : Tidy n)
    (hplain : mayBeName (n.kid 0).kind = true → (n.kid 0).kind = .ident)
    (hused : ∀ y ∈ (uses n).names, y ∈ c.used) :
    Always c (lowerExportDefault (rules d) n) (ExportsValues c) := by
  have hnone {r : Node} (hr : NoName r) : ExportsValues c (like n [r]) := by
    intro f hf x hx hne
    rw [exportedNames, hf.kind_mapHeads, show (like n [r]).kind = .exportDefault from hk] at hx
    refine absurd ?_ hne
    rw [List.mem_singleton.1 hx, kid_mapHeads]
    exact nameOf_noName hf hr
  refine .branch (fun _ => .pure (exportsValues_of_kind rfl)) fun _ => ?_
  split
  case h_1 hf =>
    exact .bind (R := NoName) (fun s => like_noName (by rw [hf]; rfl) _) fun r hr =>
      .pure (hnone hr)
  case h_2 hf =>
    exact .bind (R := NoName) (fun s => like_noName (by rw [hf]; rfl) []) fun r hr =>
      .pure (hnone hr)
  case h_3 =>
    refine .bind .read fun c' hc =>
      .branch (fun _ => .pure (exportsValues_of_kind rfl)) fun hlevel => ?_
    rw [hc] at hlevel
    refine .bind (R := fun r => NoName r ∨ (n.kid 0).kind = .ident ∧
      ∀ f, Respells f → nameOf (r.mapHeads f) = (n.kid 0).text) ?_ fun r hr => .pure ?_
    · cases d with
      | zero => exact .then fun _ => .pure (.inl rfl)
      | succ d =>
        cases hname : mayBeName (n.kid 0).kind with
        | false => exact (lowerExpr_noName d hname).mono fun r hr => .inl hr
        | true =>
          have hident := hplain hname
          show Always c (lowerExpr (rules d) (n.kid 0)) _
          unfold lowerExpr
          refine .branch (fun _ => .pure (.inl rfl)) fun _ => ?_
          simp only [hident]
          refine (nameRef_name hident (hn.kid 0).mark).mono fun r hr => ?_
          exact hr.imp_right fun hr => ⟨trivial, hr⟩
    · rcases hr with hr | ⟨hident, hr⟩
      · exact hnone hr
      · intro f hf x hx hne
        rw [exportedNames, hf.kind_mapHeads, show (like n [r]).kind = .exportDefault from hk] at hx
        obtain rfl : x = (n.kid 0).text := by
          rw [List.mem_singleton.1 hx, kid_mapHeads]
          exact hr f hf
        refine ⟨hused _ ?_, ?_⟩
        · rcases kid_cases n 0 with h0 | ⟨-, h0⟩
          · rw [h0] at hident
            cases hident
          · exact mem_uses_of_kid (by rw [hk]; decide) h0 (mem_uses_ident hident)
        · simpa [hident] using hlevel

/-- Each default export of a name in a tree is one of the name alone: no type stands around it, and
it does not begin a chain. -/
def PlainDefaults (n : Node) : Prop :=
  ∀ m ∈ n.walk, m.kind = .exportDefault → mayBeName (m.kid 0).kind = true → (m.kid 0).kind = .ident

theorem PlainDefaults.mem {k : Node} (h : PlainDefaults n) (hk : k ∈ n.kids) : PlainDefaults k :=
  fun m hm => h m (walk_of_kid hk hm)

/-- What a statement exports, given what the second branch of a condition exports. -/
theorem lowerStmt_values_of {d : Nat} (hscopes : c.scopes = []) (hn : Tidy n)
    (hplain : PlainDefaults n) (hused : ∀ y ∈ (uses n).names, y ∈ c.used)
    (hbranch : n.kind = .ifStmt → ∀ k ∈ n.kids,
      Always c ((rules d).stmt k) fun rs => ∀ r ∈ rs, ExportsValues c r) :
    Always c (lowerStmt (rules d) n) fun rs => ∀ r ∈ rs, ExportsValues c r := by
  have hnil : ∀ r ∈ ([] : List Node), ExportsValues c r := by simp
  have hone {m : LowerM Node} (hm : Always c m (ExportsValues c)) :
      Always c (do return one (← m)) fun rs => ∀ r ∈ rs, ExportsValues c r :=
    hm.bind fun r hr => .pure (forall_mem_one hr)
  have hdeclared {m : LowerM Node} (hm : Always c m fun r => exportsNames r.kind = false) :
      Always c (if n.flags.declared then return [] else return [← m])
        fun rs => ∀ r ∈ rs, ExportsValues c r :=
    .branch (fun _ => .pure hnil) fun _ => hm.bind fun r hr =>
      .pure (exportless_single hr).exportsValues
  have hlike {k : NodeKind} (hk : n.kind = k) (he : exportsNames k = false) (ks : List Node) :
      ExportsValues c (like n ks) := by
    subst hk
    exact exportsValues_of_kind he
  have habsent : ExportsValues c .absent := exportsValues_of_kind rfl
  unfold lowerStmt
  split
  case h_1 | h_2 | h_3 | h_4 => exact .pure hnil
  case h_5 hk | h_6 hk | h_7 hk =>
    refine hdeclared fun s => ?_
    show exportsNames n.kind = false
    rw [hk]
    rfl
  case h_8 => exact lowerEnum_exportless.mono fun rs h => h.exportsValues
  case h_9 => exact lowerNamespace_exportless.mono fun rs h => h.exportsValues
  case h_10 hk =>
    refine hone (.branch (fun _ => .pure habsent) fun _ => .then fun attrs => .then fun specs => ?_)
    exact .branch (fun _ => .pure habsent) fun _ => .pure (hlike hk rfl _)
  case h_11 =>
    refine hone (.branch (fun _ => .pure habsent) fun _ => ?_)
    refine .branch (fun _ => .then fun _ => .pure habsent) fun _ => .then fun keeps => ?_
    exact .branch (fun _ => .then fun value => .pure (exportsValues_of_kind rfl)) fun _ =>
      .pure habsent
  case h_12 hk => exact hone (lowerExportNamed_values hk hn hused)
  case h_13 hk =>
    exact hone (.branch (fun _ => .pure habsent) fun _ => .then fun attrs => .pure (hlike hk rfl _))
  case h_14 => exact (lowerExportDecl_exportless hscopes).mono fun rs h => h.exportsValues
  case h_15 hk =>
    have hp : n.isPresent = true := isPresent_of_kind hk (by decide)
    exact hone (lowerExportDefault_values d hk hn (hplain n (walk_self hp) hk) hused)
  case h_16 => exact .then fun _ => .pure hnil
  case h_17 hk =>
    refine .then fun stripped =>
      .branch (fun _ => .branch (fun _ => .pure hnil) fun hno => ?_) fun _ => ?_
    · rcases kid_cases n 2 with h2 | ⟨-, h2⟩
      · rw [h2] at hno
        exact absurd rfl hno
      · exact hbranch hk _ h2
    · refine .then fun test => .then fun yes => .then fun no => .pure ?_
      simpa using hlike hk rfl _
  case h_18 =>
    refine hone ((lowerSimple_exportless ?_).mono fun r => exportsValues_of_kind)
    unfold exportsNames
    split <;> simp_all

theorem lowerStmt_values (d : Nat) (hscopes : c.scopes = []) (hn : Tidy n)
    (hplain : PlainDefaults n)
    (hused : ∀ y ∈ (uses n).names, y ∈ c.used) :
    Always c (lowerStmt (rules d) n) fun rs => ∀ r ∈ rs, ExportsValues c r := by
  induction d generalizing n with
  | zero =>
    exact lowerStmt_values_of hscopes hn hplain hused fun _ k _ => .then fun _ => .pure (by simp)
  | succ d ih =>
    refine lowerStmt_values_of hscopes hn hplain hused fun hk k hmem => ?_
    refine ih (hn.mem hmem) (hplain.mem hmem) fun y hy => hused y ?_
    exact mem_uses_of_kid (by rw [hk]; decide) hmem hy

end

end

/-! ## Files -/

section

variable {file : SourceFile} {root out : Node} {comments : CommentTable} {supply : NameSupply}
  {o : Settings} {x : Bytes}

theorem mem_used_of_uses (hx : x ∈ (uses root).names) :
    x ∈ (topContext file root comments o).used := by
  show x ∈ usedNames _ root
  unfold usedNames
  dsimp only
  split
  · exact List.mem_append_left _ hx
  · exact hx

/-- A name that a lowered file exports without declaring it is used in the file, and not one of the
type level. -/
theorem exported_names_are_values (hroot : Tidy root) (hplain : PlainDefaults root)
    (h : (lowerTree file root comments supply o).tree = some out) (hne : x ≠ [])
    (hx : x ∈ out.kids.flatMap exportedNames) :
    x ∈ (topContext file root comments o).used ∧ x ∉ typeLevelNames root := by
  have hk : root.kind = .program := (lowerTree_eq_some h).1
  have hstmts (d : Nat) (n : Node) (hn : n ∈ root.kids) :
      Yields (topContext file root comments o) True (lowerStmt (rules d) n)
        fun rs => ∀ r ∈ rs, ExportsValues (topContext file root comments o) r := by
    refine (yields_lowerStmt (lowers_rules codeAim d)).always ?_
    refine lowerStmt_values d rfl (hroot.mem hn) (hplain.mem hn) fun y hy => mem_used_of_uses ?_
    exact mem_uses_of_kid (by rw [hk]; decide) hn hy
  have htemps (r : Node) (hr : IsTempDecl r) :
      ExportsValues (topContext file root comments o) r := by
    obtain ⟨decls, rfl, -⟩ := hr
    exact exportsValues_of_kind rfl
  have hhelpers (r : Node) (hr : IsHelperImport r) :
      ExportsValues (topContext file root comments o) r := by
    obtain ⟨source, specs, rfl, -⟩ := hr
    exact exportsValues_of_kind rfl
  obtain ⟨f, hf, hall⟩ := lowered_statements h hstmts htemps hhelpers
  obtain ⟨k, hmem, hx⟩ := List.mem_flatMap.1 hx
  obtain ⟨r, hr, rfl⟩ := hall k hmem
  exact hr f hf x hx hne

/-- A name that a file declares is declared as a value, or one of the type level. -/
theorem mem_typeLevelNames (hx : x ∈ (root.kids.flatMap declaredNames).map Prod.fst)
    (hno : (x, true) ∉ root.kids.flatMap declaredNames) : x ∈ typeLevelNames root := by
  obtain ⟨⟨y, isValue⟩, hmem, rfl⟩ := List.mem_map.1 hx
  cases isValue with
  | true => exact absurd hmem hno
  | false =>
    refine List.mem_map.2 ⟨(y, false), List.mem_filter.2 ⟨hmem, ?_⟩, rfl⟩
    simpa using hno

example : typeLevelNames (.new .program {} [.new .interfaceDecl {} [.ident "I" {}],
    .new .classDecl {} [.ident "C" {}], .new .interfaceDecl {} [.ident "C" {}]]) = ["I"] := by
  decide +kernel

/-- Whether a statement of a file leaves a declaration of the name, as long as the file uses it. An
object must leave something, and no object further in may have taken its name. -/
def surelyDeclares (taken : List Bytes) (x : Bytes) (n : Node) : Bool :=
  if (ownNames n).contains x then leaves n && !taken.contains x
  else (declaredNames n).contains (x, true)

/-- The names of enumerations and namespaces that nothing in their list surely declares. -/
def looseNames (ns : List Node) : List Bytes :=
  (ns.flatMap ownNames).filter fun x => !ns.any (surelyDeclares (ns.flatMap innerNames) x)

theorem exists_surelyDeclares {ns : List Node} (hx : (x, true) ∈ ns.flatMap declaredNames)
    (hloose : x ∉ looseNames ns) : ∃ n ∈ ns, surelyDeclares (ns.flatMap innerNames) x n = true := by
  by_cases hown : x ∈ ns.flatMap ownNames
  · have hany : ns.any (surelyDeclares (ns.flatMap innerNames) x) = true := by
      by_contra hno
      exact hloose (List.mem_filter.2 ⟨hown, by simpa using hno⟩)
    exact List.any_eq_true.1 hany
  · obtain ⟨n, hn, hx⟩ := List.mem_flatMap.1 hx
    have hno : x ∉ ownNames n := fun hmem => hown (List.mem_flatMap.2 ⟨n, hn, hmem⟩)
    refine ⟨n, hn, ?_⟩
    rw [surelyDeclares, if_neg (by simpa using hno)]
    exact List.contains_iff_mem.2 hx

/-- A name that a file uses and surely declares is declared by the lowered file. -/
theorem used_declarations_stay (hroot : Grown file root)
    (h : (lowerTree file root comments supply o).tree = some out) (hne : x ≠ [])
    (hused : x ∈ (topContext file root comments o).used)
    (hx : (x, true) ∈ root.kids.flatMap declaredNames) (hloose : x ∉ looseNames root.kids) :
    (x, true) ∈ out.kids.flatMap declaredNames := by
  obtain ⟨n, hn, hsure⟩ := exists_surelyDeclares hx hloose
  unfold surelyDeclares at hsure
  split at hsure
  · rename_i hown
    obtain ⟨hleaves, htaken⟩ := Bool.and_eq_true_iff.1 hsure
    have hinner (k : Node) (hk : k ∈ root.kids) : x ∉ innerNames k := by
      intro hmem
      rw [List.contains_iff_mem.2 (List.mem_flatMap.2 ⟨k, hk, hmem⟩)] at htaken
      cases htaken
    obtain ⟨part, f, hpart, hf, hsub⟩ := lowered_list h fun d =>
      yields_objects_declared (d + 1) hroot.kids
    obtain ⟨r, hr, hdeclares⟩ :=
      hpart n hn hleaves x (List.contains_iff_mem.1 hown) hne hinner
    exact List.mem_flatMap.2 ⟨_, hsub r hr, hdeclares f hf⟩
  · rename_i hown
    obtain ⟨part, f, ⟨r, rfl, hdeclares⟩, hf, hsub⟩ := lowered_statement h hn fun d =>
      (keepsName_rules hne d).lowerStmt hne rfl hused (hroot.tidy.mem hn)
        (List.contains_iff_mem.1 hsure) (by simpa using hown)
    exact List.mem_flatMap.2 ⟨_, hsub r (List.mem_singleton_self r), hdeclares f hf⟩

end

/-- An export that stays finds its name: where a file exports a name by itself, in a list or as the
default, and declares it, the lowered file declares the name as a value, unless all that declares it
are enumerations and namespaces that may leave nothing or whose name an object further in has
taken. -/
theorem exported_names_are_declared (file : SourceFile) (po : Parse.Options) (root : Node)
    (hparse : (Parse.parseFile file po).tree = some root) (comments : CommentTable)
    (supply : NameSupply) (o : Settings) (out : Node)
    (h : (lowerTree file root comments supply o).tree = some out) (hplain : PlainDefaults root)
    (x : Bytes) (hne : x ≠ []) (hx : x ∈ out.kids.flatMap exportedNames)
    (hdeclared : x ∈ (root.kids.flatMap declaredNames).map Prod.fst)
    (hloose : x ∉ looseNames root.kids) : (x, true) ∈ out.kids.flatMap declaredNames := by
  have hroot := (Parse.parseFile_grown hparse).1
  obtain ⟨hused, hlevel⟩ := exported_names_are_values hroot.tidy hplain h hne hx
  refine used_declarations_stay hroot h hne hused ?_ hloose
  by_cases hvalue : (x, true) ∈ root.kids.flatMap declaredNames
  · exact hvalue
  · exact absurd (mem_typeLevelNames hdeclared hvalue) hlevel

/-- Whether each default export of a name in a tree is one of the name alone. -/
def hasPlainDefaults (n : Node) : Bool :=
  n.walk.all fun m => m.kind != .exportDefault || !mayBeName (m.kid 0).kind ||
    (m.kid 0).kind == .ident

theorem plainDefaults_of_has {n : Node} (h : hasPlainDefaults n = true) : PlainDefaults n := by
  intro m hm hk hname
  have hall := List.all_eq_true.1 h m hm
  rw [hk, hname] at hall
  simpa using hall

/-- An imported name, a class that an interface shares its name with, an enumeration, a namespace
and a function that is declared before are exported and there. -/
theorem exported_import_and_class :
    let file := (FileSet.empty.add "a.ts"
      ("import \x7b a \x7d from 'm'; interface C \x7b\x7d class C \x7b\x7d type T = C; " ++
        "enum E \x7b A \x7d namespace N \x7b export const x = 1; \x7d " ++
        "function f(): void; function f() \x7b\x7d " ++
        "export \x7b C, T, E, N, f \x7d; export default a;")
      true).2
    let r := Parse.parseFile file {}
    ∃ root out, r.tree = some root ∧ (lowerTree file root r.comments {} {}).tree = some out ∧
      out.kids.flatMap exportedNames = ["C", "E", "N", "f", "a"].map Bytes.ofString ∧
      ∀ x ∈ out.kids.flatMap exportedNames, (x, true) ∈ out.kids.flatMap declaredNames := by
  intro file r
  have hrun : r.tree.isSome = true ∧
      (lowerTree file (r.tree.getD .absent) r.comments {} {}).tree.isSome = true ∧
      hasPlainDefaults (r.tree.getD .absent) = true ∧
      ((lowerTree file (r.tree.getD .absent) r.comments {} {}).tree.getD .absent).kids.flatMap
        exportedNames = ["C", "E", "N", "f", "a"].map Bytes.ofString ∧
      (∀ x ∈ ["C", "E", "N", "f", "a"].map Bytes.ofString, x ≠ [] ∧
        x ∈ ((r.tree.getD .absent).kids.flatMap declaredNames).map Prod.fst ∧
        x ∉ looseNames (r.tree.getD .absent).kids) := by
    decide +kernel
  obtain ⟨hsome, hlowered, hplain, hexported, hnames⟩ := hrun
  obtain ⟨root, hroot⟩ := Option.isSome_iff_exists.1 hsome
  rw [hroot, Option.getD_some] at hlowered hplain hexported hnames
  obtain ⟨out, hout⟩ := Option.isSome_iff_exists.1 hlowered
  rw [hout, Option.getD_some] at hexported
  refine ⟨root, out, hroot, hout, hexported, fun x hx => ?_⟩
  obtain ⟨hne, hdeclared, hloose⟩ := hnames x (hexported ▸ hx)
  exact exported_names_are_declared file {} root hroot r.comments {} {} out hout
    (plainDefaults_of_has hplain) x hne hx hdeclared hloose

/-- A function without a body and a namespace of types leave nothing, and the names they are
exported under stay. -/
theorem exported_name_without_declaration :
    let file := (FileSet.empty.add "a.ts"
      "declare function f(): void; namespace N \x7b export type T = 1; \x7d export \x7b f, N \x7d;"
        true).2
    let r := Parse.parseFile file {}
    ∃ root out, r.tree = some root ∧ (lowerTree file root r.comments {} {}).tree = some out ∧
      root.kids.map (fun n => (n.kind, nameOf (n.kid 0))) =
        [(.overload, Bytes.ofString "f"), (.namespaceDecl, Bytes.ofString "N"),
          (.exportNamed, [])] ∧
      looseNames root.kids = [Bytes.ofString "N"] ∧
      out.kids.flatMap exportedNames = [Bytes.ofString "f", Bytes.ofString "N"] ∧
      out.kids.flatMap declaredNames = [] := by
  intro file r
  have hrun : r.tree.isSome = true ∧
      (lowerTree file (r.tree.getD .absent) r.comments {} {}).tree.isSome = true ∧
      (r.tree.getD .absent).kids.map (fun n => (n.kind, nameOf (n.kid 0))) =
        [(.overload, Bytes.ofString "f"), (.namespaceDecl, Bytes.ofString "N"),
          (.exportNamed, [])] ∧
      looseNames (r.tree.getD .absent).kids = [Bytes.ofString "N"] ∧
      ((lowerTree file (r.tree.getD .absent) r.comments {} {}).tree.getD .absent).kids.flatMap
        exportedNames = [Bytes.ofString "f", Bytes.ofString "N"] ∧
      ((lowerTree file (r.tree.getD .absent) r.comments {} {}).tree.getD .absent).kids.flatMap
        declaredNames = [] := by
    decide +kernel
  obtain ⟨hsome, hlowered, hkinds, hloose, hexported, hdeclared⟩ := hrun
  obtain ⟨root, hroot⟩ := Option.isSome_iff_exists.1 hsome
  rw [hroot, Option.getD_some] at hlowered hkinds hloose hexported hdeclared
  obtain ⟨out, hout⟩ := Option.isSome_iff_exists.1 hlowered
  rw [hout, Option.getD_some] at hexported hdeclared
  exact ⟨root, out, hroot, hout, hkinds, hloose, hexported, hdeclared⟩

end ScriptLower.Lower
