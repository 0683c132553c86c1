import ScriptLower.Proofs.Lower.Comments
import ScriptLower.Proofs.Lower.DeclaredNames

/-!
# Objects are declared

An enumeration, or a namespace that holds more than types, leaves a function call that fills its
object. The first of one name in a list leaves a declaration as well, unless a function or a class
of the list has the name. So behind every list the objects in it are declared, but for those whose
name an object further in has taken before: it counts as declared in the list, and its declaration
stands elsewhere.
-/

namespace ScriptLower.Lower

open ScriptLower

section

variable {x : Bytes} {c : Context} {n r : Node} {ks : List Node} {given : Prop} {g : Rules}

/-! ## Statements that leave something -/

theorem leaves_eq (n : Node) : leaves n = match n.kind with
    | .varDecl | .funcDecl | .classDecl | .enumDecl => !n.flags.declared
    | .namespaceDecl => !n.flags.declared && !n.flags.isGlobal && bodyLeaves 1 n.kids
    | .exportDecl => exportLeaves n.kids
    | .ifStmt => elseLeaves 2 n.kids
    | .interfaceDecl | .typeAlias | .overload | .exportAsNamespace | .exportAssign | .importDecl
    | .importEquals | .exportNamed | .exportAll | .exportDefault => false
    | _ => n.isPresent := by
  cases n with
  | absent => rfl
  | mk h ks ds t a y => rw [leaves]; rfl

theorem isPresent_of_leaves (h : leaves n = true) : n.isPresent = true := by
  cases n with
  | absent => cases h
  | mk head ks ds t a y => rfl

theorem someLeaves_iff : someLeaves ks = true ↔ ∃ k ∈ ks, leaves k = true := by
  induction ks with
  | nil => simp [someLeaves]
  | cons k r ih => simp [someLeaves, ih]

theorem elseLeaves_eq (i : Nat) (ks : List Node) :
    elseLeaves i ks = leaves (ks.getD i .absent) := by
  induction ks generalizing i with
  | nil => cases i <;> rfl
  | cons k r ih =>
    cases i with
    | zero => rfl
    | succ i => exact ih i

theorem bodyLeaves_eq (i : Nat) (ks : List Node) :
    bodyLeaves i ks = if (ks.getD i .absent).kind == .namespaceDecl
      then leaves (ks.getD i .absent) else someLeaves (ks.getD i .absent).kids := by
  induction ks generalizing i with
  | nil => cases i <;> rfl
  | cons k r ih =>
    cases i with
    | zero =>
      cases k with
      | absent => rfl
      | mk head ks ds t a y => rw [bodyLeaves]; rfl
    | succ i =>
      rw [bodyLeaves]
      exact ih i

theorem fillObject_ne_nil {span : Span} {name : Node} {body : List Node} {exported : Bool}
    {parent : Option Scope} : Always c (fillObject span name body exported parent) (· ≠ []) :=
  .then fun _ => .branch (fun _ => .then fun _ => .then fun _ => .pure (by simp)) fun _ =>
    .then fun _ => .pure (by simp)

theorem yields_fillObject_ne_nil {span : Span} {name : Node} {body : List Node} {exported : Bool}
    {parent : Option Scope} :
    Yields c given (fillObject span name body exported parent) (· ≠ []) := by
  have hfill : Yields c False (fillObject span name body exported parent)
      fun rs => ∀ r ∈ rs, Fine codeAim r :=
    yields_fillObject codeAim span False.elim False.elim False.elim
  exact hfill.always fillObject_ne_nil

theorem lowerEnum_ne_nil {exported : Bool} (hd : n.flags.declared = false) :
    Always c (lowerEnum g n exported) (· ≠ []) :=
  .branch (fun h => absurd (hd.symm.trans h) (by decide)) fun _ => .then fun _ => .then fun _ =>
    fillObject_ne_nil

theorem lowerSimple_isPresent (hn : n.isPresent = true) :
    Always c (lowerSimple g n) fun r => r.isPresent = true := by
  intro s
  cases n with
  | absent => cases hn
  | mk h ks ds t a y =>
    unfold lowerSimple
    split <;> rfl

theorem one_ne_nil (hr : r.isPresent = true) : one r ≠ [] := by
  rw [one, if_neg (by simp [Node.isAbsent, hr])]
  simp

/-- The rules leave something of each statement that leaves something. -/
structure Leaving (g : Rules) : Prop where
  lowers : Lowers codeAim g
  stmt : ∀ {c given n}, leaves n = true → Yields c given (g.stmt n) (· ≠ [])
  namespaceDecl : ∀ {c given n} exported, n.kind = .namespaceDecl → leaves n = true →
    Yields c given (g.namespaceDecl n exported) (· ≠ [])

theorem Leaving.lowerEnum {exported : Bool} (hg : Leaving g) (hk : n.kind = .enumDecl)
    (hn : leaves n = true) : Yields c given (lowerEnum g n exported) (· ≠ []) := by
  rw [leaves_eq, hk] at hn
  exact (yields_lowerEnum hg.lowers hk).always (lowerEnum_ne_nil (by simpa using hn))

theorem Leaving.lowerList (hg : Leaving g) (h : ∃ k ∈ ks, leaves k = true) :
    Yields c given (lowerList g ks) (· ≠ []) := by
  obtain ⟨k, hk, hleaves⟩ := h
  refine (yields_lowerList_mem hg.lowers hk (hg.stmt hleaves)).mono fun rs _ h e => ?_
  obtain ⟨part, hne, hsub⟩ := h
  obtain ⟨r, hr⟩ := List.exists_mem_of_ne_nil part hne
  exact List.not_mem_nil (e ▸ hsub r hr)

theorem Leaving.namespaceBody (hg : Leaving g) {i : Nat} (h : bodyLeaves i ks = true) :
    Yields c given (if (ks.getD i .absent).kind == .namespaceDecl
      then g.namespaceDecl (ks.getD i .absent) true
      else Lower.lowerList g (ks.getD i .absent).kids) (· ≠ []) := by
  rw [bodyLeaves_eq] at h
  split at h
  · rw [if_pos ‹_›]
    exact hg.namespaceDecl true (beq_iff_eq.1 ‹_›) h
  · rw [if_neg ‹_›]
    exact hg.lowerList (someLeaves_iff.1 h)

theorem exportLeaves_eq (n : Node) : exportLeaves n.kids = match (n.kid 0).kind with
    | .varDecl => leaves (n.kid 0) && setsVariable (n.kid 0)
    | .importEquals => !(n.kid 0).flags.typeOnly
    | .funcDecl | .classDecl | .enumDecl | .namespaceDecl => leaves (n.kid 0)
    | _ => false := by
  unfold Node.kid
  cases n.kids <;> rfl

theorem isPresent_of_bodyLeaves {i : Nat} (h : bodyLeaves i ks = true) :
    (ks.getD i .absent).isPresent = true := by
  rw [bodyLeaves_eq] at h
  cases hbody : ks.getD i .absent with
  | absent =>
    rw [hbody] at h
    cases h
  | mk head ks ds t a y => rfl

theorem Leaving.lowerNamespace {exported : Bool} (hg : Leaving g) (hk : n.kind = .namespaceDecl)
    (hn : leaves n = true) : Yields c given (lowerNamespace g n exported) (· ≠ []) := by
  rw [leaves_eq, hk] at hn
  simp only [Bool.and_eq_true, Bool.not_eq_true'] at hn
  obtain ⟨⟨hd, hglobal⟩, hbody⟩ := hn
  have hpresent : (n.kid 1).isAbsent = false := by
    rw [Node.isAbsent, show (n.kid 1).isPresent = true from isPresent_of_bodyLeaves hbody]
    rfl
  refine .branch (fun h => ?_) fun _ =>
    .branch (fun _ => .error_then (.pure False.elim)) fun _ => ?_
  · rw [hd, hglobal, hpresent] at h
    cases h
  · refine .bind (yields_namespaceScope? (a := codeAim)).any fun parent => ?_
    refine .bind (.elsewhere (yields_collectTemps (hg.namespaceBody hbody))) fun r => ?_
    refine .branch (fun hempty => .pure fun h => absurd (List.isEmpty_iff.1 hempty) h.2) fun _ => ?_
    refine .bind (yields_withTemps_mem r.1 r.2) fun body => ?_
    exact yields_fillObject_ne_nil

theorem Leaving.lowerIf (hg : Leaving g) (hk : n.kind = .ifStmt) (hn : leaves n = true) :
    Yields c given (lowerIf g n) (· ≠ []) := by
  rw [leaves_eq, hk, elseLeaves_eq] at hn
  have hn : leaves (n.kid 2) = true := hn
  have hsingle (given : Prop) (m : Node) : Yields c given (lowerSingle g m) fun _ => True := by
    have hm : Yields c False (lowerSingle g m) (Fine codeAim) :=
      yields_lowerSingle hg.lowers False.elim
    exact hm.any
  refine .bind (yields_isStripped _) fun stripped => .branch (fun _ => ?_) fun _ => ?_
  · refine .branch (fun habsent => ?_) fun _ => hg.stmt hn
    rw [Node.isAbsent, isPresent_of_leaves hn] at habsent
    cases habsent
  · refine .bind (hg.lowers.expr c _).any fun test => .bind (hsingle _ _) fun yes => ?_
    exact .bind (hsingle _ _) fun no => .pure fun _ => by simp

theorem Leaving.lowerExportedVariable {ns : Scope} {d : Node} (hg : Leaving g)
    (hd : (d.kid 1).isPresent = true) :
    Yields c given (lowerExportedVariable g ns d) (· ≠ []) := by
  refine .branch (fun _ => .error_then (.pure False.elim)) fun _ =>
    .branch (fun h => ?_) fun _ => ?_
  · rw [Node.isAbsent, hd] at h
    cases h
  · exact .bind (hg.lowers.expr c _).any fun value => .pure fun _ => by simp

theorem Leaving.exportedVariables {ns : Scope} (hg : Leaving g) (hn : setsVariable n = true) :
    Yields c given (n.kids.mapM (Lower.lowerExportedVariable g ns)) (·.flatten ≠ []) := by
  have hany (d : Node) : Yields c given (Lower.lowerExportedVariable g ns d) fun _ => True := by
    have hd : Yields c False (Lower.lowerExportedVariable g ns d)
        fun rs => ∀ r ∈ rs, Fine codeAim r :=
      yields_lowerExportedVariable hg.lowers False.elim False.elim
    exact hd.any
  obtain ⟨d, hmem, hinit⟩ := List.any_eq_true.1 hn
  refine (Yields.mapM_mem hmem (hg.lowerExportedVariable hinit) hany).mono fun sets _ h e => ?_
  obtain ⟨rs, hrs, hne⟩ := h
  exact hne (List.flatten_eq_nil_iff.1 e rs hrs)

/-- In a namespace an exported declaration leaves something too. -/
theorem Leaving.lowerNamespaceExport {ns : Scope} (hg : Leaving g)
    (hn : exportLeaves n.kids = true) :
    Yields c given (lowerNamespaceExport g ns n) (· ≠ []) := by
  have hcopy (hd : leaves (n.kid 0) = true) (set : Node) : Yields c (given ∧ True) (do
      let out ← g.stmt (n.kid 0)
      if out.isEmpty then return []
      return out ++ [set]) (· ≠ []) := by
    refine .bind (hg.stmt hd) fun rs => .branch (fun hempty => .pure fun h => ?_) fun _ =>
      .pure fun _ => by simp
    exact absurd (List.isEmpty_iff.1 hempty) h.2
  refine .bind (yields_onComments _) fun _ => ?_
  rw [exportLeaves_eq] at hn
  split
  case h_1 hk =>
    rw [hk] at hn
    obtain ⟨hd, hset⟩ := Bool.and_eq_true_iff.1 hn
    rw [leaves_eq, hk] at hd
    refine .branch (fun h => ?_) fun _ => ?_
    · rw [h] at hd
      cases hd
    · exact .bind (hg.exportedVariables hset) fun sets => .pure And.right
  case h_2 hk | h_3 hk =>
    rw [hk] at hn
    exact hcopy hn _
  case h_4 hk =>
    rw [hk] at hn
    exact hg.lowerEnum hk hn
  case h_5 hk =>
    rw [hk] at hn
    exact hg.lowerNamespace hk hn
  case h_6 =>
    refine .branch (fun _ => .error_then (.pure False.elim)) fun _ => ?_
    have hentity : Yields c False (lowerEntity g ((n.kid 0).kid 1)) (Fine codeAim) :=
      (yields_lowerEntity hg.lowers _).under False.elim
    exact .bind hentity.any fun value => .pure fun _ => by simp
  case h_7 =>
    split at hn
    case h_7 => cases hn
    all_goals contradiction

theorem Leaving.lowerExportDecl (hg : Leaving g) (hn : exportLeaves n.kids = true) :
    Yields c given (lowerExportDecl g n) (· ≠ []) := by
  refine .bind (yields_namespaceScope? (a := codeAim)).any fun o => ?_
  split
  · exact hg.lowerNamespaceExport hn
  rw [exportLeaves_eq] at hn
  dsimp only
  split
  case h_1 hk =>
    rw [hk] at hn
    exact .bind (yields_onComments _) fun _ => hg.lowerEnum hk hn
  case h_2 hk =>
    rw [hk] at hn
    exact .bind (yields_onComments _) fun _ => hg.lowerNamespace hk hn
  case h_3 hk =>
    rw [hk] at hn
    have ht : (n.kid 0).flags.typeOnly = false := by simpa using hn
    refine .bind (yields_lowerAlias_keeps hg.lowers ht (.inl rfl)) fun r => .pure fun h => ?_
    obtain ⟨value, rfl⟩ := h.2
    exact one_ne_nil rfl
  case h_4 =>
    have hd : leaves (n.kid 0) = true := by
      split at hn
      case h_1 => exact (Bool.and_eq_true_iff.1 hn).1
      case h_2 => contradiction
      case h_7 => cases hn
      all_goals exact hn
    refine .bind (hg.stmt hd) fun rs => ?_
    split
    · exact .pure fun h => h.2
    · exact .pure fun _ => by simp

theorem Leaving.lowerStmt (hg : Leaving g) (hn : leaves n = true) :
    Yields c given (lowerStmt g n) (· ≠ []) := by
  have hp := isPresent_of_leaves hn
  have hdeclared {m : LowerM Node} (hd : n.flags.declared = false)
      (hm : Yields c given m fun _ => True) :
      Yields c given (if n.flags.declared then return [] else return [← m]) (· ≠ []) := by
    rw [hd]
    exact .bind hm fun r => .pure fun _ => by simp
  have heq := leaves_eq n
  rw [hn] at heq
  unfold Lower.lowerStmt
  split
  case h_5 hk =>
    rw [hk] at heq
    exact hdeclared (by simpa using heq) (yields_lowerVariables hg.lowers hk).any
  case h_6 hk =>
    rw [hk] at heq
    exact hdeclared (by simpa using heq) (yields_lowerFunction hg.lowers (.inl hk)).any
  case h_7 hk =>
    rw [hk] at heq
    exact hdeclared (by simpa using heq) (yields_lowerClass hg.lowers (.inl hk)).any
  case h_8 hk => exact hg.lowerEnum hk hn
  case h_9 hk => exact hg.lowerNamespace hk hn
  case h_14 hk =>
    rw [hk] at heq
    exact hg.lowerExportDecl heq.symm
  case h_17 hk => exact hg.lowerIf hk hn
  case h_18 =>
    refine .bind ((yields_lowerSimple hg.lowers n).always (lowerSimple_isPresent hp)) fun r =>
      .pure fun h => one_ne_nil h.2
  all_goals
    rename_i hk
    rw [hk] at heq
    cases heq

theorem leaving_rules : ∀ d, Leaving (rules d)
  | 0 =>
    { lowers := lowers_rules codeAim 0
      stmt := fun _ => .error_then (.pure False.elim)
      namespaceDecl := fun _ _ _ => .error_then (.pure False.elim) }
  | d + 1 =>
    { lowers := lowers_rules codeAim (d + 1)
      stmt := (leaving_rules d).lowerStmt
      namespaceDecl := fun _ => (leaving_rules d).lowerNamespace }

end

/-! ## Names that a list declares -/

/-- Behind the step its list declares nothing new but names of which `P` holds and names that one of
the statements it leaves declares. -/
def Declaring (P : Bytes → Prop) (m : LowerM (List Node)) : Prop :=
  ∀ c s, ∀ x ∈ (m c s).2.declared, x ∈ s.declared ∨ P x ∨ ∃ r ∈ (m c s).1, Declares x r

/-- If the step leaves something, its list declares the name behind it. -/
def Enters (x : Bytes) (m : LowerM (List Node)) : Prop :=
  ∀ c s, (m c s).1 ≠ [] → x ∈ (m c s).2.declared

/-- The step fills an object of the name, if it leaves something. -/
structure Fills (x : Bytes) (P : Bytes → Prop) (m : LowerM (List Node)) : Prop where
  declaring : Declaring P m
  enters : Enters x m

section

variable {f : SourceFile} {P : Bytes → Prop} {α : Type} {m m' : LowerM (List Node)} {x : Bytes}
  {g : Rules} {n : Node}

theorem Declaring.of_saving (hm : Saving f P m) : Declaring P m :=
  fun c s x hx => (hm.declares c s x hx).imp_right .inl

theorem Fills.nil : Fills x P (pure []) := ⟨fun _ _ _ hx => .inl hx, fun _ _ h => absurd rfl h⟩

/-- Only the last of some steps leaves statements. -/
theorem Fills.then (f : SourceFile) {start : LowerM α} {rest : α → LowerM (List Node)}
    [hs : Saving f P start] (h : ∀ a, Fills x P (rest a)) : Fills x P (start >>= rest) where
  declaring c s x hx := by
    rcases (h _).declaring c _ x hx with hx | hx
    · exact (hs.declares c s x hx).imp_right .inl
    · exact .inr hx
  enters c s := (h _).enters c _

theorem Fills.branch {p : Prop} [Decidable p] (yes : p → Fills x P m) (no : ¬p → Fills x P m') :
    Fills x P (if p then m else m') := by
  split
  · exact yes ‹_›
  · exact no ‹_›

theorem declareOnce_eq (name : Bytes) (c : Context) (s : State) :
    declareOnce name c s = if name ∈ s.declared then (false, s)
      else (true, { s with declared := name :: s.declared }) := by
  have hrun : declareOnce name c s = (if s.declared.contains name then pure false
      else do
        modify fun s => { s with declared := name :: s.declared }
        return true : LowerM Bool) c s := rfl
  rw [hrun]
  by_cases h : name ∈ s.declared
  · rw [if_pos h, if_pos (List.contains_iff_mem.2 h)]
    rfl
  · rw [if_neg h, if_neg (fun hc => h (List.contains_iff_mem.1 hc))]
    rfl

theorem Declares.variable (keyword : String) (span : Span) (name : Node) :
    Declares name.text
      (Lower.varDecl keyword span [declarator name.span (.ident name.text name.span)]) :=
  .varDecl rfl rfl ⟨_, List.mem_singleton_self _, .leaf (n := .ident name.text name.span) rfl rfl⟩

section

variable {span : Span} {name : Node} {body : List Node} {exported : Bool} {parent : Option Scope}
  {c : Context} {s : State}

theorem fillObject_old (h : name.text ∈ s.declared) :
    (fillObject span name body exported parent c s).2 = s := by
  simp only [fillObject, bind, ReaderT.bind, StateT.bind, declareOnce_eq, if_pos h]
  rfl

theorem fillObject_new (h : name.text ∉ s.declared) :
    (fillObject span name body exported parent c s).2.declared = name.text :: s.declared ∧
      ∃ r ∈ (fillObject span name body exported parent c s).1, Declares name.text r := by
  simp only [fillObject, bind, ReaderT.bind, StateT.bind, declareOnce_eq, if_neg h]
  refine ⟨rfl, _, List.mem_cons_self, ?_⟩
  split
  · exact (Declares.variable _ span name).wrap span
  · exact .variable _ span name

theorem fills_fillObject : Fills name.text P (fillObject span name body exported parent) := by
  refine ⟨fun c s x hx => ?_, fun c s _ => ?_⟩
  · by_cases h : name.text ∈ s.declared
    · rw [fillObject_old h] at hx
      exact .inl hx
    · obtain ⟨hdeclared, hr⟩ := fillObject_new h
      rw [hdeclared] at hx
      rcases List.mem_cons.1 hx with rfl | hx
      · exact .inr (.inr hr)
      · exact .inl hx
  · by_cases h : name.text ∈ s.declared
    · rw [fillObject_old h]
      exact h
    · rw [(fillObject_new h).1]
      exact List.mem_cons_self

end

/-! ## Statements that fill objects -/

theorem fills_lowerEnum {exported : Bool} (hg : g.Save f P) (hn : Grown f n) :
    Fills (n.kid 0).text P (lowerEnum g n exported) := by
  have hmembers : Saving f P ((n.kids.drop 1).foldlM (lowerEnumMember g (n.kid 0).text) {}) :=
    saving_enumMembers hg hn
  exact .branch (fun _ => .nil) fun _ => .then f fun parent => .then f fun s => fills_fillObject

theorem fills_lowerNamespace {exported : Bool} (hg : g.Save f P) (hn : Grown f n)
    (hP : ∀ x ∈ objectNames (n.kid 1), P x) :
    Fills (n.kid 0).text P (lowerNamespace g n exported) := by
  have hbody := saving_namespaceBody hg (hn.kid 1) hP
  refine .branch (fun _ => .nil) fun _ => .branch (fun _ => .then f fun _ => .nil) fun _ => ?_
  refine .then f fun parent => .then f fun r => .branch (fun _ => .nil) fun _ => ?_
  exact .then f fun body => fills_fillObject

/-- An exported object is filled like any other, whether what is around it is a namespace or not. -/
theorem fills_lowerExportDecl (hg : g.Save f P) (hn : Grown f n)
    (hk : isObject (n.kid 0).kind = true) (hP : ∀ x ∈ objectNames ((n.kid 0).kid 1), P x)
    (hstart : 0 < f.base → (n.kid 0).span.start ≠ 0) :
    Fills ((n.kid 0).kid 0).text P (lowerExportDecl g n) := by
  have hmove := saving_move (f := f) (P := P) n.span.start hstart
  simp only [isObject, Bool.or_eq_true, beq_iff_eq] at hk
  refine .then f fun scope => ?_
  cases scope with
  | some ns =>
    refine .then f fun _ => ?_
    rcases hk with hk | hk <;> simp only [hk]
    · exact fills_lowerEnum hg (hn.kid 0)
    · exact fills_lowerNamespace hg (hn.kid 0) hP
  | none =>
    rcases hk with hk | hk <;> simp only [hk]
    · exact .then f fun _ => fills_lowerEnum hg (hn.kid 0)
    · exact .then f fun _ => fills_lowerNamespace hg (hn.kid 0) hP

/-- A statement declares nothing new in its list but the names of objects further in and what one of
the statements it leaves declares. -/
theorem declaring_lowerStmt (hg : ∀ P, g.Save f P) (hn : Grown f n) :
    Declaring (· ∈ innerNames n) (lowerStmt g n) := by
  have hother (h : innerNames n = objectNames n) : Declaring (· ∈ innerNames n) (lowerStmt g n) :=
    .of_saving (saving_lowerStmt (hg _) hn fun x hx => h ▸ hx)
  by_cases hk : n.kind = .exportDecl
  · by_cases hobject : isObject (n.kid 0).kind = true
    · have hinner : innerNames n = objectNames ((n.kid 0).kid 1) := by
        simp [innerNames, hk, hobject]
      unfold lowerStmt
      simp only [hk, hinner]
      exact (fills_lowerExportDecl (hg _) hn hobject (fun _ hx => hx)
        (start_ne_zero hn hk)).declaring
    · exact hother (by simp [innerNames, hk, hobject])
  · by_cases hobject : isObject n.kind = true
    · have hinner : innerNames n = objectNames (n.kid 1) := by simp [innerNames, hk, hobject]
      simp only [isObject, Bool.or_eq_true, beq_iff_eq] at hobject
      unfold lowerStmt
      rcases hobject with ho | ho <;> simp only [ho, hinner]
      · exact (fills_lowerEnum (hg _) hn).declaring
      · exact (fills_lowerNamespace (hg _) hn fun _ hx => hx).declaring
    · exact hother (by simp [innerNames, hk, hobject])

theorem text_of_nameOf (hx : x ≠ []) (h : nameOf n = x) : n.text = x :=
  (ident_of_nameOf h hx).2

/-- A statement that is or exports an object enters its name. -/
theorem enters_lowerStmt (hg : ∀ P, g.Save f P) (hn : Grown f n)
    (hleaves : leaves n = true) (hown : x ∈ ownNames n) (hx : x ≠ []) :
    Enters x (lowerStmt g n) := by
  rw [ownNames_eq] at hown
  rw [leaves_eq] at hleaves
  split at hown
  case h_1 hk =>
    rw [hk] at hleaves
    have hleaves : exportLeaves n.kids = true := hleaves
    rw [exportLeaves_eq] at hleaves
    rw [ownNames_eq] at hown
    have hobject (ho : isObject (n.kid 0).kind = true) (hname : x = nameOf ((n.kid 0).kid 0)) :
        Enters x (lowerStmt g n) := by
      obtain rfl := text_of_nameOf hx hname.symm
      unfold lowerStmt
      simp only [hk]
      exact (fills_lowerExportDecl (hg fun _ => True) hn ho (fun _ _ => trivial)
        (start_ne_zero hn hk)).enters
    split at hown
    -- an export of an export leaves nothing for sure
    case h_1 ho | h_2 ho =>
      rw [ho] at hleaves
      cases hleaves
    case h_3 ho | h_4 ho => exact hobject (by rw [ho]; rfl) (List.mem_singleton.1 hown)
    case h_5 => cases hown
  case h_2 hk =>
    rw [hk] at hleaves
    cases hleaves
  case h_3 hk =>
    obtain rfl := text_of_nameOf hx (List.mem_singleton.1 hown).symm
    unfold lowerStmt
    simp only [hk]
    exact (fills_lowerEnum (hg fun _ => True) hn).enters
  case h_4 hk =>
    obtain rfl := text_of_nameOf hx (List.mem_singleton.1 hown).symm
    unfold lowerStmt
    simp only [hk]
    exact (fills_lowerNamespace (hg fun _ => True) hn fun _ _ => trivial).enters
  case h_5 => cases hown

/-! ## Lists -/

/-- The rules track the names that lists declare. -/
structure Tracking (f : SourceFile) (g : Rules) : Prop where
  saves : ∀ P, g.Save f P
  leaving : Leaving g
  declaring : ∀ {n}, Grown f n → Declaring (· ∈ innerNames n) (g.stmt n)
  enters : ∀ {n x}, Grown f n → leaves n = true → x ∈ ownNames n → x ≠ [] → Enters x (g.stmt n)

theorem tracking_rules : ∀ d, Tracking f (rules d)
  | 0 =>
    { saves := rules_save 0
      leaving := leaving_rules 0
      declaring := fun {n} _ => by
        have hnone : Saving f (· ∈ innerNames n) (do exhausted n; return ([] : List Node)) := by
          unfold exhausted
          infer_instance
        exact .of_saving hnone
      enters := fun _ _ _ _ _ _ h => absurd rfl h }
  | d + 1 =>
    { saves := rules_save (d + 1)
      leaving := leaving_rules (d + 1)
      declaring := declaring_lowerStmt (rules_save d)
      enters := enters_lowerStmt (rules_save d) }

variable {ns : List Node} {c : Context}

/-- Behind the first statement of a list the others go on with the names that are declared then. -/
theorem exists_lowerEach_cons (g : Rules) (n : Node) (ns : List Node) (orphans : List Nat)
    (c : Context) (s : State) : ∃ s' orphans',
      s'.declared = (g.stmt n c s).2.declared ∧ s'.errors = (g.stmt n c s).2.errors ∧
        lowerEach g (n :: ns) orphans c s =
          ((g.stmt n c s).1 ++ (lowerEach g ns orphans' c s').1,
            (lowerEach g ns orphans' c s').2) := by
  rw [lowerEach]
  simp only [bind, ReaderT.bind, StateT.bind]
  generalize g.stmt n c s = result
  obtain ⟨rs, s'⟩ := result
  cases rs with
  | nil =>
    exact ⟨{ s' with comments := s'.comments.drop n.span.start }, _, rfl, rfl, rfl⟩
  | cons first more =>
    dsimp only
    split
    · exact ⟨s', orphans, rfl, rfl, rfl⟩
    · let moved := orphans.foldl (fun t p => t.move p first.span.start) s'.comments
      exact ⟨{ s' with comments := moved }, [], rfl, rfl, rfl⟩

/-- Behind some statements the list declares what it declared before, names of objects further in
and names that a statement left declares. -/
theorem Tracking.declaring_lowerEach (hg : Tracking f g) (hns : GrownAll f ns)
    (orphans : List Nat) :
    Declaring (fun x => ∃ n ∈ ns, x ∈ innerNames n) (lowerEach g ns orphans) := by
  induction ns generalizing orphans with
  | nil => exact fun c s x hx => .inl hx
  | cons n ns ih =>
    intro c s x hx
    obtain ⟨hn, hns⟩ := grownAll_cons.1 hns
    obtain ⟨s', orphans', hdeclared, -, hrun⟩ := exists_lowerEach_cons g n ns orphans c s
    rw [hrun] at hx ⊢
    rcases ih hns orphans' c s' x hx with hx | ⟨k, hk, hx⟩ | ⟨r, hr, hx⟩
    · rw [hdeclared] at hx
      rcases hg.declaring hn c s x hx with hx | hx | ⟨r, hr, hx⟩
      · exact .inl hx
      · exact .inr (.inl ⟨n, List.mem_cons_self, hx⟩)
      · exact .inr (.inr ⟨r, List.mem_append_left _ hr, hx⟩)
    · exact .inr (.inl ⟨k, List.mem_cons_of_mem _ hk, hx⟩)
    · exact .inr (.inr ⟨r, List.mem_append_right _ hr, hx⟩)

theorem Tracking.saves_lowerEach (hg : Tracking f g) (hns : GrownAll f ns) (orphans : List Nat) :
    Saving f (fun _ => True) (lowerEach g ns orphans) :=
  saving_lowerEach (fun n hn => (hg.saves fun _ => True).inner (hns n hn)) orphans

/-- Without an error every object that leaves something is declared behind the statements of its
list. -/
theorem Tracking.enters_lowerEach (hg : Tracking f g) (hns : GrownAll f ns) (hn : n ∈ ns)
    (hleaves : leaves n = true) (hown : x ∈ ownNames n) (hx : x ≠ []) (orphans : List Nat)
    (s : State) (herrors : (lowerEach g ns orphans c s).2.errors = 0) :
    x ∈ (lowerEach g ns orphans c s).2.declared := by
  induction ns generalizing orphans s with
  | nil => cases hn
  | cons k ns ih =>
    obtain ⟨hk, hothers⟩ := grownAll_cons.1 hns
    obtain ⟨s', orphans', hdeclared, hsame, hrun⟩ := exists_lowerEach_cons g k ns orphans c s
    rw [hrun] at herrors ⊢
    rcases List.mem_cons.1 hn with rfl | hn
    · have hrest : Yields c True (lowerEach g ns orphans') fun _ => True :=
        yields_lowerEach_any hg.leaving.lowers ns orphans'
      have hzero : (g.stmt n c s).2.errors = 0 := by
        have hle := (hrest s').1
        rw [hsame] at hle
        exact Nat.le_zero.1 (herrors ▸ hle)
      -- no error of the whole list is none of this statement, so it leaves something
      have hstmt : Yields c True (g.stmt n) (· ≠ []) := hg.leaving.stmt hleaves
      refine (hg.saves_lowerEach hothers orphans').keeps c s' x ?_
      rw [hdeclared]
      exact hg.enters hk hleaves hown hx c s ((hstmt s).2 hzero trivial)
    · exact ih hothers hn orphans' s' herrors

/-! ## Functions and classes -/

/-- A function or a class that stays declares the name it stands under. -/
theorem yields_function_stays {given : Prop} (hx : x ≠ []) (d : Nat) (hn : Tidy n)
    (hk : n.kind = .funcDecl ∨ n.kind = .classDecl) (hd : n.flags.declared = false)
    (hname : nameOf (n.kid 0) = x) :
    Yields c given ((rules d).stmt n) (StaysDeclared x) := by
  cases d with
  | zero => exact .error_then (.pure False.elim)
  | succ d =>
    have hg := keepsName_rules hx d
    have hone {m : LowerM Node} (hm : Yields c given m (Declares x)) :
        Yields c given (if n.flags.declared then return [] else return [← m])
          (StaysDeclared x) := by
      rw [hd]
      exact .bind hm fun r => .pure fun h => ⟨r, rfl, h.2⟩
    show Yields c given (lowerStmt (rules d) n) _
    unfold lowerStmt
    rcases hk with hk | hk <;> simp only [hk]
    · exact hone (hg.function hk hn hname)
    · exact hone (hg.class hk hn hname)

/-- What a function name of a list says of the declaration behind it. -/
theorem declaration_of_functionName (hn : Grown f n) (hname : functionName? n = some x) :
    ((exportedDeclaration n).kind = .funcDecl ∨ (exportedDeclaration n).kind = .classDecl) ∧
      (exportedDeclaration n).flags.declared = false ∧
      nameOf ((exportedDeclaration n).kid 0) = x := by
  have hgrown : Grown f (exportedDeclaration n) := by
    unfold exportedDeclaration
    split
    · exact hn.kid 0
    · exact hn
  unfold functionName? at hname
  simp only at hname
  split at hname
  · rename_i h
    simp only [Bool.and_eq_true, Bool.or_eq_true, beq_iff_eq, Bool.not_eq_true'] at h
    obtain ⟨⟨hk, hd⟩, hp⟩ := h
    have hkinds : kindsAt (exportedDeclaration n).head 0 = [.ident] := by
      rcases hk with hk | hk
      · exact kindsAt_of_kind hk 0
      · exact kindsAt_of_kind hk 0
    have hident := kindAt_of_placed hgrown.kinds 0 hp (by rw [hkinds]; simp)
    rw [hkinds, List.mem_singleton] at hident
    refine ⟨hk, hd, ?_⟩
    rw [nameOf, if_pos (beq_iff_eq.2 hident)]
    exact Option.some.inj hname
  · cases hname

/-- In a namespace too an exported function or class stays under its name. -/
theorem yields_exported_function_stays {given : Prop} (hx : x ≠ []) (d : Nat) (hn : Tidy n)
    (hk : (n.kid 0).kind = .funcDecl ∨ (n.kid 0).kind = .classDecl)
    (hd : (n.kid 0).flags.declared = false) (hname : nameOf ((n.kid 0).kid 0) = x) :
    Yields c given (lowerExportDecl (rules d) n) fun rs => ∃ r ∈ rs, Declares x r := by
  have hstays (given : Prop) : Yields c given ((rules d).stmt (n.kid 0)) (StaysDeclared x) :=
    yields_function_stays hx d (hn.kid 0) hk hd hname
  have hcopy (given : Prop) (set : Node) : Yields c given (do
      let out ← (rules d).stmt (n.kid 0)
      if out.isEmpty then return []
      return out ++ [set]) fun rs => ∃ r ∈ rs, Declares x r := by
    refine .bind (hstays given) fun rs => .branch (fun hempty => .pure fun h => ?_) fun _ =>
      .pure fun h => ?_
    · obtain ⟨r, rfl, -⟩ := h.2
      cases hempty
    · obtain ⟨r, rfl, hdeclares⟩ := h.2
      exact ⟨r, by simp, hdeclares⟩
  refine .bind (yields_namespaceScope? (a := codeAim)).any fun scope => ?_
  cases scope with
  | some ns =>
    refine .bind (yields_onComments _) fun _ => ?_
    rcases hk with hk | hk <;> simp only [hk]
    · exact hcopy _ _
    · exact hcopy _ _
  | none =>
    rcases hk with hk | hk <;>
    · simp only [hk]
      refine .bind (hstays _) fun rs => ?_
      split
      · refine .pure fun h => ?_
        obtain ⟨r, hr, -⟩ := h.2
        cases hr
      · refine .pure fun h => ?_
        obtain ⟨r, hr, hdeclares⟩ := h.2
        cases hr
        exact ⟨_, List.mem_singleton_self _, hdeclares.wrap n.span⟩

/-- A function or a class of a list stays, also one that is exported. -/
theorem yields_functionName_stays {given : Prop} (hx : x ≠ []) (d : Nat) (hn : Grown f n)
    (hname : functionName? n = some x) :
    Yields c given ((rules d).stmt n) fun rs => ∃ r ∈ rs, Declares x r := by
  obtain ⟨hk, hd, hname⟩ := declaration_of_functionName hn hname
  have hone {rs : List Node} (h : StaysDeclared x rs) : ∃ r ∈ rs, Declares x r := by
    obtain ⟨r, rfl, hdeclares⟩ := h
    exact ⟨r, List.mem_singleton_self r, hdeclares⟩
  by_cases hexport : n.kind = .exportDecl ∨ n.kind = .exportDefault
  · have hdecl : exportedDeclaration n = n.kid 0 := by
      rcases hexport with he | he <;> simp [exportedDeclaration, he]
    rw [hdecl] at hk hd hname
    cases d with
    | zero => exact .error_then (.pure False.elim)
    | succ d =>
      show Yields c given (lowerStmt (rules d) n) _
      unfold lowerStmt
      rcases hexport with he | he <;> simp only [he]
      · exact yields_exported_function_stays hx d hn.tidy hk hd hname
      · have hvalue : (x, true) ∈ declaredNames (n.kid 0) := by
          rw [declaredNames_eq]
          rcases hk with hk | hk <;> simp [hk, hd, hname]
        refine .bind ((keepsName_rules hx d).exportDefault he hn.tidy hvalue) fun r =>
          .pure fun h => hone h.2.one
  · have hdecl : exportedDeclaration n = n := by
      simp only [not_or] at hexport
      simp [exportedDeclaration, hexport.1, hexport.2]
    rw [hdecl] at hk hd hname
    exact (yields_function_stays hx d hn.tidy hk hd hname).mono fun rs _ h => hone h

/-- Behind a list every object in it that leaves something is declared, unless its name is also one
of an object further in. -/
theorem yields_objects_declared {given : Prop} (d : Nat)
    (hns : GrownAll f ns) : Yields c given (lowerList (rules d) ns) fun rs =>
      ∀ n ∈ ns, leaves n = true → ∀ x ∈ ownNames n, x ≠ [] → (∀ k ∈ ns, x ∉ innerNames k) →
        ∃ r ∈ rs, Declares x r := by
  have hg : Tracking f (rules d) := tracking_rules d
  have hlist : Yields c given (lowerList (rules d) ns) fun _ => True := by
    have hall : Yields c given (lowerList (rules d) ns) fun rs => ∀ r ∈ rs, True :=
      yields_lowerListOf (P := fun _ => True) fun n _ =>
        (hg.leaving.lowers.stmt _ n).any.mono fun _ _ _ _ _ => trivial
    exact hall.any
  intro s
  refine ⟨(hlist s).1, fun herrors hgiven n hn hleaves x hown hx hinner => ?_⟩
  by_cases hfunction : ∃ k ∈ ns, functionName? k = some x
  · -- the list counts the name as declared from the start, and its function or class stays
    obtain ⟨k, hk, hname⟩ := hfunction
    have hstays : Yields { c with listDepth := c.listDepth + 1 } given ((rules d).stmt k)
        fun rs => ∃ r ∈ rs, Declares x r := yields_functionName_stays hx d (hns k hk) hname
    obtain ⟨part, ⟨r, hr, hdeclares⟩, hsub⟩ :=
      (yields_lowerList_mem hg.leaving.lowers hk hstays s).2 herrors hgiven
    exact ⟨r, hsub r hr, hdeclares⟩
  · have hentered := hg.enters_lowerEach (c := { c with listDepth := c.listDepth + 1 }) hns hn
      hleaves hown hx [] { s with declared := ns.filterMap functionName? } herrors
    rcases hg.declaring_lowerEach hns [] _ _ x hentered with hmem | ⟨k, hk, hmem⟩ | hr
    · exact absurd (List.mem_filterMap.1 hmem) hfunction
    · exact absurd hmem (hinner k hk)
    · exact hr

end

end ScriptLower.Lower
