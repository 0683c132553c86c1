import ScriptLower.Proofs.Parse.StatementForms
import ScriptLower.Proofs.Scope.Files
import ScriptLower.Proofs.Lower.FittingDeclarations
import ScriptLower.Proofs.Lower.FittingExpressions

/-!
# Lowering a file that parses

The depth that the rules are tied to is enough for the tree of a file, so no rule gives up on it.
Each generated name that is used has been issued, so each has a final spelling, and no type and no
element is left in a tree of the plain language. What lowering looks into stands at places that are
never empty, so nothing of it is missing. A file that parses is therefore lowered without a fault.
-/

/-!
## Lowered statements fit

One case for each kind of statement. Where one statement is expected there is one again: several
stand in a block, and none is an empty statement.
-/

namespace ScriptLower.Lower

open ScriptLower

section

variable {f : SourceFile} {d : Nat} {g : Rules} {p : Place} {n : Node} {ns : List Node}

theorem gives_lowerVariables (hg : Handles f d g) (hn : Turn f d p n) (hk : n.kind = .varDecl)
    (ha : p.allows true .varDecl = true) : Gives (lowerVariables g n) (Low f p) := by
  refine .bind (R := LowAll f .declarator) (.mapM fun m hm => ?_) fun decls hdecls => .pure ?_
  · have hturn := (hn.each hk rfl m hm).present rfl fun _ => rfl
    have hkind : m.kind = .declarator := by simpa [Place.allows] using hturn.placed.allowed
    refine .bind (hg.patternOf (hturn.kid hkind 0 rfl)) fun binding hbinding => ?_
    refine .bind (gives_lowerOptional hg rfl (hturn.kid hkind 1 rfl)) fun init hinit => .pure ?_
    exact low_like hturn.placed hkind rfl (fit_first hbinding (fit_first hinit fit_none))
  · exact low_like hn.placed hk ha (fit_each hdecls)

/-- A statement that may be missing, when it is there. -/
theorem Due.there (hn : Due f d .optStmt n) (ha : ¬n.isAbsent = true) : Due f d .stmt n := by
  have hp : n.isPresent = true := by simpa [Node.isAbsent] using ha
  refine ⟨?_, hn.depth_le⟩
  rcases (fits_present hp).1 hn.fits with hdrop | hplaced
  · exact (fits_present hp).2 (.inl hdrop)
  · exact hplaced.fits_at hplaced.allowed rfl

theorem gives_lowerSingle (hg : Handles f d g) (hn : Due f d .stmt n) :
    Gives (lowerSingle g n) (Low f .stmt) := by
  refine .branch (fun ha => ?_) fun _ => .bind (hg.stmtOf hn) fun out hout => ?_
  · cases n with
    | absent => cases hn.fits
    | mk h ks ds t a x => cases ha
  have hs := hn.fits.span
  split
  · exact .pure (low_new rfl (by simp) hs fit_none)
  · exact .pure (hout _ List.mem_cons_self)
  · exact .pure (low_new rfl (by simp) hs (fit_each hout))

theorem gives_lowerSingle? (hg : Handles f d g) (hn : Due f d .optStmt n) :
    Gives (lowerSingle g n) (Low f .optStmt) := by
  cases ha : n.isAbsent with
  | true => exact .branch (fun _ => .pure rfl) fun hne => absurd ha hne
  | false =>
    have hthere := hn.there (by rw [ha]; decide)
    exact (gives_lowerSingle hg hthere).mono fun r hr => fits_le .stmt_optStmt hr

theorem gives_lowerBlock (hg : Handles f d g) (hn : Turn f d p n) (hk : n.kind = .block)
    (ha : p.allows true .block = true) : Gives (lowerBlock g n) (Low f p) :=
  .bind (gives_lowerList hg (hn.each hk rfl)) fun _ hstmts =>
    .pure (low_like hn.placed hk ha (fit_each hstmts))

/-! ## Loops -/

/-- What a counting loop begins with, if it declares nothing. -/
theorem Due.loopInit (hn : Due f d .loopInit n) (hk : ¬(n.kind == .varDecl) = true) :
    Due f d .optExpr n := by
  refine ⟨?_, hn.depth_le⟩
  rcases absent_or_placed hn.fits fun _ => rfl with ⟨rfl, -⟩ | hplaced
  · rfl
  · have hallowed := hplaced.allowed
    rw [Place.allows, Bool.or_eq_true] at hallowed
    exact hplaced.fits_at (hallowed.resolve_right hk)
      ((Place.Le.optExpr_loopInit.allows false _ _ (hallowed.resolve_right hk)).2).symm

/-- What a loop over keys or values assigns to, if it declares nothing. -/
theorem Due.loopTarget (hn : Due f d .loopTarget n) (hk : ¬(n.kind == .varDecl) = true) :
    Due f d .expr n := by
  refine ⟨?_, hn.depth_le⟩
  have hplaced := (hn.present rfl fun _ => rfl).placed
  have hallowed := hplaced.allowed
  rw [Place.allows, Bool.or_eq_true] at hallowed
  exact hplaced.fits_at (hallowed.resolve_right hk)
    ((Place.Le.expr_loopTarget.allows false _ _ (hallowed.resolve_right hk)).2).symm

theorem gives_loopInit (hg : Handles f d g) (hn : Due f d .loopInit n) :
    Gives (lowerLoopHead g n (lowerOptional g n)) (Low f .loopInit) := by
  refine .branch (fun hk => ?_) fun hk => ?_
  · have hkind : n.kind = .varDecl := beq_iff_eq.1 hk
    exact gives_lowerVariables hg (hn.turn (isPresent_of_kind hkind (by decide)) rfl) hkind rfl
  · exact (gives_lowerOptional hg rfl (hn.loopInit hk)).mono fun r hr =>
      fits_le .optExpr_loopInit hr

theorem gives_loopTarget (hg : Handles f d g) (hn : Due f d .loopTarget n) :
    Gives (lowerLoopHead g n (g.pattern true n)) (Low f .loopTarget) := by
  refine .branch (fun hk => ?_) fun hk => ?_
  · have hkind : n.kind = .varDecl := beq_iff_eq.1 hk
    exact gives_lowerVariables hg (hn.turn (isPresent_of_kind hkind (by decide)) rfl) hkind rfl
  · exact (hg.patternOf (hn.loopTarget hk)).mono fun r hr => fits_le .expr_loopTarget hr

/-! ## Branches and handlers -/

theorem gives_lowerCase (hg : Handles f d g) (hn : Due f d .branch n) :
    Gives (lowerCase g n) (Low f .branch) := by
  have hturn := hn.present rfl fun _ => rfl
  have hk : n.kind = .caseClause := by simpa [Place.allows] using hturn.placed.allowed
  refine .bind (gives_lowerOptional hg rfl (hturn.kid hk 0 rfl)) fun test htest => ?_
  refine .bind (gives_lowerList hg (hturn.each hk rfl)) fun stmts hstmts => .pure ?_
  exact low_like hturn.placed hk rfl (fit_first htest (fit_each hstmts))

theorem lowerSimpleAt_eq (g : Rules) (i : Nat) (ks : List Node) :
    lowerSimpleAt g i ks = lowerSimple g (ks.getD i .absent) := by
  induction ks generalizing i with
  | nil => cases i <;> (unfold lowerSimpleAt; rfl)
  | cons k ks ih =>
    cases i with
    | zero => rfl
    | succ i => exact ih i

theorem lowerHandlerAt_eq (g : Rules) (i : Nat) (ks : List Node) :
    lowerHandlerAt g i ks = lowerHandlerAt g 0 [ks.getD i .absent] := by
  induction ks generalizing i with
  | nil => cases i <;> (unfold lowerHandlerAt; rfl)
  | cons k ks ih =>
    cases i with
    | zero => cases k <;> rfl
    | succ i => exact ih i

/-- A block where a statement is asked for. -/
theorem gives_simpleBlock (hg : Handles f d g) (hn : Due f d .block n) :
    Gives (lowerSimple g n) (Low f .block) := by
  obtain ⟨hturn, hk⟩ := hn.block
  cases n with
  | absent => cases hn.fits
  | mk h ks ds t a x =>
    have hkind : h.kind = .block := hk
    unfold lowerSimple
    rw [hkind]
    exact gives_lowerBlock hg hturn hk rfl

theorem gives_simpleBlock? (hg : Handles f d g) (hn : Due f d .optBlock n) :
    Gives (lowerSimple g n) (Low f .optBlock) := by
  rcases absent_or_placed hn.fits fun _ => rfl with ⟨rfl, -⟩ | hplaced
  · exact .pure rfl
  · exact (gives_simpleBlock hg ⟨hplaced.fits_at hplaced.allowed rfl, hn.depth_le⟩).mono
      fun r hr => fits_le .block_optBlock hr

theorem gives_lowerHandler (hg : Handles f d g) (hn : Due f d .handler n) :
    Gives (lowerHandlerAt g 0 [n]) (Low f .handler) := by
  cases n with
  | absent => exact .pure rfl
  | mk h ks ds t a x =>
    have hturn := hn.turn rfl rfl
    have hk : (Node.mk h ks ds t a x).kind = .catchClause := by
      simpa [Place.allows] using hturn.placed.allowed
    have hparam : Due f d .optPattern ((Node.mk h ks ds t a x).kid 0) := hturn.kid hk 0 rfl
    unfold lowerHandlerAt
    extract_lets n jp
    have hjp (param : Node) (hp : Low f .optPattern param) : Gives (jp param) (Low f .handler) := by
      refine .bind (R := Low f .block) ?_ fun body hbody => .pure ?_
      · rw [lowerSimpleAt_eq]
        exact gives_simpleBlock hg (hturn.kid hk 1 rfl)
      · exact low_like hturn.placed hk rfl (fit_first hp (fit_first hbody fit_none))
    refine .skip fun old => .branch (fun hp => ?_) fun _ => .branch (fun _ => ?_) fun _ => ?_
    · have hplaced := fits_placed hparam.fits hp rfl
      have hpattern : Due f d .pattern ((Node.mk h ks ds t a x).kid 0) :=
        ⟨hplaced.fits_at hplaced.allowed rfl, hparam.depth_le⟩
      exact .bind (hg.boundOf hpattern) fun r hr => hjp r (fits_le .pattern_optPattern hr)
    · exact .skip fun mark => .bind (gives_ref mark rfl) hjp
    · exact .bind (R := Low f .optPattern) (.pure rfl) hjp

/-! ## Statements -/

/-- Whether statements of a kind become exactly one. -/
def isSimple : NodeKind → Bool
  | .exprStmt | .block | .empty | .debugger | .forStmt | .forIn | .forOf | .whileStmt | .withStmt
  | .doWhile | .returnStmt | .throwStmt | .breakStmt | .continueStmt | .tryStmt | .switchStmt
  | .labeled => true
  | _ => false

theorem gives_lowerSimple (hg : Handles f d g) (hn : Turn f d .stmt n)
    (hs : isSimple n.kind = true) :
    Gives (lowerSimple g n) (Low f .stmt) := by
  cases n with
  | absent => cases hs
  | mk h ks ds t a x =>
    unfold lowerSimple
    extract_lets n
    split
    case h_1 hk =>
      refine .bind (hg.exprOf (hn.kid hk 0 rfl)) fun r hr => .pure ?_
      exact low_like hn.placed hk rfl (fit_first hr fit_none)
    case h_2 hk => exact gives_lowerBlock hg hn hk rfl
    case h_3 hk | h_4 hk => exact .pure (low_leafOf hn hk rfl rfl)
    case h_5 hk =>
      refine .bind (gives_loopInit hg (hn.kid hk 0 rfl)) fun init hinit => ?_
      refine .bind (gives_lowerOptional hg rfl (hn.kid hk 1 rfl)) fun test htest => ?_
      refine .bind (gives_lowerOptional hg rfl (hn.kid hk 2 rfl)) fun update hupdate => ?_
      refine .bind (gives_lowerSingle hg (hn.kid hk 3 rfl)) fun body hbody => .pure ?_
      exact low_like hn.placed hk rfl
        (fit_first hinit (fit_first htest (fit_first hupdate (fit_first hbody fit_none))))
    case h_6 hk | h_7 hk =>
      refine .bind (gives_loopTarget hg (hn.kid hk 0 rfl)) fun left hleft => ?_
      refine .bind (hg.exprOf (hn.kid hk 1 rfl)) fun right hright => ?_
      refine .bind (gives_lowerSingle hg (hn.kid hk 2 rfl)) fun body hbody => .pure ?_
      exact low_like hn.placed hk rfl
        (fit_first hleft (fit_first hright (fit_first hbody fit_none)))
    case h_8 hk | h_9 hk =>
      refine .bind (hg.exprOf (hn.kid hk 0 rfl)) fun test htest => ?_
      refine .bind (gives_lowerSingle hg (hn.kid hk 1 rfl)) fun body hbody => .pure ?_
      exact low_like hn.placed hk rfl (fit_first htest (fit_first hbody fit_none))
    case h_10 hk =>
      refine .bind (gives_lowerSingle hg (hn.kid hk 0 rfl)) fun body hbody => ?_
      refine .bind (hg.exprOf (hn.kid hk 1 rfl)) fun test htest => .pure ?_
      exact low_like hn.placed hk rfl (fit_first hbody (fit_first htest fit_none))
    case h_11 hk | h_12 hk =>
      refine .bind (gives_lowerOptional hg rfl (hn.kid hk 0 rfl)) fun r hr => .pure ?_
      exact low_like hn.placed hk rfl (fit_first hr fit_none)
    case h_13 hk | h_14 hk =>
      exact .pure
        (low_like hn.placed hk rfl (fit_first (low_optName (hn.kid hk 0 rfl).fits) fit_none))
    case h_15 hk =>
      rw [lowerSimpleAt_eq, lowerSimpleAt_eq, lowerHandlerAt_eq]
      refine .bind (gives_simpleBlock hg (hn.kid hk 0 rfl)) fun body hbody => ?_
      refine .bind (gives_lowerHandler hg (hn.kid hk 1 rfl)) fun handler hhandler => ?_
      refine .bind (gives_simpleBlock? hg (hn.kid hk 2 rfl)) fun last hlast => .pure ?_
      exact low_like hn.placed hk rfl
        (fit_first hbody (fit_first hhandler (fit_first hlast fit_none)))
    case h_16 hk =>
      refine .bind (hg.exprOf (hn.kid hk 0 rfl)) fun value hvalue => ?_
      refine .bind (.mapM fun m hm => gives_lowerCase hg (hn.each hk rfl m hm))
        fun cases hcases => ?_
      exact .pure (low_like hn.placed hk rfl (fit_first hvalue (fit_each hcases)))
    case h_17 hk =>
      refine .bind (gives_lowerSingle hg (hn.kid hk 1 rfl)) fun body hbody => .pure ?_
      exact low_like hn.placed hk rfl
        (fit_first (low_name (hn.kid hk 0 rfl).fits) (fit_first hbody fit_none))
    case h_18 =>
      have hs : isSimple h.kind = true := hs
      unfold isSimple at hs
      split at hs <;> contradiction

theorem gives_lowerIf (hg : Handles f d g) (hn : Turn f d .stmt n) (hk : n.kind = .ifStmt) :
    Gives (lowerIf g n) (LowAll f .stmt) := by
  have helse : Due f d .optStmt (n.kid 2) := hn.kid hk 2 rfl
  refine .skip fun stripped => .branch (fun _ => ?_) fun _ => ?_
  · exact .branch (fun _ => .pure .nil) fun ha => hg.stmtOf (helse.there ha)
  · refine .bind (hg.exprOf (hn.kid hk 0 rfl)) fun test htest => ?_
    refine .bind (gives_lowerSingle hg (hn.kid hk 1 rfl)) fun yes hyes => ?_
    refine .bind (gives_lowerSingle? hg helse) fun no hno => .pure (.one ?_)
    exact low_like hn.placed hk rfl (fit_first htest (fit_first hyes (fit_first hno fit_none)))

theorem gives_lowerStmt (hg : Handles f d g) (hn : Fits f .stmt n) (hd : 2 * n.count ≤ d) :
    Gives (lowerStmt g n) (LowAll f .stmt) := by
  have hp : n.isPresent = true := by
    cases n with
    | absent => cases hn
    | mk h ks ds t a x => rfl
  have hturn {k : NodeKind} (hk : n.kind = k) (hdrop : k.isTypeStatement = false) :
      Turn f d .stmt n :=
    ⟨fits_placed hn hp (by rw [hk]; exact hdrop), hd⟩
  have hone {m : LowerM Node} (hm : Gives m (Low f .optStmt)) :
      Gives (do return one (← m)) (LowAll f .stmt) :=
    .bind hm fun r hr => .pure (low_one hr)
  have hsingle {m : LowerM Node} (hm : Gives m (Low f .stmt)) :
      Gives (if n.flags.declared then return [] else return [← m]) (LowAll f .stmt) :=
    .branch (fun _ => .pure .nil) fun _ => .bind hm fun r hr => .pure (.one hr)
  unfold lowerStmt
  split
  case h_1 | h_2 | h_3 | h_4 => exact .pure .nil
  case h_5 hk => exact hsingle (gives_lowerVariables hg (hturn hk rfl) hk rfl)
  case h_6 hk => exact hsingle (gives_lowerFunction hg (hturn hk rfl) (.inl hk) (by rw [hk]; rfl))
  case h_7 hk => exact hsingle (gives_lowerClass hg (hturn hk rfl) (.inl hk) (by rw [hk]; rfl))
  case h_8 hk => exact gives_lowerEnum hg (hturn hk rfl) hk
  case h_9 hk => exact gives_lowerNamespace hg (hturn hk rfl) hk
  case h_10 hk => exact hone (gives_lowerImport hg (hturn hk rfl) hk)
  case h_11 hk => exact hone (gives_lowerAlias hg (hturn hk rfl) hk)
  case h_12 hk => exact hone (gives_lowerExportNamed hg (hturn hk rfl) hk)
  case h_13 hk => exact hone (gives_lowerExportAll hg (hturn hk rfl) hk)
  case h_14 hk => exact gives_lowerExportDecl hg (hturn hk rfl) hk
  case h_15 hk => exact hone (gives_lowerExportDefault hg (hturn hk rfl) hk)
  case h_16 => exact .skip fun _ => .pure .nil
  case h_17 hk => exact gives_lowerIf hg (hturn hk rfl) hk
  case h_18 =>
    -- what is neither dropped nor one of the kinds above becomes exactly one statement
    have hsimple : Placed (.source f) .stmt n ∧ isSimple n.kind = true := by
      rcases (fits_present hp).1 hn with ⟨⟨-, hdrop⟩, -⟩ | hplaced
      · have hdrop : n.kind.isTypeStatement = true := hdrop
        unfold NodeKind.isTypeStatement at hdrop
        split at hdrop <;> contradiction
      · refine ⟨hplaced, ?_⟩
        have hallowed := hplaced.allowed
        simp only [Place.allows, plain_source, Bool.not_false, Bool.true_and,
          Bool.or_eq_true] at hallowed
        rcases hallowed with hallowed | hallowed
        · unfold NodeKind.isStatement at hallowed
          split at hallowed <;> first | contradiction | (simp only [*]; rfl)
        · unfold NodeKind.isTypedStatement at hallowed
          split at hallowed <;> contradiction
    exact hone
      ((gives_lowerSimple hg ⟨hsimple.1, hd⟩ hsimple.2).mono fun r hr => fits_le .stmt_optStmt hr)

end

end ScriptLower.Lower

namespace ScriptLower.Lower

open ScriptLower

section

variable {f : SourceFile} {d : Nat} {g : Rules} {n root : Node} {ns : List Node} {p : Place}

/-! ## The rules -/

theorem handles_rules (f : SourceFile) : ∀ d, Handles f d (rules d)
  | 0 =>
    { expr := fun _ n _ _ hd => by unfold exprDepth at hd; split at hd <;> omega
      pattern := fun _ n _ hd => by unfold patternDepth at hd; split at hd <;> omega
      bound := fun n _ hd => by unfold patternDepth at hd; split at hd <;> omega
      stmt := fun n _ hd => by omega
      namespaceDecl := fun n _ _ hd => by omega }
  | d + 1 =>
    have ih := handles_rules f d
    { expr := fun _ _ hp hn hd => gives_lowerExprAt ih hp hn hd
      pattern := fun _ _ hn hd => gives_lowerPattern ih hn hd
      bound := fun _ hn hd => gives_lowerPattern_bound ih hn hd
      stmt := fun _ hn hd => gives_lowerStmt ih hn (Nat.le_of_succ_le_succ hd)
      namespaceDecl := fun n exported hn hd => by
        have hplaced :=
          (absent_or_placed hn fun _ => rfl).resolve_left fun h => Bool.noConfusion h.2
        have hk : n.kind = .namespaceDecl := by simpa [Place.allows] using hplaced.allowed
        exact gives_lowerNamespace ih ⟨hplaced, Nat.le_of_succ_le_succ hd⟩ hk }

/-! ## Programs -/

theorem gives_importSpecs (hs : List Helper) : Gives (importSpecs hs) (LowAll f .importItem) := by
  refine .skip fun s => .mapM fun x _ => .bind (gives_ref (f := f) (p := .name) x.2 rfl) fun r hr =>
    .pure ?_
  exact low_new rfl (by simp) rfl (fit_first (low_ident rfl rfl) (fit_first hr fit_none))

theorem low_importFrom {source : Bytes} (hns : LowAll f .importItem ns) :
    Low f .stmt (importFrom source ns) := by
  refine low_new rfl (by simp) rfl (fit_first ?_ (fit_first rfl (fit_each hns)))
  exact fits_ofHead rfl rfl (.inl (by simp)) fit_none

theorem gives_withHelperImports (hns : LowAll f .stmt ns) :
    Gives (withHelperImports ns) (LowAll f .stmt) := by
  have himport (source : Bytes) (xs : List Node) (hxs : LowAll f .importItem xs) :
      LowAll f .stmt (if xs.isEmpty then [] else [importFrom source xs]) := by
    split
    · exact .nil
    · exact .one (low_importFrom hxs)
  refine .skip fun c => ?_
  refine .bind (gives_importSpecs (f := f) _) fun specs hspecs => ?_
  refine .bind (gives_importSpecs (f := f) _) fun creators hcreators => ?_
  have hinsert (xs : List Node) (hxs : LowAll f .stmt xs) :
      LowAll f .stmt (if xs.isEmpty then ns else insertAfterDirectives ns xs) := by
    split
    · exact hns
    · exact forall_insertAfterDirectives hns hxs
  exact .pure (hinsert _ ((himport _ _ hspecs).append (himport _ _ hcreators)))

theorem gives_lowerProgram (hg : Handles f d g) (hn : FitsAsProgram (.source f) n)
    (hd : 2 * n.count ≤ d) : Gives (lowerProgram g n) (FitsAsProgram (.lowered f)) := by
  have hs : f.holds n.span = true := by
    have hacc := hn.accepted
    simp only [Canon.accepts, Bool.and_eq_true] at hacc
    exact hacc.1.1
  have hstmts : ∀ m ∈ n.kids, Due f d .stmt m := by
    intro m hm
    refine ⟨hn.stmts m hm, ?_⟩
    cases n with
    | absent => cases hm
    | mk h ks ds t a x =>
      have := count_mem (show m ∈ ks from hm)
      rw [Node.count] at hd
      omega
  refine .bind (.collectTemps (gives_lowerList hg hstmts)) fun r hr => ?_
  refine .bind (gives_withTemps hr) fun stmts hstmts => ?_
  refine .bind (gives_withHelperImports hstmts) fun stmts hstmts => .pure ?_
  exact ⟨rfl, accepts_untyped hs (.inl (show NodeKind.program ≠ .binary by decide)), hstmts, rfl⟩

/-! ## Final names -/

section

variable {x : Nat} {c : Context} {s : State}

/-- A mark that is never issued is declared nowhere in a finished program. -/
theorem lowerProgram_unissued (hx : x ≠ 0) (hg : Keeps x g) (hn : Tidy n) (hs : Books x 0 s 0)
    (hissued : (lowerProgram g n c s).2.supply.issued < x) :
    (lowerProgram g n c s).1.declared x = 0 := by
  have hbooks : Books x 0 (programBody g n c s).2 (0 + heldBody x (programBody g n c s).1) :=
    (issues_programBody hg hn 0 0 s (by simpa using hs)).1
  rw [Held.zero_add] at hbooks
  rw [lowerProgram_run] at hissued ⊢
  dsimp only at hissued ⊢
  generalize programBody g n c s = b at hbooks hissued
  obtain ⟨stmts, t⟩ := b
  have hfresh := hbooks.fresh hissued
  obtain ⟨-, hdecl, -⟩ := withHelperImports_count (c := c) hx hbooks.helpers stmts
  obtain ⟨-, hdecls⟩ := program_count (x := x) n.span (withHelperImports stmts c t).1 n.flags.strict
  have howed : t.owed x 0 + Node.declaredAll x stmts = 0 := hfresh
  rw [hdecls, hdecl]
  rw [State.owed] at howed
  show Node.declaredAll x stmts + t.asHelper x = 0
  omega

end

section

variable {file : SourceFile} {comments : CommentTable} {supply : NameSupply} {o : Settings}

/-- Every generated name that a finished program uses has been issued. -/
theorem mark_le_issued (hroot : Tidy root) (hn : n ∈ (programOf file root comments supply o).1.walk)
    (hk : n.kind = .ident) (hm : n.mark ≠ 0) :
    n.mark ≤ (programOf file root comments supply o).2.supply.issued := by
  by_contra hlt
  have hdeclared : (programOf file root comments supply o).1.declared n.mark = 0 :=
    lowerProgram_unissued hm (keeps_rules hm _) hroot (books_startState _) (Nat.lt_of_not_le hlt)
  have hloose := (programOf_scoped file comments supply o hm hroot).1
  have huse : n.isUse n.mark = true := by simp [Node.isUse, hk]
  have := Node.loose_of_use _ hdeclared n hn huse
  omega

theorem nameless_eq_nil (hroot : Tidy root) :
    (renameMarked (programOf file root comments supply o).2.supply
      (programOf file root comments supply o).1).2 = [] := by
  unfold renameMarked
  dsimp only
  rw [List.map_eq_nil_iff, List.filter_eq_nil_iff]
  intro n hn
  simp only [Bool.and_eq_true, beq_iff_eq, bne_iff_ne, ne_eq, not_and, and_imp]
  intro hk hm hnone
  have hle := mark_le_issued hroot hn hk hm
  have hlt : n.mark - 1 < ((programOf file root comments supply o).2.supply.resolve
      (takenNames (programOf file root comments supply o).1)).length := by
    rw [NameSupply.length_resolve]
    have : n.mark ≠ 0 := hm
    omega
  rw [finalName?, if_neg (show n.mark ≠ 0 from hm), List.getElem?_eq_getElem hlt] at hnone
  cases hnone

end

/-- The final spelling of names moves nothing. -/
theorem accepts_spellHead (c : Canon) (names : List Bytes) (h : Head) (typed : Bool) :
    c.accepts (spellHead names h) typed = c.accepts h typed := by
  unfold spellHead
  split <;> rfl

theorem isPresent_spellOut (names : List Bytes) (n : Node) :
    (spellOut names n).isPresent = n.isPresent := isPresent_mapHeads n

mutual

theorem fits_spellOut (c : Canon) (names : List Bytes) (p : Place) :
    ∀ n : Node, (spellOut names n).fits c p = n.fits c p
  | .absent => rfl
  | .mk h ks ds t a x => by
    obtain ⟨hkind, -, hflags⟩ := spellHead_same names h
    have hspan : (spellHead names h).span = h.span := by
      unfold spellHead
      split <;> rfl
    rw [spellOut, Node.mapHeads, Node.fits, Node.fits, hkind, hflags, hspan, accepts_spellHead,
      isPresent_mapHeads, isPresent_mapHeads, isPresent_mapHeads, kidsFit_spellOut c names _ _ ks,
      kidsFit_spellOut c names _ _ ds]

theorem kidsFit_spellOut (c : Canon) (names : List Bytes) :
    ∀ (ps : List Place) (r : Rest) (ns : List Node),
    kidsFit c ps r (Node.mapAllHeads (spellHead names) ns) = kidsFit c ps r ns
  | [], .none, [] | [], .each _, [] | [], .turns _ _, [] | _ :: _, _, [] => rfl
  | [], .none, _ :: _ => rfl
  | p :: ps, r, n :: ns => by
    rw [Node.mapAllHeads, kidsFit_first, kidsFit_first, kidsFit_spellOut c names ps r ns]
    exact congrArg (· && _) (fits_spellOut c names p n)
  | [], .each p, n :: ns => by
    rw [Node.mapAllHeads, kidsFit, kidsFit, kidsFit_spellOut c names [] (.each p) ns]
    exact congrArg (· && _) (fits_spellOut c names p n)
  | [], .turns p q, n :: ns => by
    rw [Node.mapAllHeads, kidsFit, kidsFit, kidsFit_spellOut c names [] (.turns q p) ns]
    exact congrArg (· && _) (fits_spellOut c names p n)

end

theorem fitsAsProgram_spellOut {c : Canon} {names : List Bytes} (h : FitsAsProgram c root) :
    FitsAsProgram c (spellOut names root) := by
  cases root with
  | absent => cases h.kind
  | mk hd ks ds t a x =>
    refine ⟨(kind_spellOut names _).trans h.kind, ?_, fun n hn => ?_, ?_⟩
    · have hacc := h.accepted
      rw [← accepts_spellHead c names] at hacc
      show c.accepts (spellHead names hd) ((spellOut names t).isPresent ||
        (spellOut names a).isPresent || (spellOut names x).isPresent) = true
      rw [isPresent_spellOut, isPresent_spellOut, isPresent_spellOut]
      exact hacc
    · rw [kids_spellOut] at hn
      obtain ⟨m, hm, rfl⟩ := List.mem_map.1 hn
      rw [fits_spellOut]
      exact h.stmts m hm
    · rw [spellOut, decos_mapHeads, h.decos]
      rfl

/-! ## Leaks -/

theorem kept_of_isExpression {k : NodeKind} (hk : k.isExpression = true) :
    k.isType = false ∧ k.isTypeWrapper = false ∧ k.isElementPart = false := by
  unfold NodeKind.isExpression at hk
  split at hk <;> first | decide | cases hk

theorem kept_of_isStatement {k : NodeKind} (hk : k.isStatement = true) :
    k.isType = false ∧ k.isTypeWrapper = false ∧ k.isElementPart = false := by
  unfold NodeKind.isStatement at hk
  split at hk <;> first | decide | cases hk

theorem kept_of_isName {k : NodeKind} (hk : k.isName = true) :
    k.isType = false ∧ k.isTypeWrapper = false ∧ k.isElementPart = false := by
  unfold NodeKind.isName at hk
  split at hk <;> first | decide | cases hk

/-- No place of a tree of the plain language is for a type or for a part of an element. -/
theorem kept_of_allows {k : NodeKind} (ha : p.allows true k = true) :
    k.isType = false ∧ k.isTypeWrapper = false ∧ k.isElementPart = false := by
  cases p <;> simp only [Place.allows, Bool.not_true, Bool.false_and, Bool.or_false, if_true,
    Bool.or_eq_true, beq_iff_eq, Bool.false_eq_true] at ha
  case stmt | optStmt | declaration => exact kept_of_isStatement ha
  case expr | optExpr => exact kept_of_isExpression ha
  case name | optName => exact kept_of_isName ha
  case loopInit | loopTarget =>
    rcases ha with ha | rfl
    · exact kept_of_isExpression ha
    · decide
  case exported =>
    rcases ha with (ha | rfl) | rfl
    · exact kept_of_isExpression ha
    · decide
    · decide
  case patternMember => rcases ha with rfl | rfl <;> decide
  case objectMember | member | importItem | pattern | optPattern =>
    rcases ha with (rfl | rfl) | rfl <;> decide
  all_goals
    subst ha
    decide

mutual

theorem leaks_of_fits (f : SourceFile) : ∀ (p : Place) (n : Node), Low f p n → leaks n = []
  | _, .absent, _ => rfl
  | p, .mk h ks ds t a x, hn => by
    have hplaced := hn.placed rfl
    obtain ⟨htype, hwrapper, helement⟩ := kept_of_allows hplaced.allowed
    have hacc := hplaced.accepted
    simp only [Canon.accepts, plain_lowered, Bool.true_and, Bool.and_eq_true,
      Bool.not_eq_true'] at hacc
    have hleak : leak? h (t.isPresent || a.isPresent || x.isPresent) = none := by
      have htype : h.kind.isType = false := htype
      have hwrapper : h.kind.isTypeWrapper = false := hwrapper
      have helement : h.kind.isElementPart = false := helement
      have htyped : (t.isPresent || a.isPresent || x.isPresent) = false := hacc.2
      simp [leak?, htype, hwrapper, helement, htyped]
    unfold leaks
    rw [hleak]
    dsimp only
    rw [leaksAll_of_fits f _ _ ks hplaced.kids,
      leaksAll_of_fits f [] (.each .decorator) ds (fit_each hplaced.decos)]
    rfl

theorem leaksAll_of_fits (f : SourceFile) : ∀ (ps : List Place) (r : Rest) (ns : List Node),
    kidsFit (.lowered f) ps r ns = true → leaksAll ns = []
  | _, _, [], _ => rfl
  | [], .none, _ :: _, h => by cases h
  | p :: ps, r, n :: ns, h => by
    have h := Bool.and_eq_true_iff.1 h
    rw [leaksAll, leaks_of_fits f p n h.1, leaksAll_of_fits f ps r ns h.2]
    rfl
  | [], .each p, n :: ns, h => by
    have h := Bool.and_eq_true_iff.1 h
    rw [leaksAll, leaks_of_fits f p n h.1, leaksAll_of_fits f [] (.each p) ns h.2]
    rfl
  | [], .turns p q, n :: ns, h => by
    have h := Bool.and_eq_true_iff.1 h
    rw [leaksAll, leaks_of_fits f p n h.1, leaksAll_of_fits f [] (.turns q p) ns h.2]
    rfl

end

/-! ## Nothing is missing -/

section

variable {f : SourceFile} {p q : Place} {n : Node} {ns : List Node}

/-- Only what belongs to types is dropped. -/
theorem isPassedOver_of_drops {k : NodeKind} (h : p.drops k = true) : isPassedOver k = true := by
  have htype {k : NodeKind} (h : k.isTypeStatement = true) : isPassedOver k = true := by
    unfold NodeKind.isTypeStatement at h
    split at h <;> first | decide | cases h
  unfold Place.drops at h
  split at h
  case h_1 | h_2 | h_3 | h_4 => exact htype h
  case h_5 =>
    simp only [Bool.or_eq_true, beq_iff_eq] at h
    rcases h with rfl | rfl <;> decide
  case h_6 =>
    rw [eq_of_beq h]
    decide
  case h_7 => cases h

/-- A part that stands at a place which is never empty. -/
def Needed (f : SourceFile) (n : Node) : Prop := ∃ p : Place, p.isOptional = false ∧ Fits f p n

theorem needed_all {ps : List Place} (h : kidsFit (.source f) ps .none ns = true)
    (ho : ∀ p ∈ ps, p.isOptional = false) : ∀ m ∈ ns, Needed f m := by
  induction ps generalizing ns with
  | nil =>
    cases ns with
    | nil => exact List.forall_mem_nil _
    | cons => cases h
  | cons p ps ih =>
    cases ns with
    | nil => cases h
    | cons n ns =>
      obtain ⟨hn, hns⟩ := Bool.and_eq_true_iff.1 h
      obtain ⟨hp, hps⟩ := List.forall_mem_cons.1 ho
      exact List.forall_mem_cons.2 ⟨⟨p, hp, hn⟩, ih hns hps⟩

section

variable {k : NodeKind} (hn : Placed (.source f) p n) (hk : n.kind = k)

include hn

theorem needed_decos : ∀ m ∈ n.decos, Needed f m := fun m hm => ⟨.decorator, rfl, hn.decos m hm⟩

include hk

theorem needed_kid (i : Nat) (hi : (shapeOf p k n.flags).first[i]? = some q)
    (ho : q.isOptional = false) : Needed f (n.kid i) := ⟨q, ho, hn.kid hk i hi⟩

theorem needed_one (i : Nat) (hi : (shapeOf p k n.flags).first[i]? = some q)
    (ho : q.isOptional = false) : ∀ m ∈ [n.kid i], Needed f m :=
  List.forall_mem_singleton.2 (needed_kid hn hk i hi ho)

theorem needed_two {r : Place} (hq : (shapeOf p k n.flags).first[0]? = some q)
    (hr : (shapeOf p k n.flags).first[1]? = some r) (hq' : q.isOptional = false)
    (hr' : r.isOptional = false) : ∀ m ∈ [n.kid 0, n.kid 1], Needed f m :=
  List.forall_mem_cons.2 ⟨needed_kid hn hk 0 hq hq', needed_one hn hk 1 hr hr'⟩

theorem needed_each (hr : (shapeOf p k n.flags).rest = .each q) (ho : q.isOptional = false) :
    ∀ m ∈ n.kids.drop (shapeOf p k n.flags).first.length, Needed f m :=
  fun m hm => ⟨q, ho, hn.each hk hr m hm⟩

/-- Of an imported or exported item all names are looked into, and the last twice. -/
theorem needed_names (h : shapeOf p k n.flags = { first := q :: ps })
    (ho : ∀ r ∈ q :: ps, r.isOptional = false) :
    ∀ m ∈ n.kids.getLastD .absent :: n.kids, Needed f m := by
  subst hk
  have hkids := hn.kids
  rw [h] at hkids
  have hall := needed_all hkids ho
  refine List.forall_mem_cons.2 ⟨?_, hall⟩
  cases hks : n.kids with
  | nil =>
    rw [hks] at hkids
    cases hkids
  | cons m ms =>
    rw [hks] at hall
    rw [List.getLastD_cons]
    exact hall _ List.getLastD_mem_cons

theorem needed_keyPart (hi : (shapeOf p k n.flags).first[0]? = some (keyPlace n.flags.computed)) :
    ∀ m ∈ keyPart n, Needed f m := by
  unfold keyPart
  split
  · exact List.forall_mem_nil _
  · exact needed_one hn hk 0 hi (isOptional_keyPlace _)

end

theorem needed_memberParts (hn : Placed (.source f) p n) (hk : n.kind = .objProp) :
    ∀ m ∈ memberParts n, Needed f m := by
  refine List.forall_mem_append.2 ⟨needed_keyPart hn hk rfl, ?_⟩
  split
  · exact needed_one hn hk 1 rfl rfl
  · exact List.forall_mem_nil _

/-- An exported function or class has a name. -/
theorem needed_exported (hn : Placed (.source f) p n) (hk : n.kind = .exportDecl) :
    ∀ m ∈ looksInto n, Needed f m := by
  have hdecl : Fits f .declaration (n.kid 0) := hn.kid hk 0 rfl
  have hplaced (h : Place.declaration.drops (n.kid 0).kind = false) :
      Placed (.source f) .declaration (n.kid 0) :=
    fits_placed hdecl (fits_present_of_needed hdecl rfl) h
  have hone := needed_one hn hk 0 rfl rfl
  rw [looksInto, hk]
  dsimp only
  split
  · rename_i hnamed
    refine List.forall_mem_cons.2 ⟨hone _ List.mem_cons_self, ?_⟩
    simp only [Bool.or_eq_true, beq_iff_eq] at hnamed
    rcases hnamed with hd | hd <;>
      exact needed_one (hplaced (by rw [hd]; rfl)) hd 0 rfl rfl
  · exact hone

/-- The members of a pattern that are no rest have a key and a value. -/
theorem needed_pattern (hn : Placed (.source f) p n) (hk : n.kind = .objectPattern) :
    ∀ m ∈ looksInto n, Needed f m := by
  have hkids : ∀ k ∈ n.kids, Fits f .patternMember k := hn.each hk rfl
  rw [looksInto, hk]
  refine List.forall_mem_append.2 ⟨needed_each hn hk rfl rfl, fun m hm => ?_⟩
  obtain ⟨k, hk, hm⟩ := List.mem_flatMap.1 hm
  obtain ⟨hk, hrest⟩ := List.mem_filter.1 hk
  have hplaced : Placed (.source f) .patternMember k :=
    fits_placed (hkids k hk) (fits_present_of_needed (hkids k hk) rfl) rfl
  have hallowed : k.kind = .objProp ∨ k.kind = .restElement := by
    simpa [Place.allows] using hplaced.allowed
  exact needed_memberParts hplaced (hallowed.resolve_right (by simpa using hrest)) m hm

/-- A template that is all text. -/
theorem needed_text (hn : Placed (.source f) p n) (hk : n.kind = .template) :
    ∀ m ∈ looksInto n, Needed f m := by
  have hkids := hn.kids
  rw [hk] at hkids
  rw [looksInto, hk]
  dsimp only
  split
  · rename_i hone
    obtain ⟨m, hm⟩ := List.length_eq_one_iff.1 hone
    rw [hm] at hkids ⊢
    exact List.forall_mem_singleton.2 ⟨.quasi, rfl, (Bool.and_eq_true_iff.1 hkids).1⟩
  · exact List.forall_mem_nil _

/-- All that is looked into has to be there. -/
theorem needed_looksInto (hn : Placed (.source f) p n) : ∀ m ∈ looksInto n, Needed f m := by
  cases hk : n.kind
  case exportDecl => exact needed_exported hn hk
  case objectPattern => exact needed_pattern hn hk
  case template => exact needed_text hn hk
  all_goals
    unfold looksInto
    rw [hk]
    dsimp only
  case importDecl | enumDecl =>
    exact List.forall_mem_cons.2 ⟨needed_kid hn hk 0 rfl rfl, needed_each hn hk rfl rfl⟩
  case classDecl | classExpr =>
    exact List.forall_mem_cons.2 ⟨needed_kid hn hk 2 rfl rfl, needed_decos hn⟩
  case method =>
    have hparts := List.forall_mem_append.2 ⟨needed_keyPart hn hk rfl, needed_decos hn⟩
    exact List.forall_mem_cons.2 ⟨needed_kid hn hk 1 rfl rfl, hparts⟩
  case property => exact List.forall_mem_append.2 ⟨needed_keyPart hn hk rfl, needed_decos hn⟩
  case objProp => exact needed_memberParts hn hk
  case param =>
    split
    · exact needed_one hn hk 0 rfl rfl
    · exact List.forall_mem_nil _
  case importDefault | importNamespace | importSpec => exact needed_names hn hk rfl (by decide)
  case catchClause => exact needed_one hn hk 1 rfl rfl
  all_goals first
    | exact List.forall_mem_nil _
    | exact needed_one hn hk 0 rfl rfl
    | exact needed_two hn hk rfl rfl rfl rfl
    | exact needed_each hn hk rfl rfl

theorem cut_le (p : Place) (k : NodeKind) (flags : Flags) :
    cut k ≤ (shapeOf p k flags).first.length := by
  unfold cut
  split <;> exact Nat.le_of_ble_eq_true rfl

/-- A node that fits its place lacks nothing. -/
theorem lack?_of_placed (hn : Placed (.source f) p n) : lack? n = none := by
  have hlength := first_le_length hn.kids
  have hcut := cut_le p n.kind n.flags
  have hparts : (looksInto n).any Node.isAbsent = false := by
    rw [List.any_eq_false]
    intro m hm
    obtain ⟨q, ho, hfits⟩ := needed_looksInto hn m hm
    simp [Node.isAbsent, fits_present_of_needed hfits ho]
  rw [lack?, if_neg (by omega), hparts]
  rfl

mutual

theorem flaw?_of_fits (f : SourceFile) : ∀ (p : Place) (n : Node), Fits f p n → flaw? n = none
  | _, .absent, _ => rfl
  | p, .mk h ks ds t a x, hn => by
    unfold flaw?
    split
    · rfl
    · rename_i hkept
      have hplaced : Placed (.source f) p (.mk h ks ds t a x) := by
        refine fits_placed hn rfl (Bool.eq_false_iff.2 fun hdrop => hkept ?_)
        exact isPassedOver_of_drops hdrop
      rw [lack?_of_placed hplaced]
      dsimp only
      rw [flawIn?_of_fits f [] (.each .decorator) ds (fit_each hplaced.decos),
        flawIn?_of_fits f _ _ ks hplaced.kids]
      rfl

theorem flawIn?_of_fits (f : SourceFile) : ∀ (ps : List Place) (r : Rest) (ns : List Node),
    kidsFit (.source f) ps r ns = true → flawIn? ns = none
  | _, _, [], _ => rfl
  | [], .none, _ :: _, h => by cases h
  | p :: ps, r, n :: ns, h => by
    have h := Bool.and_eq_true_iff.1 h
    rw [flawIn?, flaw?_of_fits f p n h.1, flawIn?_of_fits f ps r ns h.2]
    rfl
  | [], .each p, n :: ns, h => by
    have h := Bool.and_eq_true_iff.1 h
    rw [flawIn?, flaw?_of_fits f p n h.1, flawIn?_of_fits f [] (.each p) ns h.2]
    rfl
  | [], .turns p q, n :: ns, h => by
    have h := Bool.and_eq_true_iff.1 h
    rw [flawIn?, flaw?_of_fits f p n h.1, flawIn?_of_fits f [] (.turns q p) ns h.2]
    rfl

end

/-- A program that fits lacks nothing that lowering looks into. -/
theorem flaw?_of_program {root : Node} (h : FitsAsProgram (.source f) root) :
    flaw? root = none := by
  cases root with
  | absent => rfl
  | mk hd ks ds t a x =>
    have hkind : hd.kind = .program := h.kind
    have hlack : lack? (.mk hd ks ds t a x) = none := by
      have hparts : ks.any Node.isAbsent = false := by
        rw [List.any_eq_false]
        intro m hm
        simp [Node.isAbsent, fits_present_of_needed (h.stmts m hm) rfl]
      rw [lack?, looksInto, show (Node.mk hd ks ds t a x).kind = .program from hkind]
      exact (if_neg (Nat.not_lt_zero _)).trans (if_neg (by simpa [Node.kids] using hparts))
    unfold flaw?
    rw [if_neg (by rw [hkind]; decide), hlack]
    dsimp only
    rw [show ds = [] from h.decos, flawIn?_of_fits f [] (.each .stmt) ks (fit_each h.stmts)]
    rfl

end

/-! ## Files -/

section

variable {file : SourceFile} {out : Node} {comments : CommentTable} {supply : NameSupply}
  {o : Settings}

theorem clean_startState (comments : CommentTable) (supply : NameSupply) (o : Settings) :
    (startState comments supply o).Clean := by
  intro d hd
  have hpragma := (applyPragmas_warnings _ _ d hd).1
  simp only [ignoresPragma, Bool.and_eq_true, beq_iff_eq] at hpragma
  rw [hpragma.2]
  decide

/-- The program of a file that parses fits, and is made without a fault. -/
theorem programOf_fits (hroot : FitsAsProgram (.source file) root) (comments : CommentTable)
    (supply : NameSupply) (o : Settings) :
    (programOf file root comments supply o).2.Clean ∧
      FitsAsProgram (.lowered file) (programOf file root comments supply o).1 := by
  refine gives_lowerProgram (handles_rules file (depthFor root)) hroot ?_ _ _
    (clean_startState comments supply o)
  unfold depthFor rulesPerNode
  omega

theorem leaks_of_program (h : FitsAsProgram (.lowered file) root) : leaks root = [] := by
  cases root with
  | absent => rfl
  | mk hd ks ds t a x =>
    have hacc := h.accepted
    simp only [Canon.accepts, plain_lowered, Bool.true_and, Bool.and_eq_true,
      Bool.not_eq_true'] at hacc
    have hkind : hd.kind = .program := h.kind
    have htyped : (t.isPresent || a.isPresent || x.isPresent) = false := hacc.2
    have hleak : leak? hd (t.isPresent || a.isPresent || x.isPresent) = none := by
      rw [leak?, hkind, htyped]
      rfl
    unfold leaks
    rw [hleak]
    dsimp only
    rw [leaksAll_of_fits file [] (.each .stmt) ks (fit_each h.stmts), show ds = [] from h.decos]
    rfl

/-- What is reported behind lowering a tree that fits is what was reported on the way. -/
theorem lowerTree_reports (hroot : FitsAsProgram (.source file) root) (htidy : Tidy root)
    (comments : CommentTable) (supply : NameSupply) (o : Settings) :
    (lowerTree file root comments supply o).reports =
      (programOf file root comments supply o).2.reports := by
  rw [lowerTree_eq hroot.kind, flaw?_of_program hroot]
  dsimp only
  rw [lowerWhole_eq]
  dsimp only
  split
  · have hrenamed : FitsAsProgram (.lowered file) (renameMarked
        (programOf file root comments supply o).2.supply
          (programOf file root comments supply o).1).1 :=
      fitsAsProgram_spellOut (programOf_fits hroot comments supply o).2
    rw [nameless_eq_nil htidy, leaks_of_program hrenamed, List.append_nil, List.append_nil]
  · rfl

/-- Lowering a tree that fits reports no fault, and the tree it makes fits again. -/
theorem lowerTree_fits (hroot : FitsAsProgram (.source file) root) (htidy : Tidy root)
    (comments : CommentTable) (supply : NameSupply) (o : Settings) :
    (∀ d ∈ (lowerTree file root comments supply o).reports, d.code ∉ faults) ∧
      ∀ out, (lowerTree file root comments supply o).tree = some out →
        FitsAsProgram (.lowered file) out := by
  obtain ⟨hclean, hfits⟩ := programOf_fits hroot comments supply o
  rw [lowerTree_reports hroot htidy]
  refine ⟨hclean, fun out hout => ?_⟩
  obtain ⟨names, rfl⟩ := lowerTree_spellOut hout
  exact fitsAsProgram_spellOut hfits

/-- A tree that does not fit may fail: here a class has no body. -/
example :
    let root := Node.new .program {} [.new .classDecl {} [.ident "C" {}, .absent]]
    (lowerTree {} root {} {} {}).reports =
      [.error .loweringFailure {} ("internal transform failure: " ++ Failure.missingNode)] := by
  decide +kernel

end

end

end ScriptLower.Lower
