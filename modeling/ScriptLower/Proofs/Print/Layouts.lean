import ScriptLower.Print.Program

/-!
# Pieces of a layout, and what is reported of them
-/

/-!
## What a layout keeps to

The pieces of every tree keep to three rules. A semicolon is forgotten only in front of a closing
brace or at the end of all: the piece that says so has the end of a line and the brace behind it, or
nothing. Text that is written as it is follows the backtick of a template or other such text, unless
it is the brace that closes an expression in a template. And what cannot be printed is reported in
one way only.

The rules look at what follows a piece, so a layout is said to keep to them when it may be put in
front of any pieces that do. Layouts of that kind can be joined.
-/

namespace ScriptLower.Print

open ScriptLower

/-! ## The rules -/

/-- A piece that no rule is about. -/
def Piece.isPlain : Piece → Bool
  | .raw _ | .dropSemi | .fault _ => false
  | _ => true

/-- Pieces that keep to the rules; `inside` when the piece in front of them opens or continues the
text of a template. -/
inductive Orderly : Bool → Pieces → Prop
  | nil (inside : Bool) : Orderly inside []
  | plain {inside : Bool} {p : Piece} {ps : Pieces} (hp : p.isPlain = true)
      (h : Orderly (p == .token [96]) ps) : Orderly inside (p :: ps)
  | raw {inside : Bool} {s : Bytes} {ps : Pieces} (hs : inside = true ∨ s = [0x7D])
      (h : Orderly true ps) : Orderly inside (.raw s :: ps)
  | fault {inside : Bool} {ps : Pieces} {code : Code}
    (hc : code = .unprintableNode ∨ code = .printingFailure)
      (span : Span) (message : Bytes) (h : Orderly false ps) :
      Orderly inside (.fault (.error code span message) :: ps)
  | close {inside : Bool} {ps : Pieces} (h : Orderly false ps) :
      Orderly inside (.dropSemi :: .newline :: closeBrace :: ps)
  | last (inside : Bool) : Orderly inside [.dropSemi]

/-- Pieces that may stand in front of any others. -/
def Laid (ps : Pieces) : Prop := ∀ qs, Orderly false qs → Orderly false (ps ++ qs)

/-- A layout that keeps to the rules in every role. -/
def Layout.Laid (k : Layout) : Prop := ∀ role, Print.Laid (k role)

/-- Layouts that all keep to the rules. -/
def AllLaid (ks : List Layout) : Prop := ∀ k ∈ ks, k.Laid

/-! ## Joined pieces -/

section

variable {ps qs : Pieces} {pss : List Pieces} {c : Prop} [Decidable c]

/-- Inside of a template more is allowed. -/
theorem Orderly.within (h : Orderly false ps) (inside : Bool) : Orderly inside ps := by
  cases h with
  | nil => exact .nil inside
  | plain hp h => exact .plain hp h
  | raw hs h => exact .raw (.inr (hs.resolve_left Bool.false_ne_true)) h
  | fault hc span message h => exact .fault hc span message h
  | close h => exact .close h
  | last => exact .last inside

theorem laid_nil : Laid [] := fun _ h => h

theorem Laid.append (hp : Laid ps) (hq : Laid qs) : Laid (ps ++ qs) := by
  intro rs h
  rw [List.append_assoc]
  exact hp _ (hq _ h)

theorem Laid.cons {p : Piece} (h : Laid ps) (hp : p.isPlain = true) : Laid (p :: ps) :=
  fun qs hq => .plain hp ((h qs hq).within _)

/-- Pieces that no rule is about. -/
theorem laid_plain (h : ps.all Piece.isPlain = true) : Laid ps := by
  induction ps with
  | nil => exact laid_nil
  | cons p ps ih =>
    obtain ⟨hp, hps⟩ := Bool.and_eq_true_iff.1 h
    exact (ih hps).cons hp

theorem laid_close : Laid [.dropSemi, .newline, closeBrace] := fun _ h => .close h

theorem laid_unprintable (n : Node) : Laid (unprintable n) := fun _ h => .fault (.inl rfl) _ _ h

theorem laid_failure (what : Bytes) : Laid (failure what) := fun _ h => .fault (.inr rfl) _ _ h

theorem laid_missing : Laid missing := laid_failure _

theorem Laid.ite (hp : Laid ps) (hq : Laid qs) : Laid (if c then ps else qs) := by
  split
  · exact hp
  · exact hq

theorem Laid.lookingInto (h : Laid ps) (n : Node) : Laid (lookingInto n ps) := h.ite laid_missing

theorem Laid.behind (h : Laid ps) (i : Nat) (n : Node) : Laid (behind i n ps) :=
  h.ite (laid_failure _)

/-- Pieces that may be missing. -/
theorem Laid.opt (h : Laid ps) : Laid (if c then ps else []) := h.ite laid_nil

theorem laid_flatten (h : ∀ ps ∈ pss, Laid ps) : Laid pss.flatten := by
  induction pss with
  | nil => exact laid_nil
  | cons ps pss ih =>
    exact (h ps List.mem_cons_self).append (ih fun qs hq => h qs (List.mem_cons_of_mem _ hq))

theorem laid_commaSeparated (h : ∀ ps ∈ pss, Laid ps) : Laid (commaSeparated pss) := by
  fun_induction commaSeparated pss with
  | case1 => exact laid_nil
  | case2 p => exact h p List.mem_cons_self
  | case3 p r hr ih =>
    exact (h p List.mem_cons_self).append (laid_plain rfl)
      |>.append (ih fun q hq => h q (List.mem_cons_of_mem _ hq))

theorem Laid.parens (h : Laid ps) : Laid (tok "(" ++ ps ++ tok ")") :=
  (laid_plain rfl).append h |>.append (laid_plain rfl)

theorem Laid.wrapIf (h : Laid ps) (wrap : Bool) : Laid (wrapIf wrap ps) := h.parens.ite h

end

/-! ## Children -/

section

variable {ks : List Layout}

theorem laid_absent : Layout.absent.Laid := by
  intro role
  unfold Layout.absent
  split
  case h_1 | h_2 | h_3 | h_4 | h_5 | h_6 | h_7 | h_8 => exact laid_plain rfl
  case h_9 | h_10 => exact laid_missing.cons rfl
  case h_11 => exact laid_missing

theorem AllLaid.child (h : AllLaid ks) (i : Nat) (role : Role) : Laid (child ks i role) := by
  unfold Print.child
  rw [List.getD_eq_getElem?_getD]
  cases hi : ks[i]? with
  | none => exact laid_absent role
  | some k => exact h k (List.mem_of_getElem? hi) role

theorem AllLaid.drop (h : AllLaid ks) (i : Nat) : AllLaid (ks.drop i) :=
  fun k hk => h k (List.mem_of_mem_drop hk)

theorem AllLaid.map (h : AllLaid ks) (role : Role) : ∀ ps ∈ ks.map (fun k => k role), Laid ps :=
  List.forall_mem_map.2 fun k hk => h k hk role

theorem AllLaid.flatMap (h : AllLaid ks) (role : Role) : Laid (ks.flatMap fun k => k role) := by
  rw [List.flatMap_def]
  exact laid_flatten (h.map role)

/-- Children with commas between them. -/
theorem AllLaid.list (h : AllLaid ks) (role : Role) :
    Laid (commaSeparated (ks.map fun k => k role)) := laid_commaSeparated (h.map role)

theorem AllLaid.braced (h : AllLaid ks) (span : Span) (role : Role) :
    Laid (braced span (ks.map fun k => k role)) := by
  have hlines : Laid (ks.map fun k => k role).flatten := laid_flatten (h.map role)
  refine Laid.ite (laid_plain rfl) ?_
  exact (laid_plain rfl).append hlines |>.append ((laid_close.cons rfl).cons rfl)

theorem AllLaid.inParens (h : AllLaid ks) (i : Nat) : Laid (inParens (Print.child ks i)) :=
  (h.child i _).parens

theorem AllLaid.arguments (h : AllLaid ks) : Laid (arguments ks) := (h.list _).parens

end

/-! ## Expressions -/

section

variable {ascii : Bool} {n : Node} {ks ds : List Layout} {self : Layout} {level : Nat}
  {r : Restriction}

theorem laid_literal : Laid (literal ascii n) := by
  unfold literal
  split <;> exact laid_plain rfl

/-- Behind the backtick of a template, and behind a part of it, comes any text. -/
theorem orderly_templateParts {xs : List (Node × Layout)} (h : ∀ x ∈ xs, x.2.Laid)
    (ascii atExpr : Bool)
    {qs : Pieces} (hq : Orderly false qs) : Orderly true (templateParts ascii atExpr xs ++ qs) := by
  fun_induction templateParts ascii atExpr xs with
  | case1 => exact .raw (.inl rfl) (hq.within true)
  | case2 n k r hn ih => exact .raw (.inl rfl) (ih fun x hx => h x (List.mem_cons_of_mem _ hx))
  | case3 n k r hn => exact (laid_missing _ hq).within true
  | case4 n k r ih =>
    have hrest := ih fun x hx => h x (List.mem_cons_of_mem _ hx)
    have hexpr : Laid (plain k) := h (n, k) List.mem_cons_self _
    have hclosed : Orderly false (.raw [0x7D] :: (templateParts ascii false r ++ qs)) :=
      .raw (.inr rfl) hrest
    have hparts := (hexpr _ hclosed).within true
    simp only [List.append_assoc, List.cons_append, List.nil_append]
    exact .raw (.inl rfl) hparts

theorem laid_template (h : AllLaid ks) : Laid (template ascii n ks) := by
  intro qs hq
  have hparts : ∀ x ∈ n.kids.zip ks, x.2.Laid := fun x hx => h x.2 (List.of_mem_zip hx).2
  have hall := orderly_templateParts hparts ascii false hq
  simp only [template, List.cons_append, List.nil_append]
  exact .plain rfl hall

theorem laid_memberRead (h : AllLaid ks) : Laid (memberRead ascii n ks r) :=
  (((h.inParens 0).ite (h.child 0 _)).lookingInto _).append (laid_plain rfl)
    |>.append ((laid_plain rfl).lookingInto _)

theorem laid_binary (h : AllLaid ks) : Laid (binary n ks level r) := by
  unfold binary
  split
  · exact laid_unprintable n
  · exact Laid.wrapIf ((h.child 0 _).append (laid_plain rfl) |>.append (h.child 1 _)) _

theorem laid_update (h : AllLaid ks) : Laid (update n ks level) := by
  refine Laid.ite (.wrapIf ?_ _) (.wrapIf ?_ _)
  · exact (laid_plain rfl).append (h.child 0 _)
  · exact (h.child 0 _).append (laid_plain rfl)

theorem laid_array (h : AllLaid ks) : Laid (array n ks) :=
  (laid_plain rfl).append (h.list _) |>.append (laid_plain rfl).opt |>.append (laid_plain rfl)

/-- Members or names in braces. -/
theorem AllLaid.inBraces (h : AllLaid ks) (role : Role) :
    Laid (if ks.isEmpty then [.token [0x7B, 0x7D]]
      else [openBrace, .space] ++ commaSeparated (ks.map fun k => k role) ++
        [.space, closeBrace]) :=
  (laid_plain rfl).ite ((laid_plain rfl).append (h.list role) |>.append (laid_plain rfl))

/-! ### Functions and classes -/

theorem laid_function (h : AllLaid ks) : Laid (function n ks) :=
  (laid_plain rfl).opt.append (laid_plain rfl) |>.append (laid_plain rfl).opt
    |>.append ((h.child 0 _).cons rfl).opt |>.append (h.child 1 _) |>.append (laid_plain rfl)
    |>.append (h.child 2 _)

theorem laid_arrow (h : AllLaid ks) : Laid (arrow n ks r) :=
  (laid_plain rfl).opt.append (h.child 0 _) |>.append (laid_plain rfl)
    |>.append ((h.child 1 _).ite ((h.child 1 _).wrapIf _))

/-- A value behind a sign, where there is one. -/
theorem AllLaid.value (h : AllLaid ks) (sign : String) (i : Nat) (role : Role) {c : Prop}
    [Decidable c] : Laid (if c then spacedWord sign ++ Print.child ks i role else []) :=
  ((laid_plain rfl).append (h.child i role)).opt

theorem laid_parameter (h : AllLaid ks) (hd : AllLaid ds) : Laid (parameter n ks ds) :=
  (hd.flatMap _).append (laid_plain rfl) |>.append (laid_plain rfl).opt |>.append (h.child 0 _)
    |>.append (h.value _ 1 _)

theorem laid_method (h : AllLaid ks) : Laid (method n ks) :=
  (laid_plain rfl).opt.append (laid_plain rfl).opt |>.append (laid_plain rfl).opt
    |>.append (laid_plain rfl).opt |>.append (h.child 0 _) |>.append (h.child 1 _)
    |>.append (laid_plain rfl) |>.append (h.child 2 _)

theorem laid_decorator (h : AllLaid ks) (ownLine : Bool) : Laid (decorator n ks ownLine) := by
  have hend : Laid [if ownLine then Piece.newline else .space] := by
    cases ownLine <;> exact laid_plain rfl
  exact (laid_plain rfl).append (laid_plain rfl)
    |>.append (((h.child 0 _).ite (h.inParens 0)).lookingInto _) |>.append hend

theorem laid_class (h : AllLaid ks) (hd : AllLaid ds) : Laid (class_ n ks ds) :=
  (hd.flatMap _).append (laid_plain rfl) |>.append ((h.child 0 _).cons rfl).opt
    |>.append (h.value _ 1 _) |>.append (laid_plain rfl) |>.append (h.child 2 _)

theorem laid_field (h : AllLaid ks) : Laid (field n ks) :=
  (laid_plain rfl).opt.append (laid_plain rfl).opt |>.append (h.child 0 _)
    |>.append (h.value _ 1 _) |>.append (laid_plain rfl)

theorem laid_member (h : AllLaid ks) (hd : AllLaid ds) : Laid (member n ks ds) := by
  have hfront : Laid ([Piece.leading n.span.start] ++ ds.flatMap (fun d => d (.decorator true))
      ++ [Piece.map n.span]) :=
    (laid_plain rfl).append (hd.flatMap _) |>.append (laid_plain rfl)
  refine (hfront.append ?_).append (laid_plain rfl)
  split
  · exact laid_method h
  · exact laid_field h
  · exact (laid_plain rfl).append (h.child 0 _)
  · exact laid_unprintable n

theorem laid_key (hself : self.Laid) (computed : Bool) : Laid (key ascii n computed self) := by
  refine Laid.ite ((laid_plain rfl).append (hself _) |>.append (laid_plain rfl)) (.cons ?_ rfl)
  split
  · exact laid_plain rfl
  · exact laid_plain rfl
  · exact hself _

theorem laid_property (h : AllLaid ks) (hself : self.Laid) : Laid (property n ks self) := by
  refine Laid.cons ?_ rfl
  split
  · exact laid_missing.ite
      ((h.child 1 _).ite ((h.child 0 _).append (laid_plain rfl) |>.append (h.child 1 _)))
  · exact laid_method h
  · exact hself _

/-! ### All expressions -/

theorem laid_bareExpr (h : AllLaid ks) (hd : AllLaid ds) :
    Laid (bareExpr ascii n ks ds level r) := by
  unfold bareExpr
  dsimp only
  split
  case h_1 | h_2 | h_3 | h_4 | h_5 | h_6 => exact laid_plain rfl
  case h_7 => exact laid_literal
  case h_8 => exact laid_template h
  case h_9 => exact ((h.child 0 _).append (h.child 1 _)).wrapIf _
  case h_10 => exact h.inParens 0
  case h_11 | h_12 => exact laid_array h
  case h_13 | h_14 => exact h.inBraces _
  case h_15 => exact laid_nil
  case h_16 | h_17 => exact (laid_plain rfl).append (h.child 0 _)
  case h_18 =>
    exact ((h.child 0 _).append (laid_plain rfl) |>.append (h.child 1 _)).wrapIf _
  case h_19 => exact laid_function h
  case h_20 => exact laid_class h hd
  case h_21 => exact (laid_arrow h).wrapIf _
  case h_22 =>
    exact ((laid_plain rfl).append (laid_plain rfl).opt |>.append (h.child 0 _)).wrapIf _
  case h_23 => exact laid_update h
  case h_24 => exact ((laid_plain rfl).append (h.child 0 _)).wrapIf _
  case h_25 =>
    exact ((laid_plain rfl).append (laid_plain rfl).opt
      |>.append ((h.child 0 _).cons rfl).opt).wrapIf _
  case h_26 => exact laid_binary h
  case h_27 =>
    exact ((h.child 0 _).append (laid_plain rfl) |>.append (h.child 1 _)).wrapIf _
  case h_28 =>
    exact ((h.child 0 _).append (laid_plain rfl) |>.append (h.child 1 _)
      |>.append (laid_plain rfl) |>.append (h.child 2 _)).wrapIf _
  case h_29 => exact (h.list _).wrapIf _
  case h_30 =>
    exact ((h.child 0 _).append (laid_plain rfl).opt |>.append
      ((h.drop 1).arguments.behind 1 _)).wrapIf _
  case h_31 => exact (laid_plain rfl).append h.arguments
  case h_32 =>
    exact (laid_plain rfl).append (h.child 0 _) |>.append ((h.drop 1).arguments.behind 1 _)
  case h_33 => exact laid_memberRead h
  case h_34 =>
    exact (h.child 0 _).append (laid_plain rfl).opt |>.append (laid_plain rfl)
      |>.append (h.child 1 _) |>.append (laid_plain rfl)
  case h_35 => exact h.child 0 _
  case h_36 => exact laid_unprintable n

theorem laid_expr (h : AllLaid ks) (hd : AllLaid ds) : Laid (expr ascii n ks ds level r) :=
  (laid_bareExpr h hd).cons rfl

end

/-! ## Statements -/

section

variable {ascii : Bool} {n : Node} {ks ds : List Layout} {r : Restriction}

theorem laid_bindings (h : AllLaid ks) : Laid (bindings n ks r) :=
    (laid_plain rfl).append (h.list _)

theorem laid_declarator (h : AllLaid ks) : Laid (declarator n ks r) :=
  (laid_plain rfl).append (h.child 0 _) |>.append (h.value _ 1 _)

/-- An expression with a blank in front, where there is one. -/
theorem AllLaid.optional (h : AllLaid ks) (m : Node) (i : Nat) :
    Laid (optional m (Print.child ks i)) :=
  ((h.child i _).cons rfl).opt

theorem AllLaid.loopHead (h : AllLaid ks) (m : Node) (i : Nat) :
    Laid (loopHead m (Print.child ks i)) :=
  (h.child i _).ite (h.child i _)

theorem laid_ifStatement (h : AllLaid ks) : Laid (ifStatement n ks) := by
  have hfirst (guarded : Bool) : Laid (if guarded then
      [Piece.space, openBrace, .push, .newline] ++ child ks 1 .line
        ++ [Piece.pop, .dropSemi, .newline, closeBrace]
      else child ks 1 .body) :=
    ((laid_plain rfl).append (h.child 1 _) |>.append (laid_close.cons rfl)).ite (h.child 1 _)
  have hsearched (guarded : Bool) {first : Pieces} (hfirst : Laid first) :
      Laid (if guarded then ((searchFailure? (n.kid 1)).map failure).getD first else first) := by
    refine Laid.ite ?_ hfirst
    cases searchFailure? (n.kid 1) with
    | none => exact hfirst
    | some what => exact laid_failure what
  have hgap (c : Bool) : Laid [if c then Piece.space else .newline] := by
    cases c <;> exact laid_plain rfl
  have helse : Laid (if (n.kid 2).kind == .ifStmt then
      [Piece.space, .map (n.kid 2).span] ++ child ks 2 .stmt
      else child ks 2 .body) :=
    ((laid_plain rfl).append (h.child 2 _)).ite (h.child 2 _)
  exact (laid_plain rfl).append (h.inParens 0) |>.append (hsearched _ (hfirst _))
    |>.append (laid_nil.ite ((hgap _).append (laid_plain rfl) |>.append helse))

theorem laid_forStatement (h : AllLaid ks) : Laid (forStatement n ks) :=
  (laid_plain rfl).append (laid_plain rfl) |>.append (h.loopHead _ 0).opt |>.append (laid_plain rfl)
    |>.append (h.optional _ 1) |>.append (laid_plain rfl) |>.append (h.optional _ 2)
    |>.append (laid_plain rfl) |>.append (h.child 3 _)

theorem laid_forEach (h : AllLaid ks) : Laid (forEach n ks) :=
  (laid_plain rfl).append (laid_plain rfl).opt |>.append (laid_plain rfl) |>.append (laid_plain rfl)
    |>.append ((h.loopHead _ 0).lookingInto _) |>.append (laid_plain rfl) |>.append (h.child 1 _)
    |>.append (laid_plain rfl) |>.append (h.child 2 _)

theorem laid_tryStatement (h : AllLaid ks) : Laid (tryStatement n ks) :=
  (laid_plain rfl).append (h.child 0 _) |>.append ((h.child 1 _).cons rfl).opt
    |>.append (h.value _ 2 _)

theorem laid_handler (h : AllLaid ks) : Laid (handler n ks) :=
  (laid_plain rfl).append (laid_plain rfl) |>.append ((h.inParens 0).cons rfl).opt
    |>.append (laid_plain rfl) |>.append (h.child 1 _)

theorem laid_switchStatement (h : AllLaid ks) : Laid (switchStatement n ks) :=
  (laid_plain rfl).append (h.inParens 0) |>.append (laid_plain rfl)
    |>.append (((h.drop 1).flatMap _).behind 1 _) |>.append ((laid_close.cons rfl).cons rfl)

theorem laid_branch (h : AllLaid ks) : Laid (branch n ks) := by
  have hlabel :
      Laid (if (n.kid 0).isPresent then word "case" ++ plain (child ks 0) else tok "default") :=
    ((laid_plain rfl).append (h.child 0 _)).ite (laid_plain rfl)
  have hstmts (isBlock : Bool) : Laid (if isBlock then
      [Piece.space] ++ child ks 1 .block ++ [Piece.newline]
      else [Piece.push, .newline] ++ (ks.drop 1).flatMap (fun k => k .line) ++
        [Piece.pop, .newline]) :=
    ((laid_plain rfl).append (h.child 1 _) |>.append (laid_plain rfl)).ite
      ((laid_plain rfl).append ((h.drop 1).flatMap _) |>.append (laid_plain rfl))
  exact (laid_plain rfl).append hlabel |>.append (laid_plain rfl) |>.append ((hstmts _).behind 1 _)

/-! ### Imports and exports -/

theorem laid_source (h : AllLaid ks) : Laid (source n ks) :=
  (h.child 0 _).append (h.value _ 1 _)

theorem laid_spec (h : AllLaid ks) : Laid (spec n ks) :=
  (laid_plain rfl).append (h.child 0 _) |>.append (laid_nil.ite ((h.value _ 1 _).lookingInto _))

theorem laid_importBindings (h : AllLaid ks) (specs : List Node) :
    Laid (importBindings specs ks) := by
  unfold importBindings
  split
  · rename_i k _
    exact ((laid_plain rfl).append (laid_plain rfl) |>.append (h k List.mem_cons_self _)).ite
      (h.inBraces _)
  · exact laid_nil

theorem laid_importStatement (h : AllLaid ks) : Laid (importStatement n ks) := by
  have hss : AllLaid (ks.drop 2) := h.drop 2
  have hbindings := ((hss.child 0 .bound).append
    (Laid.opt (c := 1 < (n.kids.drop 2).length) (laid_plain rfl : Laid (word ",")))
    |>.append (laid_importBindings (hss.drop 1) ((n.kids.drop 2).drop 1))).ite
      (c := ((n.kids.drop 2).headD .absent).kind == .importDefault)
      (laid_importBindings hss (n.kids.drop 2))
  have hrest := (laid_nil.ite (c := (n.kids.drop 2).isEmpty)
    (hbindings.append (laid_plain rfl : Laid (spacedWord "from"))))
    |>.append (laid_source (n := n) h) |>.append (laid_plain rfl : Laid [Piece.semi])
  exact (laid_plain rfl).append (hrest.behind 2 _)

theorem laid_exportNamed (h : AllLaid ks) : Laid (exportNamed n ks) :=
  (laid_plain rfl).append (((h.drop 2).inBraces _).behind 2 _)
    |>.append ((laid_plain rfl).append (laid_source h)).opt |>.append (laid_plain rfl)

theorem laid_exportAll (h : AllLaid ks) : Laid (exportAll n ks) :=
  (laid_plain rfl).append (laid_plain rfl) |>.append (h.value _ 2 _) |>.append (laid_plain rfl)
    |>.append (laid_source h) |>.append (laid_plain rfl)

theorem laid_exportDefault (h : AllLaid ks) : Laid (exportDefault n ks) := by
  refine ((laid_plain rfl).append (laid_plain rfl)).append (Laid.lookingInto ?_ _)
  split
  · exact h.child 0 _
  · exact h.child 0 _
  · exact ((h.child 0 _).wrapIf _).append (laid_plain rfl)

/-! ### All statements -/

theorem laid_statement (h : AllLaid ks) (hd : AllLaid ds) : Laid (statement n ks ds) := by
  have hjump (w : String) : Laid (tok w ++ optional (n.kid 0) (child ks 0) ++ [Piece.semi]) :=
    (laid_plain rfl).append (h.optional _ 0) |>.append (laid_plain rfl)
  unfold statement
  dsimp only
  split
  case h_1 => exact ((h.child 0 _).wrapIf _).append (laid_plain rfl)
  case h_2 => exact (laid_bindings h).append (laid_plain rfl)
  case h_3 => exact laid_function h
  case h_4 => exact laid_class h hd
  case h_5 => exact (h.braced _ _).cons rfl
  case h_6 => exact laid_plain rfl
  case h_7 => exact laid_plain rfl
  case h_8 => exact laid_ifStatement h
  case h_9 => exact laid_forStatement h
  case h_10 | h_11 => exact laid_forEach h
  case h_12 => exact (laid_plain rfl).append (h.inParens 0) |>.append (h.child 1 _)
  case h_13 =>
    have hgap : Laid [if (n.kid 0).kind == .block then Piece.space else .newline] := by
      split <;> exact laid_plain rfl
    exact (laid_plain rfl).append (h.child 0 _) |>.append hgap |>.append (laid_plain rfl)
      |>.append (h.inParens 1) |>.append (laid_plain rfl)
  case h_14 | h_15 | h_16 | h_17 => exact hjump _
  case h_18 => exact laid_tryStatement h
  case h_19 => exact laid_switchStatement h
  case h_20 =>
    exact (h.child 0 _).append (laid_plain rfl)
      |>.append ((laid_plain rfl).ite ((h.child 1 _).cons rfl))
  case h_21 => exact (laid_plain rfl).append (h.inParens 0) |>.append (h.child 1 _)
  case h_22 => exact laid_importStatement h
  case h_23 => exact laid_exportNamed h
  case h_24 => exact laid_exportAll h
  case h_25 => exact (laid_plain rfl).append (laid_plain rfl) |>.append (h.child 0 _)
  case h_26 => exact laid_exportDefault h
  case h_27 => exact laid_unprintable n

theorem laid_controlled (h : AllLaid ks) (hd : AllLaid ds) : Laid (controlled n ks ds) := by
  unfold controlled
  split
  · exact ((h.braced _ _).cons rfl).cons rfl
  · exact laid_plain rfl
  · exact (laid_plain rfl).append (laid_statement h hd) |>.append (laid_plain rfl)

/-! ## Trees -/

theorem laid_rule (h : AllLaid ks) (hd : AllLaid ds) : (rule ascii n ks ds).Laid := by
  intro role
  cases role with
  | expr level r => exact laid_expr h hd
  | stmt => exact laid_statement h hd
  | line => exact (laid_plain rfl).append (laid_statement h hd) |>.append (laid_plain rfl)
  | block => exact (h.braced _ _).cons rfl
  | body => exact laid_controlled h hd
  | bindings r => exact laid_bindings h
  | declarator r => exact laid_declarator h
  | params => exact (h.list _).parens
  | param => exact (laid_parameter h hd).ite (laid_expr h hd)
  | property => exact laid_property h fun _ => laid_expr h hd
  | key computed => exact laid_key (fun _ => laid_expr h hd) computed
  | template => exact laid_template h
  | decorator ownLine => exact laid_decorator h ownLine
  | classBody => exact h.braced _ _
  | member => exact laid_member h hd
  | handler => exact laid_handler h
  | branch => exact laid_branch h
  | spec => exact laid_spec h
  | bound => exact h.child 0 _

mutual

/-- Every tree is laid out by the rules. -/
theorem laid_layout (ascii : Bool) : ∀ n : Node, (layout ascii n).Laid
  | .absent => laid_absent
  | .mk _ ks ds _ _ _ => laid_rule (allLaid_layoutAll ascii ks) (allLaid_layoutAll ascii ds)

theorem allLaid_layoutAll (ascii : Bool) : ∀ ns : List Node, AllLaid (layoutAll ascii ns)
  | [] => List.forall_mem_nil _
  | n :: ns => List.forall_mem_cons.2 ⟨laid_layout ascii n, allLaid_layoutAll ascii ns⟩

end

/-- The pieces of a program keep to the rules. -/
theorem orderly_programPieces (ascii : Bool) (root : Node) :
    Orderly false (programPieces ascii root) := by
  have hlines := (allLaid_layoutAll ascii root.kids).flatMap .line
  exact hlines _ (.plain rfl (.last _))

end

end ScriptLower.Print

/-!
## What printing reports

Writing comments and text reports nothing. What is reported are the pieces that cannot be printed,
an entry that the map refuses, and a text that is no good, and all of these are errors under codes
that no other phase uses for a warning.
-/

namespace ScriptLower.Print

open ScriptLower

section

variable {s : State} {ps : Pieces} {root : Node} {comments : CommentTable} {o : Settings}

theorem State.reports_comment (c : Comment) : (s.comment c).reports = s.reports := by
  unfold comment
  split <;> rfl

theorem State.reports_comments (cs : List Comment) : (cs.foldl comment s).reports = s.reports := by
  induction cs generalizing s with
  | nil => rfl
  | cons c cs ih => exact ih.trans (reports_comment c)

theorem State.reports_leading (pos : Nat) : (s.leading pos).reports = s.reports := by
  unfold leading
  split
  · rfl
  · exact reports_comments _

theorem State.reports_dangling (pos : Nat) : (s.dangling pos).reports = s.reports := by
  unfold dangling
  split
  · rfl
  · exact reports_comments _

/-- What a piece reports. -/
def Piece.faults : Piece → List Diagnostic
  | .fault d => [d]
  | _ => []

attribute [local simp] Piece.faults

theorem State.reports_step (p : Piece) : (s.step p).reports = s.reports ++ p.faults := by
  cases p with
  | fault d => rfl
  | leading pos => exact (reports_leading pos).trans (List.append_nil _).symm
  | dangling pos => exact (reports_dangling pos).trans (List.append_nil _).symm
  | emptyBody pos =>
    rw [show (Piece.emptyBody pos).faults = [] from rfl, List.append_nil]
    unfold step
    dsimp only
    split
    · exact reports_dangling (s := s.write (·.push.newline)) pos
    · rfl
  | _ => exact (List.append_nil _).symm

theorem State.reports_run : (s.run ps).reports = s.reports ++ ps.flatMap Piece.faults := by
  induction ps generalizing s with
  | nil => exact (List.append_nil _).symm
  | cons p ps ih =>
    rw [List.flatMap_cons, ← List.append_assoc, ← reports_step]
    exact ih

/-- A diagnostic of the printer: an error with a code that no warning has. -/
def ofPrinter (d : Diagnostic) : Bool :=
  d.isError && [Code.unprintableNode, .printingFailure, .badOutput, .spanOutOfRange,
    .mapMismatch].contains d.code

theorem Orderly.faults {inside : Bool} (h : Orderly inside ps) :
    ∀ d ∈ ps.flatMap Piece.faults, ofPrinter d = true := by
  induction h with
  | nil => exact fun _ hd => nomatch hd
  | plain hp h ih =>
    rename_i p ps
    have hnone : p.faults = [] := by
      cases p with
      | fault d => cases hp
      | _ => rfl
    rw [List.flatMap_cons, hnone]
    exact ih
  | raw hs h ih => exact ih
  | fault hc span message h ih =>
    refine List.forall_mem_cons.2 ⟨?_, ih⟩
    obtain rfl | rfl := hc <;> rfl
  | close h ih => exact ih
  | last => exact fun _ hd => nomatch hd

theorem reports_hashbang : (hashbang s).reports = s.reports := by
  unfold hashbang
  split <;> rfl

theorem reports_finish : (finish s).reports = s.reports := by
  unfold finish
  split <;> rfl

theorem ofPrinter_checkOutput (ascii : Bool) (out : Bytes) :
    ∀ d ∈ checkOutput ascii out, ofPrinter d = true := by
  unfold checkOutput
  split
  · exact List.forall_mem_singleton.2 rfl
  split
  · exact fun _ hd => nomatch hd
  split
  · exact List.forall_mem_singleton.2 rfl
  · exact fun _ hd => nomatch hd

theorem ofPrinter_mapDiagnostic (e : MapError) : ofPrinter (mapDiagnostic e) = true := by
  cases e <;> rfl

/-- The piece at which printing fails is a fault. -/
theorem exists_fault {i : Nat} (h : ps.findIdx? Piece.isFailure = some i) :
    ∃ p ∈ ps.take (i + 1), p.faults ≠ [] := by
  obtain ⟨hi, hfailure, -⟩ := List.findIdx?_eq_some_iff_getElem.1 h
  refine ⟨ps[i], List.mem_take_iff_getElem.2 ⟨i, by omega, rfl⟩, ?_⟩
  cases hp : ps[i] with
  | fault d => simp
  | _ =>
    rw [hp] at hfailure
    cases hfailure

/-- Printing reports errors of its own only, and gives a text when there are none. -/
theorem printTree_reports :
    (∀ d ∈ (printTree root comments o).reports, ofPrinter d = true) ∧
      ((printTree root comments o).code = none ↔ (printTree root comments o).reports ≠ []) := by
  unfold printTree
  split
  · exact ⟨List.forall_mem_singleton.2 rfl, by simp⟩
  dsimp only
  have hfaults := (orderly_programPieces o.asciiOnly root).faults
  split
  · rename_i i hi
    rw [State.reports_run, reports_hashbang, List.nil_append]
    refine ⟨fun d hd => hfaults d ?_, by simpa using exists_fault hi⟩
    obtain ⟨p, hp, hd⟩ := List.mem_flatMap.1 hd
    exact List.mem_flatMap.2 ⟨p, List.mem_of_mem_take hp, hd⟩
  · refine ⟨?_, by simp⟩
    simp only [List.forall_mem_append]
    refine ⟨⟨?_, ?_⟩, ofPrinter_checkOutput _ _⟩
    · rw [reports_finish, State.reports_run, reports_hashbang, List.nil_append]
      exact hfaults
    · intro d hd
      obtain ⟨e, -, rfl⟩ := Option.map_eq_some_iff.1 (Option.mem_toList.1 hd)
      exact ofPrinter_mapDiagnostic e

/-- Printing fails at no piece of a tree that is printed. -/
theorem sound_of_code {code : Bytes} (h : (printTree root comments o).code = some code) :
    ∀ p ∈ programPieces o.asciiOnly root, p.isFailure = false := by
  unfold printTree at h
  split at h
  · cases h
  dsimp only at h
  split at h
  · cases h
  · exact List.findIdx?_eq_none_iff.1 ‹_›

/-- Pieces without a fault hold none at which printing fails. -/
theorem sound_of_faultless (h : ps.flatMap Piece.faults = []) : ∀ p ∈ ps, p.isFailure = false := by
  intro p hp
  cases p with
  | fault d => exact absurd (List.flatMap_eq_nil_iff.1 h _ hp) (List.cons_ne_nil _ _)
  | _ => rfl

/-- What is printed is printed without a report. -/
theorem reports_of_code {code : Bytes} (h : (printTree root comments o).code = some code) :
    (printTree root comments o).reports = [] := by
  refine Classical.byContradiction fun hne => ?_
  rw [printTree_reports.2.2 hne] at h
  cases h

end

end ScriptLower.Print
