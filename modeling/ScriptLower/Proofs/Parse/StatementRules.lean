import ScriptLower.Proofs.Parse.DeclarationRules

/-!
# Statements and whole programs keep the discipline

With the rule of every part shown to keep the discipline, given that the parts it reads do, the knot
of the grammar keeps it at every depth.
-/

namespace ScriptLower.Parse

open ScriptLower

variable {g : Rules} {q : Bool} {k : Know} {t : Token}

/-! ## Statements with a keyword -/

theorem parseParenExpr_obeys : Obeys g q k (parseParenExpr g) (Gives k.past) := by
  refine .expect_then fun _ => .seq (parseExpression_obeys (.inl rfl)) fun e => ?_
  exact .expect_then fun _ => .done

theorem parseSubStatement_obeys (h : k.Reads 6) :
    Obeys g q k (parseSubStatement g) (Gives k.past) := .inScope (part_obeys h)

theorem parseLoopBody_obeys (h : k.Reads 6) : Obeys g q k (parseLoopBody g) (Gives k.past) :=
  .inLabel (parseSubStatement_obeys h)

theorem parseIf_spans (ht : k.next = .is t) (he : t.kind ≠ .eof) :
    Obeys g q k (parseIf g) (Spans k.past t) := by
  refine .start_then ht he (.seq parseParenExpr_obeys fun test => ?_)
  refine .seq (parseSubStatement_obeys (.inl rfl)) fun yes => ?_
  refine .eat_either (m := k.past) (parseSubStatement_obeys (.inl rfl))
    (fun _ _ => .done) fun no => ?_
  exact node_spans

theorem parseWhile_spans (ht : k.next = .is t) (he : t.kind ≠ .eof) :
    Obeys g q k (parseWhile g) (Spans k.past t) := by
  refine .start_then ht he (.seq parseParenExpr_obeys fun test => ?_)
  exact .seq (parseLoopBody_obeys (.inl rfl)) fun body => node_spans

theorem parseDoWhile_spans (ht : k.next = .is t) (he : t.kind ≠ .eof) :
    Obeys g q k (parseDoWhile g) (Spans k.past t) := by
  refine .start_then ht he (.seq (parseLoopBody_obeys (.inl rfl)) fun body => ?_)
  refine .expect_then fun _ => .seq parseParenExpr_obeys fun test => ?_
  exact .eat_any fun _ => node_spans

theorem parseForKeyword_obeys : Obeys g q k parseForKeyword (Gives k.loose) := by
  refine .peek_then fun t => .peek2_then fun next => ?_
  refine .branch (fun _ => .done) fun _ => .branch (fun _ => .done) fun _ => ?_
  exact .branch (fun _ => .done) fun _ => .done

theorem parseForInit_obeys : Obeys g q k.past (parseForInit g) (Gives k.past) := by
  refine .at_then (fun _ _ => .done) fun _ _ => .peek_then fun t => ?_
  refine .seq parseForKeyword_obeys fun keyword => ?_
  cases keyword with
  | some keyword =>
    refine .withoutIn (.advance_any fun _ => ?_)
    exact .seq parseVarDeclList_spans.spans fun n => .done
  | none => exact .withoutIn (.seq (parseExpression_obeys (.inl rfl)) fun n => .done)

theorem parseForEach_spans {awaits isDecl : Bool} {init : Node} :
    Obeys g q k.past (parseForEach g t awaits init isDecl) (Spans k.past t) := by
  refine .atWord_ask fun u => ?_
  extract_lets rest
  have hrest (target : Node) : Obeys g q k.past (rest target) (Spans k.past t) := by
    refine .advance_any fun _ => ?_
    refine .either (m := k.past) (fun _ => part_obeys (.inl rfl))
      (fun _ => parseExpression_obeys (.inl rfl)) fun right => ?_
    refine .expect_then fun _ => .seq (parseLoopBody_obeys (.inl rfl)) fun body => ?_
    exact .node_finish (by simp)
  refine .branch (fun _ => .seq (toTarget_obeys false init) fun n => (hrest n).keep) fun _ => ?_
  refine .branch (fun _ => .errorAt_then ?_) fun _ => ?_
  · exact .pure_then (hrest init).keep
  · exact .pure_then (hrest init).keep

theorem parseForRest_spans {init : Node} :
    Obeys g q k (parseForRest g t init) (Spans k.past t) := by
  refine .expect_then fun _ => ?_
  refine .at_either (m := k.past) (fun _ _ => .done) (fun _ _ => parseExpression_obeys (.inl rfl))
    fun test => .expect_then fun _ => ?_
  refine .at_either (m := k.past) (fun _ _ => .done) (fun _ _ => parseExpression_obeys (.inl rfl))
    fun update => .expect_then fun _ => ?_
  exact .seq (parseLoopBody_obeys (.inl rfl)) fun body => node_spans

theorem parseFor_spans (ht : k.next = .is t) (he : t.kind ≠ .eof) :
    Obeys g q k (parseFor g) (Spans k.past t) := by
  refine .start_then ht he (.eatWord_any fun awaits => .expect_then fun _ => .inScope ?_)
  refine .seq parseForInit_obeys fun ⟨init, isDecl⟩ => .peek_then fun u => ?_
  refine .branch (fun _ => parseForEach_spans.keep) fun _ => ?_
  exact .branch (fun _ => .error_then .refuse) fun _ => parseForRest_spans

theorem parseReturn_spans (ht : k.next = .is t) (he : t.kind ≠ .eof) :
    Obeys g q k (parseReturn g) (Spans k.past t) := by
  refine .start_then ht he (.view_then fun v => ?_)
  extract_lets last rest
  have hrest (u : Unit) : Obeys g q k.past (rest u) (Spans k.past t) := by
    refine .bind canEndStatement_obeys ?_
    rintro b m ⟨u, rfl⟩
    refine .either (m := k.past) (fun _ => .done) (fun _ => parseExpression_obeys (.inl rfl))
      fun arg => ?_
    exact .semicolon_then node_spans
  exact .branch (fun _ => .errorAt_then (hrest ()).keep) fun _ => hrest ()

theorem parseJumpLabel_obeys {isContinue : Bool} :
    Obeys g q k (parseJumpLabel isContinue) (Gives k.loose) := by
  refine .peek_then fun t => .branch (fun _ => .done) fun _ => .advance_any fun _ => ?_
  refine .view_then fun v => ?_
  extract_lets last
  have hlast (u : Unit) : Obeys g q k.loose (last u) (Gives k.loose) := .done
  split
  · exact .errorAt_then (hlast ()).keep
  · exact .branch (fun _ => .errorAt_then (hlast ()).keep) fun _ => hlast ()

theorem parseJump_spans (ht : k.next = .is t) (he : t.kind ≠ .eof) :
    Obeys g q k parseJump (Spans k.past t) := by
  refine .start_then ht he (.seq parseJumpLabel_obeys fun label => ?_)
  exact .semicolon_then node_spans

theorem parseThrow_spans (ht : k.next = .is t) (he : t.kind ≠ .eof) :
    Obeys g q k (parseThrow g) (Spans k.past t) := by
  refine .start_then ht he (.peek_then fun u => ?_)
  refine .branch (fun _ => .error_then .refuse_then) fun _ => ?_
  exact .seq (parseExpression_obeys (.inl rfl)) fun arg => .semicolon_then node_spans

theorem parseCatchParam_obeys : Obeys g q k (parseCatchParam g) (Gives k.loose) := by
  refine .eat_then ?_ fun _ _ => .done
  refine .part_then (.inl rfl) fun param => .seq declareAll_obeys fun _ => ?_
  exact .seq parseAnnotationOpt_obeys fun type => .expect_then fun _ => .done

theorem parseCatch_obeys : Obeys g q k (parseCatch g) (Gives k.past) := by
  refine .advance_any fun start => .seq (m := k.past) (.inScope ?_) fun ⟨param, type, body⟩ => ?_
  · refine .seq parseCatchParam_obeys fun ⟨param, type⟩ => ?_
    exact .seq parseOpenBlock_obeys fun body => .done
  · exact .node_then fun n => .done

theorem parseTry_spans (ht : k.next = .is t) (he : t.kind ≠ .eof) :
    Obeys g q k (parseTry g) (Spans k.past t) := by
  refine .start_then ht he (.seq parseBlock_obeys fun block => ?_)
  refine .at_either (m := k.past) (fun _ _ => parseCatch_obeys) (fun _ _ => .done) fun handler => ?_
  refine .eat_either (m := k.past) parseBlock_obeys (fun _ _ => .done) fun final => ?_
  exact .branch (fun _ => .error_then .refuse_then) fun _ => node_spans

/-! ## Choices by value -/

theorem parseCaseBody_obeys : Obeys g q k.past (parseCaseBody g) (Gives k.past) := by
  refine .repeat fun stmts => .peek_then fun t => ?_
  split
  · exact .leave
  · exact .leave
  · exact .leave
  · exact .leave
  · rename_i he
    refine .statement_then rfl (.see (.round (.inl rfl))) (fun n => .again) fun m hm => ?_
    exact .bind (recover_obeys hm he fun _ _ => rfl) fun _ _ hm => .pure (.inl hm)

theorem parseCaseFrom_obeys {seen : Bool} {start : Token} :
    Obeys g q k (parseCaseFrom g seen start) (Gives k.past) := by
  refine .bind eat_obeys fun b m hm => ?_
  extract_lets rest
  have hrest (x : Node × Bool) : Obeys g q k.past (rest x) (Gives k.past) := by
    obtain ⟨test, isDefault⟩ := x
    refine .expect_then fun _ => .seq parseCaseBody_obeys fun body => ?_
    exact .node_then fun n => .done
  refine .branch (fun hb => ?_) fun _ => ?_
  · subst hb
    refine .forget (k := k.past) ?_ hm
    exact .seq (parseExpression_obeys (.inl rfl)) fun test => .pure_then (hrest (test, false))
  · refine .forget (k := k.loose) (.eat_then ?_ fun _ _ => ?_) hm.loose
    · rw [if_pos rfl]
      refine .branch (fun _ => .errorAt_then ?_) fun _ => ?_
      · exact .pure_then (hrest (.absent, true)).keep
      · exact .pure_then (hrest (.absent, true))
    · exact .unexpected_then

theorem parseCase_obeys {seen : Bool} : Obeys g q k (parseCase g seen) (Gives k.past) :=
  .peek_then fun _ => .addLeading_then parseCaseFrom_obeys

theorem parseSwitch_spans (ht : k.next = .is t) (he : t.kind ≠ .eof) :
    Obeys g q k (parseSwitch g) (Spans k.past t) := by
  refine .start_then ht he (.seq parseParenExpr_obeys fun value => .expect_then fun _ => ?_)
  refine .inScope (.inLabel (.seq (.repeat fun ⟨cases, seen⟩ => ?_) fun ⟨cases, seen⟩ => ?_))
  · refine .at_ask fun u => .at_ask fun u => .branch (fun _ => .leave) fun _ => ?_
    exact .seq parseCase_obeys fun ⟨c, seen⟩ => .again
  · exact .addDangling_then fun _ => .expect_then fun _ => node_spans

theorem parseWith_spans (ht : k.next = .is t) (he : t.kind ≠ .eof) :
    Obeys g q k (parseWith g) (Spans k.past t) := by
  refine .start_then ht he (.view_then fun v => ?_)
  extract_lets rest
  have hrest (u : Unit) : Obeys g q k.past (rest u) (Spans k.past t) := by
    refine .seq parseParenExpr_obeys fun obj => ?_
    exact .seq (parseSubStatement_obeys (.inl rfl)) fun body => node_spans
  exact .branch (fun _ => .errorAt_then (hrest ()).keep) fun _ => hrest ()

/-! ## Statements -/

theorem parseExpressionStatement_spans (ht : k.next = .is t) (h : k.Reads 5) :
    Obeys g q k (parseExpressionStatement g) (Spans k.past t) := by
  refine .peek_seen ht (.seq (parseExpression_obeys h) fun e => ?_)
  exact .semicolon_then node_spans

theorem parsePlainStatement_spans (ht : k.next = .is t) (h : k.Reads 5) :
    Obeys g q k (parsePlainStatement g t) (Spans k.past t) :=
  .checkRuntime_then (parseExpressionStatement_spans ht h)

/-- Where a statement that begins with the token `t` stands. It stretches from `t` to the last token
consumed, with two exceptions: a debugger statement is its keyword alone, and a decorated export
begins at the word `export`. -/
def Stands (t : Token) (n : Node) (k : Know) : Prop :=
  Stretches t n k ∨
    (t.kind = .kwDebugger ∧ n.isPresent = true ∧ n.span = t.span) ∨
    (t.kind = .atSign ∧ ∃ u : Token, u.kind = .kwExport ∧ Stretches u n k)

/-- Behind the parser at least `m` is known, and its node stands at `t`. -/
def StandsAt (m : Know) (t : Token) : Node → Know → Prop := fun n k => m.Le k ∧ Stands t n k

theorem Obeys.stands {p : Parser Node} {m : Know} (h : Obeys g q k p (Spans m t)) :
    Obeys g q k p (StandsAt m t) := h.mono fun _ _ h => ⟨h.1, .inl h.2⟩

theorem parseControl_stands (ht : k.next = .is t)
    (hk : t.kind ∈ [TokenKind.kwIf, .kwFor, .kwWhile, .kwDo, .kwReturn, .kwBreak, .kwContinue,
      .kwThrow, .kwTry, .kwSwitch, .kwWith, .kwDebugger]) :
    Obeys g q k (parseControl g t) (StandsAt k.past t) := by
  have he : t.kind ≠ .eof := fun he => by simp [he] at hk
  refine .checkRuntime_then ?_
  split
  · exact (parseIf_spans ht he).stands
  · exact (parseFor_spans ht he).stands
  · exact (parseWhile_spans ht he).stands
  · exact (parseDoWhile_spans ht he).stands
  · exact (parseReturn_spans ht he).stands
  · exact (parseJump_spans ht he).stands
  · exact (parseJump_spans ht he).stands
  · exact (parseThrow_spans ht he).stands
  · exact (parseTry_spans ht he).stands
  · exact (parseSwitch_spans ht he).stands
  · exact (parseWith_spans ht he).stands
  · have hd : t.kind = .kwDebugger := by simp_all
    refine .start_then ht he (.semicolon_then (.pure ⟨?_, .inr (.inl ⟨hd, rfl, rfl⟩)⟩))
    exact Know.Le.refl _

theorem parseDecorated_stands (hk : t.kind = .atSign) :
    Obeys g q k (parseDecorated g t) (StandsAt k.past t) := by
  refine .seq parseDecorators_obeys fun decos => .at_then (fun u hu => ?_) fun _ _ => ?_
  · refine (parseExport_spans rfl (by simp [hu])).mono fun n m hn =>
      ⟨hn.1, .inr (.inr ⟨hk, u, hu, hn.2⟩)⟩
  · exact parseDecoratedClass_spans.stands

theorem Span.cover_self (sp : Span) : sp.cover sp = sp := by
  simp only [Span.cover]
  split
  · rfl
  · simp

/-- A statement stands at its first token. -/
theorem parseStatementFrom_stands {top : Bool} (h : k.Reads 5) :
    Obeys g q (k.see t) (parseStatementFrom g top t) (StandsAt k.past t) := by
  have plain : Obeys g q (k.see t) (parsePlainStatement g t) (StandsAt k.past t) :=
    (parsePlainStatement_spans rfl h.see).stands
  unfold parseStatementFrom
  split
  · exact .checkRuntime_then (parseBlock_spans rfl).stands
  · rename_i hk
    refine .advance_seen rfl (by simp [hk]) (.pure ⟨?_, .inl ⟨rfl, t.span, rfl, ?_⟩⟩)
    · exact ⟨rfl, id, id, .inl rfl, id, .inl rfl, rfl⟩
    · exact (Span.cover_self t.span).symm
  · exact .start_then rfl (by simp [*]) parseVarStatement_spans.stands
  · refine .peek2_then fun next => .start_then rfl (by simp [*]) ?_
    exact .branch (fun _ => parseEnum_spans.stands) fun _ => parseVarStatement_spans.stands
  · exact parseFunctionDecl_spans.stands
  · exact parseClassDecl_spans.stands
  · exact parseDecorated_stands ‹_›
  · exact parseEnum_spans.stands
  · rename_i hk
    have import_ : Obeys g q (k.see t) (parseImport g) (StandsAt k.past t) :=
      (parseImport_spans rfl (by simp [hk])).stands
    refine .peek2_then fun next => .branch (fun _ => plain) fun _ => ?_
    refine .branch (fun _ => .error_seen rfl (import_.forget ?_)) fun _ => import_
    exact ⟨rfl, id, id, .inr rfl, fun _ => rfl, .inr rfl, rfl⟩
  · rename_i hk
    have export_ : Obeys g q (k.see t) (parseExport g []) (StandsAt k.past t) :=
      (parseExport_spans rfl (by simp [hk])).stands
    refine .branch (fun _ => .error_seen rfl (export_.forget ?_)) fun _ => export_
    exact ⟨rfl, id, id, .inr rfl, fun _ => rfl, .inr rfl, rfl⟩
  iterate 12 exact parseControl_stands rfl (by simp [*])
  · have h0 : k.Reads 0 := h.imp_right fun h => Nat.lt_of_le_of_lt (Nat.zero_le 5) h
    refine .bind (tryContextualStatement_obeys rfl ‹_› h0) ?_
    rintro (_ | n) m hn
    · exact plain.forget hn
    · exact .pure ⟨hn.1, .inl hn.2⟩
  · exact plain

/-- A statement stands at the next token. -/
theorem parseStatement_stands {top : Bool} (h : k.Reads 5) :
    Obeys g q k (parseStatement g top) fun n m =>
      k.past.Le m ∧ ∃ t, (∀ u, k.next = .is u → t = u) ∧ Stands t n m := by
  refine .bind (R := fun t m => (∀ u, k.next = .is u → t = u) ∧ m = k.see t)
    (.peek fun t ht => ⟨ht, rfl⟩) ?_
  rintro t m ⟨hnext, rfl⟩
  refine .addLeading_then ((parseStatementFrom_stands h).mono fun n m hn => ?_)
  exact ⟨hn.1, t, hnext, hn.2⟩

/-! ## The knot -/

/-- The rule of a part keeps the discipline when it starts with the rank of the part. -/
theorem rule_obeys {part : Part} (hr : part.rank ≤ k.rank) (hc : part = .construct → k.Sees) :
    Obeys g q k (rule g part) fun n m => k.past.Le m ∧ part.Ends n m := by
  have plain {p : Parser Node} {part : Part} (he : ∀ n m, part.Ends n m)
      (h : Obeys g q k p (Gives k.past)) :
      Obeys g q k p fun n m => k.past.Le m ∧ part.Ends n m := h.mono fun n m h => ⟨h, he n m⟩
  cases part with
  | assign => exact plain (fun _ _ => trivial) (parseAssign_obeys (.inr hr))
  | binary above => exact plain (fun _ _ => trivial) (parseBinary_obeys (.inr hr))
  | unary => exact plain (fun _ _ => trivial) (parseUnary_obeys (.inr hr))
  | lhs => exact plain (fun _ _ => trivial) (parseLhs_obeys (.inr hr))
  | construct => exact plain (fun _ _ => trivial) (parseNew_obeys (hc rfl))
  | binding => exact plain (fun _ _ => trivial) parseBindingTarget_obeys
  | type noCond => exact plain (fun _ _ => trivial) (parseTypeInner_obeys (.inr hr))
  | typeOperator noCond => exact plain (fun _ _ => trivial) parseTypeOperator_obeys
  | element opening => exact plain (fun _ _ => trivial) parseElementRest_obeys
  | statement top =>
    exact plain (fun _ _ => trivial) ((parseStatement_stands (.inr hr)).mono fun _ _ h => h.1)
  | namespaceFrom start flags => exact parseNamespace_spans

theorem parseProgram_obeys (h : k.Reads 6) : Obeys g q k (parseProgram g) (Gives k.loose) := by
  refine .peek_then fun start => .seq (.inScope (parseStatementList_obeys h)) fun stmts => ?_
  exact .peek_then fun eof => .addDangling_then fun _ => .done

/-- A whole file is read under the discipline, from a state of which nothing is known. -/
theorem program_obeys (g : Rules) :
    Obeys g false { rank := 7 } (parseProgram g) (Gives { rank := 7 }) :=
  parseProgram_obeys (.inr (by decide))

end ScriptLower.Parse
