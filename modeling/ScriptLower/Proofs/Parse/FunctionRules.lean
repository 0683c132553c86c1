import ScriptLower.Proofs.Parse.TypeRules

/-!
# Blocks, functions and classes keep the discipline

A list of statements goes on behind a statement that failed. The failed statement may have consumed
nothing, so here it matters that recovery gets past the token the statement began with.
-/

namespace ScriptLower.Parse

open ScriptLower

variable {g : Rules} {q : Bool} {k : Know}

/-! ## Blocks -/

/-- Behind a statement that may fail: a token is consumed, or the token is still known. -/
def Stated (k : Know) : Option Node → Know → Prop
  | some _, m => k.past.Le m
  | none, m => m = k.later

/-- A statement that is tried, and recovery when it fails: either way a token is consumed. -/
theorem Obeys.statement_then {β : Type} {top : Bool} {t : Token} {f : Option Node → Parser β}
    {Q : β → Know → Prop} (ht : k.next = .is t) (h : k.Reads 6)
    (yes : ∀ n, Obeys g q k.past (f (some n)) Q)
    (no : ∀ m : Know, m.next = .again t → Obeys g q m (f none) Q) :
    Obeys g q k (Parse.attempt (g (.statement top)) >>= f) Q := by
  refine .bind (R := Stated k) (.attempt ?_ rfl) ?_
  · exact part_obeys h
  · rintro (_ | n) m hm
    · subst hm
      exact no _ (by simp [Know.later, Next.later, ht])
    · exact (yes n).forget hm

theorem parseStatementList_obeys {close : TokenKind} {top : Bool} (h : k.Reads 6)
    [hc : Evident (close = .eof ∨ close = .rBrace)] :
    Obeys g q k (parseStatementList g close top) (Gives k.loose) := by
  refine listUntil_obeys fun stmts t ht he => .peek_seen rfl ?_
  refine .statement_then rfl h.round.see (fun n => .pure rfl) fun m hm => ?_
  refine .bind (recover_obeys hm he fun u hu => ?_) fun _ _ hm => .pure hm
  -- no other reading of the token makes it the closing one
  refine beq_false_of_ne fun hu' => ht ?_
  rcases hc with rfl | rfl
  · exact hu.eof.1 hu'
  · exact hu.brace.1 hu'

theorem parseBlockBody_obeys : Obeys g q k (parseBlockBody g) (Gives k.past) := by
  refine .expect_then fun open_ => .seq (parseStatementList_obeys (.inl rfl)) fun stmts => ?_
  exact .addDangling_then fun _ => .expect_then fun _ => .spanTo_then fun _ => .done

theorem parseOpenBlock_obeys : Obeys g q k (parseOpenBlock g) (Gives k.past) :=
  .seq parseBlockBody_obeys fun _ => .done

theorem parseBlock_obeys : Obeys g q k (parseBlock g) (Gives k.past) :=
    .inScope parseOpenBlock_obeys

/-- A block stretches from its brace to its brace. -/
theorem parseBlock_spans {t : Token} (ht : k.next = .is t) :
    Obeys g q k (parseBlock g) (Spans k.past t) := by
  refine .inScope (.bind (R := fun b m => k.past.Le m ∧
    ∃ sp, m.last = some sp ∧ b.1 = t.span.cover sp) ?_ ?_)
  · refine .expect_seen ht fun _ => ?_
    refine .seq (m := k.past) (parseStatementList_obeys (.inl rfl)) fun stmts => ?_
    refine .addDangling_then fun _ => .expect_then fun _ => .spanTo_ends fun sp => ?_
    exact .pure ⟨⟨rfl, id, id, .inl rfl, id, .inl rfl, rfl⟩, sp, rfl, rfl⟩
  · rintro b m ⟨hm, sp, hsp, hb⟩
    exact .pure ⟨hm, rfl, sp, hsp, hb⟩

/-! ## Functions -/

theorem parseFunctionBody_obeys : Obeys g q k (parseFunctionBody g) (Gives k.past) := by
  refine .view_then fun v => ?_
  extract_lets tail
  have htail (u : Unit) : Obeys g q k.loose (tail u) (Gives k.past) :=
    .seq (.outsideAmbient parseOpenBlock_obeys) fun body => .done
  split
  · exact .peek_then fun t => .errorAt_then (htail ()).keep
  · exact (htail ()).keep

theorem parseFunctionRest_spans {kind : NodeKind} {start : Token} {name : Node} {flags : Flags}
    {bodyOptional : Bool} :
    Obeys g q k (parseFunctionRest g kind start name flags bodyOptional) (Spans k.past start) := by
  refine .seq parseTypeParamsOpt_obeys fun tparams => .inFunction ?_
  refine .seq parseParams_obeys fun params => .seq parseReturnTypeOpt_obeys fun result => ?_
  extract_lets finish signature
  have hp (n : Node) : (finish n).isPresent = n.isPresent := by simp [finish]
  have hs (n : Node) : (finish n).span = n.span := by simp [finish]
  refine .at_then (fun t ht => ?_) fun t _ => ?_
  · exact .seq parseFunctionBody_obeys fun body => .node_finish fun n => ⟨hp n, hs n⟩
  · rw [if_neg Bool.false_ne_true]
    split
    · exact unexpected_obeys
    · have hsig (u : Unit) : Obeys g q k.past (signature u) (Spans k.past start) :=
        .semicolon_then (.node_finish fun n => ⟨hp n, hs n⟩)
      refine .view_then fun v => ?_
      split
      · exact .peek_then fun u => .requireTypes_then (hsig ()).keep
      · exact (hsig ()).keep

theorem parseFunctionDecl_spans {start : Token} {flags : Flags} :
    Obeys g q k (parseFunctionDecl g start flags) (Spans k.past start) := by
  refine .eatWord_any fun async => .expect_then fun _ => .eat_any fun generator =>
    .at_ask fun t => ?_
  split
  · refine .seq (m := k.past) parseBindingIdent_obeys fun name => .declare_then ?_
    exact parseFunctionRest_spans
  · exact parseFunctionRest_spans

theorem parseFunctionExpr_obeys : Obeys g q k (parseFunctionExpr g) (Gives k.past) := by
  refine .peek_then fun start => .eatWord_any fun async => .advance_any fun _ => ?_
  refine .eat_any fun generator => .at_ask fun t => ?_
  extract_lets tail
  have htail (name : Node) : Obeys g q k.loose (tail name) (Gives k.past) :=
    parseFunctionRest_spans.spans
  split
  · exact .seq (m := k.loose) (.advance_any fun _ => .done) htail
  · exact .pure_then (htail _).keep

theorem parseMethod_obeys {start : Token} {key : Node} {role : Bytes} {flags : Flags}
    {owner : MethodOwner} :
    Obeys g q k (parseMethod g start key role flags owner) (Gives k.past) := by
  refine .peek_then fun question => ?_
  extract_lets optional flags rest
  have hrest (u : Unit) : Obeys g q k.loose (rest u) (Gives k.past) := by
    refine .seq parseTypeParamsOpt_obeys fun tparams => .inFunction ?_
    refine .seq parseParams_obeys fun params => .seq parseReturnTypeOpt_obeys fun result => ?_
    extract_lets finish signature
    refine .at_ask fun t => ?_
    split
    · exact .seq parseFunctionBody_obeys fun body => .node_then fun n => .done
    · split
      · exact unexpected_obeys
      · split
        · exact .error_then .refuse
        · have hsig (u : Unit) : Obeys g q k.past (signature u) (Gives k.past) :=
            .semicolon_then (.node_then fun n => .done)
          split
          · exact .peek_then fun u => .requireTypes_then (hsig ()).keep
          · exact (hsig ()).keep
  split
  · exact .advance_any fun _ => .requireTypes_then (hrest ())
  · exact (hrest ()).forget (k.loose_le_see question)

/-! ## Arrow functions -/

theorem parseArrowRest_obeys {start : Span} {params tparams result : Node} {flags : Flags} :
    Obeys g q k (parseArrowRest g start params tparams result flags) (Gives k.past) := by
  refine .expect_then fun _ => .view_then fun v => ?_
  extract_lets noIn
  refine .seq (m := k.past) (.inFunction (.at_then (fun _ _ => ?_) fun _ _ => ?_)) fun body => ?_
  · exact .seq parseFunctionBody_obeys fun body => .done
  · exact .seq (.withNoIn (part_obeys (.inl rfl))) fun body => .done
  · exact .node_then fun n => .done

theorem parseNameArrow_obeys {start : Span} {name : Token} {flags : Flags} :
    Obeys g q k (parseNameArrow g start name flags) (Gives k.past) := parseArrowRest_obeys

/-- The head of an arrow function is only ever tried, so it may fail for being something else. -/
theorem parseArrowHead_obeys {flags : Flags} :
    Obeys g true k (parseArrowHead g flags) (Gives k.past) := by
  unfold parseArrowHead
  extract_lets rest
  have hrest (u : Unit) : Obeys g true k.loose (rest u) (Gives k.past) := by
    refine .seq parseTypeParamsOpt_obeys fun tparams => ?_
    refine .seq (.keepingFunction parseParams_obeys) fun params => .at_ask fun t => ?_
    extract_lets check
    have hcheck (result : Node) : Obeys g true k.past (check result) (Gives k.past) := by
      refine .peek_then fun t => ?_
      split
      · exact .done
      · exact .fail (by simp) fun _ => rfl
    split
    · refine .view_then fun v => ?_
      split
      · exact .bind (R := fun _ _ => False) (.fail (by simp) fun _ => rfl) fun _ _ h => h.elim
      · exact .seq parseReturnTypeOpt_obeys hcheck
    · exact .pure_then (hcheck _).keep
  split
  · exact .advance_any fun _ => hrest ()
  · exact (hrest ()).forget k.loose_le

/-- Behind something that may be there: if it is, a token is consumed, and else nothing is. -/
def Maybe {α : Type} (k : Know) : Option α → Know → Prop
  | some _, m => k.past.Le m
  | none, m => k.Le m

theorem tryArrowHead_obeys {start : Span} {flags : Flags} :
    Obeys g q k (tryArrowHead g start flags) (Maybe k) := by
  refine .bind (R := Maybe k) (.speculate parseArrowHead_obeys (Know.Le.refl k)) ?_
  rintro (_ | ⟨params, tparams, result⟩) m hm
  · exact .pure hm
  · refine Obeys.forget (k := k.past) ?_ hm
    exact .seq parseArrowRest_obeys fun n => .pure (Know.Le.refl _)

theorem isAsyncNameArrow_obeys : Obeys g q k isAsyncNameArrow (Gives k) := by
  refine .lookahead ?_ fun _ => Know.Le.refl k
  exact .advance_any fun _ => .advance_any fun _ => .peek_then fun _ => .pure trivial

theorem looksLikeTypeParams_obeys : Obeys g q k looksLikeTypeParams (Gives k) := by
  refine .lookahead ?_ fun _ => Know.Le.refl k
  refine .advance_any fun _ => .peek_then fun t => ?_
  split
  · exact .pure trivial
  · exact .advance_any fun _ => .peek_then fun _ => .pure trivial

theorem tryArrow_obeys {t : Token} (ht : k.next = .is t) :
    Obeys g q k (tryArrow g) (Maybe k) := by
  have nothing : Obeys g q k (pure (none : Option Node)) (Maybe k) := .pure (Know.Le.refl k)
  refine .peek_seen ht ?_
  split
  · rename_i hk
    have hs : k.Sees := ⟨t, ht, by simp [hk]⟩
    refine .peek2_then fun next => ?_
    split
    · exact .advance_then hs fun _ => .seq parseNameArrow_obeys fun n => .pure (Know.Le.refl _)
    · split
      · exact nothing
      · split
        · refine .seq isAsyncNameArrow_obeys fun b => ?_
          split
          · refine .advance_then hs fun _ => .advance_any fun name => ?_
            exact .seq parseNameArrow_obeys fun n => .pure (Know.Le.refl _)
          · exact nothing
        · exact tryArrowHead_obeys
        · exact tryArrowHead_obeys
        · exact nothing
  · exact tryArrowHead_obeys
  · refine .view_then fun v => ?_
    extract_lets grammar
    split
    · exact nothing
    · refine .seq looksLikeTypeParams_obeys fun b => ?_
      split
      · exact nothing
      · exact tryArrowHead_obeys
  · exact nothing

/-! ## Classes -/

theorem parseHeritageList_obeys : Obeys g q k (parseHeritageList g) (Gives k.past) := by
  refine .peek_then fun start => .seq parseTypeReference_obeys fun first => ?_
  refine .seq (.repeat fun kids => ?_) fun kids => node_obeys
  exact .eat_then (.seq parseTypeReference_obeys fun n => .again) fun _ _ => .leave

theorem parseHeritageExpr_obeys (h : k.Reads 2) :
    Obeys g q k (parseHeritageExpr g) (Gives k.past) := by
  refine .part_then h fun e => .atAny_then fun t => ?_
  split
  · refine .seq parseTypeArgs_obeys fun targs => ?_
    split
    · exact .errorAt_then .refuse_then
    · exact .done
  · exact .done

theorem memberModifier_ne_eof {t : Token} {f : Flags} (h : memberModifier? t = some f) :
    t.kind ≠ .eof := by
  intro he
  have : memberModifiers.find? (fun m => t.is m.1) = none := by simp [Token.is, he]
  simp [memberModifier?, this] at h

theorem parseMemberModifiers_obeys {classFlags : Flags} :
    Obeys g q k (parseMemberModifiers classFlags) (Gives k.loose) := by
  refine .repeat fun flags => .peek_then fun t => ?_
  split
  · exact .leave
  · rename_i f hf
    have hs : (k.round.see t).Sees := ⟨t, rfl, memberModifier_ne_eof hf⟩
    refine .peek2_then fun next => ?_
    split
    · exact .leave
    · split
      · exact .advance_then hs fun _ => .leave
      · split
        · exact .leave
        · refine .advance_then hs fun _ => ?_
          extract_lets last check
          have hcheck (u : Unit) : Obeys g q k.round.past (check u) (Turns k.round) := by
            simp only [check]
            split
            · exact .errorAt_then .again
            · exact .again
          split
          · exact .requireTypes_then (hcheck ())
          · exact hcheck ()

theorem parseStaticBlock_obeys {start : Token} :
    Obeys g q k (parseStaticBlock g start) (Gives k.past) :=
  .seq (.inFunction (.keepingFunction parseOpenBlock_obeys)) fun _ => node_obeys

theorem parseClassProperty_obeys {start : Token} {key : Node} {flags : Flags}
    {decos : List Node} :
    Obeys g q k.past (parseClassProperty g start key flags decos) (Gives k.past) := by
  refine .peek_then fun t => ?_
  extract_lets optional definite rest
  have hrest (u : Unit) : Obeys g q k.past (rest u) (Gives k.past) := by
    refine .seq parseAnnotationOpt_obeys fun type => ?_
    refine .eat_either (.inFunction (part_obeys (.inl rfl))) (fun _ _ => .done) fun value => ?_
    exact .semicolon_then (.node_then fun n => .done)
  split
  · exact .advance_any fun _ => .requireTypes_then (hrest ())
  · exact (hrest ()).keep

theorem parseKeyedMember_obeys {owner : MethodOwner} {start : Token} {decos : List Node}
    {flags : Flags} : Obeys g q k (parseKeyedMember g owner start decos flags) (Gives k.past) := by
  refine .eat_any fun generator => .seq parseAccessorWord_obeys fun word => ?_
  refine .seq parsePropertyKey_obeys fun key => ?_
  refine .peek_then fun next => .peek2_then fun next2 => ?_
  extract_lets isMethod
  split
  · exact .seq parseMethod_obeys fun n => .done
  · exact parseClassProperty_obeys.keep

theorem parseClassMemberFrom_obeys {owner : MethodOwner} {classFlags : Flags} {start : Token} :
    Obeys g q k (parseClassMemberFrom g owner classFlags start) (Gives k.past) := by
  refine .either (m := k.loose) (fun _ => parseDecorators_obeys) (fun _ => .done) fun decos => ?_
  refine .seq parseMemberModifiers_obeys fun ⟨flags, isBlock⟩ => ?_
  dsimp only
  split
  · exact parseStaticBlock_obeys
  · refine .at_ask fun t => .view_then fun v => .seq isIndexSignature_obeys fun b => ?_
    split
    · rename_i ht
      simp only [Bool.and_eq_true, beq_iff_eq] at ht
      refine .seq (parseIndexSignature_obeys (Know.sees ht.1.1)) fun n => ?_
      exact .semicolon_then .done
    · exact parseKeyedMember_obeys

theorem parseClassMember_obeys {owner : MethodOwner} {classFlags : Flags} :
    Obeys g q k (parseClassMember g owner classFlags) (Gives k.past) :=
  .peek_then fun _ => .addLeading_then parseClassMemberFrom_obeys

theorem parseClassBody_obeys {classFlags : Flags} :
    Obeys g q k (parseClassBody g classFlags) (Gives k.past) := by
  refine .expect_then fun open_ => .view_then fun v => ?_
  extract_lets owner
  refine .seq (listUntil_obeys fun members t _ _ => ?_) fun members => ?_
  · refine .eat_then (.pure rfl) fun _ _ => ?_
    exact .seq parseClassMember_obeys fun m => .pure rfl
  · exact .addDangling_then fun _ => .expect_then fun _ => node_obeys

theorem parseClassRest_spans {kind : NodeKind} {start : Token} {name : Node} {decos : List Node}
    {flags : Flags} :
    Obeys g q k (parseClassRest g kind start name decos flags) (Spans k.past start) := by
  refine .seq parseTypeParamsOpt_obeys fun tparams => ?_
  refine .eat_either (m := k.loose) (parseHeritageExpr_obeys (.inl rfl)).gives (fun _ _ => .done)
    fun base => .peek_then fun t => ?_
  extract_lets rest
  have hrest (interfaces : Node) : Obeys g q k.loose (rest interfaces) (Spans k.past start) :=
    .seq (.keepingFunction parseClassBody_obeys) fun body => .node_finish (by simp)
  split
  · refine .advance_any fun _ => .requireTypes_then ?_
    exact .seq parseHeritageList_obeys fun n => (hrest n).keep
  · exact .pure_then (hrest _).keep

theorem Obeys.atClassName_then {β : Type} {f : Bool → Parser β} {Q : β → Know → Prop}
    (h : ∀ b, Obeys g q k.loose (f b) Q) : Obeys g q k (atClassName >>= f) Q :=
  .bind (R := fun _ m => k.loose.Le m) (.peek_then fun t => .pure (k.loose_le_see t))
    fun b _ hm => (h b).forget hm

theorem parseClassDecl_spans {start : Token} {decos : List Node} {flags : Flags} :
    Obeys g q k (parseClassDecl g start decos flags) (Spans k.past start) := by
  unfold parseClassDecl
  extract_lets rest
  have hrest (u : Unit) : Obeys g q k (rest u) (Spans k.past start) := by
    refine .expect_then fun _ => .atClassName_then fun b => ?_
    split
    · refine .seq (m := k.past) parseBindingIdent_obeys fun name => .declare_then ?_
      exact parseClassRest_spans
    · split
      · exact unexpected_obeys
      · exact parseClassRest_spans
  split
  · exact .requireTypes_then (hrest ())
  · exact hrest ()

theorem parseClassExpr_obeys {start : Token} {decos : List Node} :
    Obeys g q k (parseClassExpr g start decos) (Gives k.past) := by
  refine .advance_any fun _ => .atClassName_then fun b => ?_
  refine .either (m := k.loose) (fun _ => ?_) (fun _ => .done) fun name => ?_
  · exact .advance_any fun _ => .done
  · exact parseClassRest_spans.spans

end ScriptLower.Parse
