import ScriptLower.Proofs.Parse.FunctionRules

/-!
# Elements and expressions keep the discipline

A name in a tag is the one place where taking a token may consume nothing: a name that is spelled
with an escape is read again as an empty one. What is known behind such a name is `k.cutOff`.
-/

namespace ScriptLower.Parse

open ScriptLower

variable {g : Rules} {q : Bool} {k : Know}

/-! ## Names in tags -/

theorem parseTagPart_obeys {atEnd : Parser Token}
    (he : ∀ m, Obeys g q m atEnd fun _ _ => False) :
    Obeys g q k (parseTagPart atEnd) (Gives k.cutOff) := by
  refine .peek_then fun t => ?_
  split
  · exact .readTagName rfl ‹_› fun u => Know.Le.refl _
  · split
    · exact (he _).mono fun _ _ h => h.elim
    · exact .error_then .refuse

/-- At the end of the text a part of a name fails in silence. -/
theorem cutName_obeys {α : Type} {Q : α → Know → Prop} : Obeys g q k (fail .cutName) Q :=
  .fail (by simp) (by simp)

theorem parseTagPath_obeys {start : Span} {first : Node} :
    Obeys g q k (parseTagPath start first) (Gives k.loose) := by
  refine .repeat fun name => .eat_then ?_ fun _ _ => .leave
  refine .peek_then fun t => ?_
  split
  · exact unexpected_obeys
  · exact .advance_any fun _ => .node_then fun n => .again

theorem parseTagName_obeys : Obeys g q k parseTagName (Gives k.cutOff) := by
  refine .seq (parseTagPart_obeys fun m => .error_then .refuse) fun first => ?_
  refine .eat_then ?_ fun _ _ => ?_
  · refine .seq (parseTagPart_obeys fun m => cutName_obeys) fun part => ?_
    exact .spanTo_then fun sp => .done
  · exact parseTagPath_obeys.gives

/-! ## Attributes -/

theorem parseElement_obeys (h : k.Sees) : Obeys g q k (parseElement g) (Gives k.past) :=
  .advance_then h fun _ => part_obeys (.inl rfl)

theorem parseAttributeValue_obeys : Obeys g q k (parseAttributeValue g) (Gives k.past) := by
  refine .bind (R := fun t m => m = k.see t) (.peekAttributeValue fun _ => rfl) ?_
  rintro t m rfl
  split
  · exact .advance_then (Know.sees ‹_›) fun _ => .done
  · refine .advance_then (Know.sees ‹_›) fun _ => .at_then (fun u _ => ?_) fun u _ => ?_
    · exact .error_then .refuse_then
    · refine .seq (.withIn (part_obeys (.inl rfl))) fun e => ?_
      exact .expect_then fun _ => node_obeys
  · exact parseElement_obeys (Know.sees ‹_›)
  · exact unexpected_obeys

theorem parseAttribute_obeys : Obeys g q k (parseAttribute g) (Gives k.cutOff) := by
  refine .seq (parseTagPart_obeys fun m => cutName_obeys) fun first => ?_
  refine .bind eat_obeys fun b m hm => ?_
  extract_lets tail
  have htail (name : Bytes) : Obeys g q k.cutOff (tail name) (Gives k.cutOff) := by
    refine .spanTo_then fun sp => ?_
    refine .eat_either (m := k.cutOff) parseAttributeValue_obeys.gives
      (fun _ _ => .done) fun value => ?_
    exact node_obeys
  split
  · subst b
    refine .forget (.seq (parseTagPart_obeys fun m => cutName_obeys) fun part => ?_) hm
    exact .pure_then (htail _).keep
  · obtain rfl : b = false := by simpa using ‹¬b = true›
    obtain ⟨t, -, rfl⟩ := hm
    exact .pure_then (htail _).keep

theorem parseSpreadAttribute_obeys (h : k.Sees) :
    Obeys g q k (parseSpreadAttribute g) (Gives k.past) := by
  refine .advance_then h fun open_ => .expect_then fun _ => ?_
  refine .seq (.withIn (part_obeys (.inl rfl))) fun e => ?_
  exact .expect_then fun _ => node_obeys

theorem parseNextAttribute_obeys {opening : Token} {kids : List Node} :
    Obeys g q k.round (parseNextAttribute g opening kids) (Turns k.round) := by
  refine .peek_then fun t => ?_
  split
  · exact .leave
  · exact .leave
  · exact .errorAt_then .refuse
  · exact .seq (parseSpreadAttribute_obeys (Know.sees ‹_›)) fun n => .again
  · exact .seq parseAttribute_obeys fun n => .pure (.inr rfl)

theorem parseAttributes_obeys {opening : Token} :
    Obeys g q k (parseAttributes g opening) (Gives k.loose) :=
  .peek_then fun _ => .seq (.repeat fun _ => parseNextAttribute_obeys) fun _ => node_obeys

/-! ## Children -/

theorem parseClosingTag_obeys {name : Node} :
    Obeys g q k.past (parseClosingTag name) (Gives k.past) := by
  refine .view_then fun v => ?_
  extract_lets start
  split
  · exact .at_then (fun _ _ => .advance_any fun _ => .done) fun _ _ => .error_then .refuse_then
  · refine .seq (m := k.past) parseTagName_obeys.gives fun closing => ?_
    extract_lets got
    split
    · exact .spanTo_then fun sp => .errorAt_then .refuse_then
    · exact .expect_then fun _ => .done

theorem parseChildExpr_obeys {open_ : Token} :
    Obeys g q k.past (parseChildExpr g open_) (Gives k.past) := by
  refine .eat_then node_obeys fun _ _ => .eat_any fun spread => ?_
  refine .seq (.withIn (parseExpression_obeys (.inl rfl))) fun e => ?_
  exact .expect_then fun _ => node_obeys

theorem parseChildren_obeys {opening : Token} {name : Node} :
    Obeys g q k.past (parseChildren g opening name) (Gives k.past) := by
  refine .view_then fun v => ?_
  extract_lets start
  refine .seq (.repeat_past fun kids => ?_) fun kids => node_obeys
  refine .bind (R := fun u m => u.kind ≠ .eof → m = k.past.round.past)
    (.readChild (Know.Reads.round (.inl rfl)) fun u hu => ?_) fun t m hm => ?_
  · simp [hu]
  split
  · exact .errorAt_then .refuse
  · obtain rfl := hm (by simp [*])
    exact .again
  · obtain rfl := hm (by simp [*])
    exact .seq parseChildExpr_obeys fun n => .again
  · obtain rfl := hm (by simp [*])
    refine .eat_then ?_ fun _ _ => .part_then (.inl rfl) fun n => .again
    exact .seq parseClosingTag_obeys fun _ => .leave
  · exact unexpected_obeys

theorem parseElementRest_obeys {opening : Token} :
    Obeys g q k (parseElementRest g opening) (Gives k.past) := by
  refine .eat_then (.seq parseChildren_obeys fun children => node_obeys) fun _ _ => ?_
  refine .seq (m := k.loose) parseTagName_obeys.gives fun name => ?_
  refine .at_ask fun t => .view_then fun v => ?_
  refine .either (m := k.loose) (fun _ => parseTypeArgs_obeys.gives)
    (fun _ => .done) fun targs => ?_
  refine .seq parseAttributes_obeys fun attrs => .bind eat_obeys fun b m hm => ?_
  extract_lets tail
  have htail (children : Node) : Obeys g q k.past (tail children) (Gives k.past) :=
    .node_then fun n => .done
  refine .forget ?_ hm.loose
  split
  · refine .expect_then fun _ => .view_then fun v => .pure_then (htail _)
  · exact .expect_then fun _ => .seq parseChildren_obeys htail

/-! ## Operands -/

/-- Whether an expression can begin here is only looked at. -/
theorem startsExpression_obeys : Obeys g q k startsExpression (Gives k.loose) := by
  refine .peek_then fun t => ?_
  dsimp only
  split <;> exact .done

theorem parseTemplate_obeys (h : k.Sees) : Obeys g q k (parseTemplate g) (Gives k.past) := by
  refine .advance_then h fun head => ?_
  split
  · exact .done
  · refine .seq (parseTemplateTail_obeys (.withIn (parseExpression_obeys (.round (.inl rfl)))))
      fun kids => node_obeys

theorem parseArrayLiteral_obeys (h : k.Sees) :
    Obeys g q k (parseArrayLiteral g) (Gives k.past) := by
  refine .advance_then h fun open_ => .withIn ?_
  refine .seq (listUntil_obeys fun kids t _ _ => .peek_seen rfl ?_) fun kids =>
    .expect_then fun _ => node_obeys
  split
  · exact .advance_then (Know.sees (beq_iff_eq.1 ‹_›)) fun _ => .pure rfl
  · refine .seq (parseSpreadable_obeys (.see (.round (.inl rfl)))) fun e => ?_
    exact .seq separator_obeys fun _ => .pure rfl

theorem parseShorthand_obeys {start : Token} {key : Node} :
    Obeys g q k.past (parseShorthand g start key) (Gives k.past) := by
  unfold parseShorthand
  extract_lets name
  refine .eat_then ?_ fun _ _ => .pure_then (.node_then fun n => .done)
  refine .part_then (.inl rfl) fun default_ => .spanTo_then fun sp => .pure_then ?_
  exact .node_then fun n => .done

theorem parseMethodWord_obeys {start : Token} :
    Obeys g q k (parseMethodWord start) (Gives k.loose) := by
  unfold parseMethodWord
  split
  · refine .peek2_then fun next => ?_
    split
    · exact .advance_any fun _ => .done
    · exact .done
  · exact .done

theorem parseObjectMember_obeys (h : k.Reads 5) :
    Obeys g q k (parseObjectMember g) (Gives k.past) := by
  refine .peek_then fun start => ?_
  split
  · exact parseSpreadable_obeys h
  · refine .seq parseMethodWord_obeys fun word => .eat_any fun generator => ?_
    refine .seq parsePropertyKey_obeys fun ⟨key, keyFlags⟩ => .atAny_then fun t => ?_
    split
    · exact parseMethod_obeys
    · refine .eat_then ?_ fun _ _ => ?_
      · exact .part_then (.inl rfl) fun value => .node_then fun n => .done
      · rw [if_neg Bool.false_ne_true]
        split
        · exact unexpected_obeys
        · exact parseShorthand_obeys.keep

theorem parseObjectLiteral_obeys (h : k.Sees) :
    Obeys g q k (parseObjectLiteral g) (Gives k.past) := by
  refine .advance_then h fun open_ => .withIn ?_
  refine .seq (commaList_obeys fun _ _ _ => parseObjectMember_obeys (.see (.round (.inl rfl))))
    fun kids => ?_
  exact .expect_then fun _ => node_obeys

theorem parseImportExpr_obeys (h : k.Sees) : Obeys g q k (parseImportExpr g) (Gives k.past) := by
  refine .advance_then h fun start => .eat_then ?_ fun _ _ => ?_
  · refine .atWord_ask fun t => ?_
    split
    · exact unexpected_obeys
    · exact .advance_any fun _ => .spanTo_then fun sp => .done
  · refine .seq parseArguments_obeys fun args => ?_
    split
    · exact .spanTo_then fun sp => .errorAt_then .refuse_then
    · exact node_obeys

theorem parseRegExp_obeys {t : Token} (ht : k.next = .is t)
    (hk : t.kind = .slash ∨ t.kind = .slashAssign) :
    Obeys g q k (parseRegExp t) (Gives k.past) := by
  refine .bind (R := fun u m => m = { k.past with told := k.told || u.kind != .regExpLit })
    (.readRegExp ht hk fun _ => rfl) ?_
  rintro re m rfl
  split
  · exact .pure ⟨rfl, id, id, .inl rfl, by simp +contextual, .inl rfl, rfl⟩
  · refine .fail (fun _ => ?_) (by simp)
    simp_all

theorem parsePrimary_obeys : Obeys g q k (parsePrimary g) (Gives k.past) := by
  refine .peek_then fun t => ?_
  have leaf {n : Node} (h : t.kind ≠ .eof) : Obeys g q (k.see t) (advance >>= fun _ => pure n)
      (Gives k.past) := .advance_then ⟨t, rfl, h⟩ fun _ => .done
  split
  · refine .peek2_then fun next => ?_
    split
    · exact parseFunctionExpr_obeys
    · exact leaf (by simp [*])
  · exact leaf (by simp [*])
  · refine .advance_then (Know.sees ‹_›) fun _ => .atAny_then fun u => ?_
    split
    · exact .error_then .refuse_then
    · exact .done
  iterate 6 · exact leaf (by simp [*])
  · exact parseRegExp_obeys rfl (.inl ‹_›)
  · exact parseRegExp_obeys rfl (.inr ‹_›)
  · exact parseTemplate_obeys (Know.sees ‹_›)
  · exact parseTemplate_obeys (Know.sees ‹_›)
  · exact parseParen_obeys (Know.sees ‹_›)
  · exact parseArrayLiteral_obeys (Know.sees ‹_›)
  · exact parseObjectLiteral_obeys (Know.sees ‹_›)
  · exact parseFunctionExpr_obeys
  · exact parseClassExpr_obeys
  · refine .seq parseDecorators_obeys fun decos => .at_then (fun _ _ => ?_) fun _ _ => ?_
    · exact parseClassExpr_obeys
    · exact unexpected_obeys
  · exact parseImportExpr_obeys (Know.sees ‹_›)
  · refine .advance_then (Know.sees ‹_›) fun _ => .at_then (fun _ _ => .done) fun _ _ => ?_
    exact .errorAt_then .refuse_then
  · refine .peek2_then fun next => .view_then fun v => ?_
    split
    · exact parseElement_obeys (Know.sees ‹_›)
    · split
      · exact .error_then .refuse
      · exact unexpected_obeys
  · -- the lexer has reported the token that is none
    refine .bind (R := fun _ m => m.told = true) (.advance fun u hu => ?_) fun _ _ hm =>
      .fail (fun _ => hm) (by simp)
    obtain rfl := hu t rfl
    simp [Know.take, *]
  · exact unexpected_obeys

/-! ## What follows an operand -/

theorem parseIndex_obeys {base : Node} (h : k.Sees) :
    Obeys g q k (parseIndex g base) (Gives k.past) := by
  refine .advance_then h fun _ => .seq (.withIn (parseExpression_obeys (.inl rfl))) fun index => ?_
  exact .expect_then fun _ => node_obeys

theorem parseTagged_obeys {tag targs : Node} (h : k.Sees) :
    Obeys g q k (parseTagged g tag targs) (Gives k.past) :=
  .seq (parseTemplate_obeys h) fun _ => .node_then fun _ => .done

/-- Type arguments behind an expression are only ever tried. -/
theorem parseTypeArgsInExpr_obeys {base : Node} {allowCall : Bool} :
    Obeys g true k (parseTypeArgsInExpr g base allowCall) (Gives k.past) := by
  refine .seq parseTypeArgs_obeys fun targs => .peek_then fun next => ?_
  extract_lets alone
  have halone (m : Know) (hm : k.past.Le m) : Obeys g true m alone (Gives k.past) :=
    .node_then fun n => .pure hm
  split
  · split
    · exact parseCall_obeys
    · exact halone _ (k.past.loose_le_see next)
  · exact parseTagged_obeys (Know.sees ‹_›)
  · exact parseTagged_obeys (Know.sees ‹_›)
  · refine .seq startsExpression_obeys fun b => ?_
    split
    · exact halone _ (Know.Le.refl _)
    · exact .fail (by simp) fun _ => rfl

theorem parseOptionalLink_obeys {base : Node} :
    Obeys g q k (parseOptionalLink g base) (Gives k.past) := by
  refine .peek_then fun t => ?_
  extract_lets tail
  have htail (link : Node) : Obeys g q k.past (tail link) (Gives k.past) := .done
  split
  · exact .seq parseCall_obeys htail
  · exact .seq (parseIndex_obeys (Know.sees ‹_›)) htail
  · exact .seq parseTypeArgs_obeys fun targs => .seq parseCall_obeys htail
  · exact .seq parseTypeArgs_obeys fun targs => .seq parseCall_obeys htail
  · exact .seq parseMemberName_obeys fun name => .node_then htail

theorem parseLink_obeys {allowCall optional : Bool} {base : Node} :
    Obeys g q k (parseLink g allowCall optional base) (Maybe k.loose) := by
  refine .peek_then fun t => ?_
  have nothing : Obeys g q (k.see t) (pure (none : Option (Node × Bool))) (Maybe k.loose) :=
    .pure (k.loose_le_see t)
  have link {m : Know} (hm : k.past.Le m) {x : Node × Bool} :
      Obeys g q m (pure (some x)) (Maybe k.loose) := .pure hm
  split
  · refine .advance_then (Know.sees ‹_›) fun _ => .seq parseMemberName_obeys fun name => ?_
    exact .node_then fun n => link (Know.Le.refl _)
  · split
    · exact .error_then .refuse_then
    · refine .advance_then (Know.sees ‹_›) fun _ => ?_
      exact .seq parseOptionalLink_obeys fun n => link (Know.Le.refl _)
  · exact .seq (parseIndex_obeys (Know.sees ‹_›)) fun n => link (Know.Le.refl _)
  · split
    · exact .seq parseCall_obeys fun n => link (Know.Le.refl _)
    · exact nothing
  · split
    · exact .error_then .refuse_then
    · exact .seq (parseTagged_obeys (Know.sees ‹_›)) fun n => link (Know.Le.refl _)
  · split
    · exact .error_then .refuse_then
    · exact .seq (parseTagged_obeys (Know.sees ‹_›)) fun n => link (Know.Le.refl _)
  · refine .view_then fun v => ?_
    split
    · exact nothing
    · exact .advance_then (Know.sees ‹_›) fun _ => .node_then fun n => link (Know.Le.refl _)
  iterate 2
    · refine .view_then fun v => ?_
      split
      · exact nothing
      · refine .bind (R := Maybe (k.see t))
          (.speculate parseTypeArgsInExpr_obeys (Know.Le.refl _)) ?_
        rintro (_ | n) m hm
        · exact nothing.forget hm
        · exact link hm
  · exact nothing

theorem parseCallTail_obeys {allowCall : Bool} {base : Node} :
    Obeys g q k (parseCallTail g allowCall base) (Gives k.loose) := by
  refine .seq (.repeat fun ⟨n, optional⟩ => .bind parseLink_obeys ?_) fun ⟨n, optional⟩ => ?_
  · rintro (_ | next) m hm
    · exact .pure hm
    · exact .pure (.inl (hm.moved rfl))
  · exact .done

theorem parseNew_obeys (h : k.Sees) : Obeys g q k (parseNew g) (Gives k.past) := by
  refine .advance_then h fun start => .eat_then ?_ fun _ _ => ?_
  · refine .atWord_ask fun t => ?_
    split
    · exact unexpected_obeys
    · exact .advance_any fun _ => .spanTo_then fun sp => .done
  · refine .at_either (m := k.past)
      (fun t ht => .part (.inl rfl) (fun _ => Know.sees ht) fun _ _ hm _ => hm)
      (fun _ _ => parsePrimary_obeys) fun operand => ?_
    refine .seq parseCallTail_obeys fun callee => ?_
    split
    refine .at_then (fun _ _ => ?_) fun _ _ => ?_
    · exact .seq parseArguments_obeys fun args => .node_then fun n => .done
    · exact .node_then fun n => .done

theorem parseLhs_obeys (h : k.Reads 1) : Obeys g q k (parseLhs g) (Gives k.past) := by
  refine .at_either (m := k.past) (fun t ht => .part h (fun _ => Know.sees ht) fun _ _ hm _ => hm)
    (fun _ _ => parsePrimary_obeys) fun base => ?_
  exact parseCallTail_obeys

/-! ## Operators -/

theorem parsePostfix_obeys (h : k.Reads 2) : Obeys g q k (parsePostfix g) (Gives k.past) := by
  refine .part_then h fun e => .peek_then fun t => ?_
  split
  · refine .seq checkSimpleTarget_obeys fun _ => .advance_any fun _ => ?_
    exact .spanTo_then fun sp => .done
  · exact .done

theorem parseTypeAssertion_obeys (h : k.Sees) :
    Obeys g q k (parseTypeAssertion g) (Gives k.past) := by
  refine .advance_then h fun lt => .seq (parseType_obeys (.inl rfl)) fun type => ?_
  refine .expect_then fun _ => .part_then (.inl rfl) fun arg => .node_then fun n => .done

theorem parseUnary_obeys (h : k.Reads 2) : Obeys g q k (parseUnary g) (Gives k.past) := by
  refine .peek_then fun t => .view_then fun v => ?_
  have operator (hk : t.kind ≠ .eof) : Obeys g q (k.see t) (do
      let _ ← advance
      let arg ← g .unary
      if t.kind == .kwDelete && v.grammar.strictEarlyErrors && arg.unparen.kind == .ident then
        errorAt arg.span .strictDelete "deleting an identifier is not allowed in strict mode"
      return Node.newOp .unary t.kind (← spanTo t.span) [arg]) (Gives k.past) := by
    refine .advance_then ⟨t, rfl, hk⟩ fun _ => .part_then (.inl rfl) fun arg => ?_
    split
    · exact .errorAt_then (.spanTo_then fun sp => .done)
    · exact .spanTo_then fun sp => .done
  have update (hk : t.kind ≠ .eof) : Obeys g q (k.see t) (do
      let _ ← advance
      let arg ← g .unary
      checkSimpleTarget arg
      return (Node.newOp .update t.kind (← spanTo t.span) [arg]).addFlags { prefixed := true })
      (Gives k.past) := by
    refine .advance_then ⟨t, rfl, hk⟩ fun _ => .part_then (.inl rfl) fun arg => ?_
    exact .seq checkSimpleTarget_obeys fun _ => .spanTo_then fun sp => .done
  split
  iterate 7 exact operator (by simp [*])
  iterate 2 exact update (by simp [*])
  · split
    · exact parseTypeAssertion_obeys (Know.sees ‹_›)
    · exact parsePostfix_obeys h
  · split
    · refine .advance_then (Know.sees ‹_›) fun _ => .part_then (.inl rfl) fun arg => ?_
      exact node_obeys
    · exact parsePostfix_obeys h
  · exact parsePostfix_obeys h

theorem peekOperator_obeys : Obeys g q k peekOperator fun t m => m = k.see t := by
  refine .peek_then fun t => ?_
  split
  · exact .pure rfl
  · exact .joinGreater rfl (by simpa using ‹¬(t.kind != .gt) = true›) fun _ _ => rfl

theorem parseAssertion_obeys {word : Token} {left : Node} (h : k.Sees) :
    Obeys g q k (parseAssertion g word left) (Gives k.past) := by
  refine .advance_then h fun _ => .requireTypes_then ?_
  extract_lets isAs tail
  refine .at_ask fun t => ?_
  have htail (type : Node) : Obeys g q k.past (tail type) (Gives k.past) :=
    .node_then fun n => .done
  split
  · exact .advance_any fun c => .pure_then (htail _)
  · exact .seq (parseType_obeys (.inl rfl)) htail

theorem precedence_ne_eof {t : Token} {n : Nat} (h : n < t.kind.precedence) : t.kind ≠ .eof := by
  intro he
  rw [he] at h
  exact absurd h (Nat.not_lt_zero n)

theorem parseBinaryRest_obeys {above : Nat} {left : Node} :
    Obeys g q k.past (parseBinaryRest g above left) (Gives k.past) := by
  refine .repeat fun left => .bind peekOperator_obeys ?_
  rintro t m rfl
  split
  · rename_i ht
    simp only [Bool.and_eq_true, Bool.or_eq_true] at ht
    have hk : t.kind = .ident := by
      rcases ht.1.1 with h | h <;> exact Token.kind_of_is h
    exact .seq (parseAssertion_obeys (Know.sees hk)) fun n => .again
  · refine .view_then fun v => ?_
    extract_lets prec rest
    split
    · exact .leave
    · rename_i hp
      have hs : t.kind ≠ .eof := by
        refine precedence_ne_eof (n := above) ?_
        simp only [prec] at hp
        split at hp
        · exact absurd (Nat.zero_le _) hp
        · exact Nat.lt_of_not_le hp
      refine .advance_then ⟨t, rfl, hs⟩ fun _ => ?_
      have hrest (u : Unit) : Obeys g q k.past.round.past (rest u) (Turns k.past.round) :=
        .part_then (.inl rfl) fun right => .spanTo_then fun sp => .again
      split
      · exact .errorAt_then (hrest ()).keep
      · exact hrest ()

theorem parseBinary_obeys {above : Nat} (h : k.Reads 3) :
    Obeys g q k (parseBinary g above) (Gives k.past) :=
  .part_then h fun _ => parseBinaryRest_obeys

theorem parseConditional_obeys (h : k.Reads 4) :
    Obeys g q k (parseConditional g) (Gives k.past) := by
  refine .part_then h fun test => .eat_then ?_ fun _ _ => .done
  refine .seq (.withIn (part_obeys (.inl rfl))) fun yes => .expect_then fun _ => ?_
  exact .part_then (.inl rfl) fun no => node_obeys

theorem parseYield_obeys (h : k.Sees) : Obeys g q k (parseYield g) (Gives k.past) := by
  refine .advance_then h fun start => .eat_then ?_ fun _ _ => ?_
  · exact .part_then (.inl rfl) fun arg => .node_then fun n => .done
  · refine .peek_then fun t => .seq startsExpression_obeys fun b => ?_
    exact .either (m := k.past) (fun _ => part_obeys (.inl rfl)) (fun _ => .done) fun arg =>
      node_obeys

theorem isAssign_ne_eof {t : Token} (h : t.kind.isAssign = true) : t.kind ≠ .eof := by
  intro he
  rw [he] at h
  exact absurd h (by decide)

theorem parseAssign_obeys (h : k.Reads 4) : Obeys g q k (parseAssign g) (Gives k.past) := by
  refine .peek_then fun t => .view_then fun v => ?_
  split
  · rename_i ht
    simp only [Bool.and_eq_true] at ht
    exact parseYield_obeys (Know.sees (Token.kind_of_is ht.1))
  · refine .bind (tryArrow_obeys rfl) ?_
    rintro (_ | n) m hm
    · refine .forget ?_ hm
      refine .seq (parseConditional_obeys h) fun left => .peek_then fun op => ?_
      split
      · exact .done
      · rename_i ho
        have hs : op.kind ≠ .eof := isAssign_ne_eof (by simpa using ho)
        extract_lets rest
        have hrest (target : Node) : Obeys g q (k.past.see op) (rest target) (Gives k.past) := by
          refine .advance_then ⟨op, rfl, hs⟩ fun _ => .part_then (.inl rfl) fun right => ?_
          exact .spanTo_then fun sp => .done
        split
        · exact .seq (toTarget_obeys false left) hrest
        · exact .seq checkSimpleTarget_obeys fun _ => .pure_then (hrest left)
    · exact .pure hm

end ScriptLower.Parse
