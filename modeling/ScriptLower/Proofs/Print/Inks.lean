import ScriptLower.Proofs.Comment.Growth
import ScriptLower.Proofs.Print.Mappings

/-!
# What is printed of the comments

Printing pieces comes to writing pieces and comments one behind the other: each comment stands where
the first piece that asks for its position stood, and is written there alone. No setting leaves out
a legal comment, so of these each is written once when its position is asked for, and not at all
otherwise.
-/

namespace ScriptLower

/-! ## Positions that are asked for -/

namespace CommentMap

/-- The part of a map whose positions are asked for. -/
def asked (m : CommentMap) (asks : Nat → Bool) : CommentMap := m.filter fun e => asks e.1

section

variable {m : CommentMap} {e : Nat × List Comment} {asks : Nat → Bool}

theorem asked_cons_of_pos (h : asks e.1 = true) : asked (e :: m) asks = e :: asked m asks :=
  List.filter_cons_of_pos h

theorem asked_cons_of_neg (h : asks e.1 = false) : asked (e :: m) asks = asked m asks :=
  List.filter_cons_of_neg (Bool.eq_false_iff.1 h)

theorem at?_asked {pos : Nat} (h : asks pos = true) : (m.asked asks).at? pos = m.at? pos := by
  induction m with
  | nil => rfl
  | cons e m ih =>
    cases he : asks e.1 with
    | true => rw [asked_cons_of_pos he, at?_cons, at?_cons, ih]
    | false =>
      have hne : e.1 ≠ pos := fun heq => Bool.false_ne_true (he.symm.trans (heq ▸ h))
      rw [asked_cons_of_neg he, at?_cons, if_neg hne, ih]

/-- What is asked for first is taken, and of the rest what is asked for later. -/
theorem Keyed.asked_perm (h : m.Keyed) (pos : Nat) (asks : Nat → Bool) :
    (m.asked fun p => p == pos || asks p).all.Perm
      ((m.at? pos).getD [] ++ ((m.erase pos).asked asks).all) := by
  have hall := (h.filter fun e => e.1 == pos || asks e.1).all_perm pos
  have hat : (m.asked fun p => p == pos || asks p).at? pos = m.at? pos := at?_asked (by simp)
  have hrest : (m.asked fun p => p == pos || asks p).erase pos = (m.erase pos).asked asks := by
    rw [CommentMap.erase, asked, asked, CommentMap.erase, List.filter_filter, List.filter_filter]
    refine List.filter_congr fun e _ => ?_
    cases he : e.1 == pos <;> simp [bne, he]
  rw [asked] at hat hrest
  rwa [hat, hrest] at hall

/-- What is asked for is some of what a map holds. -/
theorem asked_sublist (m : CommentMap) (asks : Nat → Bool) : (m.asked asks).all.Sublist m.all := by
  induction m with
  | nil => exact .slnil
  | cons e m ih =>
    cases he : asks e.1 with
    | true =>
      rw [asked_cons_of_pos he]
      exact ih.append_left e.2
    | false =>
      rw [asked_cons_of_neg he]
      exact ih.trans (List.sublist_append_right e.2 (all m))

/-- All comments of a kind are asked for when every position that has one is. -/
theorem asked_filter_eq_iff (m : CommentMap) (asks : Nat → Bool) (keeps : Comment → Bool) :
    (m.asked asks).all.filter keeps = m.all.filter keeps ↔
      ∀ e ∈ m, (∃ c ∈ e.2, keeps c = true) → asks e.1 = true := by
  induction m with
  | nil => exact iff_of_true rfl (by simp)
  | cons e m ih =>
    rw [List.forall_mem_cons, ← ih, all_cons, List.filter_append]
    cases he : asks e.1 with
    | true =>
      rw [asked_cons_of_pos he, all_cons, List.filter_append, List.append_cancel_left_eq]
      simp
    | false =>
      rw [asked_cons_of_neg he]
      -- what is not asked for is missing, since the rest cannot make up for it
      have hle := ((asked_sublist m asks).filter keeps).length_le
      constructor
      · intro h
        have hnil : e.2.filter keeps = [] := by
          have hlen := congrArg List.length h
          rw [List.length_append] at hlen
          exact List.length_eq_zero_iff.1 (by omega)
        rw [hnil, List.nil_append] at h
        exact ⟨fun ⟨c, hc, hk⟩ => absurd hk (List.filter_eq_nil_iff.1 hnil c hc), h⟩
      · rintro ⟨hnone, h⟩
        have hnil : e.2.filter keeps = [] :=
          List.filter_eq_nil_iff.2 fun c hc hk => Bool.false_ne_true (hnone ⟨c, hc, hk⟩)
        rw [hnil, List.nil_append, h]

end

end CommentMap

/-- Whether a comment is printed under any setting where it stands. The interpreter line is printed
in front of everything. -/
def Comment.stays (c : Comment) : Bool := c.legal && !c.hashbang

namespace Print

/-- Whether some pieces print the comments in front of the statement at a position. -/
def asksLeading (ps : Pieces) (pos : Nat) : Bool := pos != 0 && ps.contains (.leading pos)

/-- Whether some pieces print the comments in front of the closing brace at a position. -/
def asksDangling (ps : Pieces) (pos : Nat) : Bool :=
  pos != 0 && (ps.contains (.dangling pos) || ps.contains (.emptyBody pos))

/-- The comments at positions that some pieces ask for. -/
def asked (ps : Pieces) (t : CommentTable) : List Comment :=
  (t.leading.asked (asksLeading ps)).all ++ (t.dangling.asked (asksDangling ps)).all

/-- What is asked for is some of what a table holds. -/
theorem asked_held (ps : Pieces) (t : CommentTable) : (asked ps t).Sublist t.held :=
  (CommentMap.asked_sublist _ _).append (CommentMap.asked_sublist _ _)

/-- All comments of a kind are asked for when every position that has one is. -/
theorem asked_perm_iff (ps : Pieces) (t : CommentTable) (keeps : Comment → Bool) :
    ((asked ps t).filter keeps).Perm (t.held.filter keeps) ↔
      (∀ e ∈ t.leading, (∃ c ∈ e.2, keeps c = true) → asksLeading ps e.1 = true) ∧
        (∀ e ∈ t.dangling, (∃ c ∈ e.2, keeps c = true) → asksDangling ps e.1 = true) := by
  have hleading := (CommentMap.asked_sublist t.leading (asksLeading ps)).filter keeps
  have hdangling := (CommentMap.asked_sublist t.dangling (asksDangling ps)).filter keeps
  rw [← CommentMap.asked_filter_eq_iff, ← CommentMap.asked_filter_eq_iff, asked, CommentTable.held,
    List.filter_append, List.filter_append]
  constructor
  · intro h
    -- neither part can be longer than it is where all is held
    have hlength := h.length_eq
    rw [List.length_append, List.length_append] at hlength
    have hle := hleading.length_le
    have hle' := hdangling.length_le
    exact ⟨hleading.eq_of_length (by omega), hdangling.eq_of_length (by omega)⟩
  · rintro ⟨h, h'⟩
    rw [h, h']

/-! ## Inks -/

/-- What is written. -/
inductive Ink
  /-- A piece that prints no comments. -/
  | piece (p : Piece)
  /-- A comment. -/
  | comment (c : Comment)
  /-- The interpreter line. -/
  | line (c : Comment)

/-- The comment that is written, if it is one. -/
def Ink.comment? : Ink → Option Comment
  | .piece _ => none
  | .comment c | .line c => some c

/-- The comments among what is written. -/
def commentsOf (is : List Ink) : List Comment := is.filterMap Ink.comment?

theorem commentsOf_append (is js : List Ink) :
    commentsOf (is ++ js) = commentsOf is ++ commentsOf js := List.filterMap_append

/-- Writes one behind a text. -/
def Ink.write (ascii : Bool) (w : Writer) : Ink → Writer
  | .piece p => (State.step { writer := w } p).writer
  | .comment c =>
    let text := if ascii then escapeText false c.text else c.text
    let w := w.newline.raw text
    if !c.block || (w.minify && text.contains 10) then w.forceNewline else w.newline
  | .line c => (w.raw c.text).forceNewline

/-- Writes some behind a text. -/
def writeAll (ascii : Bool) (w : Writer) (is : List Ink) : Writer := is.foldl (Ink.write ascii) w

theorem writeAll_append (ascii : Bool) (w : Writer) (is js : List Ink) :
    writeAll ascii w (is ++ js) = writeAll ascii (writeAll ascii w is) js := List.foldl_append

/-- Whether a comment is printed where it stands. -/
def isPrinted (minify : Bool) (c : Comment) : Bool := !c.hashbang && (!minify || c.legal)

/-- What is written of the comments at a position. -/
def commentInks (minify : Bool) (cs : List Comment) : List Ink :=
  (cs.filter (isPrinted minify)).map .comment

/-- What a piece writes, and the comments that are left. -/
def inksOf (minify : Bool) (t : CommentTable) : Piece → List Ink × CommentTable
  | .leading pos =>
    if pos = 0 then ([], t)
    else (commentInks minify (t.takeLeading pos).1, (t.takeLeading pos).2)
  | .dangling pos =>
    if pos = 0 then ([], t)
    else (commentInks minify (t.takeDangling pos).1, (t.takeDangling pos).2)
  | .emptyBody pos =>
    if pos != 0 && (t.dangling.at? pos).isSome then
      ([.piece .push, .piece .newline] ++ commentInks minify (t.takeDangling pos).1
          ++ [.piece .pop, .piece .dropSemi, .piece .newline, .piece (.token [0x7D])],
        (t.takeDangling pos).2)
    else ([.piece (.token [0x7D])], t)
  | p => ([.piece p], t)

/-- What pieces write. -/
def inks (minify : Bool) (t : CommentTable) : Pieces → List Ink
  | [] => []
  | p :: ps => (inksOf minify t p).1 ++ inks minify (inksOf minify t p).2 ps

/-! ## The comments that are written -/

section

variable {minify : Bool} {t : CommentTable} {ps : Pieces}

theorem commentsOf_commentInks (minify : Bool) (cs : List Comment) :
    commentsOf (commentInks minify cs) = cs.filter (isPrinted minify) := by
  rw [commentsOf, commentInks, List.filterMap_map]
  exact List.filterMap_some

/-- No setting leaves out a legal comment. -/
theorem isPrinted_of_stays {c : Comment} (h : c.stays = true) : isPrinted minify c = true := by
  rw [Comment.stays, Bool.and_eq_true] at h
  rw [isPrinted, h.1, h.2, Bool.or_true, Bool.and_self]

theorem stays_commentInks (minify : Bool) (cs : List Comment) :
    (commentsOf (commentInks minify cs)).filter Comment.stays = cs.filter Comment.stays := by
  rw [commentsOf_commentInks, List.filter_filter]
  refine List.filter_congr fun c _ => ?_
  cases hc : c.stays with
  | false => rfl
  | true => rw [isPrinted_of_stays hc, Bool.and_self]

theorem asksLeading_cons {p : Piece} (h : ∀ pos, pos ≠ 0 → p ≠ .leading pos) :
    asksLeading (p :: ps) = asksLeading ps := by
  funext pos
  by_cases hpos : pos = 0
  · simp [asksLeading, hpos]
  · simp [asksLeading, (h pos hpos).symm]

theorem asksDangling_cons {p : Piece}
    (h : ∀ pos, pos ≠ 0 → p ≠ .dangling pos ∧ p ≠ .emptyBody pos) :
    asksDangling (p :: ps) = asksDangling ps := by
  funext pos
  by_cases hpos : pos = 0
  · simp [asksDangling, hpos]
  · simp [asksDangling, (h pos hpos).1.symm, (h pos hpos).2.symm]

theorem asksDangling_take {p : Piece} {pos : Nat} (hpos : pos ≠ 0)
    (hp : p = .dangling pos ∨ p = .emptyBody pos) :
    asksDangling (p :: ps) = fun q => q == pos || asksDangling ps q := by
  funext q
  by_cases hq : q = pos
  · subst hq
    rcases hp with rfl | rfl <;> simp [asksDangling, hpos]
  · rcases hp with rfl | rfl <;> simp [asksDangling, hq]

theorem asked_leading {pos : Nat} (ht : t.Keyed) (hpos : pos ≠ 0) :
    (asked (.leading pos :: ps) t).Perm
      ((t.takeLeading pos).1 ++ asked ps (t.takeLeading pos).2) := by
  have hleading : asksLeading (.leading pos :: ps) = fun q => q == pos || asksLeading ps q := by
    funext q
    by_cases hq : q = pos
    · simp [asksLeading, hq, hpos]
    · simp [asksLeading, hq]
  rw [asked, asked, hleading, asksDangling_cons (p := .leading pos) fun _ _ => ⟨nofun, nofun⟩,
    ← List.append_assoc]
  exact (ht.leading.asked_perm pos _).append_right _

theorem asked_dangling (ps : List Piece) {p : Piece} {pos : Nat} (ht : t.Keyed) (hpos : pos ≠ 0)
    (hp : p = .dangling pos ∨ p = .emptyBody pos) :
    (asked (p :: ps) t).Perm ((t.takeDangling pos).1 ++ asked ps (t.takeDangling pos).2) := by
  have hleading : asksLeading (p :: ps) = asksLeading ps :=
    asksLeading_cons fun q _ hq => by rcases hp with rfl | rfl <;> cases hq
  rw [asked, asked, hleading, asksDangling_take hpos hp]
  refine ((ht.dangling.asked_perm pos _).append_left _).trans ?_
  rw [← List.append_assoc, ← List.append_assoc]
  exact List.perm_append_comm.append_right _

/-- A piece writes what it asks for, and what later pieces ask for is left. -/
theorem inksOf_stays (minify : Bool) (ht : t.Keyed) (p : Piece) (ps : List Piece) :
    (inksOf minify t p).2.Keyed ∧
    ((asked (p :: ps) t).filter Comment.stays).Perm
      ((commentsOf (inksOf minify t p).1).filter Comment.stays ++
        (asked ps (inksOf minify t p).2).filter Comment.stays) := by
  have hleft (pos : Nat) : (t.takeLeading pos).2.Keyed := ⟨ht.leading.erase pos, ht.dangling⟩
  have hleft' (pos : Nat) : (t.takeDangling pos).2.Keyed := ⟨ht.leading, ht.dangling.erase pos⟩
  -- a piece that asks for nothing
  have hnone (h : ∀ pos, pos ≠ 0 → p ≠ .leading pos ∧ p ≠ .dangling pos ∧ p ≠ .emptyBody pos) :
      asked (p :: ps) t = asked ps t := by
    rw [asked, asked, asksLeading_cons fun pos hpos => (h pos hpos).1,
      asksDangling_cons fun pos hpos => (h pos hpos).2]
  cases p with
  | leading pos =>
    by_cases hpos : pos = 0
    · have hzero := hnone fun q hq => ⟨by simpa [hpos] using hq.symm, by simp, by simp⟩
      rw [inksOf, if_pos hpos]
      exact ⟨ht, .of_eq (congrArg _ hzero)⟩
    · rw [inksOf, if_neg hpos, stays_commentInks, ← List.filter_append]
      exact ⟨hleft pos, (asked_leading ht hpos).filter _⟩
  | dangling pos =>
    by_cases hpos : pos = 0
    · have hzero := hnone fun q hq => ⟨by simp, by simpa [hpos] using hq.symm, by simp⟩
      rw [inksOf, if_pos hpos]
      exact ⟨ht, .of_eq (congrArg _ hzero)⟩
    · rw [inksOf, if_neg hpos, stays_commentInks, ← List.filter_append]
      exact ⟨hleft' pos, (asked_dangling ps ht hpos (.inl rfl)).filter _⟩
  | emptyBody pos =>
    by_cases hpos : pos = 0
    · have hzero := hnone fun q hq => ⟨by simp, by simp, by simpa [hpos] using hq.symm⟩
      rw [inksOf, if_neg (by simp [hpos])]
      exact ⟨ht, .of_eq (congrArg _ hzero)⟩
    · have hperm := (asked_dangling ps ht hpos (.inr rfl)).filter Comment.stays
      cases hat : t.dangling.at? pos with
      | none =>
        have hleft : (t.takeDangling pos).2 = t := by
          rw [CommentTable.takeDangling, CommentMap.erase_of_none hat]
        have htaken : (t.takeDangling pos).1 = [] := by
          rw [CommentTable.takeDangling, hat, Option.getD_none]
        rw [htaken, hleft, List.nil_append] at hperm
        rw [inksOf, if_neg (by simp [hat])]
        exact ⟨ht, hperm⟩
      | some cs =>
        have hopen : commentsOf [.piece .push, .piece .newline] = [] := rfl
        have hclose : commentsOf [.piece .pop, .piece .dropSemi, .piece .newline,
            .piece (.token [0x7D])] = [] := rfl
        rw [inksOf, if_pos (by simp [hat, hpos]), commentsOf_append, commentsOf_append,
          hopen, hclose,
          List.nil_append, List.append_nil, stays_commentInks, ← List.filter_append]
        exact ⟨hleft' pos, hperm⟩
  | token _ | raw _ | space | newline | semi | dropSemi | push | pop | map _ | fault _ =>
    exact ⟨ht, .of_eq (congrArg _ (hnone fun _ _ => by simp))⟩

/-- Pieces write each legal comment that they ask for once, and no other. -/
theorem stays_inks (ht : t.Keyed) :
    ((commentsOf (inks minify t ps)).filter Comment.stays).Perm
      ((asked ps t).filter Comment.stays) := by
  induction ps generalizing t with
  | nil =>
    have hnone : asked [] t = [] := by
      simp [asked, CommentMap.asked, asksLeading, asksDangling, CommentMap.all]
    rw [hnone]
    exact .nil
  | cons p ps ih =>
    obtain ⟨hkeyed, hperm⟩ := inksOf_stays minify ht p ps
    rw [inks, commentsOf_append, List.filter_append]
    exact ((ih hkeyed).append_left _).trans hperm.symm

/-! ## The text -/

theorem minify_forceNewline (w : Writer) : w.forceNewline.minify = w.minify := by
  have hflush := (Writer.flushSemi_flags (w := w)).1
  unfold Writer.forceNewline
  dsimp only
  split
  · exact hflush
  · split <;> exact hflush

theorem minify_newline (w : Writer) : w.newline.minify = w.minify := by
  unfold Writer.newline
  split
  · rfl
  · exact minify_forceNewline w

/-- No piece turns minifying on or off. -/
theorem minify_step (w : Writer) (p : Piece) :
    (State.step { writer := w } p).writer.minify = w.minify := by
  cases p with
  | token t =>
    cases t with
    | nil => rfl
    | cons b t => exact (w.token_flags b t).1
  | raw t => exact (w.raw_flags t).1
  | space => exact Writer.space_flags.1
  | newline => exact minify_newline w
  | semi =>
    show w.semi.minify = w.minify
    unfold Writer.semi
    split
    · exact Writer.flushSemi_flags.1
    · exact (w.token_flags _ _).1
  | map span => exact (w.map_flags span).2.1
  | dropSemi | push | pop | fault _ => rfl
  | leading pos | dangling pos => cases pos <;> rfl
  | emptyBody pos =>
    have hnone : State.hasDangling { writer := w } pos = false := Bool.and_false _
    rw [State.step, hnone]
    exact (w.token_flags _ _).1

theorem minify_write (ascii : Bool) (w : Writer) (i : Ink) :
    (i.write ascii w).minify = w.minify := by
  have hraw (t : Bytes) : (w.newline.raw t).minify = w.minify :=
    (Writer.raw_flags _ t).1.trans (minify_newline w)
  cases i with
  | piece p => exact minify_step w p
  | comment c =>
    rw [Ink.write]
    generalize (if ascii = true then escapeText false c.text else c.text) = text
    split
    · exact (minify_forceNewline _).trans (hraw _)
    · exact (minify_newline _).trans (hraw _)
  | line c => exact (minify_forceNewline _).trans (w.raw_flags _).1

theorem minify_writeAll (ascii : Bool) (w : Writer) (is : List Ink) :
    (writeAll ascii w is).minify = w.minify := by
  induction is generalizing w with
  | nil => rfl
  | cons i is ih => exact (ih _).trans (minify_write ascii w i)

variable {s : State}

theorem State.comment_eq (s : State) (c : Comment) :
    s.comment c =
    { s with writer := writeAll s.asciiOnly s.writer (commentInks s.writer.minify [c]) } := by
  have hprints : s.prints c = isPrinted s.writer.minify c := rfl
  rw [comment, commentInks, hprints]
  cases hc : isPrinted s.writer.minify c with
  | false => rw [List.filter_cons_of_neg (Bool.eq_false_iff.1 hc)]; rfl
  | true => rw [List.filter_cons_of_pos hc]; rfl

theorem State.foldl_comment (s : State) (cs : List Comment) : cs.foldl comment s =
    { s with writer := writeAll s.asciiOnly s.writer (commentInks s.writer.minify cs) } := by
  induction cs generalizing s with
  | nil => rfl
  | cons c cs ih =>
    have hinks : commentInks s.writer.minify (c :: cs) =
        commentInks s.writer.minify [c] ++ commentInks s.writer.minify cs := by
      rw [commentInks, commentInks, commentInks, ← List.map_append, ← List.filter_append]
      rfl
    rw [List.foldl_cons, ih, comment_eq, hinks, writeAll_append]
    dsimp only
    rw [minify_writeAll]

theorem State.leading_eq (s : State) {pos : Nat} (hpos : pos ≠ 0) : s.leading pos =
    { s with
      writer :=
        writeAll s.asciiOnly s.writer (commentInks s.writer.minify (s.comments.takeLeading pos).1)
      comments := (s.comments.takeLeading pos).2 } := by
  rw [leading, if_neg hpos]
  exact foldl_comment _ _

theorem State.dangling_eq (s : State) {pos : Nat} (hpos : pos ≠ 0) : s.dangling pos =
    { s with
      writer :=
        writeAll s.asciiOnly s.writer (commentInks s.writer.minify (s.comments.takeDangling pos).1)
      comments := (s.comments.takeDangling pos).2 } := by
  rw [dangling, if_neg hpos]
  exact foldl_comment _ _

/-- A piece writes its inks. -/
theorem State.step_inks (s : State) (p : Piece) :
    (s.step p).writer = writeAll s.asciiOnly s.writer (inksOf s.writer.minify s.comments p).1 ∧
      (s.step p).comments = (inksOf s.writer.minify s.comments p).2 ∧
      (s.step p).asciiOnly = s.asciiOnly := by
  cases p with
  | leading pos =>
    by_cases hpos : pos = 0
    · rw [inksOf, step, leading, if_pos hpos, if_pos hpos]
      exact ⟨rfl, rfl, rfl⟩
    · rw [inksOf, step, leading_eq s hpos, if_neg hpos]
      exact ⟨rfl, rfl, rfl⟩
  | dangling pos =>
    by_cases hpos : pos = 0
    · rw [inksOf, step, dangling, if_pos hpos, if_pos hpos]
      exact ⟨rfl, rfl, rfl⟩
    · rw [inksOf, step, dangling_eq s hpos, if_neg hpos]
      exact ⟨rfl, rfl, rfl⟩
  | emptyBody pos =>
    rw [inksOf, step, hasDangling]
    by_cases hsome : (pos != 0 && (s.comments.dangling.at? pos).isSome) = true
    · have hpos : pos ≠ 0 := bne_iff_ne.1 (Bool.and_eq_true_iff.1 hsome).1
      rw [if_pos hsome, if_pos hsome, dangling_eq _ hpos, writeAll_append, writeAll_append]
      refine ⟨?_, rfl, rfl⟩
      have hminify : (s.writer.push.newline).minify = s.writer.minify :=
        minify_write false s.writer.push (.piece .newline)
      show (writeAll s.asciiOnly s.writer.push.newline
        (commentInks s.writer.push.newline.minify _)).pop.dropSemi.newline.token [0x7D] = _
      rw [hminify]
      rfl
    · rw [if_neg hsome, if_neg hsome]
      exact ⟨rfl, rfl, rfl⟩
  | token _ | raw _ | space | newline | semi | dropSemi | push | pop | map _ | fault _ =>
    exact ⟨rfl, rfl, rfl⟩

/-- Pieces write their inks. -/
theorem State.run_inks (s : State) (ps : Pieces) :
    (s.run ps).writer = writeAll s.asciiOnly s.writer (inks s.writer.minify s.comments ps) := by
  induction ps generalizing s with
  | nil => rfl
  | cons p ps ih =>
    obtain ⟨hwriter, hcomments, hascii⟩ := s.step_inks p
    have hrun := ih (s.step p)
    rw [hwriter, hcomments, hascii, minify_writeAll, ← writeAll_append] at hrun
    exact hrun

/-! ## Without a map -/

/-- A writer fills no map, so none has refused an entry. -/
structure Unmapped (w : Writer) : Prop where
  /-- There is no map. -/
  sink : w.sink = none
  /-- No entry was refused. -/
  mapError : w.mapError = none

theorem Unmapped.extends {w w' : Writer} (h : Unmapped w) (hext : w.Extends w') : Unmapped w' :=
  ⟨hext.sink.trans h.sink, hext.mapError.trans h.mapError⟩

/-- Where no map is wanted none is begun. -/
theorem Unmapped.token {w : Writer} (h : Unmapped w) (b : UInt8) (t : Bytes) :
    Unmapped (w.token (b :: t)) := by
  have hbefore : Unmapped (w.flushSemi.startLine.separate b) :=
    h.extends (((Writer.extends_flushSemi w).trans (Writer.extends_startLine _)).trans
      (Writer.extends_separate _ b))
  have hplace : (w.flushSemi.startLine.separate b).place = w.flushSemi.startLine.separate b := by
    rw [Writer.place, hbefore.sink]
    split
    · rename_i hsome
      cases hsome
    · rfl
  have hplaced : Unmapped (w.flushSemi.startLine.separate b).place := by rwa [hplace]
  exact ⟨hplaced.sink, hplaced.mapError⟩

theorem State.unmapped_step {s : State} (h : Unmapped s.writer) (p : Piece) :
    Unmapped (s.step p).writer := by
  have hbrace (w : Writer) (hw : Unmapped w) : Unmapped (w.token [0x7D]) := hw.token _ _
  cases p with
  | token t =>
    cases t with
    | nil => exact h
    | cons b t => exact h.token b t
  | raw t => exact h.extends (Writer.extends_raw _ t)
  | space => exact h.extends (Writer.extends_space _)
  | newline => exact h.extends (Writer.extends_newline _)
  | semi =>
    show Unmapped s.writer.semi
    unfold Writer.semi
    split
    · exact ⟨(h.extends (Writer.extends_flushSemi _)).sink,
        (h.extends (Writer.extends_flushSemi _)).mapError⟩
    · exact h.token _ _
  | map span =>
    show Unmapped (s.writer.map span)
    unfold Writer.map
    split
    · exact h
    · exact ⟨h.sink, h.mapError⟩
  | leading pos => exact h.extends (extends_leading s pos)
  | dangling pos => exact h.extends (extends_dangling s pos)
  | emptyBody pos =>
    rw [step]
    split
    · have hpush : Unmapped s.writer.push := ⟨h.sink, h.mapError⟩
      have hbody := (hpush.extends (Writer.extends_newline _)).extends
        (extends_dangling (s.write (·.push.newline)) pos)
      have hpop : Unmapped ((s.write (·.push.newline)).dangling pos).writer.pop.dropSemi :=
        ⟨hbody.sink, hbody.mapError⟩
      exact hbrace _ (hpop.extends (Writer.extends_newline _))
    · exact hbrace _ h
  | dropSemi | push | pop | fault _ => exact ⟨h.sink, h.mapError⟩

theorem State.unmapped_run {s : State} (h : Unmapped s.writer) (ps : Pieces) :
    Unmapped (s.run ps).writer := by
  induction ps generalizing s with
  | nil => exact h
  | cons p ps ih => exact ih (unmapped_step h p)

/-- Printing without a map makes none. -/
theorem printTree_unmapped {root : Node} {o : Settings} (h : o.sink = none) :
    (printTree root t o).sink = none := by
  have hstart : Unmapped (hashbang { o.start with comments := t }).writer :=
    Unmapped.extends ⟨h, rfl⟩ (extends_hashbang _)
  unfold printTree
  split
  · exact h
  dsimp only
  split
  · exact (State.unmapped_run hstart _).sink
  · exact ((State.unmapped_run hstart _).extends (extends_finish _)).sink

/-! ## Programs -/

/-- What a program writes: the interpreter line wherever it hangs, and then its pieces. -/
def programInks (o : Settings) (root : Node) (t : CommentTable) : List Ink :=
  (t.all.find? (·.hashbang)).toList.map .line ++ inks o.minify t (programPieces o.asciiOnly root)

/-- A program writes each legal comment that it asks for once, and no other. -/
theorem stays_programInks (ht : t.Keyed) (o : Settings) (root : Node) :
    ((commentsOf (programInks o root t)).filter Comment.stays).Perm
      ((asked (programPieces o.asciiOnly root) t).filter Comment.stays) := by
  have hline :
      (commentsOf ((t.all.find? (·.hashbang)).toList.map .line)).filter Comment.stays = [] := by
    cases hfind : t.all.find? (·.hashbang) with
    | none => rfl
    | some c =>
      have hc : c.stays = false := by
        rw [Comment.stays, List.find?_some hfind, Bool.not_true, Bool.and_false]
      exact List.filter_cons_of_neg (Bool.eq_false_iff.1 hc)
  rw [programInks, commentsOf_append, List.filter_append, hline, List.nil_append]
  exact stays_inks ht

/-- The text that is written. -/
def inkText (o : Settings) (is : List Ink) : Bytes :=
  let w := writeAll o.asciiOnly { minify := o.minify, indent := o.blanks, sink := o.sink } is
  (if w.reversed.isEmpty then w else w.newline).text

theorem finish_writer (s : State) : (finish s).writer =
    if s.writer.reversed.isEmpty then s.writer else s.writer.newline := by
  unfold finish
  split <;> rfl

/-- The text of a tree is what its program writes. -/
theorem printTree_code {root : Node} {o : Settings} {code : Bytes}
    (h : (printTree root t o).code = some code) : code = inkText o (programInks o root t) := by
  unfold printTree at h
  split at h
  · cases h
  extract_lets start pieces s out reports at h
  split at h
  · cases h
  have hstart : (hashbang start).writer =
        writeAll o.asciiOnly start.writer ((t.all.find? (·.hashbang)).toList.map .line) ∧
      (hashbang start).comments = t ∧ (hashbang start).asciiOnly = o.asciiOnly := by
    rw [hashbang, show start.comments = t from rfl]
    cases t.all.find? (·.hashbang) <;> exact ⟨rfl, rfl, rfl⟩
  have hminify : start.writer.minify = o.minify := rfl
  have hrun : ((hashbang start).run (programPieces o.asciiOnly root)).writer =
      writeAll o.asciiOnly start.writer (programInks o root t) := by
    rw [State.run_inks, hstart.2.2, hstart.2.1, hstart.1, minify_writeAll, hminify,
      ← writeAll_append,
      programInks]
  have hcode : code = out := by
    dsimp only at h
    split at h
    · exact (Option.some.inj h).symm
    · cases h
  rw [hcode, inkText]
  show (finish _).writer.text = _
  rw [finish_writer, hrun]

end

end Print

end ScriptLower
