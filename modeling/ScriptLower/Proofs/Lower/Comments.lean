import ScriptLower.Lower.Program
import ScriptLower.Proofs.Comment.Growth
import ScriptLower.Proofs.Lower.ObjectNames

/-!
# Lowering saves the legal comments

Few rules touch the comments. A member that vanishes drops those in front of it, a statement that
vanishes hands them to the next one that stays, and an exported declaration that is replaced hands
them to its declaration. None of these loses a legal comment, as long as a comment is only moved to
something that has a place, and a declaration behind `export` has one in a tree read from a file.

The names that a list declares are touched by the objects in it alone, as long as no list of their
own stands around them.
-/

namespace ScriptLower.Lower

open ScriptLower

/-! ## Steps that lose no legal comment -/

/-- Every diagnostic is an error or speaks of the file. -/
def WarnsIn (file : SourceFile) (ds : List Diagnostic) : Prop :=
  ∀ d ∈ ds, d.isError = true ∨ file.spans d.primary = true

/-- Behind the step the table holds the legal comments it held, each as often as before, if no
position of the file is the one that means none. What is no error speaks of the file, and the
innermost list declares the names it declared and else only names of which `P` holds. -/
class Saving (file : SourceFile) (P : Bytes → Prop) {α : Type} (m : LowerM α) : Prop where
  saves : 0 < file.base → ∀ (c : Context) (s : State), s.comments.leading.Keyed →
    s.comments.Saves (m c s).2.comments
  placed : ∀ (c : Context) (s : State), WarnsIn file s.reports → WarnsIn file (m c s).2.reports
  keeps : ∀ (c : Context) (s : State), ∀ x ∈ s.declared, x ∈ (m c s).2.declared
  declares : ∀ (c : Context) (s : State), ∀ x ∈ (m c s).2.declared, x ∈ s.declared ∨ P x

section

variable {file : SourceFile} {P : Bytes → Prop} {α β : Type}

/-- A step that leaves the comments and the reports alone. -/
theorem Saving.of_still {m : LowerM α} (h : ∀ (c : Context) (s : State),
    (m c s).2.comments = s.comments ∧ (m c s).2.reports = s.reports ∧
      (m c s).2.declared = s.declared) : Saving file P m where
  saves _ c s hk := by rw [(h c s).1]; exact .refl hk
  placed c s hp := by rw [(h c s).2.1]; exact hp
  keeps c s x hx := by rw [(h c s).2.2]; exact hx
  declares c s x hx := by rw [(h c s).2.2] at hx; exact .inl hx

instance {a : α} : Saving file P (pure a : LowerM α) := .of_still fun _ _ => ⟨rfl, rfl, rfl⟩

instance Saving.bind {m : LowerM α} {f : α → LowerM β} [hm : Saving file P m]
    [hf : ∀ a, Saving file P (f a)] :
    Saving file P (m >>= f) where
  saves hbase c s hk := by
    have hfirst := hm.saves hbase c s hk
    exact hfirst.trans ((hf _).saves hbase c _ hfirst.keyed)
  placed c s hp := (hf _).placed c _ (hm.placed c s hp)
  keeps c s x hx := (hf _).keeps c _ x (hm.keeps c s x hx)
  declares c s x hx := ((hf _).declares c _ x hx).elim (hm.declares c s x) .inr

theorem Saving.then {m : LowerM α} {f : α → LowerM β} [Saving file P m]
    (hf : ∀ a, Saving file P (f a)) :
    Saving file P (m >>= f) := inferInstance

instance {m : LowerM α} {f : α → β} [hm : Saving file P m] : Saving file P (f <$> m) :=
    ⟨hm.saves, hm.placed, hm.keeps, hm.declares⟩

instance {p : Prop} [Decidable p] {m m' : LowerM α} [hm : Saving file P m]
    [hm' : Saving file P m'] : Saving file P (if p then m else m') := by
  split
  · exact hm
  · exact hm'

/-- One of two steps, and then the same in either case. -/
theorem Saving.eitherOf {c : Prop} [Decidable c] {m m' : LowerM α} {f : α → LowerM β}
    (hm : Saving file P m)
    (hm' : Saving file P m') (hf : ∀ a, Saving file P (f a)) :
    Saving file P (if c then m >>= f else m' >>= f) :=
  inferInstance

instance {f : Context → Context} {m : LowerM α} [hm : Saving file P m] :
    Saving file P (withReader f m) :=
  ⟨fun hbase c s => hm.saves hbase (f c) s, fun c s => hm.placed (f c) s,
    fun c s => hm.keeps (f c) s, fun c s => hm.declares (f c) s⟩

theorem saving_mapM {f : α → LowerM β} {xs : List α} (h : ∀ x ∈ xs, Saving file P (f x)) :
    Saving file P (xs.mapM f) := by
  induction xs with
  | nil => exact inferInstanceAs (Saving file P (pure []))
  | cons x xs ih =>
    obtain ⟨hx, hxs⟩ := List.forall_mem_cons.1 h
    have hrest := ih hxs
    rw [List.mapM_cons]
    infer_instance

instance {f : α → LowerM β} {xs : List α} [h : ∀ x, Saving file P (f x)] :
    Saving file P (xs.mapM f) :=
  saving_mapM fun x _ => h x

theorem saving_foldlM {f : β → α → LowerM β} {xs : List α}
    (h : ∀ x ∈ xs, ∀ b, Saving file P (f b x)) (init : β) :
    Saving file P (xs.foldlM f init) := by
  induction xs generalizing init with
  | nil => exact inferInstanceAs (Saving file P (pure init))
  | cons x xs ih =>
    obtain ⟨hx, hxs⟩ := List.forall_mem_cons.1 h
    have hfirst := hx init
    have hrest (b : β) : Saving file P (xs.foldlM f b) := ih hxs b
    rw [List.foldlM_cons]
    infer_instance

end

/-! ## Operations -/

section

variable {file : SourceFile} {P : Bytes → Prop} {α : Type} {span : Span}

instance : Saving file P (read : LowerM Context) := .of_still fun _ _ => ⟨rfl, rfl, rfl⟩

instance : Saving file P (get : LowerM State) := .of_still fun _ _ => ⟨rfl, rfl, rfl⟩

theorem saving_modify {f : State → State}
    (h : ∀ s, (f s).comments = s.comments ∧ (f s).reports = s.reports ∧
      (f s).declared = s.declared) :
    Saving file P (modify f : LowerM Unit) := .of_still fun _ s => h s

theorem saving_report {d : Diagnostic} (hd : d.isError = true ∨ file.spans d.primary = true) :
    Saving file P (report d) :=
  ⟨fun _ _ _ hk => .refl hk, fun _ _ hp =>
    List.forall_mem_append.2 ⟨hp, List.forall_mem_singleton.2 hd⟩, fun _ _ _ => id,
    fun _ _ _ => .inl⟩

instance {code : Code} {message : Bytes} : Saving file P (errorAt span code message) :=
  saving_report (.inl rfl)

theorem saving_warnAt {code : Code} {message : Bytes} (hs : file.spans span = true) :
    Saving file P (warnAt span code message) := saving_report (.inr hs)

instance {t : Target} : Saving file P (targetBefore t) := .of_still fun _ _ => ⟨rfl, rfl, rfl⟩

instance {wish : Bytes} : Saving file P (fresh wish) := .of_still fun _ _ => ⟨rfl, rfl, rfl⟩

instance {mark : Nat} : Saving file P (ref mark) := .of_still fun _ _ => ⟨rfl, rfl, rfl⟩

instance : Saving file P temp := .of_still fun _ _ => ⟨rfl, rfl, rfl⟩

instance {m : LowerM α} [hm : Saving file P m] : Saving file P (collectTemps m) :=
  ⟨fun hbase c s => hm.saves hbase c { s with temps := [] },
    fun c s => hm.placed c { s with temps := [] },
    fun c s => hm.keeps c { s with temps := [] }, fun c s => hm.declares c { s with temps := [] }⟩

instance {scope : Scope} {m : LowerM α} [hm : Saving file P m] : Saving file P (inScope scope m) :=
  inferInstanceAs (Saving file P (withReader _ m))

instance {params body : Node} {m : LowerM α} [hm : Saving file P m] :
    Saving file P (inFunction params body m) := by
  unfold inFunction
  infer_instance

instance {derived : Bool} {m : LowerM α} [hm : Saving file P m] :
    Saving file P (inConstructor derived m) :=
  inferInstanceAs (Saving file P (withReader _ m))

instance {stmts : List Node} {temps : List Nat} : Saving file P (withTemps stmts temps) := by
  unfold withTemps
  infer_instance

instance {name : Bytes} : Saving file P (exporter? name) := .of_still fun _ _ => ⟨rfl, rfl, rfl⟩

instance {name : Bytes} : Saving file P (define? name) := .of_still fun _ _ => ⟨rfl, rfl, rfl⟩

instance : Saving file P namespaceScope? := by
  unfold namespaceScope?
  refine .then fun c => ?_
  split <;> infer_instance

instance {n : Node} : Saving file P (nameRef n) := by
  unfold nameRef
  refine .then fun o => ?_
  split
  · infer_instance
  · refine .then fun d => ?_
    split <;> infer_instance

instance {n : Node} : Saving file P (capture n) := by
  unfold capture
  infer_instance

theorem saving_noteUnlowered {n : Node} (hn : Grown file n) : Saving file P (noteUnlowered n) := by
  have hwarns (message : Bytes) : Saving file P (warnAt n.span .unsupported message) :=
    saving_warnAt hn.span
  unfold noteUnlowered
  split
  · infer_instance
  · rename_i feature since _
    have hwarn :
        Saving file P (modify fun s => { s with warned := feature :: s.warned } : LowerM Unit) :=
      saving_modify fun _ => ⟨rfl, rfl, rfl⟩
    infer_instance

theorem saving_declareOnce {name : Bytes} (h : P name) : Saving file P (declareOnce name) := by
  have hset :
      Saving file P (modify fun s => { s with declared := name :: s.declared } : LowerM Unit) :=
    ⟨fun _ _ _ hk => .refl hk, fun _ _ hp => hp, fun _ _ _ => List.mem_cons_of_mem _,
      fun _ _ x hx => (List.mem_cons.1 hx).elim (fun e => .inr (e ▸ h)) .inl⟩
  unfold declareOnce
  infer_instance

theorem saving_fillObject {name : Node} {body : List Node} {exported : Bool}
    {parent : Option Scope} (h : P name.text) :
    Saving file P (fillObject span name body exported parent) := by
  have hdeclare : Saving file P (declareOnce name.text) := saving_declareOnce h
  unfold fillObject
  infer_instance

end

/-! ## Rules -/

/-- The rules lose no legal comment of a tree read from a file, and declare only the names of its
objects. -/
structure Rules.Save (f : SourceFile) (P : Bytes → Prop) (g : Rules) : Prop where
  expr : ∀ {n}, Grown f n → Saving f P (g.expr n)
  pattern : ∀ assigns {n}, Grown f n → Saving f P (g.pattern assigns n)
  stmt : ∀ {n}, Grown f n → (∀ x ∈ objectNames n, P x) → Saving f P (g.stmt n)
  namespaceDecl : ∀ {n} exported, Grown f n → n.kind = .namespaceDecl →
    (∀ x ∈ objectNames n, P x) → Saving f P (g.namespaceDecl n exported)
  /-- In a list of its own a statement may declare any names. -/
  inner : ∀ {n}, Grown f n → Saving f (fun _ => True) (g.stmt n)

section

variable {f : SourceFile} {g : Rules} {n : Node} {span : Span} {P : Bytes → Prop}

/-! ## Captured operands -/

instance {left : Node} {right : LowerM Node} [Saving f P right] :
    Saving f P (lowerNullish span left right) := by
  unfold lowerNullish
  infer_instance

mutual

theorem saving_access? (hg : g.Save f P) : ∀ n, Grown f n → Saving f P (access? g n)
  | .absent, _ => by
    unfold access?
    infer_instance
  | .mk h ks ds t a x, hn => by
    have hfirst : Saving f P (accessFirst? g ks) := saving_accessFirst? hg ks hn.kids
    have hobj := hg.expr (hn.kid 0)
    have hkey := hg.expr (hn.kid 1)
    unfold access?
    dsimp only
    split
    case h_6 =>
      refine .then fun o => ?_
      split <;> infer_instance
    all_goals infer_instance

theorem saving_accessFirst? (hg : g.Save f P) :
    ∀ ks, GrownAll f ks → Saving f P (accessFirst? g ks)
  | [], _ => by
    unfold accessFirst?
    infer_instance
  | n :: _, h => by
    unfold accessFirst?
    exact saving_access? hg n (grownAll_cons.1 h).1

end

theorem saving_keepAssignment (hg : g.Save f P) (hn : Grown f n) :
    Saving f P (keepAssignment g n) := by
  have htarget := hg.pattern true (hn.kid 0)
  have hvalue := hg.expr (hn.kid 1)
  unfold keepAssignment
  infer_instance

theorem saving_lowerPowerAssign (hg : g.Save f P) (hn : Grown f n) :
    Saving f P (lowerPowerAssign g n) := by
  have hsplit := saving_access? hg _ (hn.kid 0)
  have hkeep := saving_keepAssignment hg hn
  have hvalue := hg.expr (hn.kid 1)
  unfold lowerPowerAssign
  refine .then fun o => ?_
  split <;> infer_instance

theorem saving_lowerLogicalAssign (hg : g.Save f P) (hn : Grown f n) :
    Saving f P (lowerLogicalAssign g n) := by
  have hsplit := saving_access? hg _ (hn.kid 0)
  have hkeep := saving_keepAssignment hg hn
  have hvalue := hg.expr (hn.kid 1)
  unfold lowerLogicalAssign
  refine .then fun o => ?_
  split
  · infer_instance
  · dsimp only
    split <;> infer_instance

/-! ## Optional chains -/

mutual

theorem grown_chainOf : ∀ n, Grown f n → Grown f (chainOf n).1 ∧ GrownAll f (chainOf n).2
  | .absent, _ => ⟨.absent, grownAll_nil⟩
  | .mk h ks ds t a x, hn => by
    obtain ⟨hbase, hlinks⟩ := grown_chainOfFirst ks hn.kids
    unfold chainOf
    split
    case h_1 | h_2 | h_3 => exact ⟨hbase, hlinks.snoc hn⟩
    case h_4 => exact ⟨hbase, hlinks⟩
    case h_5 => exact ⟨hn, grownAll_nil⟩

theorem grown_chainOfFirst :
    ∀ ks, GrownAll f ks → Grown f (chainOfFirst ks).1 ∧ GrownAll f (chainOfFirst ks).2
  | [], _ => ⟨.absent, grownAll_nil⟩
  | n :: _, h => grown_chainOf n (grownAll_cons.1 h).1

end

instance {k : Chain} : Saving f P (k.guard span) := by
  unfold Chain.guard
  infer_instance

theorem saving_follow (hg : g.Save f P) {links : List Node} (hlinks : GrownAll f links)
    (k : Chain) :
    Saving f P (Chain.follow g span k links) := by
  induction links generalizing k with
  | nil =>
    unfold Chain.follow
    infer_instance
  | cons link rest ih =>
    obtain ⟨hlink, hrest⟩ := grownAll_cons.1 hlinks
    have hargs : Saving f P ((link.kids.drop 1).mapM g.expr) :=
      saving_mapM fun a ha => hg.expr (hlink.kids a (List.mem_of_mem_drop ha))
    have hkey := hg.expr (hlink.kid 1)
    have hcall (k : Chain) : Saving f P (k.call g link) := by
      unfold Chain.call
      refine .then fun args => ?_
      split <;> infer_instance
    have hread (k : Chain) (callFollows : Bool) : Saving f P (k.read g link callFollows) := by
      unfold Chain.read
      refine Saving.eitherOf inferInstance inferInstance fun o => ?_
      refine Saving.eitherOf inferInstance inferInstance fun prop => ?_
      split <;> infer_instance
    have hgo (k : Chain) : Saving f P (Chain.follow g span k rest) := ih hrest k
    unfold Chain.follow
    infer_instance

theorem saving_lowerChain (hg : g.Save f P) (hn : Grown f n) (deletes : Bool) :
    Saving f P (lowerChain g n deletes) := by
  obtain ⟨hbase, hlinks⟩ := grown_chainOf _ (hn.kid 0)
  have hfirst := hg.expr hbase
  have hfollow (k : Chain) : Saving f P (Chain.follow g n.span k (chainOf (n.kid 0)).2) :=
    saving_follow hg hlinks k
  unfold lowerChain
  infer_instance

/-! ## Elements -/

instance {h : Helper} : Saving f P (useHelper h) := by
  have hset (m : Nat) :
      Saving f P (modify fun s => { s with helpers := s.helpers ++ [(h, m)] } : LowerM Unit) :=
    saving_modify fun _ => ⟨rfl, rfl, rfl⟩
  unfold useHelper
  refine .then fun s => ?_
  split <;> infer_instance

instance : Saving f P (lowerTagName n) := by
  unfold lowerTagName
  infer_instance

mutual

theorem saving_lowerComponent : ∀ n, Saving f P (lowerComponent g n)
  | .absent => by
    unfold lowerComponent
    infer_instance
  | .mk h ks ds t a x => by
    have hfirst : Saving f P (lowerComponentFirst g ks) := saving_lowerComponentFirst ks
    unfold lowerComponent
    infer_instance

theorem saving_lowerComponentFirst : ∀ ks, Saving f P (lowerComponentFirst g ks)
  | [] => by
    unfold lowerComponentFirst
    infer_instance
  | n :: _ => by
    unfold lowerComponentFirst
    exact saving_lowerComponent n

end

theorem saving_lowerTag (hg : g.Save f P) (hn : Grown f n) : Saving f P (lowerTag g n) := by
  have hname : Saving f P (lowerComponent g n) := saving_lowerComponent n
  have hother := hg.expr hn
  unfold lowerTag
  split <;> infer_instance

theorem saving_lowerChild (hg : g.Save f P) (hn : Grown f n) : Saving f P (lowerChild g n) := by
  have hinner := hg.expr (hn.kid 0)
  have hself := hg.expr hn
  unfold lowerChild
  split <;> infer_instance

theorem saving_lowerAttrValue (hg : g.Save f P) (hn : Grown f n) :
    Saving f P (lowerAttrValue g n span) := by
  have hinner := hg.expr (hn.kid 0)
  have hself := hg.expr hn
  unfold lowerAttrValue
  infer_instance

theorem saving_lowerProps (hg : g.Save f P) {attrs : List Node} (hattrs : GrownAll f attrs)
    (splitKey : Bool) : Saving f P (lowerProps g attrs splitKey) := by
  refine saving_foldlM (fun a ha p => ?_) ({} : Props)
  have hspread := hg.expr ((hattrs a ha).kid 0)
  have hvalue : Saving f P (lowerAttrValue g (a.kid 1) a.span) :=
    saving_lowerAttrValue hg ((hattrs a ha).kid 1)
  unfold Props.add
  infer_instance

instance {members : List Node} : Saving f P (propsObject span members) := by
  unfold propsObject
  infer_instance

instance : Saving f P (sourceObject span) := by
  unfold sourceObject
  infer_instance

theorem saving_automaticCall (hg : g.Save f P) {attrs : List Node} (hattrs : GrownAll f attrs)
    (tag : Node) (kids : List Child) : Saving f P (automaticCall g span tag attrs kids) := by
  have hprops := saving_lowerProps hg hattrs true
  unfold automaticCall
  infer_instance

theorem saving_classicCall (hg : g.Save f P) {attrs : List Node} (hattrs : GrownAll f attrs)
    (tag : Node) (kids : List Child) : Saving f P (classicCall g span tag attrs kids) := by
  have hprops := saving_lowerProps hg hattrs false
  unfold classicCall
  infer_instance

theorem saving_lowerElement (hg : g.Save f P) (hn : Grown f n) : Saving f P (lowerElement g n) := by
  have htag := saving_lowerTag hg (hn.kid 0)
  have hchildren (i : Nat) : Saving f P ((n.kid i).kids.mapM (lowerChild g)) :=
    saving_mapM fun k hk => saving_lowerChild hg ((hn.kid i).kids k hk)
  have hkids : Saving f P ((if (n.kind == .jsxFragment) = true then n.kid 0 else n.kid 2).kids.mapM
      (lowerChild g)) := by
    split <;> exact hchildren _
  have hattrs : GrownAll f (if (n.kind == .jsxFragment) = true then [] else (n.kid 1).kids) := by
    split
    · exact grownAll_nil
    · exact (hn.kid 1).kids
  have hclassic (tag : Node) (kids : List Child) : Saving f P (classicCall g n.span tag _ kids) :=
    saving_classicCall hg hattrs tag kids
  have hautomatic (tag : Node) (kids : List Child) :
      Saving f P (automaticCall g n.span tag _ kids) :=
    saving_automaticCall hg hattrs tag kids
  unfold lowerElement
  infer_instance

/-! ## Lists of statements -/

theorem saving_onComments {change : CommentTable → CommentTable}
    (h : 0 < f.base → ∀ t : CommentTable, t.leading.Keyed → t.Saves (change t)) :
    Saving f P (onComments change) :=
  ⟨fun hbase _ s => h hbase s.comments, fun _ _ => id, fun _ _ _ => id, fun _ _ _ => .inl⟩

instance {pos : Nat} : Saving f P (onComments (·.drop pos)) :=
  saving_onComments fun _ _ hk => CommentTable.saves_drop hk pos

theorem saving_move (src : Nat) {dst : Nat} (hdst : 0 < f.base → dst ≠ 0) :
    Saving f P (onComments (·.move src dst)) :=
  saving_onComments fun hbase _ hk => CommentTable.saves_move hk src (hdst hbase)

/-- The comments of statements that vanished are moved to one that stays. -/
theorem saving_moveAll (orphans : List Nat) {pos : Nat} (hpos : pos ≠ 0) :
    Saving f P (onComments fun t => orphans.foldl (fun t p => t.move p pos) t) := by
  refine saving_onComments fun _ t hk => ?_
  induction orphans generalizing t with
  | nil => exact .refl hk
  | cons p ps ih =>
    have hfirst := CommentTable.saves_move hk p hpos
    exact hfirst.trans (ih _ hfirst.keyed)

theorem saving_lowerEach {Q : Bytes → Prop} {stmts : List Node}
    (hs : ∀ n ∈ stmts, Saving f Q (g.stmt n)) (orphans : List Nat) :
    Saving f Q (lowerEach g stmts orphans) := by
  induction stmts generalizing orphans with
  | nil =>
    unfold lowerEach
    infer_instance
  | cons n rest ih =>
    obtain ⟨hfirst, hrest⟩ := List.forall_mem_cons.1 hs
    have hgo (orphans : List Nat) : Saving f Q (lowerEach g rest orphans) := ih hrest orphans
    unfold lowerEach
    refine .then fun out => ?_
    split
    · infer_instance
    · dsimp only
      split
      · infer_instance
      · have hmove := saving_moveAll (f := f) (P := Q) orphans ‹_›
        infer_instance

/-- What a list declares is forgotten behind it. -/
theorem saving_lowerList (hg : g.Save f P) {stmts : List Node} (hs : GrownAll f stmts) :
    Saving f P (lowerList g stmts) := by
  have heach : Saving f (fun _ => True) (lowerEach g stmts []) :=
    saving_lowerEach (fun n hn => hg.inner (hs n hn)) []
  refine ⟨fun hbase c s hk => ?_, fun c s hp => ?_, fun _ _ _ => id, fun _ _ _ => .inl⟩
  · exact heach.saves hbase { c with listDepth := c.listDepth + 1 }
      { s with declared := stmts.filterMap functionName? } hk
  · exact heach.placed { c with listDepth := c.listDepth + 1 }
      { s with declared := stmts.filterMap functionName? } hp

/-! ## Functions -/

theorem saving_lowerOptional (hg : g.Save f P) (hn : Grown f n) :
    Saving f P (lowerOptional g n) := by
  have hself := hg.expr hn
  unfold lowerOptional
  infer_instance

theorem saving_lowerParam (hg : g.Save f P) (hn : Grown f n) : Saving f P (lowerParam g n) := by
  have hbinding := hg.pattern false (hn.kid 0)
  have hinit := saving_lowerOptional hg (hn.kid 1)
  unfold lowerParam
  split
  · infer_instance
  · rename_i d _ hdecos
    have hwarn (message : Bytes) : Saving f P (warnAt d.span .unsupported message) :=
      saving_warnAt (hn.decos d (by rw [hdecos]; exact List.mem_cons_self)).span
    infer_instance

theorem saving_lowerParams (hg : g.Save f P) (hn : Grown f n) : Saving f P (lowerParams g n) := by
  have hkids : Saving f P ((n.kids.filter fun p => !p.flags.thisParam).mapM (lowerParam g)) :=
    saving_mapM fun p hp => saving_lowerParam hg (hn.kids p (List.mem_filter.1 hp).1)
  unfold lowerParams
  infer_instance

theorem saving_lowerBody (hg : g.Save f P) (params : Node) (hn : Grown f n)
    (prologue : List Node → List Node) : Saving f P (lowerBody g params n prologue) := by
  have hlist := saving_lowerList hg hn.kids
  unfold lowerBody
  infer_instance

theorem saving_lowerFunction (hg : g.Save f P) (hn : Grown f n) :
    Saving f P (lowerFunction g n) := by
  have hparams := saving_lowerParams hg (hn.kid 1)
  have hbody := saving_lowerBody hg (n.kid 1) (hn.kid 2) id
  have hnote : Saving f P (noteUnlowered n) := saving_noteUnlowered hn
  unfold lowerFunction
  infer_instance

theorem saving_lowerArrow (hg : g.Save f P) (hn : Grown f n) : Saving f P (lowerArrow g n) := by
  have hparams := saving_lowerParams hg (hn.kid 0)
  have hbody := saving_lowerBody hg (n.kid 0) (hn.kid 1) id
  have hvalue := hg.expr (hn.kid 1)
  have hnote : Saving f P (noteUnlowered n) := saving_noteUnlowered hn
  unfold lowerArrow
  infer_instance

/-! ## Classes -/

theorem saving_lowerKey (hg : g.Save f P) (hn : Grown f n) : Saving f P (lowerKey g n) := by
  have hkey := hg.expr (hn.kid 0)
  unfold lowerKey
  infer_instance

theorem saving_lowerDecorators (hg : g.Save f P) (hn : Grown f n) :
    Saving f P (lowerDecorators g n.decos) := by
  refine saving_mapM fun d hd => ?_
  have hvalue := hg.expr ((hn.decos d hd).kid 0)
  infer_instance

instance {params : Node} : Saving f P (propertiesOfParams params) := by
  have hone (p : Node) : Saving f P (propertyOfParam p) := by
    unfold propertyOfParam
    infer_instance
  unfold propertiesOfParams
  infer_instance

theorem saving_lowerMethod (hg : g.Save f P) (hn : Grown f n) (derived : Bool) :
    Saving f P (lowerMethod g derived n) := by
  have hkey := saving_lowerKey hg hn
  have hparams := saving_lowerParams hg (hn.kid 1)
  have hbody (prologue : List Node → List Node) :=
    saving_lowerBody hg (n.kid 1) (hn.kid 2) prologue
  have hdecos := saving_lowerDecorators hg hn
  have hnote : Saving f P (noteUnlowered n) := saving_noteUnlowered hn
  unfold lowerMethod
  infer_instance

theorem saving_lowerField (hg : g.Save f P) (hn : Grown f n) : Saving f P (lowerField g n) := by
  have hdecos := saving_lowerDecorators hg hn
  have hkey := saving_lowerKey hg hn
  have hinit := saving_lowerOptional hg (hn.kid 1)
  have hnote : Saving f P (noteUnlowered n) := saving_noteUnlowered hn
  unfold lowerField
  infer_instance

theorem saving_lowerStaticBlock (hg : g.Save f P) (hn : Grown f n) :
    Saving f P (lowerStaticBlock g n) := by
  have hlist := saving_lowerList hg (hn.kid 0).kids
  have hnote : Saving f P (noteUnlowered n) := saving_noteUnlowered hn
  unfold lowerStaticBlock
  infer_instance

theorem saving_lowerMember (hg : g.Save f P) (hn : Grown f n) (derived : Bool) :
    Saving f P (lowerMember g derived n) := by
  have hmethod := saving_lowerMethod hg hn derived
  have hfield := saving_lowerField hg hn
  have hblock := saving_lowerStaticBlock hg hn
  unfold lowerMember
  split <;> infer_instance

theorem saving_lowerClass (hg : g.Save f P) (hn : Grown f n) : Saving f P (lowerClass g n) := by
  have hparent := saving_lowerOptional hg (hn.kid 1)
  have hmembers : Saving f P ((n.kid 2).kids.mapM (lowerMember g (n.kid 1).isPresent)) :=
    saving_mapM fun m hm => saving_lowerMember hg ((hn.kid 2).kids m hm) _
  have hdecos := saving_lowerDecorators hg hn
  unfold lowerClass
  infer_instance

/-! ## Expressions and patterns -/

instance : Saving f P (lowerLiteral n) := by
  unfold lowerLiteral
  infer_instance

theorem saving_lowerProp (hg : g.Save f P) (hn : Grown f n) {value : Node → LowerM Node}
    (hvalue : Saving f P (value (n.kid 1))) : Saving f P (lowerProp g value n) := by
  have hkey := saving_lowerKey hg hn
  unfold lowerProp
  infer_instance

theorem saving_lowerObjectMember (hg : g.Save f P) (hn : Grown f n) :
    Saving f P (lowerObjectMember g n) := by
  have hprop := saving_lowerProp hg hn (hg.expr (hn.kid 1))
  have hmethod := saving_lowerMethod hg hn false
  have hinner := hg.expr (hn.kid 0)
  have hself := hg.expr hn
  unfold lowerObjectMember
  split <;> infer_instance

theorem saving_lowerObject (hg : g.Save f P) (hn : Grown f n) : Saving f P (lowerObject g n) := by
  have hkids : Saving f P (n.kids.mapM (lowerObjectMember g)) :=
    saving_mapM fun k hk => saving_lowerObjectMember hg (hn.kids k hk)
  unfold lowerObject
  infer_instance

theorem saving_lowerBinary (hg : g.Save f P) (hn : Grown f n) : Saving f P (lowerBinary g n) := by
  have hleft := hg.expr (hn.kid 0)
  have hright := hg.expr (hn.kid 1)
  unfold lowerBinary
  infer_instance

theorem saving_lowerAssignment (hg : g.Save f P) (hn : Grown f n) :
    Saving f P (lowerAssignment g n) := by
  have hpower := saving_lowerPowerAssign hg hn
  have hlogical := saving_lowerLogicalAssign hg hn
  have htarget := hg.pattern true (hn.kid 0)
  have hvalue := hg.expr (hn.kid 1)
  unfold lowerAssignment
  infer_instance

theorem saving_lowerUnary (hg : g.Save f P) (hn : Grown f n) : Saving f P (lowerUnary g n) := by
  have hchain := saving_lowerChain hg (Grown.unparen _ (hn.kid 0)) true
  have hoperand := hg.expr (hn.kid 0)
  unfold lowerUnary
  infer_instance

theorem saving_lowerExpr (hg : g.Save f P) (hn : Grown f n) : Saving f P (lowerExpr g n) := by
  have hinner := hg.expr (hn.kid 0)
  have hkids : Saving f P (n.kids.mapM g.expr) := saving_mapM fun k hk => hg.expr (hn.kids k hk)
  have hobject := saving_lowerObject hg hn
  have hfunction := saving_lowerFunction hg hn
  have harrow := saving_lowerArrow hg hn
  have hclass := saving_lowerClass hg hn
  have hunary := saving_lowerUnary hg hn
  have hupdate := hg.pattern true (hn.kid 0)
  have hbinary := saving_lowerBinary hg hn
  have hassign := saving_lowerAssignment hg hn
  have hchain := saving_lowerChain hg hn false
  have helement := saving_lowerElement hg hn
  have hpattern := hg.pattern true hn
  unfold lowerExpr
  split
  · infer_instance
  · split <;> infer_instance

theorem saving_lowerPatternMember (hg : g.Save f P) (hn : Grown f n) (assigns : Bool) :
    Saving f P (lowerPatternMember g assigns n) := by
  have hinner := hg.pattern assigns (hn.kid 0)
  have hprop := saving_lowerProp hg hn (hg.pattern assigns (hn.kid 1))
  unfold lowerPatternMember
  infer_instance

theorem saving_lowerPattern (hg : g.Save f P) (hn : Grown f n) (assigns : Bool) :
    Saving f P (lowerPattern g assigns n) := by
  have helements : Saving f P (n.kids.mapM (g.pattern assigns)) :=
    saving_mapM fun k hk => hg.pattern assigns (hn.kids k hk)
  have hmembers : Saving f P (n.kids.mapM (lowerPatternMember g assigns)) :=
    saving_mapM fun k hk => saving_lowerPatternMember hg (hn.kids k hk) assigns
  have hinner := hg.pattern assigns (hn.kid 0)
  have hinit := hg.expr (hn.kid 1)
  have hself := hg.expr hn
  unfold lowerPattern
  split
  · infer_instance
  · split
    case h_1 =>
      refine .then fun o => ?_
      split <;> infer_instance
    all_goals infer_instance

/-! ## Enumerations, imports and exports -/

theorem saving_lowerEnumMember (hg : g.Save f P) (hn : Grown f n) (enum : Bytes) (s : EnumState) :
    Saving f P (lowerEnumMember g enum s n) := by
  have hinit := hg.expr (hn.kid 1)
  unfold lowerEnumMember
  split
  · infer_instance
  · dsimp only
    split
    · split <;> infer_instance
    · split <;> infer_instance

theorem saving_enumMembers (hg : g.Save f P) (hn : Grown f n) :
    Saving f P ((n.kids.drop 1).foldlM (lowerEnumMember g (n.kid 0).text) {}) :=
  saving_foldlM (fun m hm s =>
    saving_lowerEnumMember hg (hn.kids m (List.mem_of_mem_drop hm)) _ s) ({} : EnumState)

theorem saving_lowerEnum (hg : g.Save f P) (hn : Grown f n) (hP : P (n.kid 0).text)
    (exported : Bool) : Saving f P (lowerEnum g n exported) := by
  have hmembers := saving_enumMembers hg hn
  have hfill (s : EnumState) (parent : Option Scope) :
      Saving f P (fillObject n.span (n.kid 0) s.body exported parent) := saving_fillObject hP
  unfold lowerEnum
  infer_instance

instance {name : Bytes} : Saving f P (keepsImport name) := by
  unfold keepsImport
  infer_instance

theorem saving_lowerImport (hg : g.Save f P) (hn : Grown f n) : Saving f P (lowerImport g n) := by
  have hattrs := saving_lowerOptional hg (hn.kid 1)
  have hspec (spec : Node) : Saving f P (lowerImportSpec spec) := by
    unfold lowerImportSpec
    infer_instance
  unfold lowerImport
  infer_instance

mutual

theorem saving_lowerEntity (hg : g.Save f P) : ∀ n, Grown f n → Saving f P (lowerEntity g n)
  | .absent, _ => by
    unfold lowerEntity
    infer_instance
  | .mk h ks ds t a x, hn => by
    have hfirst : Saving f P (lowerEntityFirst g ks) := saving_lowerEntityFirst hg ks hn.kids
    have hself := hg.expr hn
    unfold lowerEntity
    split <;> infer_instance

theorem saving_lowerEntityFirst (hg : g.Save f P) :
    ∀ ks, GrownAll f ks → Saving f P (lowerEntityFirst g ks)
  | [], _ => by
    unfold lowerEntityFirst
    infer_instance
  | n :: _, h => by
    unfold lowerEntityFirst
    exact saving_lowerEntity hg n (grownAll_cons.1 h).1

end

theorem saving_lowerAlias (hg : g.Save f P) (hn : Grown f n) (exported : Bool) :
    Saving f P (lowerAlias g n exported) := by
  have hvalue := saving_lowerEntity hg _ (hn.kid 1)
  unfold lowerAlias
  infer_instance

theorem saving_lowerExportNamed (hg : g.Save f P) (hn : Grown f n) :
    Saving f P (lowerExportNamed g n) := by
  have hattrs := saving_lowerOptional hg (hn.kid 1)
  have hspec (reexport : Bool) (spec : Node) : Saving f P (lowerExportSpec reexport spec) := by
    unfold lowerExportSpec
    infer_instance
  unfold lowerExportNamed
  infer_instance

theorem saving_lowerExportAll (hg : g.Save f P) (hn : Grown f n) :
    Saving f P (lowerExportAll g n) := by
  have hattrs := saving_lowerOptional hg (hn.kid 1)
  unfold lowerExportAll
  infer_instance

theorem saving_lowerExportDefault (hg : g.Save f P) (hn : Grown f n) :
    Saving f P (lowerExportDefault g n) := by
  have hfunction := saving_lowerFunction hg (hn.kid 0)
  have hclass := saving_lowerClass hg (hn.kid 0)
  have hvalue := hg.expr (hn.kid 0)
  unfold lowerExportDefault
  dsimp only
  split
  · infer_instance
  · split <;> infer_instance

theorem saving_namespaceBody (hg : g.Save f P) (hn : Grown f n)
    (hP : ∀ x ∈ objectNames n, P x) :
    Saving f P (if n.kind == .namespaceDecl then g.namespaceDecl n true
      else lowerList g n.kids) := by
  have hlist := saving_lowerList hg hn.kids
  split
  · exact hg.namespaceDecl true hn (beq_iff_eq.1 ‹_›) hP
  · infer_instance

theorem saving_lowerNamespace (hg : g.Save f P) (hn : Grown f n) (hk : n.kind = .namespaceDecl)
    (hP : ∀ x ∈ objectNames n, P x) (exported : Bool) :
    Saving f P (lowerNamespace g n exported) := by
  have hbody := saving_namespaceBody hg (hn.kid 1) fun x hx =>
    hP x (objectNames_kid (by rw [hk]; rfl) hx)
  have hfill (body : List Node) (parent : Option Scope) :
      Saving f P (fillObject n.span (n.kid 0) body exported parent) :=
    saving_fillObject (hP _ (objectNames_self (by rw [hk]; rfl)))
  unfold lowerNamespace
  infer_instance

theorem saving_lowerExportedVariable (hg : g.Save f P) (hn : Grown f n) (ns : Scope) :
    Saving f P (lowerExportedVariable g ns n) := by
  have hvalue := hg.expr (hn.kid 1)
  unfold lowerExportedVariable
  infer_instance

/-- What is exported has a place, so its comments are moved to one. -/
theorem start_ne_zero (hn : Grown f n) (hk : n.kind = .exportDecl) (hbase : 0 < f.base) :
    (n.kid 0).span.start ≠ 0 := by
  have hplaced := hn.starts hk
  omega

theorem saving_lowerNamespaceExport (hg : g.Save f P) (hn : Grown f n)
    (hP : ∀ x ∈ objectNames (n.kid 0), P x) (ns : Scope)
    (hstart : 0 < f.base → (n.kid 0).span.start ≠ 0) :
    Saving f P (lowerNamespaceExport g ns n) := by
  have hdecl := hn.kid 0
  have hmove := saving_move (f := f) (P := P) n.span.start hstart
  have hvars : Saving f P ((n.kid 0).kids.mapM (lowerExportedVariable g ns)) :=
    saving_mapM fun d hd => saving_lowerExportedVariable hg (hdecl.kids d hd) ns
  have hstmt := hg.stmt hdecl hP
  have hentity := saving_lowerEntity hg _ (hdecl.kid 1)
  unfold lowerNamespaceExport
  refine .then fun _ => ?_
  split
  case h_4 hk => exact saving_lowerEnum hg hdecl (hP _ (objectNames_self (by rw [hk]; rfl))) true
  case h_5 hk => exact saving_lowerNamespace hg hdecl hk hP true
  all_goals infer_instance

theorem saving_lowerExportDecl (hg : g.Save f P) (hn : Grown f n)
    (hP : ∀ x ∈ objectNames (n.kid 0), P x) (hstart : 0 < f.base → (n.kid 0).span.start ≠ 0) :
    Saving f P (lowerExportDecl g n) := by
  have hdecl := hn.kid 0
  have hinner (ns : Scope) := saving_lowerNamespaceExport hg hn hP ns hstart
  have hmove := saving_move (f := f) (P := P) n.span.start hstart
  have halias := saving_lowerAlias hg hdecl true
  have hstmt := hg.stmt hdecl hP
  unfold lowerExportDecl
  refine .then fun scope => ?_
  split
  · infer_instance
  · dsimp only
    split
    case h_1 hk =>
      have henum := saving_lowerEnum hg hdecl (hP _ (objectNames_self (by rw [hk]; rfl))) true
      infer_instance
    case h_2 hk =>
      have hnamespace := saving_lowerNamespace hg hdecl hk hP true
      infer_instance
    case h_4 =>
      refine .then fun out => ?_
      split <;> infer_instance
    all_goals infer_instance

/-! ## Statements -/

theorem saving_lowerVariables (hg : g.Save f P) (hn : Grown f n) :
    Saving f P (lowerVariables g n) := by
  have hdecls : Saving f P (n.kids.mapM fun d => do
      let binding ← g.pattern false (d.kid 0)
      let init ← lowerOptional g (d.kid 1)
      return like d [binding, init]) := by
    refine saving_mapM fun d hd => ?_
    have hbinding := hg.pattern false ((hn.kids d hd).kid 0)
    have hinit := saving_lowerOptional hg ((hn.kids d hd).kid 1)
    infer_instance
  unfold lowerVariables
  infer_instance

theorem saving_lowerSingle (hg : g.Save f P) (hn : Grown f n) (hP : ∀ x ∈ objectNames n, P x) :
    Saving f P (lowerSingle g n) := by
  have hstmt := hg.stmt hn hP
  unfold lowerSingle
  split
  · infer_instance
  · refine .then fun out => ?_
    split <;> infer_instance

theorem saving_lowerLoopHead (hg : g.Save f P) (hn : Grown f n) {other : LowerM Node}
    (hother : Saving f P other) : Saving f P (lowerLoopHead g n other) := by
  have hvars := saving_lowerVariables hg hn
  unfold lowerLoopHead
  infer_instance

theorem saving_lowerCase (hg : g.Save f P) (hn : Grown f n) : Saving f P (lowerCase g n) := by
  have htest := saving_lowerOptional hg (hn.kid 0)
  have hlist := saving_lowerList hg fun k hk => hn.kids k (List.mem_of_mem_drop (i := 1) hk)
  unfold lowerCase
  infer_instance

mutual

theorem saving_lowerSimple (hg : g.Save f P) :
    ∀ n, Grown f n → (∀ x ∈ objectNames n, P x) → Saving f P (lowerSimple g n)
  | .absent, _, _ => by
    unfold lowerSimple
    infer_instance
  | .mk h ks ds t a x, hn, hP => by
    have hkid (i : Nat) := hn.kid i
    have hexpr (i : Nat) := hg.expr (hkid i)
    have hoptional (i : Nat) := saving_lowerOptional hg (hkid i)
    have hblock := saving_lowerList hg hn.kids
    have hfor := saving_lowerLoopHead hg (hkid 0) (hoptional 0)
    have heach := saving_lowerLoopHead hg (hkid 0) (hg.pattern true (hkid 0))
    have hcases : Saving f P (((Node.mk h ks ds t a x).kids.drop 1).mapM (lowerCase g)) :=
      saving_mapM fun k hk => saving_lowerCase hg (hn.kids k (List.mem_of_mem_drop hk))
    have hnames (hk : nests h.kind = true) : ∀ y ∈ objectNamesAll ks, P y :=
      fun y hy => hP y (objectNames_kids hk hy)
    have hsingle (hk : nests h.kind = true) (i : Nat) :
        Saving f P (lowerSingle g ((Node.mk h ks ds t a x).kid i)) :=
      saving_lowerSingle hg (hkid i) fun y hy => hP y (objectNames_kid hk hy)
    unfold lowerSimple
    dsimp only
    split
    case h_2 =>
      unfold lowerBlock
      infer_instance
    case h_5 hk | h_6 hk | h_7 hk | h_8 hk | h_9 hk | h_10 hk | h_17 hk =>
      have hbody := hsingle (by rw [hk]; rfl)
      infer_instance
    case h_15 hk =>
      have hat (i : Nat) : Saving f P (lowerSimpleAt g i ks) :=
        saving_lowerSimpleAt hg i ks hn.kids (hnames (by rw [hk]; rfl))
      have hhandler : Saving f P (lowerHandlerAt g 1 ks) :=
        saving_lowerHandlerAt hg 1 ks hn.kids (hnames (by rw [hk]; rfl)) (hn.tidy.handler hk)
      infer_instance
    all_goals infer_instance

theorem saving_lowerSimpleAt (hg : g.Save f P) :
    ∀ i ks, GrownAll f ks → (∀ x ∈ objectNamesAll ks, P x) →
      Saving f P (lowerSimpleAt g i ks)
  | i, [], _, _ => by
    cases i <;> (unfold lowerSimpleAt; infer_instance)
  | 0, n :: _, h, hP => by
    unfold lowerSimpleAt
    exact saving_lowerSimple hg n (grownAll_cons.1 h).1 fun x hx => hP x (List.mem_append_left _ hx)
  | i + 1, _ :: r, h, hP => by
    unfold lowerSimpleAt
    exact saving_lowerSimpleAt hg i r (grownAll_cons.1 h).2 fun x hx =>
      hP x (List.mem_append_right _ hx)

theorem saving_lowerHandlerAt (hg : g.Save f P) :
    ∀ i ks, GrownAll f ks → (∀ x ∈ objectNamesAll ks, P x) →
      ((ks.getD i .absent).isPresent = true → (ks.getD i .absent).kind = .catchClause) →
      Saving f P (lowerHandlerAt g i ks)
  | i, [], _, _, _ => by
    cases i <;> (unfold lowerHandlerAt; infer_instance)
  | i + 1, _ :: r, h, hP, hk => by
    unfold lowerHandlerAt
    exact saving_lowerHandlerAt hg i r (grownAll_cons.1 h).2
      (fun x hx => hP x (List.mem_append_right _ hx)) hk
  | 0, .absent :: _, _, _, _ => by
    unfold lowerHandlerAt
    infer_instance
  | 0, .mk head ks ds t a x :: _, h, hP, hk => by
    have hn := (grownAll_cons.1 h).1
    have hparam := hg.pattern false (hn.kid 0)
    have hcatch : nests head.kind = true := by
      rw [show head.kind = .catchClause from hk rfl]
      rfl
    have hbody : Saving f P (lowerSimpleAt g 1 ks) :=
      saving_lowerSimpleAt hg 1 ks hn.kids fun y hy =>
        hP y (List.mem_append_left _ (objectNames_kids hcatch hy))
    unfold lowerHandlerAt
    infer_instance

end

instance {test : Node} : Saving f P (isStripped test) := by
  unfold isStripped
  infer_instance

theorem saving_lowerIf (hg : g.Save f P) (hn : Grown f n) (hk : n.kind = .ifStmt)
    (hP : ∀ x ∈ objectNames n, P x) : Saving f P (lowerIf g n) := by
  have hnames (i : Nat) (x : Bytes) (hx : x ∈ objectNames (n.kid i)) : P x :=
    hP x (objectNames_kid (by rw [hk]; rfl) hx)
  have htest := hg.expr (hn.kid 0)
  have helse := hg.stmt (hn.kid 2) (hnames 2)
  have hsingle (i : Nat) := saving_lowerSingle hg (hn.kid i) (hnames i)
  unfold lowerIf
  infer_instance

theorem saving_lowerStmt (hg : g.Save f P) (hn : Grown f n)
    (hP : ∀ x ∈ objectNames n, P x) : Saving f P (lowerStmt g n) := by
  have hvars := saving_lowerVariables hg hn
  have hfunction := saving_lowerFunction hg hn
  have hclass := saving_lowerClass hg hn
  have himport := saving_lowerImport hg hn
  have halias := saving_lowerAlias hg hn false
  have hnamed := saving_lowerExportNamed hg hn
  have hall := saving_lowerExportAll hg hn
  have hdefault := saving_lowerExportDefault hg hn
  have hsimple := saving_lowerSimple hg n hn hP
  unfold lowerStmt
  split
  case h_8 hk => exact saving_lowerEnum hg hn (hP _ (objectNames_self (by rw [hk]; rfl))) false
  case h_9 hk => exact saving_lowerNamespace hg hn hk hP false
  case h_14 hk =>
    refine saving_lowerExportDecl hg hn (fun x hx => hP x ?_) (start_ne_zero hn hk)
    exact objectNames_kid (by rw [hk]; rfl) hx
  case h_17 hk => exact saving_lowerIf hg hn hk hP
  all_goals infer_instance

/-! ## Programs -/

/-- The rules, however deep they are tied together. -/
theorem rules_save : ∀ depth P, (rules depth).Save f P
  | 0, P => by
    have hnone {P : Bytes → Prop} {α : Type} {a : α} (n : Node) :
        Saving f P (do exhausted n; return a) := by
      unfold exhausted
      infer_instance
    exact ⟨fun _ => hnone _, fun _ _ _ => hnone _, fun _ _ => hnone _, fun _ _ _ _ => hnone _,
      fun _ => hnone _⟩
  | depth + 1, P => by
    have hg := rules_save depth P
    exact
      { expr := fun hn => saving_lowerExpr hg hn
        pattern := fun assigns _ hn => saving_lowerPattern hg hn assigns
        stmt := fun hn hP => saving_lowerStmt hg hn hP
        namespaceDecl := fun exported hn hk hP => saving_lowerNamespace hg hn hk hP exported
        inner := fun hn => saving_lowerStmt (rules_save depth _) hn fun _ _ => trivial }

theorem saving_lowerProgram {root : Node} (hroot : Grown f root) (depth : Nat) :
    Saving f (fun _ => True) (lowerProgram (rules depth) root) := by
  have hlist : Saving f (fun _ => True) (lowerList (rules depth) root.kids) :=
    saving_lowerList (rules_save depth _) hroot.kids
  have hspecs (hs : List Helper) : Saving f (fun _ => True) (importSpecs hs) := by
    unfold importSpecs
    infer_instance
  have himports (stmts : List Node) :
      Saving f (fun _ => True) (withHelperImports stmts) := by
    unfold withHelperImports
    infer_instance
  unfold lowerProgram
  infer_instance

/-- Behind lowering the table of a file holds its legal comments, each as often as before. -/
theorem lowerTree_saves {file : SourceFile} {root : Node} (comments : CommentTable)
    (supply : NameSupply) (o : Settings) (hbase : 0 < file.base) (hroot : Grown file root)
    (hk : root.kind = .program) (hcomments : comments.leading.Keyed) :
    comments.Saves (lowerTree file root comments supply o).comments := by
  unfold lowerTree
  rw [if_neg (by simp [hk])]
  split
  · exact .refl hcomments
  unfold lowerWhole
  generalize applyPragmas o.elements.resolved comments.all = applied
  obtain ⟨elements, warnings⟩ := applied
  dsimp -zeta only
  extract_lets context
  have hsaves := (saving_lowerProgram hroot (depthFor root)).saves hbase context
    { supply := supply, comments := comments, reports := warnings } hcomments
  split
  rename_i tree s hrun
  have hcomments : s.comments = _ := congrArg (fun r => r.2.comments) hrun.symm
  dsimp only
  split
  · exact hcomments ▸ hsaves
  · exact hcomments ▸ hsaves

end

end ScriptLower.Lower
