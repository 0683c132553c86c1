import ScriptLower.Proofs.Source.Endings
import Mathlib.Data.List.Nodup

/-!
# Outputs of a build

A build writes the script of each source below the directory of outputs, and its map beside it. What
it finds below the directory of sources are paths of names that end like sources, so the place of a
script is that of its name, and two scripts have one place exactly when their names are the same.
Maps end in another letter than scripts do. So no two files that a build writes are the same exactly
when no two of its sources are siblings.
-/

namespace ScriptLower

open ScriptLower.Path (slash)

/-- All elements of the paths in a tree are names. -/
def FileTree.Named (t : FileTree) : Prop := ∀ e ∈ t.entries, ∀ n ∈ e.1, Path.IsName n

instance (t : FileTree) : Decidable t.Named :=
  inferInstanceAs (Decidable (∀ e ∈ t.entries, ∀ n ∈ e.1, _))

namespace Build

/-! ## Reading a tree -/

/-- On a tree nothing is changed, and what is found has a property. -/
def Finds {ε α : Type} (t : FileTree) (x : ExceptT ε (StateM FileTree) α) (P : α → Prop) : Prop :=
  ∃ e, StateT.run x.run t = (e, t) ∧ ∀ a, e = .ok a → P a

namespace Finds

variable {ε α β : Type} {t : FileTree} {P : α → Prop} {Q : β → Prop}

theorem pure {a : α} (h : P a) : Finds t (Pure.pure a : ExceptT ε (StateM FileTree) α) P :=
  ⟨.ok a, rfl, fun b hb => by cases hb; exact h⟩

theorem throw (f : ε) : Finds t (MonadExcept.throw f : ExceptT ε (StateM FileTree) α) P :=
  ⟨.error f, rfl, fun b hb => by cases hb⟩

theorem bind {x : ExceptT ε (StateM FileTree) α} {f : α → ExceptT ε (StateM FileTree) β}
    (hx : Finds t x P) (hf : ∀ a, P a → Finds t (f a) Q) : Finds t (x >>= f) Q := by
  obtain ⟨e, hrun, he⟩ := hx
  rw [Finds, ExceptT.run_bind, StateT.run_bind, hrun]
  cases e with
  | error e => exact ⟨.error e, rfl, fun b hb => by cases hb⟩
  | ok a => exact hf a (he a rfl)

theorem mono {x : ExceptT ε (StateM FileTree) α} {R : α → Prop} (hx : Finds t x P)
    (h : ∀ a, P a → R a) : Finds t x R := by
  obtain ⟨e, hrun, he⟩ := hx
  exact ⟨e, hrun, fun a ha => h a (he a ha)⟩

theorem adapt {ε' : Type} {x : ExceptT ε (StateM FileTree) α} (f : ε → ε') (hx : Finds t x P) :
    Finds t (x.adapt f) P := by
  obtain ⟨e, hrun, he⟩ := hx
  refine ⟨e.mapError f, ?_, fun a ha => ?_⟩
  · show StateT.run (Except.mapError f <$> x.run) t = _
    rw [StateT.run_map, hrun]
    rfl
  · cases e with
    | error e => cases ha
    | ok b =>
      obtain rfl : b = a := Except.ok.inj ha
      exact he b rfl

theorem foldlM {γ : Type} {l : List γ} {f : β → γ → ExceptT ε (StateM FileTree) β} {b : β}
    (hb : Q b) (hf : ∀ b, Q b → ∀ c ∈ l, Finds t (f b c) Q) : Finds t (l.foldlM f b) Q := by
  induction l generalizing b with
  | nil => exact .pure hb
  | cons c l ih =>
    rw [List.foldlM_cons]
    exact (hf b hb c List.mem_cons_self).bind fun b' hb' =>
      ih hb' fun b hb c hc => hf b hb c (List.mem_cons_of_mem _ hc)

theorem named {a p : Bytes} {x : StateM FileTree (Except Disk.Reason α)} {e : Except Disk.Reason α}
    (hx : StateT.run x t = (e, t)) (h : ∀ v, e = .ok v → P v) : Finds t (Disk.named a p x) P := by
  cases e with
  | error r =>
    refine ⟨.error ⟨a, p, r⟩, ?_, fun b hb => by cases hb⟩
    rw [Disk.named, ExceptT.run_mk, StateT.run_bind, hx]
    rfl
  | ok v =>
    refine ⟨.ok v, ?_, fun b hb => by cases hb; exact h _ rfl⟩
    rw [Disk.named, ExceptT.run_mk, StateT.run_bind, hx]
    rfl

end Finds

variable {t : FileTree} {dir p q : Bytes}

/-- The names in a directory are names. -/
theorem names_of_list (ht : t.Named) {names : List Bytes} (h : t.list dir = .ok names) :
    ∀ n ∈ names, Path.IsName n := by
  unfold FileTree.list at h
  cases hplace : t.locate dir with
  | error r => simp [hplace, bind, Except.bind] at h
  | ok place =>
    simp only [hplace, bind, Except.bind] at h
    split at h
    · cases h
    · cases h
    · obtain rfl := Except.ok.inj h
      intro n hn
      obtain ⟨⟨p, e⟩, hmem, hp⟩ := List.mem_filterMap.1 (List.mem_mergeSort.1 hn)
      dsimp only at hp
      split at hp
      · exact ht _ hmem n (List.mem_of_getLast? hp)
      · cases hp

/-- A path that leads to a place below a directory. -/
def Below (dir p : Bytes) : Prop :=
  ∃ ns, ns ≠ [] ∧ (∀ n ∈ ns, Path.IsName n) ∧
    p = Path.ofElements (Path.isAbsolute dir) (Path.elements dir ++ ns)

theorem below_join {n : Bytes} (h : Path.IsName n) : Below dir (Path.join [dir, n]) :=
  ⟨[n], List.cons_ne_nil _ _, by simpa using h, Path.join_name dir h⟩

theorem Below.trans (h : Below dir p) (h' : Below p q) : Below dir q := by
  obtain ⟨ns, hne, hns, rfl⟩ := h
  obtain ⟨ms, -, hms, rfl⟩ := h'
  have hn := (Path.elements_normal dir).append hns
  refine ⟨ns ++ ms, by simp [hne], fun n hn => (List.mem_append.1 hn).elim (hns n) (hms n), ?_⟩
  rw [Path.isAbsolute_ofElements hn, Path.elements_ofElements hn, List.append_assoc]

/-- A walk finds what stands below the directory it begins at. -/
theorem walk_below (ht : t.Named) (depth : Nat) (dir : Bytes) :
    Finds t (walk depth dir) fun found => ∀ p ∈ found, Below dir p := by
  induction depth generalizing dir with
  | zero => exact .pure fun p hp => absurd hp List.not_mem_nil
  | succ depth ih =>
    refine (Finds.named (P := fun names => ∀ n ∈ names, Path.IsName n) rfl
      fun names => names_of_list ht).bind fun names hnames => ?_
    refine .foldlM (fun p hp => absurd hp List.not_mem_nil) fun found hfound n hn => ?_
    have hpath : Below dir (Path.join [dir, n]) := below_join (hnames n hn)
    refine (Finds.named (P := fun _ => True) rfl fun _ _ => trivial).bind fun kind _ => ?_
    cases kind with
    | file =>
      exact .pure (List.forall_mem_append.2 ⟨hfound, List.forall_mem_singleton.2 hpath⟩)
    | directory =>
      dsimp only
      split
      · exact .pure hfound
      · refine (ih _).bind fun inner hinner => .pure fun p hp => ?_
        exact (List.mem_append.1 hp).elim (hfound p) fun hp => hpath.trans (hinner p hp)

/-! ## Directories with files alone -/

/-- On a tree nothing is changed, and a value is found. -/
def Reads {ε α : Type} (t : FileTree) (x : ExceptT ε (StateM FileTree) α) (a : α) : Prop :=
  StateT.run x.run t = (.ok a, t)

theorem Reads.bind {ε α β : Type} {x : ExceptT ε (StateM FileTree) α}
    {f : α → ExceptT ε (StateM FileTree) β} {a : α} {b : β} (hx : Reads t x a)
    (hf : Reads t (f a) b) : Reads t (x >>= f) b := by
  rw [Reads, ExceptT.run_bind, StateT.run_bind, hx]
  exact hf

theorem Reads.named {α : Type} {a p : Bytes} {x : StateM FileTree (Except Disk.Reason α)} {v : α}
    (h : StateT.run x t = (.ok v, t)) : Reads t (Disk.named a p x) v := by
  rw [Reads, Disk.named, ExceptT.run_mk, StateT.run_bind, h]
  rfl

theorem Reads.adapt {ε ε' α : Type} {x : ExceptT ε (StateM FileTree) α} {a : α} (f : ε → ε')
    (h : Reads t x a) : Reads t (x.adapt f) a := by
  show StateT.run (Except.mapError f <$> x.run) t = _
  rw [StateT.run_map, h]
  rfl

/-- A walk along names that puts one path behind the other. -/
theorem Reads.foldlM {ε : Type} {names : List Bytes} {path : Bytes → Bytes}
    {step : List Bytes → Bytes → ExceptT ε (StateM FileTree) (List Bytes)}
    (hstep : ∀ found, ∀ n ∈ names, Reads t (step found n) (found ++ [path n]))
    (found : List Bytes) :
    Reads t (names.foldlM step found) (found ++ names.map path) := by
  induction names generalizing found with
  | nil =>
    rw [List.map_nil, List.append_nil]
    rfl
  | cons n names ih =>
    rw [List.foldlM_cons, List.map_cons, List.append_cons]
    exact (hstep found n List.mem_cons_self).bind
      (ih (fun found m hm => hstep found m (List.mem_cons_of_mem _ hm)) _)

/-- A walk of a directory with files alone finds them in the order of their names. -/
theorem reads_walk_flat {names : List Bytes} (depth : Nat) (hlist : t.list dir = .ok names)
    (hfiles : ∀ n ∈ names, t.kindOf (Path.join [dir, n]) = .ok .file) :
    Reads t (walk (depth + 1) dir) (names.map fun n => Path.join [dir, n]) := by
  have hnames : StateT.run (Disk.list dir : StateM FileTree _) t = (.ok names, t) :=
    congrArg (·, t) hlist
  refine (Reads.named hnames).bind (Reads.foldlM (fun found n hn => ?_) [])
  have hkind : StateT.run (Disk.kindOf (Path.join [dir, n]) : StateM FileTree _) t =
      (.ok .file, t) := congrArg (·, t) (hfiles n hn)
  exact (Reads.named hkind).bind rfl

/-- A directory whose entries stand in order is listed as it stands. -/
theorem list_of_sorted (place : List Bytes) {names : List Bytes} (hplace : t.locate dir = .ok place)
    (hdir : t.find? place = some .directory)
    (hnames : (t.entries.filterMap fun (p, _) =>
      if p.length == place.length + 1 && place.isPrefixOf p then p.getLast? else none) = names)
    (hsorted : names.Pairwise fun a b => Bytes.le a b = true) : t.list dir = .ok names := by
  simp only [FileTree.list, hplace, bind, Except.bind, hdir, hnames,
    List.mergeSort_of_pairwise hsorted]

/-! ## Sources that are found -/

/-- The names of a path stand at its end, behind a slash or alone. -/
theorem ofElements_append (rooted : Bool) (es : List Bytes) {ns : List Bytes} (hne : ns ≠ []) :
    Path.ofElements rooted (es ++ ns) = Bytes.join [slash] ns ∨
      ∃ s, Path.ofElements rooted (es ++ ns) = s ++ slash :: Bytes.join [slash] ns := by
  have hjoin : Bytes.join [slash] (es ++ ns) = Bytes.join [slash] ns ∨
      ∃ s, Bytes.join [slash] (es ++ ns) = s ++ slash :: Bytes.join [slash] ns := by
    induction es with
    | nil => exact .inl rfl
    | cons e es ih =>
      rw [List.cons_append, Path.join_cons _ _ (by simp [hne])]
      rcases ih with ih | ⟨s, ih⟩ <;> rw [ih]
      · exact .inr ⟨e, by simp⟩
      · exact .inr ⟨e ++ [slash] ++ s, by simp⟩
  unfold Path.ofElements
  cases rooted with
  | true =>
    rcases hjoin with h | ⟨s, h⟩
    · exact .inr ⟨[], congrArg (slash :: ·) h⟩
    · exact .inr ⟨slash :: s, congrArg (slash :: ·) h⟩
  | false =>
    rw [List.isEmpty_eq_false_iff.2 (by simp [hne])]
    exact hjoin

/-- What stands behind a slash has the ending. -/
theorem ext_append_slash (s t : Bytes) : Path.ext (s ++ slash :: t) = Path.ext t := by
  have hlast :
      (s ++ slash :: t).reverse.takeWhile (· != slash) = t.reverse.takeWhile (· != slash) := by
    rw [List.reverse_append, List.reverse_cons, List.append_assoc, List.singleton_append,
      List.takeWhile_append]
    split
    · rename_i h
      rw [List.takeWhile_cons_of_neg (by simp), List.append_nil]
      exact ((List.takeWhile_prefix _).eq_of_length h).symm
    · rfl
  rw [Path.ext, Path.ext, hlast]

theorem isSource_of_append_slash {s t : Bytes} (h : isSource (s ++ slash :: t) = true) :
    isSource t = true := by
  unfold isSource at h ⊢
  rw [ext_append_slash, Bool.and_eq_true, Bool.not_eq_true', List.any_eq_false] at h
  rw [Bool.and_eq_true, Bool.not_eq_true', List.any_eq_false]
  refine ⟨fun d hd hsuffix => h.1 d hd ?_, h.2⟩
  rw [List.isSuffixOf_iff_suffix] at hsuffix ⊢
  exact hsuffix.trans ⟨s ++ [slash], by simp⟩

/-- A source of a build: a path of names that ends like a source. -/
structure IsSourcePath (rel : Bytes) : Prop where
  /-- It ends like a source. -/
  source : isSource rel = true
  /-- It is made of names. -/
  names : Dialect.MadeOfNames rel

/-- The way to a source below a directory. -/
theorem Below.isSourcePath {rel : Bytes} (h : Below dir p) (hsource : isSource p = true)
    (hrel : Path.relative? dir p = some rel) : IsSourcePath rel := by
  obtain ⟨ns, hne, hns, rfl⟩ := h
  rw [Path.relative?_names dir hns, Option.some.injEq] at hrel
  have hjoin : rel = Bytes.join [slash] ns := by
    rw [← hrel, Path.ofElements, if_neg Bool.false_ne_true, if_neg (by simpa using hne)]
  rw [hjoin]
  refine ⟨?_, ?_⟩
  · rcases ofElements_append (Path.isAbsolute dir) (Path.elements dir) hne with h | ⟨s, h⟩
    · rwa [← h]
    · rw [h] at hsource
      exact isSource_of_append_slash hsource
  · unfold Dialect.MadeOfNames
    rwa [Path.splitOn_join (fun n hn => (hns n hn).slash) hne]

/-- What a build finds are sources, or it is asked for a single file. -/
theorem discover_sources (ht : t.Named) {r : Request} (hr : r.files = []) :
    Finds t (discover r) fun files => (∀ rel ∈ files, IsSourcePath rel) ∨ files.length ≤ 1 := by
  unfold discover
  split
  · exact .throw _
  rw [hr]
  refine Finds.bind (P := fun paths => (∀ p ∈ paths, Below r.srcDir p) ∨ paths.length ≤ 1) ?_
    fun paths hpaths => .pure ?_
  · refine .adapt _ ?_
    unfold allFiles
    refine (Finds.named (P := fun _ => True) rfl fun _ _ => trivial).bind fun kind _ => ?_
    cases kind with
    | file => exact .pure (.inr (by simp))
    | directory => exact (walk_below ht _ _).mono fun _ => .inl
  · rcases hpaths with hpaths | hlength
    · refine .inl fun rel hrel => ?_
      obtain ⟨hrel, -⟩ := List.mem_filter.1 (List.mem_mergeSort.1 hrel)
      obtain ⟨p, hp, hrel⟩ := List.mem_filterMap.1 hrel
      obtain ⟨hp, hsource⟩ := List.mem_filter.1 hp
      exact (hpaths p hp).isSourcePath hsource hrel
    · refine .inr ?_
      rw [List.length_mergeSort]
      exact (List.length_filter_le _ _).trans
        ((List.length_filterMap_le _ _).trans ((List.length_filter_le _ _).trans hlength))

/-! ## Runs -/

/-- From a log and a tree, the work ends in a value, a log and a tree. -/
def Ran {α : Type} (x : Work (StateM FileTree) α) (s : Log × FileTree) (a : α)
    (s' : Log × FileTree) :
    Prop :=
  StateT.run (StateT.run x.run s.1) s.2 = ((.ok a, s'.1), s'.2)

namespace Ran

variable {α β : Type} {s s' : Log × FileTree} {a : α} {b : β}

theorem bind_inv {x : Work (StateM FileTree) α} {f : α → Work (StateM FileTree) β}
    (h : Ran (x >>= f) s b s') : ∃ a s₁, Ran x s a s₁ ∧ Ran (f a) s₁ b s' := by
  unfold Ran at h
  rw [ExceptT.run_bind, StateT.run_bind, StateT.run_bind] at h
  rcases hx : StateT.run (StateT.run x.run s.1) s.2 with ⟨⟨e, l⟩, t⟩
  rw [hx] at h
  cases e with
  | error e => cases h
  | ok a => exact ⟨a, (l, t), hx, h⟩

theorem pure_inv {a' : α} (h : Ran (pure a') s a s') : a = a' ∧ s' = s := by
  obtain ⟨l, t⟩ := s
  obtain ⟨l', t'⟩ := s'
  cases h
  exact ⟨rfl, rfl⟩

theorem throw_inv {f : Fault} (h : Ran (throw f : Work (StateM FileTree) α) s a s') : False := by
  cases h

theorem tryCatch_inv {x : Work (StateM FileTree) α} {f : Fault → Work (StateM FileTree) α}
    (h : Ran (tryCatch x f) s a s') : Ran x s a s' ∨ ∃ e s₁, Ran (f e) s₁ a s' := by
  unfold Ran at h ⊢
  rw [ExceptT.run_tryCatch, StateT.run_bind, StateT.run_bind] at h
  rcases hx : StateT.run (StateT.run x.run s.1) s.2 with ⟨⟨e, l⟩, t⟩
  rw [hx] at h
  cases e with
  | error e => exact .inr ⟨e, (l, t), h⟩
  | ok b => exact .inl h

theorem onDisk_inv {ε : Type} {x : ExceptT ε (StateM FileTree) α} {e : Except ε α}
    (h : Ran (onDisk x) s e s') : StateT.run x.run s.2 = (e, s'.2) := by
  obtain ⟨l, t⟩ := s
  obtain ⟨l', t'⟩ := s'
  cases h
  rfl

theorem tell_inv {e : Event} {u : Unit} (h : Ran (tell e) s u s') : s'.2 = s.2 := by
  obtain ⟨l, t⟩ := s
  obtain ⟨l', t'⟩ := s'
  cases h
  rfl

theorem now_inv {n : Int} (h : Ran now s n s') : s'.2 = s.2 := by
  obtain ⟨l, t⟩ := s
  obtain ⟨l', t'⟩ := s'
  cases h
  rfl

end Ran

variable {r : Request} {st : Settings} {s s' : Log × FileTree}

/-- The files that a build finds in a tree. -/
def Discovers (r : Request) (t : FileTree) (files : List Bytes) : Prop :=
  ∃ t', StateT.run (discover r : ExceptT DiscoverFault (StateM FileTree) (List Bytes)).run t =
    (.ok files, t')

/-- In a directory with files alone a build finds those that are sources. -/
theorem discovers_flat {names rels : List Bytes} (hdir : Path.clean r.srcDir ≠ Path.clean r.outDir)
    (hkind : t.kindOf r.srcDir = .ok .directory) (hlist : t.list r.srcDir = .ok names)
    (hfiles : ∀ n ∈ names, t.kindOf (Path.join [r.srcDir, n]) = .ok .file)
    (hrels : ((((names.map fun n => Path.join [r.srcDir, n]).filter isSource).filterMap
      (Path.relative? r.srcDir)).filter fun rel => !isEarlierOutput r rel && !r.excludes rel) =
        rels)
    (hsorted : rels.Pairwise fun a b => Bytes.le a b = true) :
    Discovers { r with files := [] } t rels := by
  have hstat : StateT.run (Disk.kindOf r.srcDir : StateM FileTree _) t = (.ok .directory, t) :=
    congrArg (·, t) hkind
  have hall : Reads t (allFiles r.srcDir) (names.map fun n => Path.join [r.srcDir, n]) :=
    (Reads.named hstat).bind (reads_walk_flat 4095 hlist hfiles)
  refine ⟨t, ?_⟩
  unfold discover
  rw [if_neg (by simpa using hdir), if_neg (by simp)]
  refine (hall.adapt DiscoverFault.disk).bind ?_
  show Reads t (pure (List.mergeSort _ Bytes.le)) rels
  rw [← List.mergeSort_of_pairwise hsorted, ← hrels]
  rfl

/-- A build finds its files in the tree it begins with. -/
theorem findFiles_discovers {files : List Bytes} (h : Ran (findFiles r) s files s') :
    Discovers r s.2 files := by
  unfold findFiles at h
  obtain ⟨_, s₁, hnow, h⟩ := h.bind_inv
  obtain ⟨_, s₂, htell, h⟩ := h.bind_inv
  obtain ⟨e, s₃, hfound, h⟩ := h.bind_inv
  obtain ⟨_, s₄, -, h⟩ := h.bind_inv
  obtain ⟨_, s₅, -, h⟩ := h.bind_inv
  have htree : s₂.2 = s.2 := htell.tell_inv.trans hnow.now_inv
  cases e with
  | error f =>
    obtain ⟨_, _, -, h⟩ := h.bind_inv
    exact h.throw_inv.elim
  | ok found =>
    obtain ⟨_, _, -, h⟩ := h.bind_inv
    obtain ⟨rfl, -⟩ := h.pure_inv
    exact ⟨_, htree ▸ hfound.onDisk_inv⟩

/-- The script of a source stands where the path of the source says. -/
def Stands (r : Request) (f : BuiltFile) : Prop :=
  f.output.isOk = true → f.outPath = outputPath r.outDir f.rel

theorem buildFile_stands {rel : Bytes} {f : BuiltFile} (h : Ran (buildFile r st rel) s f s') :
    f.rel = rel ∧ Stands r f := by
  unfold buildFile at h
  obtain ⟨_, _, -, h⟩ := h.bind_inv
  obtain ⟨_, _, -, h⟩ := h.bind_inv
  obtain ⟨ran, _, -, h⟩ := h.bind_inv
  obtain ⟨_, _, -, h⟩ := h.bind_inv
  obtain ⟨_, _, -, h⟩ := h.bind_inv
  cases ran with
  | error e =>
    obtain ⟨_, _, -, h⟩ := h.bind_inv
    exact h.throw_inv.elim
  | ok out =>
    dsimp only at h
    split at h
    · rename_i failure hfailure
      obtain ⟨_, _, -, h⟩ := h.bind_inv
      obtain ⟨rfl, -⟩ := h.pure_inv
      exact ⟨rfl, fun hok => by simp [FileOutput.isOk, hfailure] at hok⟩
    · obtain ⟨_, _, -, h⟩ := h.bind_inv
      obtain ⟨wrote, _, -, h⟩ := h.bind_inv
      obtain ⟨_, _, -, h⟩ := h.bind_inv
      obtain ⟨_, _, -, h⟩ := h.bind_inv
      cases wrote with
      | error e =>
        obtain ⟨_, _, -, h⟩ := h.bind_inv
        exact h.throw_inv.elim
      | ok u =>
        obtain ⟨_, _, -, h⟩ := h.bind_inv
        obtain ⟨rfl, -⟩ := h.pure_inv
        exact ⟨rfl, fun _ => rfl⟩

theorem buildFiles_stands {rels : List Bytes} {fs : List BuiltFile}
    (h : Ran (buildFiles r st rels) s fs s') : fs.map (·.rel) = rels ∧ ∀ f ∈ fs, Stands r f := by
  induction rels generalizing s s' fs with
  | nil =>
    obtain ⟨rfl, -⟩ := h.pure_inv
    exact ⟨rfl, fun f hf => absurd hf List.not_mem_nil⟩
  | cons rel rels ih =>
    obtain ⟨f, _, hf, h⟩ := Ran.bind_inv h
    obtain ⟨fs', _, hfs, h⟩ := Ran.bind_inv h
    obtain ⟨rfl, -⟩ := h.pure_inv
    obtain ⟨rfl, hstands⟩ := buildFile_stands hf
    obtain ⟨rfl, hall⟩ := ih hfs
    exact ⟨rfl, List.forall_mem_cons.2 ⟨hstands, hall⟩⟩

/-- A build that ends has built what it found. -/
theorem work_built {res : Result} (h : Ran (work r st) s res s') :
    Discovers r s.2 (res.files.map (·.rel)) ∧ ∀ f ∈ res.files, Stands r f := by
  unfold work at h
  obtain ⟨files, _, hfiles, h⟩ := h.bind_inv
  have hdiscovers := findFiles_discovers hfiles
  obtain ⟨_, _, -, h⟩ := h.bind_inv
  obtain ⟨_, _, -, h⟩ := h.bind_inv
  obtain ⟨_, _, -, h⟩ := h.bind_inv
  obtain ⟨built, _, hbuilt, h⟩ := h.bind_inv
  obtain ⟨_, _, -, h⟩ := h.bind_inv
  obtain ⟨_, _, -, h⟩ := h.bind_inv
  obtain ⟨_, _, -, h⟩ := h.bind_inv
  obtain ⟨rfl, -⟩ := h.pure_inv
  rcases hbuilt.tryCatch_inv with hbuilt | ⟨f, _, hthrow⟩
  · obtain ⟨rfl, hstands⟩ := buildFiles_stands hbuilt
    exact ⟨hdiscovers, hstands⟩
  · obtain ⟨_, _, -, hthrow⟩ := hthrow.bind_inv
    exact hthrow.throw_inv.elim

/-! ## Places of scripts -/

section

variable {a b outDir : Bytes}

/-- A script stands below the directory of outputs, under its name. -/
theorem outputPath_eq (h : IsSourcePath a) (hp : IsPlain a) :
    outputPath outDir a = Path.ofElements (Path.isAbsolute outDir)
      (Path.elements outDir ++ Bytes.splitOn slash (Dialect.outputName a)) := by
  have hne := Path.splitOn_ne_nil (Dialect.outputName a)
  conv_lhs => rw [outputPath, ← Path.join_splitOn (Dialect.outputName a)]
  exact Path.join_names outDir (Dialect.madeOfNames_outputName hp h.source h.names) hne

/-- Two sources have their scripts in one place exactly when they are siblings. -/
theorem outputPath_eq_iff (ha : IsSourcePath a) (hb : IsSourcePath b) (hpa : IsPlain a)
    (hpb : IsPlain b) :
    outputPath outDir a = outputPath outDir b ↔ a = b ∨ Dialect.Siblings a b := by
  have hnormal (c : Bytes) (h : IsSourcePath c) (hp : IsPlain c) :=
    (Path.elements_normal outDir).append (Dialect.madeOfNames_outputName hp h.source h.names)
  rw [← Dialect.outputName_eq_iff hpa hpb ha.source hb.source]
  refine ⟨fun h => ?_, fun h => by rw [outputPath, outputPath, h]⟩
  rw [outputPath_eq ha hpa, outputPath_eq hb hpb] at h
  have helements := congrArg Path.elements h
  rw [Path.elements_ofElements (hnormal a ha hpa), Path.elements_ofElements (hnormal b hb hpb)]
    at helements
  have hjoin := congrArg (Bytes.join [slash]) (List.append_cancel_left helements)
  rwa [Path.join_splitOn, Path.join_splitOn] at hjoin

theorem getLast?_outputPath (h : IsSourcePath a) (hp : IsPlain a) :
    (outputPath outDir a).getLast? = some (ascii 's') := by
  have hlast := Dialect.getLast?_outputName hp h.source
  have hne := Path.splitOn_ne_nil (Dialect.outputName a)
  rw [outputPath_eq h hp]
  rcases ofElements_append (Path.isAbsolute outDir) (Path.elements outDir) hne with
    heq | ⟨s, heq⟩ <;> rw [heq, Path.join_splitOn]
  · exact hlast
  · rw [List.getLast?_append, List.getLast?_cons, hlast]
    rfl

end

/-! ## Files that are written -/

/-- The files that a build writes for a source: the script, and its map if there is one. -/
def BuiltFile.written (f : BuiltFile) : List Bytes :=
  if f.output.isOk then
    f.outPath :: if f.output.map.isSome then [f.outPath ++ Bytes.ofString ".map"] else []
  else []

/-- The files that a build writes. -/
def Result.written (res : Result) : List Bytes := res.files.flatMap BuiltFile.written

/-- The sources of a build are those that it finds itself, or that were found before. -/
def Request.IsFound (r : Request) : Prop :=
  r.files = [] ∨ ∃ t, t.Named ∧ Discovers { r with files := [] } t r.files

/-- The files of a build are sources, or there is at most one. -/
theorem Discovers.sources {files : List Bytes} (ht : t.Named) (hr : r.IsFound)
    (h : Discovers r t files) : (∀ rel ∈ files, IsSourcePath rel) ∨ files.length ≤ 1 := by
  have hfound {r : Request} {t : FileTree} {files : List Bytes} (ht : t.Named) (hr : r.files = [])
      (h : Discovers r t files) : (∀ rel ∈ files, IsSourcePath rel) ∨ files.length ≤ 1 := by
    obtain ⟨e, hrun, he⟩ := discover_sources ht hr
    obtain ⟨t', hfiles⟩ := h
    rw [hfiles, Prod.mk.injEq] at hrun
    exact he files hrun.1.symm
  rcases hr with hr | ⟨t', ht', hr⟩
  · exact hfound ht hr h
  · by_cases hnil : r.files = []
    · exact hfound ht hnil h
    · suffices files = r.files from this ▸ hfound ht' rfl hr
      obtain ⟨t'', hfiles⟩ := h
      unfold discover at hfiles
      split at hfiles
      · cases hfiles
      · rw [if_pos (by simpa using hnil)] at hfiles
        cases hfiles
        rfl

theorem BuiltFile.written_nodup (f : BuiltFile) : f.written.Nodup := by
  unfold BuiltFile.written
  have hne : f.outPath ≠ f.outPath ++ Bytes.ofString ".map" := fun h => by
    have := congrArg List.length h
    rw [List.length_append] at this
    have hlength : (Bytes.ofString ".map").length = 4 := by decide
    omega
  split
  · split
    · simpa using hne
    · simp
  · exact List.nodup_nil

/-- Two sources with scripts write different files exactly when they are neither the same nor
siblings. -/
theorem written_disjoint_iff {f g : BuiltFile} (hf : Stands r f) (hg : Stands r g)
    (hrel : IsSourcePath f.rel) (hrel' : IsSourcePath g.rel) (hp : IsPlain f.rel)
    (hp' : IsPlain g.rel) (hok : f.output.isOk = true) (hok' : g.output.isOk = true) :
    f.written.Disjoint g.written ↔ ¬ (f.rel = g.rel ∨ Dialect.Siblings f.rel g.rel) := by
  have hmap {a b : Bytes} (ha : IsSourcePath a) (hpa : IsPlain a) :
      outputPath r.outDir a ≠ b ++ Bytes.ofString ".map" := fun h => by
    have hlast : (outputPath r.outDir a).getLast? = some (ascii 's') := getLast?_outputPath ha hpa
    have hp : (Bytes.ofString ".map").getLast? = some (ascii 'p') := by decide
    rw [h, List.getLast?_append, hp, Option.some_or, Option.some.injEq] at hlast
    exact absurd hlast (by decide)
  have hpaths : outputPath r.outDir f.rel = outputPath r.outDir g.rel ↔ _ :=
    outputPath_eq_iff hrel hrel' hp hp'
  rw [← hpaths, ← hf hok, ← hg hok']
  unfold BuiltFile.written
  rw [if_pos hok, if_pos hok']
  refine ⟨fun h heq => h List.mem_cons_self (heq ▸ List.mem_cons_self), fun hne p hp hp' => ?_⟩
  have hcases {f : BuiltFile} (h : p ∈ f.outPath ::
      if f.output.map.isSome then [f.outPath ++ Bytes.ofString ".map"] else []) :
      p = f.outPath ∨ p = f.outPath ++ Bytes.ofString ".map" := by
    split at h
    · simpa using h
    · exact .inl (by simpa using h)
  rcases hcases hp with rfl | rfl <;> rcases hcases hp' with h | h
  · exact hne h
  · exact hmap hrel ‹_› (hf hok ▸ h)
  · exact hmap hrel' ‹_› (hg hok' ▸ h.symm)
  · exact hne (List.append_cancel_right h)

/-- What a build comes to on a tree. -/
def resultOn (r : Request) (st : Settings) (t : FileTree) : Except Fault Result :=
  (StateT.run (run r st : StateM FileTree (Except Fault Result × Log)) t).1.1

theorem resultOn_built {res : Result} (h : resultOn r st t = .ok res) :
    Discovers r t (res.files.map (·.rel)) ∧ ∀ f ∈ res.files, Stands r f := by
  have hends (x : (Except Fault Result × Log) × FileTree)
      (hx : StateT.run (run r st : StateM FileTree (Except Fault Result × Log)) t = x)
      (hres : x.1.1 = .ok res) : Ran (work r st) ({}, t) res (x.1.2, x.2) := by
    obtain ⟨⟨e, log⟩, t'⟩ := x
    obtain rfl : e = .ok res := hres
    exact hx
  exact work_built (hends _ rfl h)

/-- The files that a build writes for plain sources with different paths are different exactly when
no two of its scripts are those of siblings. -/
theorem written_files_distinct_iff (r : Request) (st : Settings) (t : FileTree) (res : Result)
    (ht : t.Named) (hfound : r.IsFound) (hres : resultOn r st t = .ok res)
    (hdistinct : (res.files.map (·.rel)).Nodup) (hplain : ∀ f ∈ res.files, IsPlain f.rel) :
    res.written.Nodup ↔
      (res.files.filter (·.output.isOk)).Pairwise fun f g => ¬ Dialect.Siblings f.rel g.rel := by
  obtain ⟨hdiscovers, hstands⟩ := resultOn_built hres
  rw [Result.written, List.flatMap, List.nodup_flatten, List.pairwise_map, List.pairwise_filter]
  have hnodup : ∀ l ∈ res.files.map BuiltFile.written, l.Nodup := by
    rintro _ hl
    obtain ⟨f, -, rfl⟩ := List.mem_map.1 hl
    exact f.written_nodup
  rw [and_iff_right hnodup]
  rcases hdiscovers.sources ht hfound with hsources | hlength
  · have hpair : ∀ f ∈ res.files, ∀ g ∈ res.files, f.rel ≠ g.rel →
        (f.written.Disjoint g.written ↔
          (f.output.isOk = true → g.output.isOk = true → ¬ Dialect.Siblings f.rel g.rel)) := by
      intro f hf g hg hne
      cases hok : f.output.isOk with
      | false => simp [BuiltFile.written, hok]
      | true =>
        cases hok' : g.output.isOk with
        | false => simp [BuiltFile.written, hok']
        | true =>
          have hsource {f : BuiltFile} (hf : f ∈ res.files) : IsSourcePath f.rel :=
            hsources _ (List.mem_map_of_mem hf)
          rw [written_disjoint_iff (hstands f hf) (hstands g hg) (hsource hf) (hsource hg)
            (hplain f hf) (hplain g hg) hok hok', or_iff_right hne]
          simp
    have hne := List.pairwise_map.1 hdistinct
    exact ⟨fun h => (hne.and h).imp_of_mem fun hf hg h => (hpair _ hf _ hg h.1).1 h.2,
      fun h => (hne.and h).imp_of_mem fun hf hg h => (hpair _ hf _ hg h.1).2 h.2⟩
  · rw [List.length_map] at hlength
    match hfiles : res.files, hlength with
    | [], _ => exact ⟨fun _ => .nil, fun _ => .nil⟩
    | [f], _ => exact ⟨fun _ => List.pairwise_singleton _ _, fun _ => List.pairwise_singleton _ _⟩

/-- Of a module, a script and a text, the first two are built. -/
theorem written_files_distinct_maps :
    let t : FileTree := { entries := [
      ([Bytes.ofString "src"], .directory),
      ([Bytes.ofString "src", Bytes.ofString "a.mts"], .file "let a: T = 1;"),
      ([Bytes.ofString "src", Bytes.ofString "b.js"], .file "let b = 2;"),
      ([Bytes.ofString "src", Bytes.ofString "c.txt"], .file "c")] }
    let r : Request :=
      { srcDir := "/src", outDir := "/out", files := ["a.mts", "b.js"].map Bytes.ofString }
    let st : Settings := { options := { sourceMap := .separate } }
    ∃ res, resultOn r st t = .ok res ∧
      res.written = ["/out/a.mjs", "/out/a.mjs.map", "/out/b.js", "/out/b.js.map"].map
        Bytes.ofString ∧
      (res.written.Nodup ↔ (res.files.filter (·.output.isOk)).Pairwise fun f g =>
        ¬ Dialect.Siblings f.rel g.rel) := by
  intro t r st
  have hlist : t.list r.srcDir = .ok (["a.mts", "b.js", "c.txt"].map Bytes.ofString) :=
    list_of_sorted [Bytes.ofString "src"] (by decide) (by decide)
      (by decide) (by decide)
  have hfound : r.IsFound :=
    .inr ⟨t, by decide, discovers_flat (by decide) (by decide) hlist
      (by decide) (by decide) (by decide)⟩
  have hview : (resultOn r st t).toOption.map (fun res => (res.files.map (·.rel), res.written)) =
      some (["a.mts", "b.js"].map Bytes.ofString,
        ["/out/a.mjs", "/out/a.mjs.map", "/out/b.js", "/out/b.js.map"].map Bytes.ofString) := by
    decide +kernel
  cases hres : resultOn r st t with
  | error f =>
    rw [hres] at hview
    cases hview
  | ok res =>
    rw [hres] at hview
    obtain ⟨hrels, hwritten⟩ := Prod.mk.inj (Option.some.inj hview)
    refine ⟨res, rfl, hwritten, written_files_distinct_iff r st t res (by decide) hfound
      hres ?_ ?_⟩
    · rw [hrels]
      decide
    · have hplain : ∀ rel ∈ res.files.map (·.rel), IsPlain rel := by
        rw [hrels]
        decide +kernel
      exact fun f hf => hplain _ (List.mem_map_of_mem hf)

/-- A source in a language with types and one without have their scripts in one place. -/
theorem script_written_twice :
    let t : FileTree := { entries := [
      ([Bytes.ofString "src"], .directory),
      ([Bytes.ofString "src", Bytes.ofString "a.js"], .file "let b = 2;"),
      ([Bytes.ofString "src", Bytes.ofString "a.ts"], .file "let a = 1;")] }
    let r : Request :=
      { srcDir := "/src", outDir := "/out", files := ["a.js", "a.ts"].map Bytes.ofString }
    r.IsFound ∧ (resultOn r {} t).toOption.map
        (fun res => (res.files.map (·.rel), res.files.map (·.output.isOk), res.written)) =
      some (["a.js", "a.ts"].map Bytes.ofString, [true, true],
        ["/out/a.js", "/out/a.js"].map Bytes.ofString) := by
  intro t r
  have hlist : t.list r.srcDir = .ok (["a.js", "a.ts"].map Bytes.ofString) :=
    list_of_sorted [Bytes.ofString "src"] (by decide +kernel) (by decide +kernel)
      (by decide +kernel) (by decide +kernel)
  refine ⟨.inr ⟨t, by decide +kernel, ?_⟩, by decide +kernel⟩
  exact discovers_flat (by decide +kernel) (by decide +kernel) hlist (by decide +kernel)
    (by decide +kernel) (by decide +kernel)

end Build

end ScriptLower
