import ScriptLower.Proofs.Lower.Programs
import ScriptLower.Proofs.Parse.StatementForms

/-!
# Lowered code is of the version aimed at

Whatever a file holds, the code it is lowered to has no operator, spread, handler or link that the
target does not have. For links this needs that no other node stands between the links of a chain
and the node that closes it: what lowering does not see as a part of the chain it leaves as it is.
-/

namespace ScriptLower.Lower

open ScriptLower

section

variable {a : Aim} {n : Node}

theorem mem_walkAll {m : Node} {ks : List Node} (h : m ∈ Node.walkAll ks) :
    ∃ k ∈ ks, m ∈ k.walk := by
  induction ks with
  | nil => cases h
  | cons k ks ih =>
    rw [Node.walkAll, List.mem_append] at h
    rcases h with h | h
    · exact ⟨k, List.mem_cons_self, h⟩
    · obtain ⟨k', hk', hm⟩ := ih h
      exact ⟨k', List.mem_cons_of_mem _ hk', hm⟩

/-- Every node of good code fits. -/
theorem Good.fit_of_walk (hn : Good a n) : ∀ m ∈ n.walk, Fit a m := by
  induction hn with
  | absent => simp [Node.walk]
  | mk hfit _ _ ihk ihd =>
    intro m hm
    simp only [Node.walk, List.mem_cons, List.mem_append, List.not_mem_nil, or_false] at hm
    rcases hm with rfl | hm | hm
    · exact hfit
    · obtain ⟨k, hk, hm⟩ := mem_walkAll hm
      exact ihk k hk m hm
    · obtain ⟨d, hd, hm⟩ := mem_walkAll hm
      exact ihd d hd m hm

theorem one_le_resolved (t : Target) : 1 ≤ t.resolved.level := by
  unfold Target.resolved
  split
  · decide
  · rename_i h
    have hne : t.level ≠ 0 := fun e => h (congrArg Target.mk e)
    omega

/-- Code for a target, whatever names it reads. -/
def versionAim (t : Target) : Aim where
  version := t.resolved
  known := one_le_resolved t
  names _ := True
  nameless := trivial
  math := trivial
  object := trivial
  elements := True

theorem covers_versionAim (t : Target) (u : Uses) : Covers (versionAim t) u :=
  ⟨fun _ _ => trivial, fun _ => trivial⟩

/-- The program that closes no chain is closed code. -/
theorem opensChain_of_kind {k : NodeKind} (hn : n.kind = k) (hk : k.isLink = false) :
    n.opensChain = false := by
  cases n with
  | absent => rfl
  | mk head ks ds t x y =>
    have hkind : head.kind = k := hn
    unfold Node.opensChain
    rw [hkind]
    unfold NodeKind.isLink at hk
    split at hk
    all_goals simp_all

/-- What a tree of the grammar is lowered to is of the target. -/
theorem since_of_lowered {file : SourceFile} {root out : Node} {comments : CommentTable}
    {supply : NameSupply} {o : Settings} (hplaced : ∀ n ∈ root.walk, placed n = true)
    (hchained : o.target.resolved.before .es2020 = true → ∀ n ∈ root.walk, chained n = true)
    (h : (lowerTree file root comments supply o).tree = some out) :
    ∀ n ∈ out.walk, o.target.resolved.before n.since = false := by
  have hshape (m : Node) (hm : m ∈ root.walk) : Shape (versionAim o.target) m :=
    { placed := hplaced m hm
      chained := fun hv => hchained hv m hm
      tag := fun _ _ => trivial
      attributes := fun _ => covers_versionAim _ _ }
  have hclosed : root.opensChain = false := opensChain_of_kind (lowerTree_eq_some h).1 rfl
  have hroot : At (versionAim o.target) (fileContext file root comments o) root :=
    { ctx := ⟨Nat.le_refl _, fun _ _ => trivial, fun _ _ => ⟨trivial, trivial⟩⟩
      source := ⟨⟨hshape, covers_versionAim _ _⟩, fun _ => hclosed⟩ }
  exact fun n hn => ((fine_lowerTree hroot h).good.fit_of_walk n hn).since

end

/-- The code that a file is lowered to is of the target: it has no power operator before ES2016, no
spread in an object before ES2018, no handler without a binding before ES2019, no optional link and
no nullish operator before ES2020 and no logical assignment before ES2021. -/
theorem lowered_code_of_version (file : SourceFile) (po : Parse.Options) (root : Node)
    (comments : CommentTable) (supply : NameSupply) (o : Settings) (out : Node)
    (hparse : (Parse.parseFile file po).tree = some root)
    (hchained : o.target.resolved.before .es2020 = true → ∀ n ∈ root.walk, chained n = true)
    (h : (lowerTree file root comments supply o).tree = some out) :
    ∀ n ∈ out.walk, o.target.resolved.before n.since = false :=
  since_of_lowered (Parse.parseFile_placed hparse) hchained h

/-- A chain, a nullish operator, a power, a spread and a logical assignment are all gone from code
for ES2015. -/
theorem new_operators_lowered :
    let file :=
    (FileSet.empty.add "a.ts" "x = \x7b ...(a?.b ?? c ** d) \x7d; y ||= x!.e?.[x];" true).2
    let r := Parse.parseFile file {}
    let o : Settings := { target := .es2015 }
    ∃ root out, r.tree = some root ∧ (lowerTree file root r.comments {} o).tree = some out ∧
      ∀ n ∈ out.walk, Target.es2015.before n.since = false := by
  intro file r o
  have hrun : r.tree.isSome = true ∧
      ((r.tree.getD .absent).walk.all chained) = true ∧
      (lowerTree file (r.tree.getD .absent) r.comments {} o).tree.isSome = true := by decide +kernel
  obtain ⟨hsome, hall, hlowered⟩ := hrun
  obtain ⟨root, hroot⟩ := Option.isSome_iff_exists.1 hsome
  rw [hroot, Option.getD_some] at hall hlowered
  obtain ⟨out, hout⟩ := Option.isSome_iff_exists.1 hlowered
  rw [List.all_eq_true] at hall
  refine ⟨root, out, hroot, hout, ?_⟩
  exact lowered_code_of_version file {} root r.comments {} o out hroot (fun _ => hall) hout

/-- Type arguments between the links of a chain and its end hide the links: they stay, though the
target has none. -/
theorem instantiated_link_stays :
    let file := (FileSet.empty.add "a.ts" "x = a?.b<T>;" true).2
    let r := Parse.parseFile file {}
    let o : Settings := { target := .es2019 }
    ∃ root out, r.tree = some root ∧ (lowerTree file root r.comments {} o).tree = some out ∧
      ∃ n ∈ out.walk, n.kind = .member ∧ n.flags.optional = true ∧
        Target.es2019.before n.since = true := by
  intro file r o
  have hrun : r.tree.isSome = true ∧
      (lowerTree file (r.tree.getD .absent) r.comments {} o).tree.isSome = true ∧
      (((lowerTree file (r.tree.getD .absent) r.comments {} o).tree.getD .absent).walk.any fun n =>
        n.kind == .member && n.flags.optional && Target.es2019.before n.since) = true := by
    decide +kernel
  obtain ⟨hsome, hlowered, hany⟩ := hrun
  obtain ⟨root, hroot⟩ := Option.isSome_iff_exists.1 hsome
  rw [hroot, Option.getD_some] at hlowered hany
  obtain ⟨out, hout⟩ := Option.isSome_iff_exists.1 hlowered
  rw [hout, Option.getD_some] at hany
  obtain ⟨n, hn, hnew⟩ := List.any_eq_true.1 hany
  simp only [Bool.and_eq_true, beq_iff_eq] at hnew
  exact ⟨root, out, hroot, hout, n, hn, hnew.1.1, hnew.1.2, hnew.2⟩

end ScriptLower.Lower
