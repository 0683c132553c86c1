import ScriptLower.Proofs.Lower.Names
import ScriptLower.Proofs.Lower.OriginsStatements
import ScriptLower.Proofs.Parse.StatementForms
import ScriptLower.Print.Program

/-!
# Definitions in lowered code

Where the text of a definition is put in, and what is printed there.
-/

/-!
## What stands for a name

A text is put in as it is only where the source has a name, and it is the value of the last
definition of that name. Nothing else of a definition is looked at: a name is replaced even where a
parameter binds it.
-/

namespace ScriptLower.Lower

open ScriptLower

/-- A text at a place is the value of the definition that counts for a name of a tree at that
place. -/
def StandsFor (root : Node) (defines : List Define) (text : Bytes) (span : Span) : Prop :=
  ∃ n ∈ root.walk, (n.kind = .ident ∨ n.kind = .jsxName) ∧ n.span = span ∧
    ∃ d, defines.reverse.find? (·.name == n.text) = some d ∧ d.value = text

/-- Lowered code in which texts that are put in as they are stand for names of the source. -/
def replacing (root : Node) (defines : List Define) : Origin where
  source k text span := k ≠ .raw ∧ ∃ n ∈ root.walk, n.kind = k ∧ n.text = text ∧ n.span = span
  lowered k text span := k = .raw → StandsFor root defines text span
  exports := True
  defines := defines
  copied hs _ := fun hk => absurd hk hs.1
  made hk := by
    rintro rfl
    cases hk
  wrapped _ := fun hk => by cases hk
  replaced hs hk hd := fun _ => by
    obtain ⟨-, n, hn, rfl, rfl, rfl⟩ := hs
    exact ⟨n, hn, hk, rfl, _, hd, rfl⟩

section

variable {file : SourceFile} {root out n : Node} {comments : CommentTable} {supply : NameSupply}
  {o : Settings}

/-- All of a file is code of the source. -/
theorem from_replacing {defines : List Define} (hroot : Grown file root) :
    From (replacing root defines) root := by
  refine from_of_grown hroot fun m hm => ⟨⟨?_, m, hm, rfl, rfl, rfl⟩, .inl trivial⟩
  exact (Grown.walk root hroot m hm).kind_ne_raw

theorem yields_replacing {c : Context} (hroot : Grown file root) (hn : n ∈ root.kids) (d : Nat) :
    Yields c True (lowerStmt (rules d) n) fun rs => ∀ r ∈ rs,
    Made (replacing root c.defines) r := by
  have hstands : Stands (replacing root c.defines) c n :=
    ⟨(from_replacing hroot).mem hn, fun _ _ _ => trivial, fun _ => .inl trivial⟩
  exact yields_lowerStmt_made (emits_rules _ d) rfl hstands

/-- A spelled out tree has the same texts where it has no names. -/
theorem Respells.head_mapHeads {f : Head → Head} (hf : Respells f) (hn : n.kind ≠ .ident) :
    (n.mapHeads f).head = n.head := by
  cases n with
  | absent => rfl
  | mk h ks ds t a x => exact hf.plain h hn

end

/-- Only defined names are replaced: each text that is put in as it is stands where the source has a
name, and it is the value of the last definition of that name. -/
theorem replaced_names_are_defined (file : SourceFile) (po : Parse.Options) (root : Node)
    (hparse : (Parse.parseFile file po).tree = some root) (comments : CommentTable)
    (supply : NameSupply) (o : Settings) (out : Node)
    (h : (lowerTree file root comments supply o).tree = some out) :
    ∀ n ∈ out.kids, ∀ m ∈ n.walk, m.kind = .raw → StandsFor root o.defines m.text m.span := by
  obtain ⟨hroot, -⟩ := Parse.parseFile_grown hparse
  have hhelpers (r : Node) (hr : IsHelperImport r) : Made (replacing root o.defines) r := by
    obtain ⟨ks, rfl, hks⟩ := hr.eq_new (p := replacing root o.defines)
    exact made_ofHead.2 ⟨(fun hk => by cases hk), hks⟩
  obtain ⟨f, hf, hall⟩ := lowered_statements (P := Made (replacing root o.defines)) h
    (fun d n hn => yields_replacing (c := topContext file root comments o) hroot hn d)
    (fun r hr => hr.made) hhelpers
  intro n hn m hm hk
  obtain ⟨r, hr, rfl⟩ := hall n hn
  rw [Node.walk_mapHeads] at hm
  obtain ⟨m', hm', rfl⟩ := List.mem_map.1 hm
  rw [hf.kind_mapHeads] at hk
  have hhead : (m'.mapHeads f).head = m'.head := hf.head_mapHeads (by rw [hk]; decide)
  have hstands := hr.walk m' hm' hk
  unfold Node.text Node.span
  rw [hhead]
  exact hstands

/-- The name of a parameter is replaced where the function reads it. -/
theorem bound_name_replaced :
    let file := (FileSet.empty.add "a.ts" "function f(A) \x7b return A; \x7d" true).2
    let r := Parse.parseFile file {}
    let o : Settings := { defines := [⟨"A", "1", true⟩] }
    ∃ root out, r.tree = some root ∧ (lowerTree file root r.comments {} o).tree = some out ∧
      ∃ n ∈ root.kids, n.kind = .funcDecl ∧
        ((n.kid 1).kids.flatMap fun q => bindingNames (q.kid 0)) = [Bytes.ofString "A"] ∧
        ∃ k ∈ (n.kid 2).walk, k.kind = .ident ∧ k.text = Bytes.ofString "A" ∧
          ∃ m ∈ out.walk, m.kind = .raw ∧ m.text = Bytes.ofString "1" ∧ m.span = k.span := by
  intro file r o
  have hrun : r.tree.isSome = true ∧
      (lowerTree file (r.tree.getD .absent) r.comments {} o).tree.isSome = true ∧
      ∃ n ∈ (r.tree.getD .absent).kids, n.kind = .funcDecl ∧
        ((n.kid 1).kids.flatMap fun q => bindingNames (q.kid 0)) = [Bytes.ofString "A"] ∧
        ∃ k ∈ (n.kid 2).walk, k.kind = .ident ∧ k.text = Bytes.ofString "A" ∧
          ∃ m ∈ ((lowerTree file (r.tree.getD .absent) r.comments {} o).tree.getD .absent).walk,
            m.kind = .raw ∧ m.text = Bytes.ofString "1" ∧ m.span = k.span := by
    decide +kernel
  obtain ⟨hsome, hlowered, hreplaced⟩ := hrun
  obtain ⟨root, hroot⟩ := Option.isSome_iff_exists.1 hsome
  rw [hroot, Option.getD_some] at hlowered hreplaced
  obtain ⟨out, hout⟩ := Option.isSome_iff_exists.1 hlowered
  rw [hout, Option.getD_some] at hreplaced
  exact ⟨root, out, hroot, hout, hreplaced⟩

/-! ## Values of definitions

The value of a definition is put into the text as it is written, and only its outermost form decides
whether parentheses go around it.
-/

/-- A number in front of a dot: the text that is printed cannot be read. -/
theorem number_value_before_dot :
    let file := (FileSet.empty.add "a.ts" "x = A.b;" true).2
    let d : Define := ⟨"A", "1", true⟩
    let printed := (FileSet.empty.add "a.js" "x = 1.b;\n" true).2
    Define.parse "A" "1" = .ok d ∧
      ∃ root out, (Parse.parseFile file {}).tree = some root ∧
        (lowerTree file root {} {} { defines := [d] }).tree = some out ∧
        (Print.printTree out {} {}).code = some "x = 1.b;\n" ∧
        (Parse.parseFile printed {}).tree.isNone = true := by
  intro file d printed
  have hrun : Define.parse "A" "1" = .ok d ∧ ((Parse.parseFile file {}).tree.any fun root =>
      (lowerTree file root {} {} { defines := [d] }).tree.any fun out =>
        (Print.printTree out {} {}).code == some "x = 1.b;\n" &&
          (Parse.parseFile printed {}).tree.isNone) = true := by
    decide +kernel
  simp only [Bool.and_eq_true, beq_iff_eq, Option.any_eq_true] at hrun
  obtain ⟨hd, root, hroot, out, hout, hcode, hnone⟩ := hrun
  exact ⟨hd, root, out, hroot, hout, hcode, hnone⟩

end ScriptLower.Lower
