import Mathlib.Data.List.Nodup
import Mathlib.Data.Set.Function
import ScriptLower.Project.Cache
import ScriptLower.Proofs.Digest.Keys

/-!
# Questions to a memo

A memo is asked one question after the other. What it keeps are outputs of questions it was asked,
under their keys. Where no two of the texts that are hashed on the way have one hash, and the
options of the questions can be told from what is hashed for them, a key that is found is that of a
question with the same answer, so a memo answers as a run from nothing does.
-/

namespace ScriptLower

/-! ## What a run shows -/

/-- Whether there is code, and the code. -/
def FileOutput.shown (out : FileOutput) : Bool × Bytes := (out.isOk, out.code)

/-- An output shows the text of its run. -/
theorem FileOutput.shown_ofRun (specifier content : Bytes) (r : Run) :
    (ofRun specifier content r).shown = (r.text.isSome, r.text.getD []) := by
  unfold ofRun Run.text
  cases r.result <;> rfl

namespace Memo

/-! ## Questions -/

/-- What a memo is asked. -/
structure Question where
  /-- The name of the source. -/
  specifier : Bytes
  /-- The source. -/
  content : Bytes
  /-- The options to run it with. -/
  options : Options

namespace Question

/-- The answer of a run from nothing. -/
def fresh (q : Question) : FileOutput := transpileSource q.specifier q.content q.options

/-- The key of a question. -/
def key (q : Question) : Bytes := Memo.key q.specifier q.content q.options

/-- The texts that are hashed for a question. -/
def hashed (q : Question) : List Bytes :=
  [q.content, Digest.optionText q.options, Digest.entryText q.specifier q.content q.options]

end Question

/-- The texts that are hashed for some questions. -/
def hashed (qs : List Question) : List Bytes := qs.flatMap Question.hashed

/-- Asks one question. -/
def ask (m : Memo) (q : Question) : FileOutput × Memo := m.transpile q.specifier q.content q.options

/-- Asks one question after the other. -/
def askAll (m : Memo) : List Question → List FileOutput × Memo
  | [] => ([], m)
  | q :: qs =>
    let (out, m) := m.ask q
    let (outs, m) := m.askAll qs
    (out :: outs, m)

variable {m : Memo} {p q : Question} {qs : List Question} {limit : Int}

theorem fst_askAll_cons (m : Memo) (q : Question) (qs : List Question) :
    (m.askAll (q :: qs)).1 = (m.ask q).1 :: ((m.ask q).2.askAll qs).1 := rfl

theorem ask_of_lookup {out : FileOutput} (h : m.entries.lookup q.key = some out) :
    m.ask q = (out, { m with hits := m.hits + 1 }) := by
  unfold ask transpile
  dsimp only
  rw [show m.entries.lookup (key q.specifier q.content q.options) = _ from h]

theorem ask_of_lookup_eq_none (h : m.entries.lookup q.key = none) :
    m.ask q = (q.fresh, { m with misses := m.misses + 1 }.keep q.key q.fresh) := by
  unfold ask transpile
  dsimp only
  rw [show m.entries.lookup (key q.specifier q.content q.options) = _ from h]
  rfl

/-- What is kept was kept before, or is a new output that is one. -/
theorem mem_keep {key : Bytes} {out : FileOutput} {e : Bytes × FileOutput}
    (h : e ∈ (m.keep key out).entries) : e ∈ m.entries ∨ e = (key, out) ∧ out.isOk = true := by
  unfold keep at h
  split at h
  · rename_i hroom
    rw [Bool.and_eq_true] at hroom
    exact (List.mem_cons.1 h).symm.imp_right (⟨·, hroom.1⟩)
  · exact .inl h

/-! ## Keys of questions -/

theorem key_eq_digest (q : Question) :
    q.key = Sha256.digest (Digest.entryText q.specifier q.content q.options) := rfl

/-- Questions of one key have one answer. -/
theorem Question.shown_eq_of_key {s : Set Bytes} (hinj : s.InjOn Sha256.digest)
    (hp : ∀ t ∈ p.hashed, t ∈ s) (hq : ∀ t ∈ q.hashed, t ∈ s) (htell : Digest.Tellable p.options)
    (htell' : Digest.Tellable q.options) (h : p.key = q.key) : p.fresh.shown = q.fresh.shown := by
  obtain ⟨specifier, content, o⟩ := p
  obtain ⟨specifier', content', o'⟩ := q
  simp only [hashed, List.forall_mem_cons, List.not_mem_nil, false_implies, implies_true,
    and_true] at hp hq
  obtain ⟨hcontent, rfl, hoptions⟩ := Digest.entryText_inj (hinj hp.2.2 hq.2.2 h)
  obtain rfl := hinj hp.1 hq.1 hcontent
  have halike : o.Alike o' := Digest.alike_of_optionText htell htell' (hinj hp.2.1 hq.2.1 hoptions)
  show (transpileSource specifier content o).shown = (transpileSource specifier content o').shown
  rw [transpileSource, transpileSource, FileOutput.shown_ofRun, FileOutput.shown_ofRun,
    halike.text_eq]

/-- Where the three texts of a question have three hashes, no two texts hashed for questions like it
have one. -/
theorem injOn_hashed (h : (q.hashed.map Sha256.digest).Nodup)
    (hqs : ∀ p ∈ qs, p.hashed = q.hashed) :
    {t | t ∈ hashed qs}.InjOn Sha256.digest := by
  have hin {t : Bytes} (ht : t ∈ hashed qs) : t ∈ q.hashed := by
    obtain ⟨p, hp, ht⟩ := List.mem_flatMap.1 ht
    exact hqs p hp ▸ ht
  exact fun s hs t ht heq => List.inj_on_of_nodup_map h (hin hs) (hin ht) heq

/-- The parts of the options tell what is hashed for a source. -/
theorem hashed_eq_of_optionParts (hspecifier : p.specifier = q.specifier)
    (hcontent : p.content = q.content)
    (hparts : Digest.optionParts p.options = Digest.optionParts q.options) :
    p.hashed = q.hashed := by
  unfold Question.hashed Digest.entryText Digest.optionText Digest.ofOptions Digest.combine
  rw [hspecifier, hcontent, hparts]

/-- A second question for which the same is hashed is answered as the first. -/
theorem askAll_pair (hok : p.fresh.isOk = true) (h : p.hashed = q.hashed) :
    ((new limit).askAll [p, q]).1 = [p.fresh, p.fresh] := by
  have hkey : q.key = p.key := by
    unfold Question.hashed at h
    rw [key_eq_digest, key_eq_digest, (List.cons.inj (List.cons.inj (List.cons.inj h).2).2).1]
  have hroom : 0 < (new limit).limit := by
    unfold new
    split <;> dsimp only <;> omega
  have hfirst : (new limit).ask p =
      (p.fresh, { new limit with misses := 1, entries := [(p.key, p.fresh)] }) := by
    have hguard : (p.fresh.isOk && decide (0 < (new limit).limit)) = true := by
      rw [hok, decide_eq_true hroom, Bool.and_self]
    rw [ask_of_lookup_eq_none rfl, keep, show (new limit).entries.length = 0 from rfl,
      if_pos hguard]
    rfl
  have hkept : ((new limit).ask p).2.entries.lookup q.key = some p.fresh := by
    rw [hfirst, hkey, List.lookup_cons_self]
  have hsecond : (((new limit).ask p).2.ask q).1 = p.fresh :=
    congrArg Prod.fst (ask_of_lookup hkept)
  rw [fst_askAll_cons, fst_askAll_cons, hsecond, hfirst]
  rfl

/-! ## What a memo keeps to -/

/-- A memo has counted every question it was asked, keeps no more than it may, and no failure. -/
structure Balanced (asked : Nat) (m : Memo) : Prop where
  /-- Every question was a hit or a miss. -/
  counts : m.hits + m.misses = asked
  /-- No more is kept than there is room for. -/
  room : m.size ≤ m.limit
  /-- No failure is kept. -/
  ok : ∀ e ∈ m.entries, e.2.isOk = true

theorem Balanced.keep {n : Nat} (h : Balanced n m) (key : Bytes) (out : FileOutput) :
    Balanced n (m.keep key out) where
  counts := by
    unfold Memo.keep
    split <;> exact h.counts
  room := by
    unfold Memo.keep
    split
    · rename_i hroom
      rw [Bool.and_eq_true, decide_eq_true_iff] at hroom
      exact hroom.2
    · exact h.room
  ok e he := by
    obtain he | ⟨rfl, hok⟩ := mem_keep he
    · exact h.ok e he
    · exact hok

theorem limit_keep (m : Memo) (key : Bytes) (out : FileOutput) :
    (m.keep key out).limit = m.limit := by
  unfold keep
  split <;> rfl

/-- One question is counted once. -/
theorem Balanced.ask {n : Nat} (h : Balanced n m) (q : Question) :
    Balanced (n + 1) (m.ask q).2 := by
  cases hfound : m.entries.lookup q.key with
  | some out =>
    rw [ask_of_lookup hfound]
    exact ⟨by show m.hits + 1 + m.misses = n + 1; rw [← h.counts]; omega, h.room, h.ok⟩
  | none =>
    rw [ask_of_lookup_eq_none hfound]
    have hmissed : Balanced (n + 1) { m with misses := m.misses + 1 } :=
      ⟨by show m.hits + (m.misses + 1) = n + 1; rw [← h.counts]; omega, h.room, h.ok⟩
    exact hmissed.keep q.key q.fresh

theorem limit_ask (m : Memo) (q : Question) : (m.ask q).2.limit = m.limit := by
  cases hfound : m.entries.lookup q.key with
  | some out => rw [ask_of_lookup hfound]
  | none => rw [ask_of_lookup_eq_none hfound, limit_keep]

theorem Balanced.askAll {n : Nat} (h : Balanced n m) (qs : List Question) :
    Balanced (n + qs.length) (m.askAll qs).2 := by
  induction qs generalizing m n with
  | nil => exact h
  | cons q qs ih =>
    have hrest := ih (h.ask q)
    rwa [Nat.add_right_comm] at hrest

theorem limit_askAll (m : Memo) (qs : List Question) : (m.askAll qs).2.limit = m.limit := by
  induction qs generalizing m with
  | nil => rfl
  | cons q qs ih => exact (ih _).trans (limit_ask m q)

theorem balanced_new (limit : Int) : Balanced 0 (new limit) :=
  ⟨rfl, Nat.zero_le _, fun _ he => nomatch he⟩

/-- What a memo keeps are answers to questions of a list, under their keys. -/
def Sound (asked : List Question) (m : Memo) : Prop :=
  ∀ e ∈ m.entries, ∃ q ∈ asked, e.1 = q.key ∧ e.2.shown = q.fresh.shown

/-- What is found under a key is kept under it. -/
theorem mem_of_lookup {k : Bytes} {out : FileOutput} {entries : List (Bytes × FileOutput)}
    (h : entries.lookup k = some out) : (k, out) ∈ entries := by
  induction entries with
  | nil => cases h
  | cons e entries ih =>
    rw [List.lookup_cons] at h
    split at h
    · rename_i heq
      obtain rfl := eq_of_beq heq
      cases h
      exact List.mem_cons_self
    · exact List.mem_cons_of_mem _ (ih h)

variable {asked : List Question}

/-- A question of the list is answered as a run from nothing does, and the memo stays sound. -/
theorem Sound.ask (h : Sound asked m) (hinj : {t | t ∈ hashed asked}.InjOn Sha256.digest)
    (htell : ∀ p ∈ asked, Digest.Tellable p.options) (hq : q ∈ asked) :
    (m.ask q).1.shown = q.fresh.shown ∧ Sound asked (m.ask q).2 := by
  have hin {p : Question} (hp : p ∈ asked) (t : Bytes) (ht : t ∈ p.hashed) : t ∈ hashed asked :=
    List.mem_flatMap.2 ⟨p, hp, ht⟩
  cases hfound : m.entries.lookup q.key with
  | some out =>
    rw [ask_of_lookup hfound]
    obtain ⟨p, hp, hkey, hshown⟩ := h _ (mem_of_lookup hfound)
    exact ⟨hshown.trans (Question.shown_eq_of_key hinj (hin hp) (hin hq) (htell p hp) (htell q hq)
      hkey.symm), h⟩
  | none =>
    rw [ask_of_lookup_eq_none hfound]
    refine ⟨rfl, fun e he => ?_⟩
    obtain he | ⟨rfl, -⟩ := mem_keep he
    · exact h e he
    · exact ⟨q, hq, rfl, rfl⟩

theorem Sound.askAll (h : Sound asked m) (hinj : {t | t ∈ hashed asked}.InjOn Sha256.digest)
    (htell : ∀ p ∈ asked, Digest.Tellable p.options) (hsub : ∀ q ∈ qs, q ∈ asked) :
    (m.askAll qs).1.map FileOutput.shown = qs.map fun q => q.fresh.shown := by
  induction qs generalizing m with
  | nil => rfl
  | cons q qs ih =>
    obtain ⟨hhead, hsound⟩ := h.ask hinj htell (hsub q List.mem_cons_self)
    have htail := ih hsound fun p hp => hsub p (List.mem_cons_of_mem _ hp)
    exact congrArg₂ List.cons hhead htail

/-! ## Memos answer as runs from nothing -/

/-- Where no two texts that are hashed on the way have one hash, and no option hides another, every
answer of a memo has the success and the code of a run from nothing. Whatever it was asked, its hits
and misses add up to the number of questions, it keeps no more than it may, and no failure. -/
theorem answers_fresh (limit : Int) (qs : List Question)
    (hinj : {t | t ∈ hashed qs}.InjOn Sha256.digest)
    (htell : ∀ q ∈ qs, Digest.Tellable q.options) :
    (((new limit).askAll qs).1.map fun out => (out.isOk, out.code)) =
        (qs.map fun q => ((transpileSource q.specifier q.content q.options).isOk,
          (transpileSource q.specifier q.content q.options).code)) ∧
      ∀ n ≤ qs.length, let m := ((new limit).askAll (qs.take n)).2
        m.hits + m.misses = n ∧ m.size ≤ (new limit).limit ∧ ∀ e ∈ m.entries, e.2.isOk = true := by
  have hsound : Sound qs (new limit) := fun _ he => nomatch he
  refine ⟨hsound.askAll hinj htell fun _ => id, fun n hn => ?_⟩
  have hbalanced := (balanced_new limit).askAll (qs.take n)
  rw [Nat.zero_add, List.length_take, Nat.min_eq_left hn] at hbalanced
  refine ⟨hbalanced.counts, ?_, hbalanced.ok⟩
  rw [← limit_askAll (new limit) (qs.take n)]
  exact hbalanced.room

/-- How many diagnostics are told has no part in a key. -/
theorem answers_fresh_limit :
    let qs : List Question :=
      [⟨"a.ts", "let x: T = 1;", {}⟩, ⟨"a.ts", "let x: T = 1;", { maxDiagnostics := 3 }⟩]
    (((new 0).askAll qs).1.map fun out => (out.isOk, out.code)) =
      qs.map fun q => ((transpileSource q.specifier q.content q.options).isOk,
        (transpileSource q.specifier q.content q.options).code) := by
  intro qs
  have hinj : {t | t ∈ hashed qs}.InjOn Sha256.digest := by
    refine injOn_hashed (q := ⟨"a.ts", "let x: T = 1;", {}⟩) (by decide +kernel) ?_
    exact List.forall_mem_cons.2
      ⟨rfl, List.forall_mem_singleton.2 (hashed_eq_of_optionParts rfl rfl rfl)⟩
  exact (answers_fresh 0 qs hinj (by decide +kernel)).1

/-- A definition and two conditions to strip that are hashed as one text: the second question is
given the program of the first, though no two texts hashed on the way have one hash. -/
theorem answer_of_other_options :
    let p : Question := ⟨"a.ts", "x = A;", { defines := [("A", "define")] }⟩
    let q : Question :=
      ⟨"a.ts", "x = A;", { stripConditionals := ["define", "A"].map Bytes.ofString }⟩
    {t | t ∈ hashed [p, q]}.InjOn Sha256.digest ∧
      (((new 0).askAll [p, q]).1.map fun out => (out.isOk, out.code)) =
        [(true, Bytes.ofString "x = define;\n"), (true, Bytes.ofString "x = define;\n")] ∧
      (transpileSource q.specifier q.content q.options).isOk = true ∧
      (transpileSource q.specifier q.content q.options).code = "x = A;\n" := by
  intro p q
  have hhashed : p.hashed = q.hashed := hashed_eq_of_optionParts rfl rfl (by decide +kernel)
  have hp : p.fresh.shown = (true, Bytes.ofString "x = define;\n") := by decide +kernel
  refine ⟨?_, ?_, by decide +kernel, by decide +kernel⟩
  · refine injOn_hashed (q := p) (by decide +kernel) ?_
    exact List.forall_mem_cons.2 ⟨rfl, List.forall_mem_singleton.2 hhashed.symm⟩
  · rw [askAll_pair (congrArg Prod.fst hp) hhashed]
    exact congrArg (fun x => [x, x]) hp

end Memo

end ScriptLower
