import BuildMend.Proofs.FixRun.Cue

/-!
Plays: a run as the tree of its questions.

* `Play`: what is asked, what an answer leads to, and which attempts are added on the way.
* `Scene`: the files, the answers that are left, and the attempts and answers so far.
* `Play.run`: a play goes on from answer to answer until one of them is a failure.
* `Mender.Ending`, `Play.run_grows`: only the last answer of a play can be a failure, and then it is the
  one that the play ends in.
* `Play.attempts_prefix`: two runs of a play that get the same answers up to the failure of the first
  one make the attempts of the first one.
-/

namespace BuildMend

open Act

/-! ### Plays -/

/-- What a run cannot do whatever it is answered. -/
inductive Obstacle where
  /-- The directory of an operation cannot be looked for. -/
  | pathTooLong (path : String)
  /-- The limit for an answer cannot be set. -/
  | numberTooLarge

/-- An obstacle as a failure. -/
def Obstacle.failure : Obstacle → Failure
  | .pathTooLong path => .pathTooLong path
  | .numberTooLarge => .numberTooLarge

lemma Obstacle.failure_ne_fault (o : Obstacle) (f : Fault) : o.failure ≠ .fault f := by
  cases o <;> simp [Obstacle.failure]

/-- What a run does as its surroundings answer it. -/
inductive Play (α : Type) : Type where
  /-- The end. -/
  | done (a : α)
  /-- It goes on unless the files are an obstacle. -/
  | require (problem? : FileTree → Option Obstacle) (rest : Play α)
  /-- A question, and what follows each of its answers. -/
  | ask (q : Question) (rest : q.Answer → Play α)
  /-- An attempt is added. -/
  | attempt (a : Attempt) (rest : Play α)

/-- Where a play stands. -/
structure Scene where
  tree : FileTree
  supply : Supply
  attempts : List Attempt := []
  /-- The questions so far and their answers. -/
  cues : List Cue := []

namespace Scene

/-- The scene after a question; what its answer leaves behind counts if it is no failure. -/
def asked (s : Scene) (q : Question) : Scene :=
  { tree := s.tree.leave (s.supply.cue q).leavings
    supply := s.supply.after q
    attempts := s.attempts
    cues := s.cues ++ [s.supply.cue q] }

/-- The scene with another attempt. -/
def add (s : Scene) (a : Attempt) : Scene := { s with attempts := s.attempts ++ [a] }

end Scene

namespace Play

variable {α β : Type} {m : Mender}

/-- One play, and another for what it ends in. -/
def bind : Play α → (α → Play β) → Play β
  | .done a, f => f a
  | .require problem? rest, f => .require problem? (rest.bind f)
  | .ask q rest, f => .ask q fun a => (rest a).bind f
  | .attempt a rest, f => .attempt a (rest.bind f)

instance : Monad Play where
  pure := .done
  bind := .bind

/-- A play goes on from answer to answer until one of them is a failure. -/
def run (m : Mender) : Play α → Act Scene α
  | .done a => pure a
  | .require problem? rest => fun s =>
    match problem? s.tree with
    | some o => (.error o.failure, s)
    | none => rest.run m s
  | .ask q rest => fun s =>
    match m.failure? (s.supply.cue q) with
    | some f => (.error f, s.asked q)
    | none => (rest (s.supply.answer q)).run m (s.asked q)
  | .attempt a rest => fun s => rest.run m (s.add a)

@[simp] lemma run_done (a : α) : (Play.done a).run m = pure a := rfl

@[simp] lemma run_pure (a : α) : (pure a : Play α).run m = pure a := rfl

lemma run_require_some {problem? : FileTree → Option Obstacle} {rest : Play α} {s : Scene}
    {o : Obstacle} (h : problem? s.tree = some o) :
    (Play.require problem? rest).run m s = (.error o.failure, s) := by
  simp only [run, h]

lemma run_require_none {problem? : FileTree → Option Obstacle} {rest : Play α} {s : Scene}
    (h : problem? s.tree = none) : (Play.require problem? rest).run m s = rest.run m s := by
  simp only [run, h]

lemma run_ask_some {q : Question} {rest : q.Answer → Play α} {s : Scene} {f : Failure}
    (h : m.failure? (s.supply.cue q) = some f) :
    (Play.ask q rest).run m s = (.error f, s.asked q) := by
  simp only [run, h]

lemma run_ask_none {q : Question} {rest : q.Answer → Play α} {s : Scene}
    (h : m.failure? (s.supply.cue q) = none) :
    (Play.ask q rest).run m s = (rest (s.supply.answer q)).run m (s.asked q) := by
  simp only [run, h]

lemma ends_require {problem? : FileTree → Option Obstacle} {rest : Play α} {s : Scene}
    {Q : α → Scene → Prop} {E : Failure → Scene → Prop} (hE : ∀ f, E f s)
    (hrest : (rest.run m).Ends s Q E) : ((Play.require problem? rest).run m).Ends s Q E := by
  cases h : problem? s.tree with
  | some o =>
    rw [Ends, run_require_some h]
    exact hE _
  | none =>
    rw [Ends, run_require_none h]
    exact hrest

lemma ends_ask {q : Question} {rest : q.Answer → Play α} {s : Scene} {Q : α → Scene → Prop}
    {E : Failure → Scene → Prop}
    (hE : ∀ f, m.failure? (s.supply.cue q) = some f → E f (s.asked q))
    (hrest : m.failure? (s.supply.cue q) = none →
      ((rest (s.supply.answer q)).run m).Ends (s.asked q) Q E) :
    ((Play.ask q rest).run m).Ends s Q E := by
  cases h : m.failure? (s.supply.cue q) with
  | some f =>
    rw [Ends, run_ask_some h]
    exact hE f h
  | none =>
    rw [Ends, run_ask_none h]
    exact hrest h

/-- Two plays in a row go on like their runs. -/
lemma run_bind (p : Play α) (f : α → Play β) :
    (p >>= f).run m = p.run m >>= fun a => (f a).run m := by
  funext s
  rw [bind_apply]
  induction p generalizing s with
  | done a => rfl
  | require problem? rest ih =>
    cases h : problem? s.tree with
    | some o =>
      rw [run_require_some h]
      exact run_require_some h
    | none =>
      rw [run_require_none h]
      exact (run_require_none h).trans (ih s)
  | ask q rest ih =>
    cases h : m.failure? (s.supply.cue q) with
    | some f' =>
      rw [run_ask_some h]
      exact run_ask_some h
    | none =>
      rw [run_ask_none h]
      exact (run_ask_none h).trans (ih _ _)
  | attempt a rest ih => exact ih _

end Play

/-! ### How plays end -/

/-- What a play ends in after some answers.  All of them are no failures, or only the last one is, in
which the play ends. -/
inductive Mender.Ending {α : Type} (m : Mender) : Except Failure α → List Cue → Prop
  | returned {a cs} (h : ∀ c ∈ cs, m.failure? c = none) : Ending m (.ok a) cs
  | failed {before c f} (h : ∀ x ∈ before, m.failure? x = none) (hc : m.failure? c = some f) :
      Ending m (.error f) (before ++ [c])
  | obstructed {cs} (h : ∀ c ∈ cs, m.failure? c = none) (o : Obstacle) :
      Ending m (.error o.failure) cs

namespace Mender.Ending

variable {α : Type} {m : Mender} {r : Except Failure α} {c : Cue} {cs : List Cue} {f : Failure}

lemma cons (h : m.Ending r cs) (hc : m.failure? c = none) : m.Ending r (c :: cs) := by
  have hall {ds : List Cue} (hds : ∀ d ∈ ds, m.failure? d = none) :
      ∀ d ∈ c :: ds, m.failure? d = none := by simpa [hc] using hds
  cases h with
  | returned h => exact .returned (hall h)
  | @failed before d f h hd => exact @Ending.failed _ _ (c :: before) d f (hall h) hd
  | obstructed h o => exact .obstructed (hall h) o

/-- An answer that is a failure is the last one, and the play ends in it. -/
lemma eq_of_failure (h : m.Ending r cs) (hc : c ∈ cs) (hf : m.failure? c = some f) :
    r = .error f := by
  have hno {ds : List Cue} (hds : ∀ d ∈ ds, m.failure? d = none) (hmem : c ∈ ds) : False := by
    rw [hds c hmem] at hf
    cases hf
  cases h with
  | returned h => exact (hno h hc).elim
  | @failed before d g h hd =>
    rcases List.mem_append.mp hc with hmem | hmem
    · exact (hno h hmem).elim
    · obtain rfl := List.mem_singleton.mp hmem
      rw [Option.some.inj (hd.symm.trans hf)]
  | obstructed h => exact (hno h hc).elim

/-- A play that ends in a failure meets it in its last answer, or an obstacle. -/
lemma exists_of_error (h : m.Ending (.error f : Except Failure α) cs) :
    (∃ before c, cs = before ++ [c] ∧ (∀ x ∈ before, m.failure? x = none) ∧
      m.failure? c = some f) ∨ ∃ o : Obstacle, f = o.failure := by
  cases h with
  | failed h hc => exact .inl ⟨_, _, rfl, h, hc⟩
  | obstructed h o => exact .inr ⟨o, rfl⟩

end Mender.Ending

namespace Play

variable {α : Type} {m : Mender}

/-- A play gets the next answers of its supply, and only adds attempts. -/
theorem run_grows (p : Play α) (s : Scene) :
    ∃ cs, (p.run m s).2.cues = s.cues ++ cs ∧ cs = s.supply.cues (cs.map Cue.question) ∧
      s.attempts <+: (p.run m s).2.attempts ∧ m.Ending (p.run m s).1 cs := by
  induction p generalizing s with
  | done a => exact ⟨[], (List.append_nil _).symm, rfl, List.prefix_rfl, .returned (by simp)⟩
  | require problem? rest ih =>
    cases h : problem? s.tree with
    | some o =>
      rw [run_require_some h]
      exact ⟨[], (List.append_nil _).symm, rfl, List.prefix_rfl, .obstructed (by simp) o⟩
    | none =>
      rw [run_require_none h]
      exact ih s
  | ask q rest ih =>
    cases h : m.failure? (s.supply.cue q) with
    | some f =>
      rw [run_ask_some h]
      exact ⟨[s.supply.cue q], rfl, rfl, List.prefix_rfl,
        @Mender.Ending.failed _ _ [] _ f (by simp) h⟩
    | none =>
      rw [run_ask_none h]
      obtain ⟨cs, hcues, hcs, hattempts, hend⟩ := ih (s.supply.answer q) (s.asked q)
      refine ⟨s.supply.cue q :: cs, ?_, ?_, hattempts, hend.cons h⟩
      · rw [hcues, Scene.asked, List.append_assoc, List.singleton_append]
      · exact congrArg (s.supply.cue q :: ·) hcs
  | attempt a rest ih =>
    obtain ⟨cs, hcues, hcs, hattempts, hend⟩ := ih (s.add a)
    exact ⟨cs, hcues, hcs, (List.prefix_append _ _).trans hattempts, hend⟩

/-- From scenes with the same files and attempts, a run that ends with a failure among its answers has
made the first attempts of every run that gets the same answers up to there. -/
theorem attempts_prefix (p : Play α) {s s' : Scene} {before : List Cue} {c : Cue}
    (htree : s'.tree = s.tree) (hattempts : s'.attempts = s.attempts)
    (hcues : (p.run m s).2.cues = s.cues ++ (before ++ [c])) (hc : m.failure? c ≠ none)
    (hagree : s'.supply.cues (before.map Cue.question) = before) :
    (p.run m s).2.attempts <+: (p.run m s').2.attempts := by
  induction p generalizing s s' before with
  | done a => rw [run_done, pure_apply, pure_apply, hattempts]
  | require problem? rest ih =>
    cases h : problem? s.tree with
    | some o =>
      rw [run_require_some h, run_require_some (htree ▸ h), hattempts]
    | none =>
      rw [run_require_none h] at hcues ⊢
      rw [run_require_none (htree ▸ h)]
      exact ih htree hattempts hcues hagree
  | ask q rest ih =>
    cases h : m.failure? (s.supply.cue q) with
    | some f =>
      obtain ⟨-, -, -, hgrows, -⟩ := (Play.ask q rest).run_grows (m := m) s'
      rw [run_ask_some h]
      exact hattempts ▸ hgrows
    | none =>
      rw [run_ask_none h] at hcues ⊢
      obtain ⟨cs, hcs, -⟩ := (rest (s.supply.answer q)).run_grows (m := m) (s.asked q)
      have hfirst : s.supply.cue q :: cs = before ++ [c] := by
        rw [hcs, Scene.asked, List.append_assoc] at hcues
        exact List.append_cancel_left hcues
      -- the first answer is no failure, so it comes before the failure and both runs get it
      cases before with
      | nil =>
        obtain ⟨rfl, -⟩ := List.cons.inj hfirst
        exact absurd h hc
      | cons b before =>
        obtain ⟨rfl, rfl⟩ := List.cons.inj hfirst
        obtain ⟨hsame, hrest⟩ := List.cons.inj hagree
        have hanswer : s'.supply.answer q = s.supply.answer q := by injection hsame
        rw [run_ask_none (hsame.symm ▸ h), hanswer]
        refine ih _ ?_ hattempts hcs hrest
        rw [Scene.asked, Scene.asked, htree, show s'.supply.cue q = s.supply.cue q from hsame]
  | attempt a rest ih =>
    exact ih htree (by rw [Scene.add, Scene.add, hattempts]) hcues hagree

end Play

end BuildMend
