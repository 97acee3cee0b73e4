import BuildMend.Proofs.FixRun.Follow

/-!
The attempts of a play, counted by the builds of its phases.

* `Scene.made`, `Scene.builds`: how many attempts of a phase have been made, and how many of its builds
  have ended by themselves.
* `Mender.Tally`: the first build of a phase opens it, and each further one makes an attempt.
* `Mender.play_tally`: so a play has made one attempt less than builds of a phase have ended, wherever
  it ends.
* `World.scripts_cues`: the builds among the answers to a run are those that its deeds start.
-/

namespace BuildMend

open Act Number World

/-! ### Counting -/

namespace Cue

/-- The script of a process for an operation, if that is the answer. -/
def script? (mode : BuildMode) : Cue → Option ProcessScript
  | ⟨.process mode', p⟩ => if mode' = mode then some p else none
  | _ => none

/-- The number of processes for an operation that end by themselves. -/
def ended (mode : BuildMode) (limit : Option Amount) (cs : List Cue) : Nat :=
  (cs.filterMap (script? mode)).countP (·.endsByItself limit)

lemma ended_append {mode : BuildMode} {limit : Option Amount} (cs ds : List Cue) :
    ended mode limit (cs ++ ds) = ended mode limit cs + ended mode limit ds := by
  rw [ended, List.filterMap_append, List.countP_append]
  rfl

end Cue

namespace Scene

/-- The number of attempts of a phase that have been made. -/
def made (t : Scene) (phase : Phase) : Nat := t.attempts.countP (·.phase = phase)

/-- The number of builds of a phase that have ended by themselves. -/
def builds (t : Scene) (limit : Option Amount) (phase : Phase) : Nat :=
  Cue.ended phase.buildMode limit t.cues

end Scene

namespace Mender

variable {m : Mender} {phase φ : Phase} {opened : Bool} {t : Scene}

/-- A phase has been opened by its first build, or not, and each further build has made an attempt. -/
structure Tally (m : Mender) (phase : Phase) (opened : Bool) (t : Scene) : Prop where
  builds : t.builds m.tool.limit phase = t.made phase + opened.toNat
  unopened : opened = false → t.made phase = 0

lemma Tally.made_eq (h : m.Tally phase opened t) :
    t.made phase = t.builds m.tool.limit phase - 1 := by
  rw [h.builds]
  cases opened with
  | false => simp [h.unopened rfl]
  | true => simp

/-! ### Questions -/

/-- A build counts if its answer is no failure. -/
lemma ended_process {mode mode' : BuildMode} {p : ProcessScript} :
    Cue.ended mode m.tool.limit [⟨.process mode', p⟩] =
      if mode' = mode ∧ m.failure? ⟨.process mode', p⟩ = none then 1 else 0 := by
  have hends : m.failure? ⟨.process mode', p⟩ = none ↔ p.endsByItself m.tool.limit = true :=
    ProcessScript.failure?_eq_none_iff
  simp only [hends, Cue.ended]
  by_cases hmode : mode' = mode <;> by_cases hp : p.endsByItself m.tool.limit = true <;>
    simp [Cue.script?, hmode, hp]

/-- Questions other than for builds of a phase are not counted. -/
lemma Tally.asked_other (h : m.Tally φ opened t) {q : Question} (hq : q ≠ .process φ.buildMode) :
    m.Tally φ opened (t.asked q) where
  builds := by
    have hnone : (t.supply.cue q).script? φ.buildMode = none := by
      cases q with
      | process mode =>
        have hmode : mode ≠ φ.buildMode := fun h => hq (h ▸ rfl)
        simp [Supply.cue, Cue.script?, hmode]
      | connect => rfl
      | turn => rfl
    have hzero : Cue.ended φ.buildMode m.tool.limit [t.supply.cue q] = 0 := by
      rw [Cue.ended, List.filterMap_cons_none hnone]
      rfl
    have hb := h.builds
    rw [Scene.builds] at hb ⊢
    rw [Scene.asked, Cue.ended_append, hzero, hb]
    rfl
  unopened := h.unopened

/-- A build that ends in a failure is not counted. -/
lemma Tally.asked_failed (h : m.Tally φ opened t) {mode : BuildMode} {f : Failure}
    (hf : m.failure? (t.supply.cue (.process mode)) = some f) :
    m.Tally φ opened (t.asked (.process mode)) where
  builds := by
    have hzero : Cue.ended φ.buildMode m.tool.limit [t.supply.cue (.process mode)] = 0 := by
      rw [Supply.cue, ended_process, if_neg]
      rintro ⟨-, hnone⟩
      exact Option.some_ne_none f (hf.symm.trans hnone)
    have hb := h.builds
    rw [Scene.builds] at hb ⊢
    rw [Scene.asked, Cue.ended_append, hzero, hb]
    rfl
  unopened := h.unopened

/-- The first build of a phase that ends by itself opens it. -/
lemma Tally.asked_first (h : m.Tally phase false t)
    (hok : m.failure? (t.supply.cue (.process phase.buildMode)) = none) :
    m.Tally phase true (t.asked (.process phase.buildMode)) where
  builds := by
    have hb := h.builds
    rw [Scene.builds] at hb ⊢
    rw [Scene.asked, Cue.ended_append, hb, Supply.cue, ended_process, if_pos ⟨rfl, hok⟩]
    rfl
  unopened := by simp

lemma made_add (t : Scene) (a : Attempt) (φ : Phase) :
    (t.add a).made φ = t.made φ + if a.phase = φ then 1 else 0 := by
  rw [Scene.made, Scene.add, List.countP_append, List.countP_singleton]
  simp [Scene.made]

/-- A further build of a phase that ends by itself, and the attempt that it makes. -/
lemma Tally.asked_again (h : m.Tally φ opened t) (hopened : phase = φ → opened = true)
    (hok : m.failure? (t.supply.cue (.process phase.buildMode)) = none) {a : Attempt}
    (ha : a.phase = phase) :
    m.Tally φ opened ((t.asked (.process phase.buildMode)).add a) := by
  by_cases hphase : phase = φ
  · subst hphase
    obtain rfl := hopened rfl
    refine ⟨?_, by simp⟩
    have hb := h.builds
    rw [Scene.builds] at hb
    rw [made_add, if_pos ha, Scene.builds, Scene.add, Scene.asked, Cue.ended_append, hb, Supply.cue,
      ended_process, if_pos ⟨rfl, hok⟩]
    exact Nat.add_right_comm _ _ _
  · have hmode : phase.buildMode ≠ φ.buildMode := by
      cases phase <;> cases φ <;> simp_all [Phase.buildMode]
    have hasked : m.Tally φ opened (t.asked (.process phase.buildMode)) :=
      h.asked_other fun hq => hmode (Question.process.inj hq)
    have hmade : ((t.asked (.process phase.buildMode)).add a).made φ
        = (t.asked (.process phase.buildMode)).made φ := by
      rw [made_add, if_neg (by rwa [ha])]
      rfl
    exact ⟨by rw [hmade]; exact hasked.builds, fun ho => by rw [hmade]; exact hasked.unopened ho⟩

/-! ### Parts of a play -/

lemma build_tally_other (h : m.Tally φ opened t) {mode : BuildMode} (hmode : mode ≠ φ.buildMode) :
    ((m.buildPlay mode).run m).Ends t (fun _ => m.Tally φ opened) fun _ => m.Tally φ opened := by
  have hasked : m.Tally φ opened (t.asked (.process mode)) :=
    h.asked_other fun hq => hmode (Question.process.inj hq)
  exact Play.ends_require (fun _ => h) (Play.ends_ask (fun _ _ => hasked) fun _ => hasked)

lemma regenerate_tally (h : m.Tally φ opened t) :
    (m.regeneratePlay.run m).Ends t (fun _ => m.Tally φ opened) fun _ => m.Tally φ opened := by
  rw [regeneratePlay, Play.run_bind, ends_bind]
  exact (build_tally_other h (by cases φ <;> simp [Phase.buildMode])).mono (fun _ _ h => h)
    fun _ _ h => h

lemma opening_tally (h : m.Tally phase false t) :
    ((m.buildPlay phase.buildMode).run m).Ends t (fun _ => m.Tally phase true)
      fun _ => m.Tally phase false :=
  Play.ends_require (fun _ => h) (Play.ends_ask (fun _ hf => h.asked_failed hf) fun hok => h.asked_first hok)

lemma ask_tally (h : m.Tally φ opened t) :
    (m.askPlay.run m).Ends t (fun _ => m.Tally φ opened) fun _ => m.Tally φ opened :=
  Play.ends_require (fun _ => h)
    (Play.ends_ask (fun _ _ => h.asked_other (by simp)) fun _ => h.asked_other (by simp))

/-- A build of an attempt that ends by itself lacks only the attempt. -/
lemma rebuild_tally (h : m.Tally φ opened t) (hopened : phase = φ → opened = true) :
    ((m.rebuildPlay phase).run m).Ends t
      (fun _ t' => ∀ a : Attempt, a.phase = phase → m.Tally φ opened (t'.add a))
      fun _ => m.Tally φ opened := by
  have hbuild {t : Scene} (h : m.Tally φ opened t) :
      ((m.buildPlay phase.buildMode).run m).Ends t
        (fun _ t' => ∀ a : Attempt, a.phase = phase → m.Tally φ opened (t'.add a))
        fun _ => m.Tally φ opened :=
    Play.ends_require (fun _ => h)
      (Play.ends_ask (fun _ hf => h.asked_failed hf) fun hok a ha => h.asked_again hopened hok ha)
  rw [rebuildPlay]
  split
  · rw [Play.run_bind, ends_bind]
    exact (regenerate_tally h).mono (fun _ _ h => hbuild h) fun _ _ h => h
  · exact hbuild h

/-- An attempt is made for its build, if that ends by itself. -/
lemma try_tally {number : Nat} {current : Build} (h : m.Tally φ opened t)
    (hopened : phase = φ → opened = true) :
    ((m.tryPlay phase number current).run m).Ends t (fun _ => m.Tally φ opened)
      fun _ => m.Tally φ opened := by
  rw [tryPlay, Play.run_bind, ends_bind]
  refine (ask_tally h).mono (fun answer t h => ?_) fun _ _ h => h
  rw [Play.run_bind, ends_bind]
  exact (rebuild_tally h hopened).mono (fun rebuilt t h => h _ rfl) fun _ _ h => h

lemma loop_tally {offset left : Nat} {current : Build} (h : m.Tally φ opened t)
    (hopened : phase = φ → opened = true) :
    ((m.loopPlay phase offset left current).run m).Ends t (fun _ => m.Tally φ opened)
      fun _ => m.Tally φ opened := by
  induction left generalizing current t with
  | zero => exact h
  | succ left ih =>
    simp only [loopPlay]
    rw [Play.run_bind, ends_bind]
    refine (try_tally h hopened).mono (fun rebuilt t h => ?_) fun _ _ h => h
    split
    · exact h
    · exact ih h

lemma phase_tally {build : Build} {offset : Nat} (h : m.Tally φ opened t)
    (hopened : phase = φ → opened = true) :
    ((m.phasePlay phase build offset).run m).Ends t (fun _ => m.Tally φ opened)
      fun _ => m.Tally φ opened :=
  Play.ends_ask (fun _ _ => h.asked_other (by simp))
    fun _ => loop_tally (h.asked_other (by simp)) hopened

/-! ### The whole play -/

/-- The build of a phase, and its attempts if it fails. -/
lemma opened_tally {α : Type} {mode : BuildMode} {done : Build → Play α} {rest : Build → Play α}
    {Q : α → Scene → Prop} {E : Failure → Scene → Prop}
    (hbuild : ((m.buildPlay mode).run m).Ends t (fun _ => m.Tally φ opened) E)
    (hdone : ∀ build t', m.Tally φ opened t' → ((done build).run m).Ends t' Q E)
    (hrest : ∀ build t', m.Tally φ opened t' → ((rest build).run m).Ends t' Q E) :
    ((do
      let build ← m.buildPlay mode
      if build.success then done build else rest build : Play α).run m).Ends t Q E := by
  rw [Play.run_bind, ends_bind]
  refine hbuild.mono (fun build t' h => ?_) fun _ _ h => h
  split
  · exact hdone build t' h
  · exact hrest build t' h

/-- A phase, and what follows it. -/
lemma mended_tally {α : Type} {build : Build} {offset : Nat} {rest : Bool × Nat → Play α}
    {Q : α → Scene → Prop} (h : m.Tally φ opened t) (hopened : phase = φ → opened = true)
    (hrest : ∀ r t', m.Tally φ opened t' →
      ((rest r).run m).Ends t' Q fun _ t' => ∃ opened, m.Tally φ opened t') :
    ((m.phasePlay phase build offset >>= rest).run m).Ends t Q
      fun _ t' => ∃ opened, m.Tally φ opened t' := by
  rw [Play.run_bind, ends_bind]
  exact (phase_tally h hopened).mono hrest fun _ _ h => ⟨_, h⟩

lemma solution_tally {used : Nat} (h : m.Tally φ opened t)
    (hunopened : φ = .solution → opened = false) :
    ((m.solutionPlay used).run m).Ends t (fun _ t' => ∃ opened, m.Tally φ opened t')
      fun _ t' => ∃ opened, m.Tally φ opened t' := by
  rw [solutionPlay]
  cases φ with
  | source =>
    have hbuild := build_tally_other h (show BuildMode.solution ≠ _ by simp [Phase.buildMode])
    refine opened_tally (hbuild.mono (fun _ _ h => h) fun _ _ h => ⟨_, h⟩) (fun _ _ h => ⟨_, h⟩) ?_
    exact fun build _ h => mended_tally h (by simp) fun _ _ h => ⟨_, h⟩
  | solution =>
    obtain rfl := hunopened rfl
    refine opened_tally ((opening_tally h).mono (fun _ _ h => h) fun _ _ h => ⟨_, h⟩)
      (fun _ _ h => ⟨_, h⟩) ?_
    exact fun build _ h => mended_tally h (fun _ => rfl) fun _ _ h => ⟨_, h⟩

/-- Wherever a play ends, it has made one attempt less than builds of a phase have ended by
themselves, or none if none has. -/
theorem play_tally (h : m.Tally φ false t) :
    (m.play.run m).Ends t (fun _ t' => ∃ opened, m.Tally φ opened t')
      fun _ t' => ∃ opened, m.Tally φ opened t' := by
  rw [play, Play.run_bind, ends_bind]
  refine (regenerate_tally h).mono (fun _ t h => ?_) fun _ _ h => ⟨_, h⟩
  cases φ with
  | source =>
    refine opened_tally ((opening_tally h).mono (fun _ _ h => h) fun _ _ h => ⟨_, h⟩)
      (fun _ _ h => ⟨_, h⟩) fun build _ h => mended_tally h (fun _ => rfl) ?_
    rintro ⟨success, used⟩ t h
    simp only
    split
    · exact solution_tally h (by simp)
    · exact ⟨_, h⟩
  | solution =>
    have hbuild := build_tally_other h (show BuildMode.source ≠ _ by simp [Phase.buildMode])
    refine opened_tally (hbuild.mono (fun _ _ h => h) fun _ _ h => ⟨_, h⟩) (fun _ _ h => ⟨_, h⟩)
      fun build _ h => mended_tally h (by simp) ?_
    rintro ⟨success, used⟩ t h
    simp only
    split
    · exact solution_tally h fun _ => rfl
    · exact ⟨_, h⟩

end Mender

/-! ### The builds among the answers -/

namespace World

variable {w : World} {s : Supply} {mode : BuildMode}

lemma scriptsOf_cons_start {mode' : BuildMode} {command : List String} {directory : String}
    {es : List Event} :
    w.scriptsOf mode (.start mode' command directory :: es) =
      (if mode' = mode then [w.process 0] else []) ++
        { w with processes := w.processes.tail }.scriptsOf mode es := by
  have hd : w.Did [.start mode' command directory]
      { w with
        processes := w.processes.tail
        past := .start mode' command directory :: w.past } :=
    ⟨List.drop_one.symm, rfl, by simp [World.deeds, World.trace, Event.isDeed]⟩
  have hfirst : w.scriptsOf mode [.start mode' command directory] =
      if mode' = mode then [w.process 0] else [] := by
    split
    · subst mode'
      exact scriptsOf_singleton rfl
    · rename_i hmode
      exact scriptsOf_eq_nil (by simpa [startedModes, Event.mode?] using Ne.symm hmode)
  rw [← List.singleton_append, scriptsOf_append hd, hfirst]
  rfl

lemma scriptsOf_cons_of_none {e : Event} {es : List Event} (h : e.mode? = none) :
    w.scriptsOf mode (e :: es) = w.scriptsOf mode es := by
  rw [scriptsOf, startedModes_cons_of_none h]
  rfl

/-- The processes for an operation among the answers to some deeds are those that the deeds start. -/
lemma scripts_cues (h : s.processes = w.processes) (es : List Event) :
    (s.cues (es.filterMap Event.question?)).filterMap (Cue.script? mode) =
      w.scriptsOf mode es := by
  induction es generalizing s w with
  | nil => rfl
  | cons e es ih =>
    cases e with
    | start mode' command directory =>
      have hanswer : s.answer (.process mode') = w.process 0 := by
        rw [Supply.answer, h, World.process]
        cases w.processes <;> rfl
      have hrest := @ih { w with processes := w.processes.tail } (s.after (.process mode'))
        (congrArg List.tail h)
      rw [scriptsOf_cons_start, ← hrest]
      show ((s.cue (.process mode')) :: _).filterMap _ = _
      rw [← List.singleton_append, List.filterMap_append, Supply.cue, hanswer]
      congr 1
      split <;> simp [Cue.script?, *]
    | connect => exact (@ih w (s.after .connect) h).trans (scriptsOf_cons_of_none rfl).symm
    | query prompt => exact (@ih w (s.after .turn) h).trans (scriptsOf_cons_of_none rfl).symm
    | _ => exact (ih h).trans (scriptsOf_cons_of_none rfl).symm

end World

end BuildMend
