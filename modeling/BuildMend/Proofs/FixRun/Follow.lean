import BuildMend.Proofs.FixRun.Play

/-!
A run follows a play.

* `Act.Follows`: two acts end alike, in states that stand in a relation.
* `Mender.play`: the play of a run: its operations, its prompts and its attempts, and nothing of what it
  logs or shows.
* `Mender.Recorded`, `Mender.Shows`, `Mender.Staged`: a scene tells the deeds, the files and the
  attempts of a run under way.
* `Mender.phases_follows`: a run that nothing in its set-up hinders goes as its play says, whatever its
  surroundings answer, as long as clients leave.
-/

namespace BuildMend

open Number

/-! ### Acts beside each other -/

namespace Act

variable {σ τ υ α β γ δ : Type}

/-- From two states two acts end alike: both in values, or both in the same failure. -/
def Follows (a : Act σ α) (b : Act τ β) (s : σ) (t : τ) (K : α → β → σ → τ → Prop)
    (E : σ → τ → Prop) : Prop :=
  a.Ends s (fun x s' => ∃ y t', b t = (.ok y, t') ∧ K x y s' t')
    fun f s' => ∃ t', b t = (.error f, t') ∧ E s' t'

section Rules

variable {a : Act σ α} {b : Act τ β} {s : σ} {t : τ} {K : α → β → σ → τ → Prop} {E : σ → τ → Prop}

lemma follows_pure {x : α} {y : β} (h : K x y s t) : (pure x : Act σ α).Follows (pure y) s t K E :=
  ⟨y, t, rfl, h⟩

/-- Two acts in a row beside two acts in a row. -/
lemma Follows.bind {f : α → Act σ γ} {g : β → Act τ δ} {L : γ → δ → σ → τ → Prop}
    (h : a.Follows b s t K E) (hf : ∀ x y s' t', K x y s' t' → (f x).Follows (g y) s' t' L E) :
    (a >>= f).Follows (b >>= g) s t L E := by
  rw [Follows, ends_bind]
  refine Ends.mono h ?_ ?_
  · rintro x s' ⟨y, t', hb, hk⟩
    rw [bind_of_ok hb]
    exact hf x y s' t' hk
  · rintro e s' ⟨t', hb, he⟩
    exact ⟨t', by rw [bind_apply, hb], he⟩

/-- An act on a part of a state. -/
lemma follows_zoom {part : υ → σ} {withPart : υ → σ → υ} {u : υ} {K : α → β → υ → τ → Prop}
    {E : υ → τ → Prop} :
    (a.zoom part withPart).Follows b u t K E ↔
      a.Follows b (part u) t (fun x y s' t' => K x y (withPart u s') t')
        fun s' t' => E (withPart u s') t' :=
  ends_zoom

/-- A closing act that cannot fail changes nothing of how an act ends. -/
lemma Follows.closing {close : Act σ Unit} {L : α → β → σ → τ → Prop} {F : σ → τ → Prop}
    (h : a.Follows b s t K E)
    (hK : ∀ x y s' t', K x y s' t' → close.Ends s' (fun _ u => L x y u t') fun _ _ => False)
    (hE : ∀ s' t', E s' t' → F s' t' ∧ close.Ends s' (fun _ u => F u t') fun _ _ => False) :
    (closing a close).Follows b s t L F := by
  rw [Follows, ends_closing]
  refine Ends.mono h ?_ ?_
  · rintro x s' ⟨y, t', hb, hk⟩
    exact (hK x y s' t' hk).mono (fun _ u hu => ⟨y, t', hb, hu⟩) fun _ _ => False.elim
  · rintro f s' ⟨t', hb, he⟩
    refine ⟨fun _ => ⟨t', hb, (hE s' t' he).1⟩, fun _ => ?_⟩
    exact (hE s' t' he).2.mono (fun _ u hu => ⟨t', hb, hu⟩) fun _ _ => False.elim

end Rules

end Act

open Act World

namespace Mender

variable {m : Mender}

/-! ### The play of a run -/

/-- The obstacle for an operation: the directory of the sources cannot be looked for. -/
def sourcesTooLong? (m : Mender) (mode : BuildMode) (t : FileTree) : Option Obstacle :=
  if mode.worksInSources && t.isTooLong (m.project ++ ["src"]) then
    some (.pathTooLong (m.project ++ ["src"]).fullText)
  else none

/-- The obstacle for a prompt: its limit cannot be set. -/
def limitTooLarge? (m : Mender) : Option Obstacle :=
  if m.assistant.limit.any (·.isTooLarge) then some .numberTooLarge else none

/-- The play of an operation. -/
def buildPlay (m : Mender) (mode : BuildMode) : Play Build :=
  .require (m.sourcesTooLong? mode) (.ask (.process mode) fun p => .done (p.build mode))

/-- The play of generating the sources anew. -/
def regeneratePlay (m : Mender) : Play Unit := do
  let _ ← m.buildPlay .regenerate
  return ()

/-- The play of the build of an attempt. -/
def rebuildPlay (m : Mender) (phase : Phase) : Play Build := do
  if phase.regenerates then m.regeneratePlay
  m.buildPlay phase.buildMode

/-- The play of a prompt. -/
def askPlay (m : Mender) : Play String :=
  .require (fun _ => m.limitTooLarge?) (.ask .turn fun t => .done t.answer)

/-- The play of one attempt. -/
def tryPlay (m : Mender) (phase : Phase) (number : Nat) (current : Build) : Play Build := do
  let answer ← m.askPlay
  let rebuilt ← m.rebuildPlay phase
  .attempt (m.attemptOf phase number current rebuilt answer) (.done rebuilt)

/-- The play of the attempts of a phase. -/
def loopPlay (m : Mender) (phase : Phase) (offset : Nat) :
    (left : Nat) → (current : Build) → Play (Bool × Nat)
  | 0, _ => return (false, m.settings.budget phase)
  | left + 1, current => do
    let index := m.settings.budget phase - left
    let rebuilt ← m.tryPlay phase (offset + index) current
    if rebuilt.success then return (true, index)
    else m.loopPlay phase offset left rebuilt

/-- The play of a phase. -/
def phasePlay (m : Mender) (phase : Phase) (build : Build) (offset : Nat) : Play (Bool × Nat) :=
  .ask .connect fun _ => m.loopPlay phase offset (m.settings.budget phase) build

/-- The play of building and mending the solution. -/
def solutionPlay (m : Mender) (used : Nat) : Play Unit := do
  let build ← m.buildPlay .solution
  if build.success then return ()
  else
    let _ ← m.phasePlay .solution build used
    return ()

/-- The play of a run. -/
def play (m : Mender) : Play Unit := do
  m.regeneratePlay
  let build ← m.buildPlay .source
  if build.success then return ()
  else
    let (success, used) ← m.phasePlay .source build 0
    if success then m.solutionPlay used else return ()

/-! ### What a scene tells of a run -/

/-- A scene tells the attempts of a run and the questions among its deeds since it began in a world
`w`. -/
structure Recorded (w : World) (as : List Attempt) (v : World) (t : Scene) : Prop where
  deeds : ∃ es, v.deeds = w.deeds ++ es ∧
    es.filterMap Event.question? = t.cues.map Cue.question
  attempts : t.attempts = as

/-- A scene tells besides what comes next: the files and the answers that are left.  The client that is
connected is the given one, and every further client leaves. -/
structure Shows (w : World) (as : List Attempt) (c : ClientScript) (v : World) (t : Scene) : Prop
    extends Recorded w as v t where
  tree : t.tree = v.tree
  processes : t.supply.processes = v.processes
  clients : t.supply.clients = v.clients
  current : t.supply.current = c
  leaves : ∀ d ∈ v.clients, d.leaves = true

section Scenes

variable {w v u : World} {as : List Attempt} {c : ClientScript} {t : Scene} {es : List Event}

lemma Recorded.silent (h : Recorded w as v t) (hd : v.Did es u)
    (hq : es.filterMap Event.question? = []) : Recorded w as u t where
  deeds := by
    obtain ⟨fs, hv, hfs⟩ := h.deeds
    exact ⟨fs ++ es, by rw [hd.deeds, hv, List.append_assoc],
      by rw [List.filterMap_append, hq, hfs, List.append_nil]⟩
  attempts := h.attempts

lemma Recorded.asked (h : Recorded w as v t) {q : Question} (hd : v.Did es u)
    (hq : es.filterMap Event.question? = [q]) : Recorded w as u (t.asked q) where
  deeds := by
    obtain ⟨fs, hv, hfs⟩ := h.deeds
    exact ⟨fs ++ es, by rw [hd.deeds, hv, List.append_assoc],
      by rw [List.filterMap_append, hq, hfs, Scene.asked, List.map_append]; rfl⟩
  attempts := h.attempts

/-- Deeds that ask nothing leave the scene as it is. -/
lemma Shows.silent (h : Shows w as c v t) (hd : v.Did es u) (hm : startedModes es = [])
    (hc : es.countP Event.isClient = 0) (hq : es.filterMap Event.question? = [])
    (htree : u.tree = v.tree) : Shows w as c u t where
  toRecorded := h.toRecorded.silent hd hq
  tree := h.tree.trans htree.symm
  processes := by rw [hd.processes, hm, h.processes]; rfl
  clients := by rw [hd.clients, hc, h.clients]; rfl
  current := h.current
  leaves d hd' := by
    rw [hd.clients, hc] at hd'
    exact h.leaves d hd'

lemma Shows.told (h : Shows w as c v t) (hd : v.Did [] u) (htree : u.tree = v.tree) :
    Shows w as c u t :=
  h.silent hd rfl rfl rfl htree

lemma Shows.answer_process (h : Shows w as c v t) (mode : BuildMode) :
    t.supply.answer (.process mode) = v.process 0 := by
  rw [Supply.answer, h.processes, World.process]
  cases v.processes <;> rfl

lemma Shows.next_client (h : Shows w as c v t) : t.supply.clients.headD {} = v.client 0 := by
  rw [h.clients, World.client]
  cases v.clients <;> rfl

lemma Shows.client_leaves (h : Shows w as c v t) : (v.client 0).leaves = true := by
  have hl := h.leaves
  rw [World.client]
  generalize v.clients = cs at hl
  cases cs with
  | nil => rfl
  | cons d cs => exact hl d List.mem_cons_self

/-- A process that ends by itself is an answer. -/
lemma Shows.built (h : Shows w as c v t) {e : Event} {mode : BuildMode} (he : e.mode? = some mode)
    (hd : v.Did [e] u) (htree : u.tree = v.tree.leave (v.process 0).leavings) :
    Shows w as c u (t.asked (.process mode)) := by
  obtain ⟨command, directory, rfl⟩ := Event.exists_eq_start he
  refine ⟨h.toRecorded.asked hd rfl, ?_, ?_, ?_, h.current, fun d hd' =>
    h.leaves d (List.mem_of_mem_drop (hd.clients ▸ hd'))⟩
  · rw [htree, ← h.answer_process mode, ← h.tree]
    rfl
  · rw [hd.processes, ← h.processes]
    exact List.drop_one.symm
  · rw [hd.clients, ← h.clients]
    rfl

end Scenes

/-! ### Builds -/

variable {w v : World} {as : List Attempt} {c : ClientScript} {t : Scene}

lemma IsWired.obstacle?_eq (hm : m.IsWired) (mode : BuildMode) (t : FileTree) :
    m.tool.obstacle? mode m.project t = (m.sourcesTooLong? mode t).map Obstacle.failure := by
  obtain ⟨program, rest, hcommand⟩ := hm.commands mode
  simp only [BuildTool.obstacle?, sourcesTooLong?, hcommand, Option.isNone_some, Bool.false_eq_true,
    if_false]
  split <;> rfl

/-- An operation goes as its play says. -/
lemma build_follows (hm : m.IsWired) {mode : BuildMode} (h : Shows w as c v t) :
    (m.tool.run mode m.project).Follows ((m.buildPlay mode).run m) v t
      (fun x y u t' => x = y ∧ Shows w as c u t') (Recorded w as) := by
  have hanswer := h.answer_process mode
  have hcue : m.failure? (t.supply.cue (.process mode))
      = (v.process 0).failure? mode ((m.tool.command? mode).getD []) m.tool.limit := by
    rw [← hanswer]
    rfl
  have hasks (hfree : m.tool.obstacle? mode m.project v.tree = none) :
      (m.buildPlay mode).run m t =
        (Play.ask (.process mode) fun p => .done (p.build mode)).run m t := by
    rw [hm.obstacle?_eq, Option.map_eq_none_iff, ← h.tree] at hfree
    exact Play.run_require_none hfree
  refine BuildTool.run_ends (fun u e hfree he hend hd htree => ?_) (fun f hf => ?_)
    fun f u e hfree he hf hd hs => ?_
  · have hok := hcue.trans (ProcessScript.failure?_eq_none_iff.mpr hend)
    refine ⟨(v.process 0).build mode, t.asked (.process mode), ?_, rfl, h.built he hd htree⟩
    rw [hasks hfree, Play.run_ask_none hok, hanswer]
    rfl
  · rw [hm.obstacle?_eq, ← h.tree] at hf
    obtain ⟨o, ho, rfl⟩ := Option.map_eq_some_iff.mp hf
    exact ⟨t, Play.run_require_some ho, h.toRecorded⟩
  · refine ⟨t.asked (.process mode), ?_, ?_⟩
    · rw [hasks hfree]
      exact Play.run_ask_some (hcue.trans hf)
    · obtain ⟨command, directory, rfl⟩ := Event.exists_eq_start he
      by_cases hstalled : f = .stalled
      · exact h.toRecorded.asked (hs hstalled) rfl
      · refine h.toRecorded.asked (hd hstalled) (congrArg (_ :: ·) ?_)
        rw [List.filterMap_eq_nil_iff]
        intro k hk
        rw [ProcessScript.eq_kill_of_mem_remains hk]
        rfl

/-- What a run only tells is not in its play. -/
lemma told_follows {α β : Type} {a : Action Unit} {k : Action α} {b : Act Scene β}
    {K : α → β → World → Scene → Prop} {E : World → Scene → Prop} (ha : a.Tells)
    (h : Shows w as c v t) (hk : ∀ u, Shows w as c u t → k.Follows b u t K E) :
    (do a; k : Action α).Follows b v t K E := by
  rw [Follows, ends_bind]
  exact ha.ends fun u hd htree => hk u (h.told hd htree)

lemma regenerate_follows (hm : m.IsWired) (h : Shows w as c v t) :
    m.regenerate.Follows (m.regeneratePlay.run m) v t (fun _ _ u t' => Shows w as c u t')
      (Recorded w as) := by
  simp only [regenerate]
  refine told_follows (.log _ _ _) h fun v h => ?_
  rw [regeneratePlay, Play.run_bind]
  refine (build_follows hm h).bind ?_
  rintro build - u t' ⟨rfl, h⟩
  split
  · exact (Action.Tells.log _ _ _).ends fun x hd htree => ⟨(), t', rfl, h.told hd htree⟩
  · exact follows_pure h

lemma rebuild_follows (hm : m.IsWired) {phase : Phase} (h : Shows w as c v t) :
    (m.rebuild phase).Follows ((m.rebuildPlay phase).run m) v t
      (fun x y u t' => x = y ∧ Shows w as c u t') (Recorded w as) := by
  simp only [rebuild, rebuildPlay]
  split
  · rw [Play.run_bind]
    exact (regenerate_follows hm h).bind fun _ _ _ _ h => build_follows hm h
  · exact build_follows hm h

/-! ### One phase -/

/-- A phase whose session can end at any time: a client that is attached leaves. -/
structure Closable (w : World) (p : PhaseBench) (t : Scene) : Prop
    extends Recorded w p.bench.attempts p.bench.world t where
  attachedLeaves : ∀ c, p.session.client = some c → c.leaves = true

/-- A scene tells of a phase whose session takes prompts. -/
structure Staged (m : Mender) (w : World) (p : PhaseBench) (t : Scene) : Prop where
  shows : Shows w p.bench.attempts t.supply.current p.bench.world t
  state : p.session.state = .initialized
  client : p.session.client = some t.supply.current
  limit : p.session.profile.limit = m.assistant.limit
  attachedLeaves : t.supply.current.leaves = true

section Phases

variable {p : PhaseBench}

lemma Staged.closable (h : m.Staged w p t) : Closable w p t where
  toRecorded := h.shows.toRecorded
  attachedLeaves c hc := by
    obtain rfl := Option.some.inj (h.client.symm.trans hc)
    exact h.attachedLeaves

/-- What is done in the world of a phase leaves its session as it is. -/
lemma Staged.inside (h : m.Staged w p t) {u : World} {t' : Scene}
    (hu : Shows w p.bench.attempts t.supply.current u t') : m.Staged w (p.inside u) t' where
  shows := hu.current ▸ hu
  state := h.state
  client := hu.current ▸ h.client
  limit := h.limit
  attachedLeaves := hu.current ▸ h.attachedLeaves

lemma inWorld_follows {α : Type} {a : Action α} {b : Act Scene α} (h : m.Staged w p t)
    (ha : a.Follows b p.bench.world t
      (fun x y u t' => x = y ∧ Shows w p.bench.attempts t.supply.current u t')
      (Recorded w p.bench.attempts)) :
    (PhaseBench.inWorld a).Follows b p t (fun x y q t' => x = y ∧ m.Staged w q t') (Closable w) := by
  rw [Follows, PhaseBench.inWorld_ends]
  refine Ends.mono ha ?_ ?_
  · rintro x u ⟨y, t', hb, hxy, hu⟩
    exact ⟨y, t', hb, hxy, h.inside hu⟩
  · rintro f u ⟨t', hb, hu⟩
    exact ⟨t', hb, hu, h.closable.attachedLeaves⟩

lemma phaseTold_follows {α β : Type} {a : Action Unit} {k : PhaseAction α} {b : Act Scene β}
    {K : α → β → PhaseBench → Scene → Prop} {E : PhaseBench → Scene → Prop} (ha : a.Tells)
    (h : m.Staged w p t)
    (hk : ∀ q : PhaseBench, q.bench.attempts = p.bench.attempts → m.Staged w q t →
      k.Follows b q t K E) :
    (do PhaseBench.inWorld a; k : PhaseAction α).Follows b p t K E := by
  rw [Follows, ends_bind, PhaseBench.inWorld_ends]
  exact ha.ends fun u hd htree => hk _ rfl (h.inside (h.shows.told hd htree))

lemma IsWired.noTime?_eq (hm : m.IsWired) :
    noTime? m.assistant.limit = m.limitTooLarge?.map Obstacle.failure := by
  have hpositive : m.assistant.limit.any (·.isNonPositive) = false := by
    rw [Option.any_eq_false]
    exact fun l hl => by simp [hm.requestLimit l hl]
  rw [noTime?, if_neg (by simp [hpositive]), limitTooLarge?]
  split <;> rfl

/-- A turn that ends in an answer. -/
lemma Staged.answered (h : m.Staged w p t) {prompt : String} {u : World}
    (hd : p.bench.world.Did [.query prompt] u)
    (htree : u.tree = p.bench.world.tree.leave p.session.turn.ending.leavings)
    (hturn : p.session.turn = t.supply.answer .turn) :
    m.Staged w ⟨{ p.bench with world := u }, p.session.afterTurn⟩ (t.asked .turn) where
  shows :=
    { toRecorded := h.shows.toRecorded.asked hd rfl
      tree := by
        show t.tree.leave (t.supply.cue .turn).leavings = u.tree
        rw [htree, hturn, h.shows.tree]
        rfl
      processes := h.shows.processes.trans hd.processes.symm
      clients := h.shows.clients.trans hd.clients.symm
      current := rfl
      leaves := fun d hd' => h.shows.leaves d (List.mem_of_mem_drop (hd.clients ▸ hd')) }
  state := h.state
  client := by
    show p.session.client.map _ = _
    rw [h.client]
    rfl
  limit := h.limit
  attachedLeaves := h.attachedLeaves

/-- A request for a fix goes as its play says. -/
lemma ask_follows (hm : m.IsWired) {errors : List Diagnostic} {output : String}
    (h : m.Staged w p t) :
    (PhaseBench.inSession (Session.askForFix errors output)).Follows (m.askPlay.run m) p t
      (fun x y q t' => x = y ∧ q.bench.attempts = p.bench.attempts ∧ m.Staged w q t')
      (Closable w) := by
  have hturn : p.session.turn = t.supply.answer .turn := by
    rw [Session.turn, h.client]
    rfl
  have htime : noTime? p.session.profile.limit = m.limitTooLarge?.map Obstacle.failure :=
    h.limit ▸ hm.noTime?_eq
  have hcue : m.failure? (t.supply.cue .turn) = p.session.turn.failure? p.session.profile.limit := by
    rw [hturn, h.limit]
    rfl
  have hasks (hfree : noTime? p.session.profile.limit = none) :
      m.askPlay.run m t = (Play.ask .turn fun t => .done t.answer).run m t :=
    Play.run_require_none (by rwa [htime, Option.map_eq_none_iff] at hfree)
  rw [Follows, PhaseBench.inSession_ends]
  refine Session.askForFix_ends (fun hno => absurd h.state hno) (fun f hf => ?_)
    (fun prompt u hfree hok hd htree => ?_) fun f prompt u hfree hf hd => ?_
  · obtain ⟨o, ho, rfl⟩ := Option.map_eq_some_iff.mp (htime.symm.trans hf)
    exact ⟨t, Play.run_require_some ho, h.closable⟩
  · refine ⟨p.session.turn.answer, t.asked .turn, ?_, rfl, rfl, h.answered hd htree hturn⟩
    rw [hasks hfree, Play.run_ask_none (hcue.trans hok), hturn]
    rfl
  · refine ⟨t.asked .turn, ?_, h.shows.toRecorded.asked hd rfl, fun c hc => ?_⟩
    · rw [hasks hfree]
      exact Play.run_ask_some (hcue.trans hf)
    · obtain ⟨d, hd', rfl⟩ := Option.map_eq_some_iff.mp hc
      exact h.closable.attachedLeaves d hd'

/-- An attempt is added to the attempts and to the scene. -/
lemma Staged.add (h : m.Staged w p t) (a : Attempt) :
    m.Staged w ⟨{ p.bench with attempts := p.bench.attempts ++ [a] }, p.session⟩ (t.add a) where
  shows :=
    { deeds := h.shows.deeds
      attempts := by rw [Scene.add, h.shows.attempts]
      tree := h.shows.tree
      processes := h.shows.processes
      clients := h.shows.clients
      current := rfl
      leaves := h.shows.leaves }
  state := h.state
  client := h.client
  limit := h.limit
  attachedLeaves := h.attachedLeaves

lemma addAttempt_follows {α β : Type} {a : Attempt} {k : PhaseAction α} {rest : Play β}
    {K : α → β → PhaseBench → Scene → Prop} {E : PhaseBench → Scene → Prop}
    (h : m.Staged w p t)
    (hk : ∀ q, m.Staged w q (t.add a) → k.Follows (rest.run m) q (t.add a) K E) :
    (do PhaseBench.addAttempt a; k : PhaseAction α).Follows ((Play.attempt a rest).run m) p t K E :=
  hk _ (h.add a)

/-- An attempt goes as its play says. -/
lemma tryOnce_follows (hm : m.IsWired) {phase : Phase} {offset index : Nat} {current : Build}
    (h : m.Staged w p t) :
    (m.tryOnce phase offset index current).Follows
      ((m.tryPlay phase (offset + index) current).run m) p t
      (fun x y q t' => x = y ∧ m.Staged w q t') (Closable w) := by
  simp only [tryOnce]
  refine phaseTold_follows (.log _ _ _) h fun p _ h => ?_
  rw [tryPlay, Play.run_bind]
  refine (ask_follows hm h).bind ?_
  rintro answer - p t ⟨rfl, -, h⟩
  rw [Play.run_bind]
  refine (inWorld_follows h (rebuild_follows hm h.shows)).bind ?_
  rintro rebuilt - p t ⟨rfl, h⟩
  refine addAttempt_follows h fun p h => ?_
  split
  · exact phaseTold_follows (.log _ _ _) h fun _ _ h => follows_pure ⟨rfl, h⟩
  · exact phaseTold_follows (noteProgress_tells _ _ _ _) h fun _ _ h => follows_pure ⟨rfl, h⟩

/-- The attempts of a phase go as their play says. -/
lemma attemptLoop_follows (hm : m.IsWired) {phase : Phase} {offset left : Nat} {current : Build}
    (h : m.Staged w p t) :
    (m.attemptLoop phase offset left current).Follows
      ((m.loopPlay phase offset left current).run m) p t
      (fun x y q t' => x = y ∧ m.Staged w q t') (Closable w) := by
  induction left generalizing current p t with
  | zero =>
    rw [attemptLoop, loopPlay]
    exact phaseTold_follows (.log _ _ _) h fun _ _ h => follows_pure ⟨rfl, h⟩
  | succ left ih =>
    simp only [attemptLoop, loopPlay]
    rw [Play.run_bind]
    refine (tryOnce_follows hm h).bind ?_
    rintro rebuilt - p t ⟨rfl, h⟩
    split
    · exact follows_pure ⟨rfl, h⟩
    · exact ih h

/-- The session of a phase begins as its play says. -/
lemma begin_follows {b : Bench} {c : ClientScript} (h : Shows w b.attempts c b.world t) :
    (PhaseBench.inSession Session.begin).Follows
      ((Play.ask .connect fun _ => .done ()).run m) ⟨b, m.sessionOf⟩ t
      (fun _ _ p t' => m.Staged w p t') (Closable w) := by
  have hanswer : t.supply.answer .connect = (b.world.client 0).connectFailure :=
    congrArg ClientScript.connectFailure h.next_client
  have hcue : m.failure? (t.supply.cue .connect)
      = (b.world.client 0).connectFailure.map Mishap.onConnect := by
    rw [← hanswer]
    rfl
  rw [Follows, PhaseBench.inSession_ends]
  refine Session.begin_ends (fun hno => absurd rfl hno) (fun u hok hd htree => ?_)
    fun x u hx hd => ?_
  · refine ⟨(), t.asked .connect, Play.run_ask_none (by rw [hcue, hok]; rfl), ?_⟩
    have hcurrent : (t.asked .connect).supply.current = b.world.client 0 := h.next_client
    refine ⟨⟨h.toRecorded.asked hd rfl, ?_, ?_, ?_, rfl, fun d hd' => ?_⟩, rfl, ?_, rfl, ?_⟩
    · exact h.tree.trans htree.symm
    · exact h.processes.trans hd.processes.symm
    · show t.supply.clients.tail = u.clients
      rw [hd.clients, h.clients]
      exact List.drop_one.symm
    · exact h.leaves d (List.mem_of_mem_drop (hd.clients ▸ hd'))
    · exact congrArg some hcurrent.symm
    · exact hcurrent ▸ h.client_leaves
  · refine ⟨t.asked .connect, Play.run_ask_some (by rw [hcue, hx]; rfl),
      h.toRecorded.asked hd rfl, fun c hc => ?_⟩
    obtain rfl := Option.some.inj hc
    exact h.client_leaves

/-- The end of a session whose client leaves: at most a disconnection. -/
lemma leaving_ends {P : PhaseBench → Prop}
    (hl : ∀ c, p.session.client = some c → c.leaves = true)
    (hP : ∀ es u s, (es = [] ∨ es = [.disconnect]) → p.bench.world.Did es u →
      u.tree = p.bench.world.tree → P ⟨{ p.bench with world := u }, s⟩) :
    (PhaseBench.inSession Session.dispose).Ends p (fun _ q => P q) fun _ _ => False := by
  rw [PhaseBench.inSession_ends]
  refine Session.dispose_ends (fun _ => hP _ _ _ (.inl rfl) (.refl _) rfl) (fun u _ _ hd htree => ?_)
    (fun c u _ _ _ hd htree => ?_) fun f c u _ hc hno _ _ => ?_
  · exact hP _ _ _ (.inl rfl) hd htree
  · exact hP _ _ _ (.inr rfl) hd htree
  · rw [hl c hc] at hno
    cases hno

/-- A phase goes as its play says. -/
lemma fixLoop_follows (hm : m.IsWired) {phase : Phase} {build : Build} {offset : Nat} {b : Bench}
    {c : ClientScript} (h : Shows w b.attempts c b.world t) :
    (m.fixLoop phase build offset).Follows ((m.phasePlay phase build offset).run m) b t
      (fun x y b' t' => x = y ∧ ∃ c', Shows w b'.attempts c' b'.world t')
      fun b' t' => Recorded w b'.attempts b'.world t' := by
  have hbody : (do
      PhaseBench.inSession Session.begin
      m.attemptLoop phase offset (m.settings.budget phase) build : PhaseAction _).Follows
        ((m.phasePlay phase build offset).run m) ⟨b, m.sessionOf⟩ t
        (fun x y q t' => x = y ∧ m.Staged w q t') (Closable w) := by
    have hplay : m.phasePlay phase build offset = (do
        Play.ask .connect fun _ => .done ()
        m.loopPlay phase offset (m.settings.budget phase) build) := rfl
    rw [hplay, Play.run_bind]
    exact (begin_follows h).bind fun _ _ _ _ h => attemptLoop_follows hm h
  have hquiet {es : List Event} (hes : es = [] ∨ es = [.disconnect]) :
      startedModes es = [] ∧ es.countP Event.isClient = 0 ∧
        es.filterMap Event.question? = [] := by
    rcases hes with rfl | rfl <;> exact ⟨rfl, rfl, rfl⟩
  rw [Follows, fixLoop_ends]
  refine hbody.closing ?_ ?_
  · rintro x y q t' ⟨hxy, hq⟩
    refine leaving_ends hq.closable.attachedLeaves fun es u s hes hd htree =>
      ⟨hxy, t'.supply.current, ?_⟩
    obtain ⟨hmodes, hclients, hquestions⟩ := hquiet hes
    exact hq.shows.silent hd hmodes hclients hquestions htree
  · intro q t' hq
    refine ⟨hq.toRecorded, leaving_ends hq.attachedLeaves fun es u s hes hd _ => ?_⟩
    exact hq.toRecorded.silent hd (hquiet hes).2.2

end Phases

/-! ### The run -/

section Runs

variable {b : Bench}

lemma benchTold_follows {α β : Type} {a : Action Unit} {k : BenchAction α} {g : Act Scene β}
    {K : α → β → Bench → Scene → Prop} {E : Bench → Scene → Prop} (ha : a.Tells)
    (h : Shows w b.attempts c b.world t)
    (hk : ∀ b' : Bench, Shows w b'.attempts c b'.world t → k.Follows g b' t K E) :
    (do Bench.inWorld a; k : BenchAction α).Follows g b t K E := by
  rw [Follows, ends_bind, Bench.inWorld_ends]
  exact ha.ends fun u hd htree => hk { b with world := u } (h.told hd htree)

lemma benchBuild_follows (hm : m.IsWired) {mode : BuildMode} (h : Shows w b.attempts c b.world t) :
    (Bench.inWorld (m.tool.run mode m.project)).Follows ((m.buildPlay mode).run m) b t
      (fun x y b' t' => x = y ∧ Shows w b'.attempts c b'.world t')
      fun b' t' => Recorded w b'.attempts b'.world t' :=
  follows_zoom.mpr (build_follows hm h)

/-- The outcome of a run has the attempts that it made. -/
lemma outcome_follows {success : Bool} {used : Nat} (h : Shows w b.attempts c b.world t) :
    (outcome success used).Follows (pure ()) b t
      (fun r _ b' t' => r.attempts = b'.attempts ∧ Recorded w b'.attempts b'.world t')
      fun b' t' => Recorded w b'.attempts b'.world t' :=
  ⟨(), t, rfl, rfl, h.toRecorded⟩

/-- Building and mending the solution goes as its play says. -/
lemma solutionPhase_follows (hm : m.IsWired) {used : Nat} (h : Shows w b.attempts c b.world t) :
    (m.solutionPhase used).Follows ((m.solutionPlay used).run m) b t
      (fun r _ b' t' => r.attempts = b'.attempts ∧ Recorded w b'.attempts b'.world t')
      fun b' t' => Recorded w b'.attempts b'.world t' := by
  simp only [solutionPhase]
  refine benchTold_follows (.log _ _ _) h fun b h => ?_
  rw [solutionPlay, Play.run_bind]
  refine (benchBuild_follows hm h).bind ?_
  rintro build - b' t ⟨rfl, h⟩
  split
  · exact benchTold_follows (.log _ _ _) h fun _ h => outcome_follows h
  · refine benchTold_follows (.log _ _ _) h fun _ h => ?_
    refine benchTold_follows (notePreview_tells _) h fun _ h => ?_
    rw [Play.run_bind]
    refine (fixLoop_follows hm h).bind ?_
    rintro ⟨success, more⟩ - b'' t ⟨rfl, c, h⟩
    exact outcome_follows h

/-- A run goes as its play says. -/
theorem phases_follows (hm : m.IsWired) (h : Shows w b.attempts c b.world t) :
    m.phases.Follows (m.play.run m) b t
      (fun r _ b' t' => r.attempts = b'.attempts ∧ Recorded w b'.attempts b'.world t')
      fun b' t' => Recorded w b'.attempts b'.world t' := by
  simp only [phases]
  rw [play, Play.run_bind]
  have hregenerate : (Bench.inWorld m.regenerate).Follows (m.regeneratePlay.run m) b t
      (fun _ _ b' t' => Shows w b'.attempts c b'.world t')
      fun b' t' => Recorded w b'.attempts b'.world t' := follows_zoom.mpr (regenerate_follows hm h)
  refine hregenerate.bind fun _ _ b' t h => ?_
  refine benchTold_follows (.log _ _ _) h fun b h => ?_
  rw [Play.run_bind]
  refine (benchBuild_follows hm h).bind ?_
  rintro build - b' t ⟨rfl, h⟩
  split
  · exact benchTold_follows (.log _ _ _) h fun _ h => outcome_follows h
  · refine benchTold_follows (.log _ _ _) h fun _ h => ?_
    refine benchTold_follows (notePreview_tells _) h fun _ h => ?_
    rw [Play.run_bind]
    refine (fixLoop_follows hm h).bind ?_
    rintro ⟨success, used⟩ - b'' t ⟨rfl, c, h⟩
    simp only
    split
    · exact solutionPhase_follows hm h
    · exact outcome_follows h

end Runs

end Mender

end BuildMend
