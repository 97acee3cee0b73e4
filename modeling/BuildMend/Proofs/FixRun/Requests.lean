import BuildMend.Proofs.Assistant.Prompt
import BuildMend.Proofs.FixRun.Attempt

/-!
What a run asks the assistant: to mend the latest build, and never an older one.

* `World.LatestBuild`: the process of the build that came last in some deeds; what generates the
  sources is no build.
* `Mender.Current`: a prompt is the request to mend the latest build.
* `Mender.Asked`, `Mender.Knows`: a run under way that has asked for current things only, and one that
  has the latest build at hand. Every part of a run keeps them.
* `Mender.requests_current`: every prompt of a run is current when it is sent, also in a run that never
  ends, and what stands in it.
-/

namespace BuildMend

open Act World Text

/-! ### The latest build -/

/-- Whether a build is started: of the sources or of the solution. -/
def Event.isBuild (e : Event) : Bool := e.mode?.any (· != .regenerate)

/-- The prompt that an event sends. -/
def Event.prompt? : Event → Option String
  | .query prompt => some prompt
  | _ => none

/-- In some deeds the last build that was started has a process. -/
def World.LatestBuild (w : World) (es : List Event) (p : ProcessScript) : Prop :=
  ∃ before e after, es = before ++ e :: after ∧ e.isBuild = true ∧
    (∀ f ∈ after, f.isBuild = false) ∧ p = w.process (startedModes before).length

namespace World.LatestBuild

variable {w v : World} {es fs : List Event} {p : ProcessScript}

/-- A build stays the latest one until the next is started. -/
lemma append (h : w.LatestBuild es p) (hfs : ∀ f ∈ fs, f.isBuild = false) :
    w.LatestBuild (es ++ fs) p := by
  obtain ⟨before, e, after, rfl, he, hafter, rfl⟩ := h
  refine ⟨before, e, after ++ fs, by simp, he, fun f hf => ?_, rfl⟩
  exact (List.mem_append.mp hf).elim (hafter f) (hfs f)

/-- A build that is started is the latest one. -/
lemma started (h : w.Did es v) {e : Event} (he : e.isBuild = true) :
    w.LatestBuild (es ++ [e]) (v.process 0) :=
  ⟨es, e, [], rfl, he, by simp, by rw [h.process_eq, Nat.add_zero]⟩

end World.LatestBuild

namespace Mender

/-! ### What has been asked -/

/-- After some deeds a prompt is the request to mend the latest build: what its process printed, and the
errors found there. The process has ended by itself. -/
def Current (m : Mender) (w : World) (es : List Event) (prompt : String) : Prop :=
  ∃ p, w.LatestBuild es p ∧ p.endsByItself m.tool.limit = true ∧
    prompt = Prompt.fixRequest (Findings.ofOutput (outputText p.lines)).errors (outputText p.lines)

/-- Every prompt among some deeds was current when it was sent. -/
def AsksCurrent (m : Mender) (w : World) (es : List Event) : Prop :=
  ∀ before prompt after, es = before ++ .query prompt :: after → m.Current w before prompt

variable {m : Mender} {w v u : World} {es fs : List Event}

lemma AsksCurrent.append (h : m.AsksCurrent w es)
    (hfs : ∀ before prompt after, fs = before ++ .query prompt :: after →
      m.Current w (es ++ before) prompt) : m.AsksCurrent w (es ++ fs) := by
  intro before prompt after heq
  rcases List.append_eq_append_iff.mp heq with ⟨a, rfl, hfs'⟩ | ⟨c, rfl, hc⟩
  · exact hfs a prompt after hfs'
  · cases c with
    | nil => simpa using hfs [] prompt after hc.symm
    | cons e c =>
      obtain ⟨rfl, -⟩ := List.cons.inj hc
      exact h before prompt c rfl

/-- A prompt that is current. -/
lemma AsksCurrent.ask {prompt : String} (h : m.AsksCurrent w es) (hp : m.Current w es prompt) :
    m.AsksCurrent w (es ++ [.query prompt]) := by
  refine h.append fun before prompt' after heq => ?_
  cases before with
  | nil =>
    obtain rfl := Event.query.inj (List.cons.inj heq).1
    rwa [List.append_nil]
  | cons e before => simp at heq

/-- Deeds that send no prompt. -/
lemma AsksCurrent.append_silent (h : m.AsksCurrent w es) (hfs : ∀ f ∈ fs, f.prompt? = none) :
    m.AsksCurrent w (es ++ fs) :=
  h.append fun before prompt after heq => by
    have hsilent := hfs (.query prompt) (by simp [heq])
    simp [Event.prompt?] at hsilent

/-- A run that began in some world has asked for current things only. -/
def Asked (m : Mender) (w v : World) : Prop := ∃ es, w.Did es v ∧ m.AsksCurrent w es

/-- A run that began in some world has asked for current things only, and has what the latest build
printed at hand. -/
def Knows (m : Mender) (w : World) (current : Build) (v : World) : Prop :=
  ∃ es, w.Did es v ∧ m.AsksCurrent w es ∧
    m.Current w es (Prompt.fixRequest current.errors current.output)

lemma Asked.refl (m : Mender) (w : World) : m.Asked w w :=
  ⟨[], .refl w, fun before prompt after h => by simp at h⟩

/-- Deeds that send no prompt change nothing. -/
lemma Asked.silent (h : m.Asked w v) (hfs : ∀ f ∈ fs, f.prompt? = none) (hu : v.Did fs u) :
    m.Asked w u := by
  obtain ⟨es, hes, hasks⟩ := h
  exact ⟨es ++ fs, hes.trans hu, hasks.append_silent hfs⟩

namespace Knows

variable {current : Build}

lemma asked (h : m.Knows w current v) : m.Asked w v := by
  obtain ⟨es, hes, hasks, -⟩ := h
  exact ⟨es, hes, hasks⟩

/-- Deeds that neither build nor send a prompt change nothing. -/
lemma silent (h : m.Knows w current v) (hfs : ∀ f ∈ fs, f.prompt? = none ∧ f.isBuild = false)
    (hu : v.Did fs u) : m.Knows w current u := by
  obtain ⟨es, hes, hasks, p, hp, hend, hprompt⟩ := h
  exact ⟨es ++ fs, hes.trans hu, hasks.append_silent fun f hf => (hfs f hf).1, p,
    hp.append fun f hf => (hfs f hf).2, hend, hprompt⟩

/-- The request to mend the build at hand is current. -/
lemma ask (h : m.Knows w current v)
    (hu : v.Did [.query (Prompt.fixRequest current.errors current.output)] u) : m.Asked w u := by
  obtain ⟨es, hes, hasks, hcurrent⟩ := h
  exact ⟨_, hes.trans hu, hasks.ask hcurrent⟩

end Knows

/-! ### The parts of a run -/

/-- What is only told changes nothing. -/
lemma Asked.told (h : m.Asked w v) (hu : v.Did [] u) : m.Asked w u := h.silent (by simp) hu

lemma Knows.told {current : Build} (h : m.Knows w current v) (hu : v.Did [] u) :
    m.Knows w current u :=
  h.silent (by simp) hu

/-- After an operation that builds, what the build printed is at hand. -/
lemma operation_asked (h : m.Asked w v) (mode : BuildMode) :
    (m.tool.run mode m.project).Ends v
      (fun b u => m.Asked w u ∧ (mode ≠ .regenerate → m.Knows w b u)) fun _ u => m.Asked w u := by
  have hstart {e : Event} (he : e.mode? = some mode) : e.prompt? = none := by
    cases e <;> simp [Event.mode?, Event.prompt?] at he ⊢
  refine BuildTool.run_ends (fun u e _ he hend hu _ => ?_) (fun f _ => h)
    fun f u e _ he _ hu hs => ?_
  · have hasked := h.silent (by simpa using hstart he) hu
    refine ⟨hasked, fun hmode => ?_⟩
    obtain ⟨es, hes, hasks⟩ := h
    have hbuild : e.isBuild = true := by simpa [Event.isBuild, he] using hmode
    exact ⟨es ++ [e], hes.trans hu, hasks.append_silent (by simpa using hstart he), _,
      LatestBuild.started hes hbuild, hend, rfl⟩
  · by_cases hf : f = .stalled
    · exact h.silent (by simpa using hstart he) (hs hf)
    · refine h.silent (fun g hg => ?_) (hu hf)
      rcases List.mem_cons.mp hg with rfl | hg
      · exact hstart he
      · rw [ProcessScript.eq_kill_of_mem_remains hg]
        rfl

lemma regenerate_asked (h : m.Asked w v) :
    m.regenerate.Ends v (fun _ u => m.Asked w u) fun _ u => m.Asked w u := by
  rw [regenerate, ends_bind]
  refine (Action.Tells.log _ _ _).ends fun x hx _ => ?_
  rw [ends_bind]
  refine (operation_asked (h.told hx) _).mono (fun b u hu => ?_) fun _ _ hu => hu
  rw [ends_ite]
  refine ⟨fun _ => (Action.Tells.log _ _ _).ends fun y hy _ => ?_, fun _ => hu.1⟩
  exact hu.1.told hy

/-- After the build of an attempt, what it printed is at hand: the sources are generated before it. -/
lemma rebuild_asked (h : m.Asked w v) (phase : Phase) :
    (m.rebuild phase).Ends v (fun b u => m.Knows w b u) fun _ u => m.Asked w u := by
  have hbuild (u : World) (hu : m.Asked w u) : (m.tool.run phase.buildMode m.project).Ends u
      (fun b u => m.Knows w b u) fun _ u => m.Asked w u :=
    (operation_asked hu _).mono (fun b u hu => hu.2 (by cases phase <;> simp [Phase.buildMode]))
      fun _ _ hu => hu
  simp only [rebuild]
  rw [ends_ite]
  refine ⟨fun _ => ?_, fun _ => hbuild v h⟩
  rw [ends_bind]
  exact (regenerate_asked h).mono (fun _ u hu => hbuild u hu) fun _ _ hu => hu

/-- What is at hand is what the assistant is asked to mend. -/
lemma ask_asked {current : Build} {d : Desk} (h : m.Knows w current d.world) :
    (Session.askForFix current.errors current.output).Ends d
      (fun _ t => m.Asked w t.world) fun _ t => m.Asked w t.world := by
  rw [Session.askForFix_eq]
  exact Session.send_ends (fun _ => h.asked) (fun _ _ => h.asked) (fun _ _ _ hv _ => h.ask hv)
    fun _ _ _ _ hv => h.ask hv

/-- An attempt asks about the build at hand, and has its own build at hand when it is over. -/
lemma tryOnce_asked {phase : Phase} {offset index : Nat} {current : Build} {p : PhaseBench}
    (h : m.Knows w current p.bench.world) :
    (m.tryOnce phase offset index current).Ends p
      (fun b q => m.Knows w b q.bench.world) fun _ q => m.Asked w q.bench.world := by
  simp only [tryOnce]
  rw [ends_bind, PhaseBench.inWorld_ends]
  refine (Action.Tells.log _ _ _).ends fun x hx _ => ?_
  rw [ends_bind, PhaseBench.inSession_ends]
  refine (ask_asked (h.told hx)).mono (fun answer d hd => ?_) fun _ _ hd => hd
  rw [ends_bind, PhaseBench.inWorld_ends]
  refine (rebuild_asked hd phase).mono (fun b u hu => ?_) fun _ _ hu => hu
  rw [ends_bind, PhaseBench.addAttempt, ends_modify, ends_ite]
  refine ⟨fun _ => ?_, fun _ => ?_⟩
  · rw [ends_bind, PhaseBench.inWorld_ends]
    exact (Action.Tells.log _ _ _).ends fun y hy _ => hu.told hy
  · rw [ends_bind, PhaseBench.inWorld_ends]
    exact (noteProgress_tells _ _ _ _).ends fun y hy _ => hu.told hy

/-- Attempts go on from the build at hand. -/
lemma attemptLoop_asked {phase : Phase} {offset left : Nat} {current : Build} {p : PhaseBench}
    (h : m.Knows w current p.bench.world) :
    (m.attemptLoop phase offset left current).Ends p
      (fun _ q => m.Asked w q.bench.world) fun _ q => m.Asked w q.bench.world := by
  induction left generalizing current p with
  | zero =>
    rw [attemptLoop, ends_bind, PhaseBench.inWorld_ends]
    exact (Action.Tells.log _ _ _).ends fun x hx _ => h.asked.told hx
  | succ left ih =>
    simp only [attemptLoop]
    rw [ends_bind]
    refine (tryOnce_asked h).mono (fun b q hq => ?_) fun _ _ hq => hq
    rw [ends_ite]
    exact ⟨fun _ => hq.asked, fun _ => ih hq⟩

/-- The end of a session asks for nothing. -/
lemma dispose_asked {p : PhaseBench} (h : m.Asked w p.bench.world) :
    (PhaseBench.inSession Session.dispose).Ends p
      (fun _ q => m.Asked w q.bench.world) fun _ q => m.Asked w q.bench.world := by
  rw [PhaseBench.inSession_ends]
  have hleft (v : World) (hv : p.bench.world.Did [.disconnect] v) : m.Asked w v :=
    h.silent (by simp [Event.prompt?]) hv
  exact Session.dispose_ends (fun _ => h) (fun _ _ _ hv _ => h.told hv)
    (fun _ v _ _ _ hv _ => hleft v hv) fun _ _ v _ _ _ _ hv => hleft v hv

/-- A phase asks about the build that it starts from, and then about its own. -/
lemma fixLoop_asked {phase : Phase} {build : Build} {offset : Nat} {b : Bench}
    (h : m.Knows w build b.world) :
    (m.fixLoop phase build offset).Ends b
      (fun _ c => m.Asked w c.world) fun _ c => m.Asked w c.world := by
  have hopened (o : ClientOptions) (v : World) (hv : b.world.Did [.client o, .connect] v) :
      m.Knows w build v :=
    h.silent (by simp [Event.prompt?, Event.isBuild, Event.mode?]) hv
  rw [fixLoop_ends, ends_closing, ends_bind, PhaseBench.inSession_ends]
  refine Session.begin_ends (fun hs => absurd rfl hs) (fun v _ hv _ => ?_) fun x v _ hv => ?_
  · refine (attemptLoop_asked (hopened _ v hv)).mono (fun _ q hq => dispose_asked hq)
      fun f q hq => ⟨fun _ => hq, fun _ => dispose_asked hq⟩
  · exact ⟨fun _ => (hopened _ v hv).asked, fun _ => dispose_asked (hopened _ v hv).asked⟩

/-- A phase that starts from a failed build, after what is told about it. -/
lemma failed_asked {phase : Phase} {build : Build} {offset : Nat} {b : Bench} {a : Action Unit}
    {α : Type} {k : Bool × Nat → BenchAction α} (ha : a.Tells) (h : m.Knows w build b.world)
    (hk : ∀ x c, m.Asked w c.world →
      (k x).Ends c (fun _ c => m.Asked w c.world) fun _ c => m.Asked w c.world) :
    (do
      Bench.inWorld a
      Bench.inWorld (notePreview build.errors)
      k (← m.fixLoop phase build offset) : BenchAction α).Ends b
      (fun _ c => m.Asked w c.world) fun _ c => m.Asked w c.world := by
  refine Bench.told_ends ha fun x hx => Bench.told_ends (notePreview_tells _) fun y hy => ?_
  rw [ends_bind]
  exact (fixLoop_asked ((h.told hx).told hy)).mono hk fun _ _ hc => hc

lemma solutionPhase_asked {used : Nat} {b : Bench} (h : m.Asked w b.world) :
    (m.solutionPhase used).Ends b
      (fun _ c => m.Asked w c.world) fun _ c => m.Asked w c.world := by
  simp only [solutionPhase]
  refine Bench.told_ends (.log _ _ _) fun x hx => ?_
  rw [ends_bind, Bench.inWorld_ends]
  refine (operation_asked (h.told hx) _).mono (fun build u hu => ?_) fun _ _ hu => hu
  rw [ends_ite]
  refine ⟨fun _ => Bench.told_ends (.log _ _ _) fun y hy => hu.1.told hy, fun _ => ?_⟩
  exact failed_asked (.log _ _ _) (hu.2 (by simp)) fun _ _ hc => hc

lemma phases_asked {b : Bench} (h : m.Asked w b.world) :
    m.phases.Ends b (fun _ c => m.Asked w c.world) fun _ c => m.Asked w c.world := by
  simp only [phases]
  rw [ends_bind, Bench.inWorld_ends]
  refine (regenerate_asked h).mono (fun _ u hu => ?_) fun _ _ hu => hu
  refine Bench.told_ends (.log _ _ _) fun x hx => ?_
  rw [ends_bind, Bench.inWorld_ends]
  refine (operation_asked (hu.told hx) _).mono (fun build u hu => ?_) fun _ _ hu => hu
  rw [ends_ite]
  refine ⟨fun _ => Bench.told_ends (.log _ _ _) fun y hy => hu.1.told hy, fun _ => ?_⟩
  refine failed_asked (.log _ _ _) (hu.2 (by simp)) fun x c hc => ?_
  rw [ends_ite]
  exact ⟨fun _ => solutionPhase_asked hc, fun _ => hc⟩

/-! ### The run -/

lemma run_asked (m : Mender) (w : World) : m.Asked w (m.run w).2 := by
  have hphases := phases_asked (b := ⟨w, []⟩) (.refl m w)
  rw [run]
  rw [Ends] at hphases
  split at hphases <;> rename_i heq <;> rw [heq]
  · exact hphases
  · rename_i f b
    cases f with
    | fault f =>
      have habort (text : String) : (do
          Bench.note .error text
          .fault (.fixRunAborted f b.attempts) : Action FixRun).Ends b.world
            (fun _ v => m.Asked w v) fun _ v => m.Asked w v := by
        rw [ends_bind]
        exact (Action.Tells.log _ _ _).ends fun v hv _ => hphases.told hv
      exact (habort _).state
    | _ => exact hphases

/-- Every prompt of a run is the request to mend the latest build: what its process has printed, and the
errors found there. It stands in the request as it is, up to ten errors and four thousand
characters, so builds that agree so far make the same request. -/
theorem requests_current (m : Mender) (w : World) :
    (∃ es, (m.run w).2.deeds = w.deeds ++ es ∧
      ∀ before prompt after, es = before ++ .query prompt :: after → m.Current w before prompt) ∧
    (∀ errors output, Prompt.fixRequest errors output =
      Prompt.opening ++ Prompt.shownErrors errors ++ Prompt.countedErrors errors ++
        "\n## Build Output (truncated):\n```\n" ++ Prompt.shownOutput output ++ "\n```") ∧
    ∀ errors errors' output output', Prompt.Alike errors errors' output output' →
      Prompt.fixRequest errors output = Prompt.fixRequest errors' output' := by
  obtain ⟨es, hes, hasks⟩ := run_asked m w
  exact ⟨⟨es, hes.deeds, hasks⟩, Prompt.fixRequest_layout,
    fun _ _ _ _ h => Prompt.fixRequest_eq_of_alike h⟩

end Mender

end BuildMend
