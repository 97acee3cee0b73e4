import BuildMend.FixLoop
import BuildMend.Proofs.ProcessDeeds
import BuildMend.Proofs.Session

/-!
What one attempt to mend a build ends in.

* `Phase.round`: the operations of one attempt.
* `Mender.Steady`: the surroundings let an attempt come to its end.
* `Mender.rebuild_ends`: the build of an attempt; its operations are started in their order.
* `Mender.tryOnce_ends`: an attempt sends one prompt, does its operations, and adds itself to the
  attempts when the last of them has ended by itself; if it fails before, the attempts stay as they
  were.
-/

namespace BuildMend

open Act World

/-- The operations of one attempt. -/
def Phase.round (phase : Phase) : List BuildMode :=
  (if phase.regenerates then [.regenerate] else []) ++ [phase.buildMode]

namespace PhaseBench

/-- The phase in another world. -/
def inside (p : PhaseBench) (w : World) : PhaseBench :=
  { p with bench := { p.bench with world := w } }

lemma inWorld_ends {α : Type} {a : Action α} {p : PhaseBench} {Q : α → PhaseBench → Prop}
    {E : Failure → PhaseBench → Prop} :
    (inWorld a).Ends p Q E ↔
      a.Ends p.bench.world (fun x v => Q x (p.inside v)) fun f v => E f (p.inside v) := by
  rw [inWorld, ends_zoom, Bench.inWorld, ends_zoom]
  rfl

lemma inSession_ends {α : Type} {a : SessionAction α} {p : PhaseBench}
    {Q : α → PhaseBench → Prop} {E : Failure → PhaseBench → Prop} :
    (inSession a).Ends p Q E ↔
      a.Ends ⟨p.bench.world, p.session⟩
        (fun x d => Q x ⟨{ p.bench with world := d.world }, d.session⟩)
        fun f d => E f ⟨{ p.bench with world := d.world }, d.session⟩ :=
  ends_zoom

end PhaseBench

namespace Bench

lemma inWorld_ends {α : Type} {a : Action α} {b : Bench} {Q : α → Bench → Prop}
    {E : Failure → Bench → Prop} :
    (inWorld a).Ends b Q E ↔
      a.Ends b.world (fun x v => Q x { b with world := v }) fun f v => E f { b with world := v } :=
  ends_zoom

/-- What a run only tells changes nothing for what comes next. -/
lemma told_ends {α : Type} {a : Action Unit} {k : BenchAction α} {b : Bench}
    {Q : α → Bench → Prop} {E : Failure → Bench → Prop} (ha : a.Tells)
    (h : ∀ v, b.world.Did [] v → k.Ends { b with world := v } Q E) :
    (do Bench.inWorld a; k : BenchAction α).Ends b Q E := by
  rw [ends_bind, inWorld_ends]
  exact ha.ends fun v hv _ => h v hv

end Bench

namespace Mender

variable {m : Mender}

/-! ### What is logged -/

lemma noteAll_tells (ls : List String) : (noteAll ls).Tells := by
  induction ls with
  | nil => exact .pure
  | cons l ls ih => exact .bind (.log _ _ _) ih

lemma notePreview_tells (errors : List Diagnostic) : (notePreview errors).Tells := noteAll_tells _

lemma noteProgress_tells (phase : Phase) (progress : Progress) (before after : Build) :
    (noteProgress phase progress before after).Tells := by
  have h (level : Level) (text : String) :
      (do Bench.note level text; notePreview after.errors : Action Unit).Tells :=
    .bind (.log _ _ _) (notePreview_tells _)
  unfold noteProgress
  cases progress <;> exact h _ _

/-! ### Builds -/

/-- The surroundings let an attempt come to its end: its operations reach their processes, the
processes end by themselves, and the assistant answers. -/
structure Steady (m : Mender) (w : World) (s : Session) : Prop where
  reaches : ∀ mode t, m.tool.Reaches mode m.project t
  ends : ∀ i, (w.process i).endsByItself m.tool.limit = true
  answers : s.turn.answers s.profile.limit = true

/-- An operation that reaches its process, does not start it, or leaves it unfinished. -/
lemma operation_ends {mode : BuildMode} {w : World} {Q : Build → World → Prop}
    {E : Failure → World → Prop}
    (hQ : ∀ es v, w.BuildDeeds m.tool.limit [mode] es → startedModes es = [mode] →
      (w.process 0).endsByItself m.tool.limit = true → w.Did es v →
      Q ((w.process 0).build mode) v)
    (hE : ∀ f es v, w.BuildDeeds m.tool.limit [mode] es →
      ¬((∀ t, m.tool.Reaches mode m.project t) ∧
        (w.process 0).endsByItself m.tool.limit = true) →
      (f ≠ .stalled → w.Did es v) → E f v) :
    (m.tool.run mode m.project).Ends w Q E := by
  refine BuildTool.run_ends (fun v e _ he hend hv _ => ?_) (fun f hf => ?_)
    fun f v e _ he hf hv _ => ?_
  · have hrem := ProcessScript.remains_of_endsByItself hend
    have hdeeds : w.BuildDeeds m.tool.limit [mode] [e] := by
      have h : w.BuildDeeds m.tool.limit [mode] (e :: (w.process 0).remains m.tool.limit) :=
        .start he
      rwa [hrem] at h
    exact hQ _ v hdeeds (startedModes_cons_of_some he _) hend hv
  · exact hE f [] w .nil (fun h => by simp [(h.1 _).obstacle?_eq_none] at hf) fun _ => .refl w
  · exact hE f _ v (.start he)
      (fun h => by simp [ProcessScript.failure?_eq_none_iff.mpr h.2] at hf) hv

lemma regenerate_ends {w : World} {Q : Unit → World → Prop} {E : Failure → World → Prop}
    (hQ : ∀ es v, w.BuildDeeds m.tool.limit [.regenerate] es → startedModes es = [.regenerate] →
      w.Did es v → Q () v)
    (hE : ∀ f es v, w.BuildDeeds m.tool.limit [.regenerate] es →
      ¬((∀ t, m.tool.Reaches .regenerate m.project t) ∧
        (w.process 0).endsByItself m.tool.limit = true) →
      (f ≠ .stalled → w.Did es v) → E f v) :
    m.regenerate.Ends w Q E := by
  rw [regenerate, ends_bind]
  refine (Action.Tells.log _ _ _).ends fun v hv _ => ?_
  have hp : v.process 0 = w.process 0 := by simpa using hv.process_eq 0
  have hdeeds (es : List Event) (h : v.BuildDeeds m.tool.limit [.regenerate] es) :
      w.BuildDeeds m.tool.limit [.regenerate] es := by
    simpa using BuildDeeds.nil.append rfl hv h
  rw [ends_bind]
  refine operation_ends (fun es u hes hm _ hu => ?_) fun f es u hes hbad hu => ?_
  · rw [ends_ite]
    refine ⟨fun _ => (Action.Tells.log _ _ _).ends fun x hx _ => ?_, fun _ => ?_⟩
    · exact hQ es x (hdeeds es hes) hm (by simpa using (hv.trans hu).trans hx)
    · exact hQ es u (hdeeds es hes) hm (by simpa using hv.trans hu)
  · exact hE f es u (hdeeds es hes) (hp ▸ hbad) fun hf => by simpa using hv.trans (hu hf)

/-- The build of an attempt: the operations of the attempt are started in their order, and the last
one gives the outcome. -/
lemma rebuild_ends {phase : Phase} {w : World} {Q : Build → World → Prop}
    {E : Failure → World → Prop}
    (hQ : ∀ es v, w.BuildDeeds m.tool.limit phase.round es → startedModes es = phase.round →
      (w.process (phase.round.length - 1)).endsByItself m.tool.limit = true → w.Did es v →
      Q ((w.process (phase.round.length - 1)).build phase.buildMode) v)
    (hE : ∀ f es v, w.BuildDeeds m.tool.limit phase.round es →
      ¬((∀ mode t, m.tool.Reaches mode m.project t) ∧
        ∀ i, (w.process i).endsByItself m.tool.limit = true) →
      (f ≠ .stalled → w.Did es v) → E f v) :
    (m.rebuild phase).Ends w Q E := by
  cases phase with
  | source =>
    simp only [rebuild, Phase.regenerates, if_true]
    rw [ends_bind]
    refine regenerate_ends (fun es v hes hm hv => ?_) fun f es v hes hbad hv => ?_
    · have hp : v.process 0 = w.process 1 := by simpa [hm] using hv.process_eq 0
      refine operation_ends (fun fs u hfs hm' hend hu => ?_) fun f fs u hfs hbad hu => ?_
      · rw [hp] at hend ⊢
        exact hQ (es ++ fs) u (hes.append hm hv hfs) (by rw [startedModes_append, hm, hm']; rfl)
          hend (hv.trans hu)
      · rw [hp] at hbad
        exact hE f (es ++ fs) u (hes.append hm hv hfs) (fun h => hbad ⟨h.1 _, h.2 1⟩)
          fun hf => hv.trans (hu hf)
    · exact hE f es v (hes.mono (List.prefix_append _ _)) (fun h => hbad ⟨h.1 _, h.2 0⟩) hv
  | solution =>
    simp only [rebuild, Phase.regenerates, Bool.false_eq_true, if_false]
    refine operation_ends (fun es v hes hm hend hv => ?_) fun f es v hes hbad hv => ?_
    · exact hQ es v hes hm hend hv
    · exact hE f es v hes (fun h => hbad ⟨h.1 _, h.2 0⟩) hv

/-! ### One attempt -/

/-- The attempt that an answer and a build make. -/
def attemptOf (m : Mender) (phase : Phase) (number : Nat) (current rebuilt : Build)
    (answer : String) : Attempt :=
  { number := number
    before := current.errors
    after := rebuilt.errors
    response := answer
    phase := phase
    progress := m.verdict current rebuilt }

/-- The deeds of an attempt: at most one prompt, and then operations. -/
def AttemptDeeds (m : Mender) (phase : Phase) (w : World) (es : List Event) : Prop :=
  ∃ (prompts : List String) (builds : List Event), es = prompts.map .query ++ builds ∧
    prompts.length ≤ 1 ∧ w.BuildDeeds m.tool.limit phase.round builds

/-- One attempt.  It sends a prompt, does its operations, and is added to the attempts when the last of
them has ended by itself; if it fails before, the attempts stay as they were. -/
theorem tryOnce_ends {phase : Phase} {offset index : Nat} {current : Build} {p : PhaseBench}
    {Q : Build → PhaseBench → Prop} {E : Failure → PhaseBench → Prop}
    (hready : p.session.state = .initialized)
    (hQ : ∀ prompt answer es v, p.bench.world.BuildDeeds m.tool.limit phase.round es →
      startedModes es = phase.round →
      (p.bench.world.process (phase.round.length - 1)).endsByItself m.tool.limit = true →
      p.bench.world.Did (.query prompt :: es) v →
      let rebuilt :=
        (p.bench.world.process (phase.round.length - 1)).build phase.buildMode
      Q rebuilt ⟨⟨v, p.bench.attempts ++
        [m.attemptOf phase (offset + index) current rebuilt answer]⟩, p.session.afterTurn⟩)
    (hE : ∀ f es v s, (s = p.session ∨ s = p.session.afterTurn) →
      m.AttemptDeeds phase p.bench.world es → ¬m.Steady p.bench.world p.session →
      (f ≠ .stalled → p.bench.world.Did es v) → E f ⟨⟨v, p.bench.attempts⟩, s⟩) :
    (m.tryOnce phase offset index current).Ends p Q E := by
  simp only [tryOnce]
  rw [ends_bind, PhaseBench.inWorld_ends]
  refine (Action.Tells.log _ _ _).ends fun w hw _ => ?_
  have hprocess (i : Nat) : w.process i = p.bench.world.process i := by
    simpa using hw.process_eq i
  rw [ends_bind, PhaseBench.inSession_ends]
  refine Session.askForFix_ends (fun h => absurd hready h) (fun f hnone => ?_)
    (fun prompt v _ _ hv _ => ?_) fun f prompt v htime hfail hv => ?_
  · refine hE f [] w _ (Or.inl rfl) ⟨[], [], rfl, by simp, .nil⟩ (fun h => ?_) fun _ => hw
    have hans := h.answers
    simp only [Turn.answers, Bool.and_eq_true, ← noTime?_eq_none_iff] at hans
    rw [show noTime? p.session.profile.limit = some f from hnone] at hans
    simp at hans
  · have hasked : p.bench.world.Did [.query prompt] v := hw.trans hv
    have hpv (i : Nat) : p.bench.world.process i = v.process i := by
      have h := hasked.process_eq i
      rw [startedModes_cons_of_none rfl] at h
      simpa using h.symm
    rw [ends_bind, PhaseBench.inWorld_ends]
    refine rebuild_ends (fun es u hes hm hend hu => ?_) fun f es u hes hbad hu => ?_
    · have hdone (x : World) (hx : u.Did [] x) := hQ prompt p.session.turn.answer es x
        (hes.congr hpv) hm (by rw [hpv]; exact hend) (by simpa using (hasked.trans hu).trans hx)
      rw [ends_bind, PhaseBench.addAttempt, ends_modify, ends_ite]
      simp only [← hpv]
      refine ⟨fun _ => ?_, fun _ => ?_⟩
      · rw [ends_bind, PhaseBench.inWorld_ends]
        exact (Action.Tells.log _ _ _).ends fun x hx _ => hdone x hx
      · rw [ends_bind, PhaseBench.inWorld_ends]
        exact (noteProgress_tells _ _ _ _).ends fun x hx _ => hdone x hx
    · refine hE f (.query prompt :: es) u _ (Or.inr rfl) ⟨[prompt], es, rfl, by simp, hes.congr hpv⟩
        (fun h => hbad ⟨h.reaches, fun i => ?_⟩) fun hf => hasked.trans (hu hf)
      exact (hpv i).symm ▸ h.ends i
  · refine hE f [.query prompt] v _ (Or.inr rfl) ⟨[prompt], [], rfl, by simp, .nil⟩ (fun h => ?_)
      fun _ => hw.trans hv
    have hquiet := (Turn.failure?_eq_none_iff (noTime?_eq_none_iff.mp htime)).mpr h.answers
    exact Option.some_ne_none f (hfail.symm.trans hquiet)

/-! ### One phase -/

/-- The session in which a phase asks. -/
def sessionOf (m : Mender) : Session :=
  .forFixes m.assistant m.streams m.project.fullText

/-- The session of a phase can take prompts. -/
structure IsOpen (s : Session) : Prop where
  state : s.state = .initialized
  client : s.client.isSome = true

lemma IsOpen.afterTurn {s : Session} (h : IsOpen s) : IsOpen s.afterTurn :=
  ⟨h.state, by simpa [Session.afterTurn] using h.client⟩

/-- The end of a session that has a client. -/
lemma dispose_ends {x : PhaseBench} {P : PhaseBench → Prop} {E : Failure → PhaseBench → Prop}
    (hstate : x.session.state ≠ .disposed) (hclient : x.session.client.isSome = true)
    (hP : ∀ y : PhaseBench, x.bench.world.Did [.disconnect] y.bench.world →
      y.bench.attempts = x.bench.attempts → P y)
    (hE : ∀ (f : Failure) (y : PhaseBench), ¬x.session.Cooperates →
      x.bench.world.Did [.disconnect] y.bench.world →
      y.bench.attempts = x.bench.attempts → E f y) :
    (PhaseBench.inSession Session.dispose).Ends x (fun _ y => P y) E := by
  rw [PhaseBench.inSession_ends]
  refine Session.dispose_ends (fun h => absurd h hstate) (fun v _ hc _ _ => ?_)
    (fun c v _ _ _ hv _ => hP _ hv rfl) fun f c v _ hc hl _ hv => hE f _ (fun h => ?_) hv rfl
  · rw [show x.session.client = none from hc] at hclient
    cases hclient
  · rw [h.leaves hc] at hl
    cases hl

/-- A phase is its attempts in a session of its own, which is disposed however they end. -/
lemma fixLoop_ends {phase : Phase} {build : Build} {offset : Nat} {b : Bench}
    {Q : Bool × Nat → Bench → Prop} {E : Failure → Bench → Prop} :
    (m.fixLoop phase build offset).Ends b Q E ↔
      (Act.closing (do
          PhaseBench.inSession Session.begin
          m.attemptLoop phase offset (m.settings.budget phase) build)
        (PhaseBench.inSession Session.dispose)).Ends ⟨b, m.sessionOf⟩
          (fun x p => Q x p.bench) fun f p => E f p.bench := by
  rw [Ends, fixLoop, Ends, sessionOf]
  generalize Act.closing _ _ _ = end'
  obtain ⟨r, p⟩ := end'
  cases r <;> rfl

/-- A run with two attempts for each phase and some limit for builds. -/
def plain (limit : Option Number.Amount) : Mender :=
  .ofSettings (fun _ => none) ["project"] { FixSettings.ofRetries 2 with buildLimit := limit }
    ⟨"model", "model", none, "acceptEdits", none⟩ false

end Mender

/-- A world without files in which some processes will be started. -/
def World.running (ps : List ProcessScript) : World := { tree := ⟨[], []⟩, processes := ps }

end BuildMend
