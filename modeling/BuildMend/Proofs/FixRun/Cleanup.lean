import BuildMend.Proofs.FixRun.Attempt

/-!
What a run leaves behind: nothing.

* `sessionEvents`: the deeds of one session, from its client to the client's disconnection.
* `Mender.fixLoop_deeds`: a phase opens one session and closes it, however it ends.
* `Mender.Tidy`: some deeds of a run, with the sessions that are over.
* `Mender.run_leaves_nothing`: a run that comes to an end, in whatever way, has closed every session
  that it opened and killed every process that has not ended by itself.
-/

namespace BuildMend

open Act World Number

/-- Whether a run comes to an end, and does not wait for ever. -/
def comesToEnd {α : Type} : Except Failure α → Bool
  | .error .stalled => false
  | _ => true

/-- Whether an event belongs to a session with the assistant. -/
def Event.isOfSession : Event → Bool
  | .client _ | .connect | .query _ | .disconnect => true
  | _ => false

/-- The deeds of a session with the assistant: a client is created and connected, gets prompts, and is
disconnected. -/
def sessionEvents (options : ClientOptions) (prompts : List String) : List Event :=
  .client options :: .connect :: (prompts.map .query ++ [.disconnect])

/-- A session that is over, by its client's options and its prompts. -/
abbrev PastSession := ClientOptions × List String

/-- The deeds of sessions, one after the other. -/
def allSessionEvents (ss : List PastSession) : List Event :=
  ss.flatMap fun s => sessionEvents s.1 s.2

lemma filter_queries (prompts : List String) :
    (prompts.map Event.query).filter Event.isOfSession = prompts.map .query := by
  rw [List.filter_eq_self]
  intro e he
  obtain ⟨p, -, rfl⟩ := List.mem_map.mp he
  rfl

lemma filter_builds {limit : Option Amount} {w : World} {modes : List BuildMode} {es : List Event}
    (h : w.BuildDeeds limit modes es) : es.filter Event.isOfSession = [] := by
  rw [List.filter_eq_nil_iff]
  intro e he
  rcases h.only e he with h | rfl
  · cases e <;> simp [Event.isStart, Event.mode?, Event.isOfSession] at h ⊢
  · simp [Event.isOfSession]

namespace Mender

variable {m : Mender}

/-! ### One phase -/

/-- The deeds of attempts: prompts, operations of the phase, and what is done about their
processes. -/
structure LoopDeeds (m : Mender) (phase : Phase) (w : World) (es : List Event) : Prop where
  prompts : ∃ prompts : List String, es.filter Event.isOfSession = prompts.map .query
  modes : ∀ mode ∈ startedModes es, mode ∈ phase.round
  kills : w.KillsLeftovers m.tool.limit es

namespace LoopDeeds

variable {phase : Phase} {w v : World} {es fs : List Event}

lemma nil : m.LoopDeeds phase w [] := ⟨⟨[], rfl⟩, by simp, .of_forall (by simp)⟩

lemma append (h : m.LoopDeeds phase w es) (hd : w.Did es v) (h' : m.LoopDeeds phase v fs) :
    m.LoopDeeds phase w (es ++ fs) where
  prompts := by
    obtain ⟨ps, hps⟩ := h.prompts
    obtain ⟨qs, hqs⟩ := h'.prompts
    exact ⟨ps ++ qs, by rw [List.filter_append, hps, hqs, List.map_append]⟩
  modes mode hm := by
    rw [startedModes_append] at hm
    exact (List.mem_append.mp hm).elim (h.modes mode) (h'.modes mode)
  kills := h.kills.append hd.process_eq h'.kills

/-- The deeds of one attempt. -/
lemma of_attempt (h : m.AttemptDeeds phase w es) : m.LoopDeeds phase w es := by
  obtain ⟨prompts, builds, rfl, -, hb⟩ := h
  have hnone : ∀ e ∈ prompts.map Event.query, e.isStart = false ∧ e ≠ .kill := by
    intro e he
    obtain ⟨p, -, rfl⟩ := List.mem_map.mp he
    exact ⟨rfl, by simp⟩
  have hmodes : startedModes (prompts.map Event.query) = [] := by
    rw [startedModes, List.filterMap_eq_nil_iff]
    exact fun e he => by simpa [Event.isStart] using (hnone e he).1
  refine ⟨⟨prompts, ?_⟩, fun mode hm => ?_, ?_⟩
  · rw [List.filter_append, filter_queries, filter_builds hb, List.append_nil]
  · rw [startedModes_append, hmodes, List.nil_append] at hm
    exact hb.modes.subset hm
  · exact (KillsLeftovers.of_forall hnone).append (by simp [hmodes]) hb.kills

end LoopDeeds

/-- Attempts do the deeds of attempts, and the session stays open. -/
lemma attemptLoop_deeds {phase : Phase} {offset left : Nat} {current : Build} {p : PhaseBench}
    (hs : IsOpen p.session) :
    (m.attemptLoop phase offset left current).Ends p
      (fun _ q => ∃ es, p.bench.world.Did es q.bench.world ∧
        m.LoopDeeds phase p.bench.world es ∧ IsOpen q.session)
      fun f q => IsOpen q.session ∧ (f ≠ .stalled →
        ∃ es, p.bench.world.Did es q.bench.world ∧ m.LoopDeeds phase p.bench.world es) := by
  induction left generalizing current p with
  | zero =>
    rw [attemptLoop, ends_bind, PhaseBench.inWorld_ends]
    exact (Action.Tells.log _ _ _).ends fun v hv _ => ⟨[], hv, .nil, hs⟩
  | succ left ih =>
    simp only [attemptLoop]
    rw [ends_bind]
    refine tryOnce_ends hs.state (fun prompt answer es v hes hm _ hv => ?_)
      fun f es v s hses hes _ hv => ?_
    · have hone : m.LoopDeeds phase p.bench.world (.query prompt :: es) :=
        .of_attempt ⟨[prompt], es, rfl, by simp, hes⟩
      simp only
      rw [ends_ite]
      refine ⟨fun _ => ⟨_, hv, hone, hs.afterTurn⟩, fun _ => (ih hs.afterTurn).mono ?_ ?_⟩
      · rintro - q ⟨fs, hq, hfs, hopen⟩
        exact ⟨_, hv.trans hq, hone.append hv hfs, hopen⟩
      · rintro f q ⟨hopen, hq⟩
        refine ⟨hopen, fun hf => ?_⟩
        obtain ⟨fs, hq, hfs⟩ := hq hf
        exact ⟨_, hv.trans hq, hone.append hv hfs⟩
    · refine ⟨?_, fun hf => ⟨es, hv hf, .of_attempt hes⟩⟩
      rcases hses with rfl | rfl
      · exact hs
      · exact hs.afterTurn

/-- The deeds of a phase: those of one session around those of its attempts. -/
structure PhaseDeeds (m : Mender) (phase : Phase) (w : World) (es : List Event) : Prop where
  session : ∃ s : PastSession, es.filter Event.isOfSession = sessionEvents s.1 s.2
  modes : ∀ mode ∈ startedModes es, mode ∈ phase.round
  kills : w.KillsLeftovers m.tool.limit es

/-- Attempts within a session, and its end. -/
lemma LoopDeeds.closed {phase : Phase} {w v u : World} {es : List Event} {o : ClientOptions}
    (hv : w.Did [.client o, .connect] v) (hu : v.Did es u) (h : m.LoopDeeds phase v es) :
    m.PhaseDeeds phase w ([.client o, .connect] ++ (es ++ [.disconnect])) where
  session := by
    obtain ⟨ps, hps⟩ := h.prompts
    refine ⟨(o, ps), ?_⟩
    rw [List.filter_append, List.filter_append, hps]
    rfl
  modes mode hm := by
    rw [startedModes_append, startedModes_append] at hm
    exact h.modes mode (by simpa [startedModes, Event.mode?] using hm)
  kills :=
    have hlast : u.KillsLeftovers m.tool.limit [.disconnect] :=
      .of_forall (by simp [Event.isStart, Event.mode?])
    have hfirst : w.KillsLeftovers m.tool.limit [.client o, .connect] :=
      .of_forall (by simp [Event.isStart, Event.mode?])
    hfirst.append hv.process_eq (h.kills.append hu.process_eq hlast)

/-- A phase opens one session and closes it, however it ends. -/
lemma fixLoop_deeds {phase : Phase} {build : Build} {offset : Nat} {b : Bench} :
    (m.fixLoop phase build offset).Ends b
      (fun _ c => ∃ es, b.world.Did es c.world ∧ m.PhaseDeeds phase b.world es)
      fun f c => f ≠ .stalled → ∃ es, b.world.Did es c.world ∧ m.PhaseDeeds phase b.world es := by
  -- what closing adds to the deeds of an open session
  have hclosed (o : ClientOptions) (v : World) (p : PhaseBench) (es : List Event)
      (hv : b.world.Did [.client o, .connect] v) (hes : v.Did es p.bench.world)
      (hloop : m.LoopDeeds phase v es) (q : PhaseBench)
      (hq : p.bench.world.Did [.disconnect] q.bench.world) :
      ∃ fs, b.world.Did fs q.bench.world ∧ m.PhaseDeeds phase b.world fs :=
    ⟨_, hv.trans (hes.trans hq), hloop.closed hv hes⟩
  rw [fixLoop_ends, ends_closing, ends_bind, PhaseBench.inSession_ends]
  refine Session.begin_ends (fun h => absurd rfl h) (fun v _ hv _ => ?_) fun x v _ hv => ?_
  · have hopen : IsOpen { m.sessionOf.attached (b.world.client 0) with state := .initialized } :=
      ⟨rfl, rfl⟩
    refine (attemptLoop_deeds hopen).mono ?_ ?_
    · rintro r q ⟨es, hes, hloop, hq⟩
      have h := hclosed _ v q es hv hes hloop
      exact dispose_ends (by rw [hq.state]; simp) hq.client (fun y hy _ => h y hy)
        fun f y _ hy _ _ => h y hy
    · rintro f q ⟨hq, hloop⟩
      refine ⟨fun hf h => absurd hf h, fun hf => ?_⟩
      obtain ⟨es, hes, hloop⟩ := hloop hf
      have h := hclosed _ v q es hv hes hloop
      exact dispose_ends (by rw [hq.state]; simp) hq.client (fun y hy _ _ => h y hy)
        fun f y _ hy _ _ => h y hy
  · refine ⟨fun h => absurd h x.onConnect_ne_stalled, fun _ => ?_⟩
    have h := hclosed _ v ⟨{ b with world := v }, m.sessionOf.attached (b.world.client 0)⟩ [] hv
      (.refl v) .nil
    exact dispose_ends (show SessionState.uninitialized ≠ .disposed by simp) rfl
      (fun y hy _ _ => h y hy) fun f y _ hy _ _ => h y hy

/-! ### The run -/

/-- Some deeds of a run from its start on: sessions that are over, and builds of the solution only
after the first of them. -/
structure Tidy (m : Mender) (ss : List PastSession) (w : World) (es : List Event) : Prop where
  sessions : es.filter Event.isOfSession = allSessionEvents ss
  solution : ∀ before e after, es = before ++ e :: after → e.mode? = some .solution →
    ∃ (s : PastSession) (rest : List Event),
      before.filter Event.isOfSession = sessionEvents s.1 s.2 ++ rest
  kills : w.KillsLeftovers m.tool.limit es

namespace Tidy

variable {w v : World} {es fs : List Event} {ss ts : List PastSession}

lemma nil : m.Tidy [] w [] := ⟨rfl, by simp, .of_forall (by simp)⟩

lemma append (h : m.Tidy ss w es) (hd : w.Did es v)
    (hfs : fs.filter Event.isOfSession = allSessionEvents ts)
    (hmodes : .solution ∈ startedModes fs → ss ≠ []) (hk : v.KillsLeftovers m.tool.limit fs) :
    m.Tidy (ss ++ ts) w (es ++ fs) where
  sessions := by
    rw [List.filter_append, h.sessions, hfs, allSessionEvents, allSessionEvents, allSessionEvents,
      List.flatMap_append]
  solution before e after hes he := by
    have later (a : List Event) (hb : before = es ++ a) (hfs : fs = a ++ e :: after) :
        ∃ (s : PastSession) (rest : List Event),
          before.filter Event.isOfSession = sessionEvents s.1 s.2 ++ rest := by
      have hmem : .solution ∈ startedModes fs := by
        rw [hfs, startedModes_append, startedModes_cons_of_some he]
        simp
      obtain ⟨s, ss', rfl⟩ := List.exists_cons_of_ne_nil (hmodes hmem)
      refine ⟨s, allSessionEvents ss' ++ a.filter Event.isOfSession, ?_⟩
      rw [hb, List.filter_append, h.sessions, allSessionEvents, List.flatMap_cons,
        List.append_assoc]
      rfl
    rcases List.append_eq_append_iff.mp hes with ⟨a, hb, hfs⟩ | ⟨c, hes', hc⟩
    · exact later a hb hfs
    · cases c with
      | nil => exact later [] (by simpa using hes'.symm) hc.symm
      | cons g c =>
        obtain ⟨rfl, rfl⟩ := List.cons.inj hc
        exact h.solution before _ c hes' he
  kills := h.kills.append hd.process_eq hk

/-- An operation is started between sessions. -/
lemma builds {mode : BuildMode} (h : m.Tidy ss w es) (hd : w.Did es v)
    (hfs : v.BuildDeeds m.tool.limit [mode] fs) (hmode : mode = .solution → ss ≠ []) :
    m.Tidy ss w (es ++ fs) := by
  have hall : m.Tidy (ss ++ []) w (es ++ fs) :=
    h.append hd (filter_builds hfs) (fun hm => ?_) hfs.kills
  · rwa [List.append_nil] at hall
  · exact hmode (List.mem_singleton.mp (hfs.modes.subset hm)).symm

/-- A phase adds its session. -/
lemma phase {phase : Phase} (h : m.Tidy ss w es) (hd : w.Did es v)
    (hfs : m.PhaseDeeds phase v fs) (hphase : phase = .solution → ss ≠ []) :
    ∃ s, m.Tidy (ss ++ [s]) w (es ++ fs) := by
  obtain ⟨s, hs⟩ := hfs.session
  refine ⟨s, h.append hd (by simpa [allSessionEvents] using hs) (fun hm => hphase ?_) hfs.kills⟩
  cases phase with
  | source => simpa [Phase.round, Phase.regenerates, Phase.buildMode] using hfs.modes _ hm
  | solution => rfl

end Tidy

/-- A run under way that began in some world has only tidy deeds behind it, with a few sessions. -/
def Tidied (m : Mender) (w : World) (most : Nat) (v : World) : Prop :=
  ∃ es ss, w.Did es v ∧ ss.length ≤ most ∧ m.Tidy ss w es

/-- The solution is built and mended after the session of the sources. -/
lemma solutionPhase_tidied {used : Nat} {w : World} {es : List Event} {s : PastSession} {b : Bench}
    (hb : w.Did es b.world) (h : m.Tidy [s] w es) :
    (m.solutionPhase used).Ends b (fun _ c => m.Tidied w 2 c.world)
      fun f c => f ≠ .stalled → m.Tidied w 2 c.world := by
  simp only [solutionPhase]
  refine Bench.told_ends (.log _ _ _) fun v hv => ?_
  have hstart : w.Did es v := by simpa using hb.trans hv
  rw [ends_bind, Bench.inWorld_ends]
  refine operation_ends (fun fs u hfs _ _ hu => ?_) fun f fs u hfs _ hu hf => ?_
  · have hbuilt := h.builds hstart hfs fun _ => List.cons_ne_nil _ _
    generalize ProcessScript.build _ _ = build
    rw [ends_ite]
    refine ⟨fun _ => Bench.told_ends (.log _ _ _) fun x hx => ?_,
      fun _ => Bench.told_ends (.log _ _ _) fun x hx =>
        Bench.told_ends (notePreview_tells _) fun y hy => ?_⟩
    · exact ⟨es ++ fs, [s], by simpa using (hstart.trans hu).trans hx, by simp, hbuilt⟩
    · have hbefore : w.Did (es ++ fs) y := by simpa using ((hstart.trans hu).trans hx).trans hy
      rw [ends_bind]
      refine fixLoop_deeds.mono ?_ ?_
      · rintro r c ⟨gs, hc, hgs⟩
        obtain ⟨t, ht⟩ := hbuilt.phase hbefore hgs fun _ => List.cons_ne_nil _ _
        exact ⟨_, _, hbefore.trans hc, by simp, ht⟩
      · intro f c hc hf
        obtain ⟨gs, hc, hgs⟩ := hc hf
        obtain ⟨t, ht⟩ := hbuilt.phase hbefore hgs fun _ => List.cons_ne_nil _ _
        exact ⟨_, _, hbefore.trans hc, by simp, ht⟩
  · exact ⟨es ++ fs, [s], hstart.trans (hu hf), by simp,
      h.builds hstart hfs fun _ => List.cons_ne_nil _ _⟩

/-- The sources are generated, built and mended first. -/
lemma phases_tidied {w : World} :
    m.phases.Ends ⟨w, []⟩ (fun _ c => m.Tidied w 2 c.world)
      fun f c => f ≠ .stalled → m.Tidied w 2 c.world := by
  simp only [phases]
  rw [ends_bind, Bench.inWorld_ends]
  refine regenerate_ends (fun es v hes _ hv => ?_) fun f es v hes _ hv hf => ?_
  · have hfirst : m.Tidy [] w es := Tidy.nil.builds (.refl w) hes (by simp)
    refine Bench.told_ends (.log _ _ _) fun v' hv' => ?_
    have hstart : w.Did es v' := by simpa using hv.trans hv'
    rw [ends_bind, Bench.inWorld_ends]
    refine operation_ends (fun fs u hfs _ _ hu => ?_) fun f fs u hfs _ hu hf => ?_
    · have hbuilt := hfirst.builds hstart hfs (by simp)
      generalize ProcessScript.build _ _ = build
      rw [ends_ite]
      refine ⟨fun _ => Bench.told_ends (.log _ _ _) fun x hx => ?_,
        fun _ => Bench.told_ends (.log _ _ _) fun x hx =>
          Bench.told_ends (notePreview_tells _) fun y hy => ?_⟩
      · exact ⟨es ++ fs, [], by simpa using (hstart.trans hu).trans hx, by simp, hbuilt⟩
      · have hbefore : w.Did (es ++ fs) y := by simpa using ((hstart.trans hu).trans hx).trans hy
        rw [ends_bind]
        refine fixLoop_deeds.mono ?_ ?_
        · rintro ⟨success, used⟩ c ⟨gs, hc, hgs⟩
          obtain ⟨s, hs⟩ := hbuilt.phase hbefore hgs (by simp)
          have hmended : w.Did (es ++ fs ++ gs) c.world := hbefore.trans hc
          simp only
          rw [ends_ite]
          exact ⟨fun _ => solutionPhase_tidied hmended hs,
            fun _ => ⟨_, _, hmended, by simp, hs⟩⟩
        · intro f c hc hf
          obtain ⟨gs, hc, hgs⟩ := hc hf
          obtain ⟨s, hs⟩ := hbuilt.phase hbefore hgs (by simp)
          exact ⟨_, _, hbefore.trans hc, by simp, hs⟩
    · exact ⟨es ++ fs, [], hstart.trans (hu hf), by simp, hfirst.builds hstart hfs (by simp)⟩
  · exact ⟨es, [], hv hf, by simp, Tidy.nil.builds (.refl w) hes (by simp)⟩

/-- A run that comes to an end leaves nothing behind, whatever ends it.  Its deeds hold at most two
sessions, each with a client of its own that is connected once, gets its prompts, and is
disconnected once before the next session begins; the solution is built only after the first of
them; and a process is killed, once and at once, exactly if it does not end by itself. -/
theorem run_leaves_nothing (m : Mender) (w : World) (h : comesToEnd (m.run w).1 = true) :
    ∃ es ss, (m.run w).2.deeds = w.deeds ++ es ∧ ss.length ≤ 2 ∧ m.Tidy ss w es := by
  have hphases := phases_tidied (m := m) (w := w)
  rw [run] at h ⊢
  rw [Ends] at hphases
  split at hphases
  · rename_i r b hb
    obtain ⟨es, ss, hd, hlen, ht⟩ := hphases
    rw [hb]
    exact ⟨es, ss, hd.deeds, hlen, ht⟩
  · rename_i f b hb
    rw [hb] at h ⊢
    cases f with
    | fault f =>
      obtain ⟨es, ss, hd, hlen, ht⟩ := hphases (by simp)
      have hlast : b.world.deeds = (Action.log .error .fixRun
          s!"Fix run aborted after {b.attempts.length} attempt(s): {f.message}" b.world).2.deeds := by
        simp [Action.log, World.deeds, World.trace, Event.isDeed]
      exact ⟨es, ss, hlast.symm.trans hd.deeds, hlen, ht⟩
    | stalled => cases h
    | _ =>
      obtain ⟨es, ss, hd, hlen, ht⟩ := hphases (by simp)
      exact ⟨es, ss, hd.deeds, hlen, ht⟩

/-- The code of the first attempt is generated by a process that never ends. -/
def hangingWorld : World := .running [.quiet, .runs [] (.exits 1) {}, .runs [] .hangs {}]

theorem hanging_run_leaves_nothing :
    comesToEnd ((plain (some (.whole 60))).run hangingWorld).1 = true ∧
      ∃ es ss, ((plain (some (.whole 60))).run hangingWorld).2.deeds = hangingWorld.deeds ++ es ∧
        ss.length ≤ 2 ∧ (plain (some (.whole 60))).Tidy ss hangingWorld es :=
  have h : comesToEnd ((plain (some (.whole 60))).run hangingWorld).1 = true := by decide +kernel
  ⟨h, run_leaves_nothing _ _ h⟩

end Mender

end BuildMend
