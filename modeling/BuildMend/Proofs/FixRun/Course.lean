import BuildMend.Proofs.FixRun.Cleanup

/-!
The course of a phase: its attempts beside the processes of its builds.

* `Mender.Unhindered`: the surroundings never stop a run.
* `Mender.Course`: how attempts follow each other, from the build that a phase starts from to the
  first success, to the last attempt, or to where the phase is cut short.
* `Mender.attemptLoop_course`, `Mender.fixLoop_course`: a phase takes such a course; it is cut short
  only where something stops the run.
-/

namespace BuildMend

open Act World

/-! ### Surroundings that do not stop a run -/

namespace Mender

variable {m : Mender}

/-- The surroundings never stop a run: every operation reaches its process, every process ends by
itself, and every client connects, answers and leaves. -/
structure Unhindered (m : Mender) (w : World) : Prop where
  reaches : ∀ mode t, m.tool.Reaches mode m.project t
  ends : ∀ i, (w.process i).endsByItself m.tool.limit = true
  cooperates : ∀ i, (w.client i).Cooperates m.assistant.limit

namespace Unhindered

variable {w v : World} {es : List Event}

lemma of_did (h : m.Unhindered w) (hd : w.Did es v) : m.Unhindered v where
  reaches := h.reaches
  ends i := by
    rw [hd.process_eq]
    exact h.ends _
  cooperates i := by
    rw [hd.client_eq]
    exact h.cooperates _

lemma steady (h : m.Unhindered w) {s : Session} (hs : s.Cooperates) : m.Steady w s :=
  ⟨h.reaches, h.ends, hs.turn_answers⟩

end Unhindered

/-! ### Courses -/

/-- How attempts with a budget follow each other, the first one with some number.  Each mends the build
of one process and is judged by the next process: the last one is the first that succeeds, or the
last of the budget, or the last before the phase is cut short. -/
inductive Course (m : Mender) (phase : Phase) :
    (budget number : Nat) → ProcessScript → List ProcessScript → List Attempt → Option Bool → Prop
  | cut {budget number p ps} : Course m phase budget number p ps [] none
  | exhausted {number p} : Course m phase 0 number p [] [] (some false)
  | resolved {budget number p q answer} (hp : p.endsByItself m.tool.limit = true)
      (hq : q.endsByItself m.tool.limit = true) (hcode : q.exitCode = 0) :
      Course m phase (budget + 1) number p [q]
        [m.attemptOf phase number (p.build phase.buildMode) (q.build phase.buildMode) answer]
        (some true)
  | failed {budget number p q ps as answer o} (hp : p.endsByItself m.tool.limit = true)
      (hq : q.endsByItself m.tool.limit = true) (hcode : q.exitCode ≠ 0)
      (h : Course m phase budget (number + 1) q ps as o) :
      Course m phase (budget + 1) number p (q :: ps)
        (m.attemptOf phase number (p.build phase.buildMode) (q.build phase.buildMode) answer :: as)
        o

/-- A phase that is not cut short has a build for each of its attempts. -/
lemma Course.length_eq {phase : Phase} {budget number : Nat} {p : ProcessScript}
    {ps : List ProcessScript} {as : List Attempt} {success : Bool}
    (h : m.Course phase budget number p ps as (some success)) : ps.length = as.length := by
  generalize ho : some success = o at h
  induction h with
  | cut => cases ho
  | exhausted => rfl
  | resolved => rfl
  | failed _ _ _ _ ih => simp [ih ho]

lemma startedModes_attempt {phase : Phase} {prompt : String} {es : List Event}
    (h : startedModes es = phase.round) : startedModes (.query prompt :: es) = phase.round :=
  (startedModes_cons_of_none rfl es).trans h

lemma scriptsOf_attempt {phase : Phase} {w : World} {es : List Event}
    (h : startedModes es = phase.round) :
    w.scriptsOf phase.buildMode es = [w.process (phase.round.length - 1)] := by
  rw [scriptsOf, h]
  cases phase <;> rfl

lemma success_build {mode : BuildMode} {p : ProcessScript} :
    (p.build mode).success = true ↔ p.exitCode = 0 := by
  simp [ProcessScript.build, Build.ofOutput]

/-- What a phase has done when its attempts are over. -/
structure Mended (m : Mender) (phase : Phase) (budget number : Nat) (p : ProcessScript) (w : World)
    (es : List Event) (as : List Attempt) (success : Bool) : Prop where
  course : m.Course phase budget number p (w.scriptsOf phase.buildMode es) as (some success)
  modes : startedModes es = (List.replicate as.length phase.round).flatten

/-- What a phase has done so far. -/
structure Mending (m : Mender) (phase : Phase) (budget number : Nat) (p : ProcessScript) (w : World)
    (es : List Event) (as : List Attempt) : Prop where
  course : ∃ o, m.Course phase budget number p (w.scriptsOf phase.buildMode es) as o
  modes : ∀ mode ∈ startedModes es, mode ∈ phase.round

lemma Mended.mending {phase : Phase} {budget number : Nat} {p : ProcessScript} {w : World}
    {es : List Event} {as : List Attempt} {success : Bool}
    (h : m.Mended phase budget number p w es as success) :
    m.Mending phase budget number p w es as where
  course := ⟨_, h.course⟩
  modes mode hm := by
    rw [h.modes, List.mem_flatten] at hm
    obtain ⟨l, hl, hm⟩ := hm
    rwa [List.eq_of_mem_replicate hl] at hm

/-! ### The attempts of a phase -/

/-- Attempts take their course in an open session. -/
lemma attemptLoop_course {phase : Phase} {offset left : Nat} {p : ProcessScript} {x : PhaseBench}
    (hs : IsOpen x.session) (hleft : left ≤ m.settings.budget phase)
    (hp : p.endsByItself m.tool.limit = true) :
    let number := offset + (m.settings.budget phase - left) + 1
    (m.attemptLoop phase offset left (p.build phase.buildMode)).Ends x
      (fun r y => IsOpen y.session ∧ (x.session.Cooperates → y.session.Cooperates) ∧
        ∃ es as, x.bench.world.Did es y.bench.world ∧ es.countP Event.isClient = 0 ∧
          y.bench.attempts = x.bench.attempts ++ as ∧
          m.Mended phase left number p x.bench.world es as r.1 ∧
          r.2 = m.settings.budget phase - left + as.length)
      fun f y => IsOpen y.session ∧ ¬(m.Unhindered x.bench.world ∧ x.session.Cooperates) ∧
        (f ≠ .stalled → ∃ es as, x.bench.world.Did es y.bench.world ∧
          y.bench.attempts = x.bench.attempts ++ as ∧
          m.Mending phase left number p x.bench.world es as) := by
  induction left generalizing p x with
  | zero =>
    rw [attemptLoop, ends_bind, PhaseBench.inWorld_ends]
    refine (Action.Tells.log _ _ _).ends fun v hv _ => ?_
    exact ⟨hs, id, [], [], hv, rfl, (List.append_nil _).symm, ⟨.exhausted, rfl⟩, rfl⟩
  | succ left ih =>
    have hnumber : offset + (m.settings.budget phase - (left + 1)) + 1
        = offset + (m.settings.budget phase - left) := by omega
    simp only [attemptLoop]
    rw [ends_bind, hnumber]
    refine tryOnce_ends hs.state (fun prompt answer es v hes hm hend hv => ?_)
      fun f es v s hses hes hbad hv => ?_
    · have hmodes : startedModes (.query prompt :: es) = phase.round := startedModes_attempt hm
      have hscripts := scriptsOf_attempt (w := x.bench.world) hmodes
      have hclients : (Event.query prompt :: es).countP Event.isClient = 0 := by
        rw [List.countP_cons_of_neg (by simp [Event.isClient]), hes.clients]
      generalize x.bench.world.process (phase.round.length - 1) = q at hend hscripts ⊢
      simp only
      rw [ends_ite, success_build]
      refine ⟨fun hcode => ?_, fun hcode => ?_⟩
      · refine ⟨hs.afterTurn, fun h => h.afterTurn, _, _, hv, hclients, rfl, ⟨?_, ?_⟩, ?_⟩
        · rw [hscripts]
          exact .resolved hp hend hcode
        · rw [hmodes]
          simp
        · simp only [List.length_singleton]
          omega
      · refine (ih hs.afterTurn (by omega) hend).mono ?_ ?_
        · rintro r y ⟨hopen, hcoop, fs, as, hy, hfs, has, hmended, hr⟩
          refine ⟨hopen, fun h => hcoop h.afterTurn, _, _, hv.trans hy, ?_,
            has.trans (List.append_assoc _ _ _), ⟨?_, ?_⟩, ?_⟩
          · rw [List.countP_append, hclients, hfs]
          · rw [scriptsOf_append hv, hscripts]
            exact .failed hp hend hcode hmended.course
          · rw [startedModes_append, hmodes, hmended.modes]
            simp [List.replicate_succ]
          · rw [hr, List.length_append, List.length_singleton]
            omega
        · rintro f y ⟨hopen, hbad, hy⟩
          refine ⟨hopen, fun h => hbad ⟨h.1.of_did hv, h.2.afterTurn⟩, fun hf => ?_⟩
          obtain ⟨fs, as, hy, has, ⟨o, hcourse⟩, hms⟩ := hy hf
          refine ⟨_, _, hv.trans hy, has.trans (List.append_assoc _ _ _),
            ⟨⟨o, ?_⟩, fun mode hmode => ?_⟩⟩
          · rw [scriptsOf_append hv, hscripts]
            exact .failed hp hend hcode hcourse
          · rw [startedModes_append, List.mem_append, hmodes] at hmode
            exact hmode.elim id (hms mode)
    · refine ⟨?_, fun h => hbad (h.1.steady h.2), fun hf => ?_⟩
      · rcases hses with rfl | rfl
        · exact hs
        · exact hs.afterTurn
      · exact ⟨es, [], hv hf, (List.append_nil _).symm,
          ⟨⟨none, .cut⟩, (LoopDeeds.of_attempt hes).modes⟩⟩

/-! ### A phase -/

lemma scriptsOf_framed {mode : BuildMode} {w v u : World} {es : List Event} {o : ClientOptions}
    (hv : w.Did [.client o, .connect] v) (hu : v.Did es u) :
    w.scriptsOf mode ([.client o, .connect] ++ (es ++ [.disconnect])) = v.scriptsOf mode es := by
  rw [scriptsOf_append hv, scriptsOf_append hu]
  exact List.append_nil _

lemma startedModes_framed {es : List Event} {o : ClientOptions} :
    startedModes ([.client o, .connect] ++ (es ++ [.disconnect])) = startedModes es := by
  rw [startedModes_append, startedModes_append]
  exact List.append_nil _

/-- A phase takes its course within one session; where it is cut short, something stopped it. -/
lemma fixLoop_course {phase : Phase} {offset : Nat} {p : ProcessScript} {b : Bench}
    (hp : p.endsByItself m.tool.limit = true) :
    (m.fixLoop phase (p.build phase.buildMode) offset).Ends b
      (fun r c => ∃ es as, b.world.Did es c.world ∧ es.countP Event.isClient = 1 ∧
        c.attempts = b.attempts ++ as ∧
        m.Mended phase (m.settings.budget phase) (offset + 1) p b.world es as r.1 ∧
        r.2 = as.length)
      fun f c => ¬m.Unhindered b.world ∧ (f ≠ .stalled → ∃ es as, b.world.Did es c.world ∧
        c.attempts = b.attempts ++ as ∧
        m.Mending phase (m.settings.budget phase) (offset + 1) p b.world es as) := by
  rw [fixLoop_ends, ends_closing, ends_bind, PhaseBench.inSession_ends]
  refine Session.begin_ends (fun h => absurd rfl h) (fun v _ hv _ => ?_) fun x v hx hv => ?_
  · have hopen : IsOpen { m.sessionOf.attached (b.world.client 0) with state := .initialized } :=
      ⟨rfl, rfl⟩
    have hcoop (h : m.Unhindered b.world) :
        Session.Cooperates
          { m.sessionOf.attached (b.world.client 0) with state := .initialized } :=
      ⟨_, rfl, h.cooperates 0⟩
    refine (attemptLoop_course hopen (Nat.le_refl _) hp).mono ?_ ?_
    · rintro r x ⟨hx, hstay, es, as, hes, hclients, has, hmended, hr⟩
      rw [Nat.sub_self, Nat.add_zero] at hmended
      have hall : m.Mended phase (m.settings.budget phase) (offset + 1) p b.world
          ([.client m.sessionOf.options, .connect] ++ (es ++ [.disconnect])) as r.1 :=
        ⟨(scriptsOf_framed hv hes).symm ▸ hmended.course,
          startedModes_framed.trans hmended.modes⟩
      refine dispose_ends (by rw [hx.state]; simp) hx.client (fun y hy hsame => ?_)
        fun f y hbad hy hsame => ?_
      · refine ⟨_, as, hv.trans (hes.trans hy), ?_, hsame.trans has, hall, by rw [hr]; omega⟩
        rw [List.countP_append, List.countP_append, hclients]
        rfl
      · exact ⟨fun h => hbad (hstay (hcoop h)), fun _ =>
          ⟨_, as, hv.trans (hes.trans hy), hsame.trans has, hall.mending⟩⟩
    · rintro f x ⟨hx, hbad, hes⟩
      have hhindered : ¬m.Unhindered b.world := fun h => hbad ⟨h.of_did hv, hcoop h⟩
      refine ⟨fun hf => ⟨hhindered, fun h => absurd hf h⟩, fun hf => ?_⟩
      obtain ⟨es, as, hes, has, hmending⟩ := hes hf
      rw [Nat.sub_self, Nat.add_zero] at hmending
      have hall : m.Mending phase (m.settings.budget phase) (offset + 1) p b.world
          ([.client m.sessionOf.options, .connect] ++ (es ++ [.disconnect])) as :=
        ⟨(scriptsOf_framed hv hes).symm ▸ hmending.course,
          startedModes_framed.symm ▸ hmending.modes⟩
      exact dispose_ends (by rw [hx.state]; simp) hx.client
        (fun y hy hsame => ⟨hhindered, fun _ =>
          ⟨_, as, hv.trans (hes.trans hy), hsame.trans has, hall⟩⟩)
        fun f y _ hy hsame => ⟨hhindered, fun _ =>
          ⟨_, as, hv.trans (hes.trans hy), hsame.trans has, hall⟩⟩
  · have hhindered : ¬m.Unhindered b.world := fun h => by
      simp [(h.cooperates 0).connects] at hx
    have hnone : m.Mending phase (m.settings.budget phase) (offset + 1) p b.world
        ([.client m.sessionOf.options, .connect] ++ [.disconnect]) [] :=
      ⟨⟨none, .cut⟩, by simp [startedModes, Event.mode?]⟩
    refine ⟨fun h => absurd h x.onConnect_ne_stalled, fun _ => ?_⟩
    exact dispose_ends (show SessionState.uninitialized ≠ .disposed by simp) rfl
      (fun y hy hsame => ⟨hhindered, fun _ =>
        ⟨_, [], hv.trans hy, hsame.trans (List.append_nil _).symm, hnone⟩⟩)
      fun f y _ hy hsame => ⟨hhindered, fun _ =>
        ⟨_, [], hv.trans hy, hsame.trans (List.append_nil _).symm, hnone⟩⟩

end Mender

end BuildMend
