import BuildMend.Proofs.FixRun.Course

/-!
The history of a run: its attempts beside the processes of all its builds.

* `Mender.Log`: the attempts that a run can have made after some builds of the sources and of the
  solution.
* `Mender.Verdict`: those of a run that has returned, with what it says of its success.
* `Mender.sourceLoop_history`, `Mender.solutionLoop_history`: what comes of a build that has failed.
* `Mender.phases_history`: a run makes such attempts, whether it returns or is cut short; it returns
  when nothing stops it.
-/

namespace BuildMend

open Act World

namespace Mender

variable {m : Mender}

/-! ### Attempts of a run -/

/-- The attempts that a run can have made after some builds of the sources and some of the solution:
those of the source phase once the sources have failed to build, and those of the solution phase
once the sources have been mended and the solution has failed to build. -/
inductive Log (m : Mender) : (sources solutions : List ProcessScript) → List Attempt → Prop
  | unopened {ps} : Log m ps [] []
  | sources {p ps as o} (hp : p.endsByItself m.tool.limit = true) (hcode : p.exitCode ≠ 0)
      (h : m.Course .source (m.settings.budget .source) 1 p ps as o) : Log m (p :: ps) [] as
  | built {p ps as qs} (hp : p.endsByItself m.tool.limit = true) (hcode : p.exitCode ≠ 0)
      (h : m.Course .source (m.settings.budget .source) 1 p ps as (some true)) :
      Log m (p :: ps) qs as
  | solution {p ps as q qs bs o} (hp : p.endsByItself m.tool.limit = true)
      (hcode : p.exitCode ≠ 0)
      (h : m.Course .source (m.settings.budget .source) 1 p ps as (some true))
      (hq : q.endsByItself m.tool.limit = true) (hcode' : q.exitCode ≠ 0)
      (h' : m.Course .solution (m.settings.budget .solution) (as.length + 1) q qs bs o) :
      Log m (p :: ps) (q :: qs) (as ++ bs)

/-- The attempts of a run that has returned, with what it says of its success. -/
inductive Verdict (m : Mender) :
    (sources solutions : List ProcessScript) → List Attempt → Bool → Prop
  | built {p} (hp : p.endsByItself m.tool.limit = true) (hcode : p.exitCode = 0) :
      Verdict m [p] [] [] true
  | unmended {p ps as} (hp : p.endsByItself m.tool.limit = true) (hcode : p.exitCode ≠ 0)
      (h : m.Course .source (m.settings.budget .source) 1 p ps as (some false)) :
      Verdict m (p :: ps) [] as false
  | verified {p ps as q} (hp : p.endsByItself m.tool.limit = true) (hcode : p.exitCode ≠ 0)
      (h : m.Course .source (m.settings.budget .source) 1 p ps as (some true))
      (hq : q.endsByItself m.tool.limit = true) (hcode' : q.exitCode = 0) :
      Verdict m (p :: ps) [q] as true
  | mended {p ps as q qs bs success} (hp : p.endsByItself m.tool.limit = true)
      (hcode : p.exitCode ≠ 0)
      (h : m.Course .source (m.settings.budget .source) 1 p ps as (some true))
      (hq : q.endsByItself m.tool.limit = true) (hcode' : q.exitCode ≠ 0)
      (h' : m.Course .solution (m.settings.budget .solution) (as.length + 1) q qs bs
        (some success)) :
      Verdict m (p :: ps) (q :: qs) (as ++ bs) success

/-- The sessions of a phase: one, if the build that opens it fails. -/
def sessionCount : List ProcessScript → Nat
  | [] => 0
  | p :: _ => if p.exitCode = 0 then 0 else 1

/-- What a run has done that returns. -/
structure Returned (m : Mender) (w : World) (es : List Event) (as : List Attempt) (r : FixRun) :
    Prop where
  verdict : m.Verdict (w.scriptsOf .source es) (w.scriptsOf .solution es) as r.success
  attempts : r.attempts = as
  used : r.attemptsUsed = as.length
  modes : startedModes es =
    (List.replicate (w.scriptsOf .source es).length Phase.source.round).flatten ++
      (List.replicate (w.scriptsOf .solution es).length Phase.solution.round).flatten
  clients : es.countP Event.isClient =
    sessionCount (w.scriptsOf .source es) + sessionCount (w.scriptsOf .solution es)

/-- What a run has done so far. -/
def Logged (m : Mender) (w : World) (b : Bench) : Prop :=
  ∃ es, w.Did es b.world ∧ m.Log (w.scriptsOf .source es) (w.scriptsOf .solution es) b.attempts

/-- A run is cut short: something stops it, and unless it waits for ever it has made such attempts. -/
def CutShort (m : Mender) (w : World) (f : Failure) (b : Bench) : Prop :=
  ¬m.Unhindered w ∧ (f ≠ .stalled → m.Logged w b)

lemma source_not_mem_round : BuildMode.source ∉ Phase.solution.round := by decide

lemma solution_not_mem_round : BuildMode.solution ∉ Phase.source.round := by decide

/-! ### The phase of the sources -/

/-- What a run has done when its sources have failed to build. -/
structure SourceOpened (m : Mender) (w : World) (es : List Event) (p : ProcessScript) : Prop where
  ends : p.endsByItself m.tool.limit = true
  code : p.exitCode ≠ 0
  sources : w.scriptsOf .source es = [p]
  solutions : w.scriptsOf .solution es = []
  modes : startedModes es = Phase.source.round
  clients : es.countP Event.isClient = 0

/-- What a run has done when its sources have been mended. -/
structure SourceMended (m : Mender) (w : World) (es : List Event) (p : ProcessScript)
    (as : List Attempt) : Prop where
  ends : p.endsByItself m.tool.limit = true
  code : p.exitCode ≠ 0
  sources : ∃ ps, w.scriptsOf .source es = p :: ps ∧ ps.length = as.length ∧
    m.Course .source (m.settings.budget .source) 1 p ps as (some true)
  solutions : w.scriptsOf .solution es = []
  modes : startedModes es = (List.replicate (as.length + 1) Phase.source.round).flatten
  clients : es.countP Event.isClient = 1

/-- The sources are mended, or the run has come to its end. -/
lemma sourceLoop_history {w : World} {es : List Event} {p : ProcessScript} {b : Bench}
    (h : m.SourceOpened w es p) (hb : w.Did es b.world) (hnone : b.attempts = []) :
    (m.fixLoop .source (p.build .source) 0).Ends b
      (fun r c => ∃ fs, w.Did fs c.world ∧ r.2 = c.attempts.length ∧
        (r.1 = true → m.SourceMended w fs p c.attempts) ∧
        (r.1 = false → m.Returned w fs c.attempts ⟨false, r.2, c.attempts⟩))
      (m.CutShort w) := by
  have hsources (gs : List Event) :
      w.scriptsOf .source (es ++ gs) = p :: b.world.scriptsOf .source gs := by
    rw [scriptsOf_append hb, h.sources]
    rfl
  have hsolutions {gs : List Event} (hgs : ∀ mode ∈ startedModes gs, mode ∈ Phase.source.round) :
      w.scriptsOf .solution (es ++ gs) = [] := by
    rw [scriptsOf_append_of_not_mem hb fun hm => solution_not_mem_round (hgs _ hm), h.solutions]
  refine (fixLoop_course h.ends).mono ?_ ?_
  · rintro r c ⟨gs, as, hc, hgs, has, hmended, hused⟩
    obtain rfl : c.attempts = as := by rw [has, hnone, List.nil_append]
    have hlen : (b.world.scriptsOf .source gs).length = c.attempts.length :=
      hmended.course.length_eq
    have hsol := hsolutions hmended.mending.modes
    have hmodes : startedModes (es ++ gs) =
        (List.replicate (c.attempts.length + 1) Phase.source.round).flatten := by
      rw [startedModes_append, h.modes, hmended.modes, List.replicate_succ, List.flatten_cons]
    have hclients : (es ++ gs).countP Event.isClient = 1 := by
      rw [List.countP_append, h.clients, hgs]
    refine ⟨es ++ gs, hb.trans hc, hused, fun hr => ?_, fun hr => ?_⟩
    · rw [hr] at hmended
      exact ⟨h.ends, h.code, ⟨_, hsources gs, hlen, hmended.course⟩, hsol, hmodes, hclients⟩
    · rw [hr] at hmended
      refine ⟨?_, rfl, by rw [hused], ?_, ?_⟩
      · rw [hsources, hsol]
        exact .unmended h.ends h.code hmended.course
      · rw [hsources, hsol, hmodes, List.length_cons, hlen]
        simp
      · rw [hsources, hsol, hclients]
        simp [sessionCount, h.code]
  · rintro f c ⟨hbad, hc⟩
    refine ⟨fun hw => hbad (hw.of_did hb), fun hf => ?_⟩
    obtain ⟨gs, as, hc, has, hmending⟩ := hc hf
    obtain rfl : c.attempts = as := by rw [has, hnone, List.nil_append]
    obtain ⟨o, hcourse⟩ := hmending.course
    refine ⟨es ++ gs, hb.trans hc, ?_⟩
    rw [hsources, hsolutions hmending.modes]
    exact .sources h.ends h.code hcourse

/-! ### The phase of the solution -/

/-- What a run has done when its sources have been mended and its solution has failed to build. -/
structure SolutionOpened (m : Mender) (w : World) (es : List Event) (p : ProcessScript)
    (as : List Attempt) (q : ProcessScript) : Prop where
  ends : p.endsByItself m.tool.limit = true
  code : p.exitCode ≠ 0
  sources : ∃ ps, w.scriptsOf .source es = p :: ps ∧ ps.length = as.length ∧
    m.Course .source (m.settings.budget .source) 1 p ps as (some true)
  solutionEnds : q.endsByItself m.tool.limit = true
  solutionCode : q.exitCode ≠ 0
  solutions : w.scriptsOf .solution es = [q]
  modes : startedModes es =
    (List.replicate (as.length + 1) Phase.source.round).flatten ++ Phase.solution.round
  clients : es.countP Event.isClient = 1

/-- The run comes to its end with the attempts to mend the solution. -/
lemma solutionLoop_history {w : World} {es : List Event} {p q : ProcessScript} {b : Bench}
    (h : m.SolutionOpened w es p b.attempts q) (hb : w.Did es b.world) :
    (m.fixLoop .solution (q.build .solution) b.attempts.length).Ends b
      (fun r c => ∃ fs, w.Did fs c.world ∧
        m.Returned w fs c.attempts ⟨r.1, (b.attempts.length + r.2 : Nat), c.attempts⟩)
      (m.CutShort w) := by
  obtain ⟨ps, hps, hlen, hcourse⟩ := h.sources
  have hsources {gs : List Event} (hgs : ∀ mode ∈ startedModes gs, mode ∈ Phase.solution.round) :
      w.scriptsOf .source (es ++ gs) = p :: ps := by
    rw [scriptsOf_append_of_not_mem hb fun hm => source_not_mem_round (hgs _ hm), hps]
  have hsolutions (gs : List Event) :
      w.scriptsOf .solution (es ++ gs) = q :: b.world.scriptsOf .solution gs := by
    rw [scriptsOf_append hb, h.solutions]
    rfl
  refine (fixLoop_course h.solutionEnds).mono ?_ ?_
  · rintro r c ⟨gs, bs, hc, hgs, hbs, hmended, hmore⟩
    have hsrc := hsources hmended.mending.modes
    have hlen' : (b.world.scriptsOf .solution gs).length = bs.length :=
      hmended.course.length_eq
    refine ⟨es ++ gs, hb.trans hc, ?_, rfl, ?_, ?_, ?_⟩
    · rw [hsrc, hsolutions, hbs]
      exact .mended h.ends h.code hcourse h.solutionEnds h.solutionCode hmended.course
    · rw [hbs, List.length_append, hmore]
    · rw [hsrc, hsolutions, startedModes_append, h.modes, hmended.modes, List.length_cons,
        List.length_cons, hlen, hlen', List.append_assoc, ← List.flatten_cons,
        ← List.replicate_succ]
    · rw [hsrc, hsolutions, List.countP_append, h.clients, hgs]
      simp [sessionCount, h.code, h.solutionCode]
  · rintro f c ⟨hbad, hc⟩
    refine ⟨fun hw => hbad (hw.of_did hb), fun hf => ?_⟩
    obtain ⟨gs, bs, hc, hbs, hmending⟩ := hc hf
    obtain ⟨o, hcourse'⟩ := hmending.course
    refine ⟨es ++ gs, hb.trans hc, ?_⟩
    rw [hsources hmending.modes, hsolutions, hbs]
    exact .solution h.ends h.code hcourse h.solutionEnds h.solutionCode hcourse'

/-- The solution is built, and mended if it fails. -/
lemma solutionPhase_history {w : World} {es : List Event} {p : ProcessScript} {b : Bench}
    (h : m.SourceMended w es p b.attempts) (hb : w.Did es b.world) :
    (m.solutionPhase b.attempts.length).Ends b
      (fun r c => ∃ fs, w.Did fs c.world ∧ m.Returned w fs c.attempts r) (m.CutShort w) := by
  obtain ⟨ps, hps, hlen, hcourse⟩ := h.sources
  simp only [solutionPhase]
  refine Bench.told_ends (.log _ _ _) fun v hv => ?_
  have hstart : w.Did es v := by simpa using hb.trans hv
  have hsources {fs : List Event} (hfs : ∀ mode ∈ startedModes fs, mode ∈ Phase.solution.round) :
      w.scriptsOf .source (es ++ fs) = p :: ps := by
    rw [scriptsOf_append_of_not_mem hstart fun hm => source_not_mem_round (hfs _ hm), hps]
  rw [ends_bind, Bench.inWorld_ends]
  refine operation_ends (fun fs u hfs hm hend hu => ?_) fun f fs u hfs hbad hu => ?_
  · have hsrc := hsources fun mode hmode => hfs.modes.subset hmode
    have hbuilt : w.Did (es ++ fs) u := hstart.trans hu
    have hsol : w.scriptsOf .solution (es ++ fs) = [v.process 0] := by
      rw [scriptsOf_append hstart, h.solutions, scriptsOf_singleton hm, List.nil_append]
    have hmodes : startedModes (es ++ fs) =
        (List.replicate (b.attempts.length + 1) Phase.source.round).flatten ++
          Phase.solution.round := by
      rw [startedModes_append, h.modes, hm]
      rfl
    have hclients : (es ++ fs).countP Event.isClient = 1 := by
      rw [List.countP_append, h.clients, hfs.clients]
    generalize v.process 0 = q at hend hsol ⊢
    -- the build becomes a name, so that what it reports is never computed
    have hsuccess := @success_build .solution q
    generalize hbuild : q.build .solution = build at hsuccess ⊢
    rw [ends_ite, hsuccess]
    refine ⟨fun hcode => ?_, fun hcode => ?_⟩
    · refine Bench.told_ends (.log _ _ _) fun x hx => ?_
      refine ⟨es ++ fs, by simpa using hbuilt.trans hx, ⟨?_, rfl, rfl, ?_, ?_⟩⟩
      · rw [hsrc, hsol]
        exact .verified h.ends h.code hcourse hend hcode
      · rw [hsrc, hsol, hmodes, List.length_cons, hlen]
        simp
      · rw [hsrc, hsol, hclients]
        simp [sessionCount, h.code, hcode]
    · refine Bench.told_ends (.log _ _ _) fun x hx => ?_
      refine Bench.told_ends (notePreview_tells _) fun y hy => ?_
      subst hbuild
      have hbefore : w.Did (es ++ fs) y := by simpa using (hbuilt.trans hx).trans hy
      have hopened : m.SolutionOpened w (es ++ fs) p b.attempts q :=
        ⟨h.ends, h.code, ⟨ps, hsrc, hlen, hcourse⟩, hend, hcode, hsol, hmodes, hclients⟩
      rw [ends_bind]
      exact solutionLoop_history (b := { b with world := y }) hopened hbefore
  · refine ⟨fun hw => hbad ⟨hw.reaches _, (hw.of_did hstart).ends 0⟩, fun hf => ?_⟩
    refine ⟨es ++ fs, hstart.trans (hu hf), ?_⟩
    rw [hsources fun mode hmode => hfs.modes.subset hmode, scriptsOf_append hstart, h.solutions]
    exact .built h.ends h.code hcourse

/-! ### The run -/

/-- A run makes the attempts that its builds allow.  When nothing stops it, it returns. -/
lemma phases_history {w : World} :
    m.phases.Ends ⟨w, []⟩ (fun r c => ∃ es, w.Did es c.world ∧ m.Returned w es c.attempts r)
      (m.CutShort w) := by
  simp only [phases]
  rw [ends_bind, Bench.inWorld_ends]
  refine regenerate_ends (fun es v hes hm hv => ?_) fun f es v hes hbad hv => ?_
  · refine Bench.told_ends (.log _ _ _) fun v' hv' => ?_
    have hstart : w.Did es v' := by simpa using hv.trans hv'
    have hnone (mode : BuildMode) (hmode : mode ≠ .regenerate) : w.scriptsOf mode es = [] :=
      scriptsOf_eq_nil (by rw [hm]; simpa using hmode)
    rw [ends_bind, Bench.inWorld_ends]
    refine operation_ends (fun fs u hfs hm' hend hu => ?_) fun f fs u hfs hbad hu => ?_
    · have hbuilt : w.Did (es ++ fs) u := hstart.trans hu
      have hsrc : w.scriptsOf .source (es ++ fs) = [v'.process 0] := by
        rw [scriptsOf_append hstart, hnone .source (by simp), scriptsOf_singleton hm',
          List.nil_append]
      have hsol : w.scriptsOf .solution (es ++ fs) = [] := by
        rw [scriptsOf_append_of_not_mem hstart (by simp [hm']), hnone .solution (by simp)]
      have hmodes : startedModes (es ++ fs) = Phase.source.round := by
        rw [startedModes_append, hm, hm']
        rfl
      have hclients : (es ++ fs).countP Event.isClient = 0 := by
        rw [List.countP_append, hes.clients, hfs.clients]
      generalize v'.process 0 = p at hend hsrc ⊢
      have hsuccess := @success_build .source p
      generalize hbuild : p.build .source = build at hsuccess ⊢
      rw [ends_ite, hsuccess]
      refine ⟨fun hcode => ?_, fun hcode => ?_⟩
      · refine Bench.told_ends (.log _ _ _) fun x hx => ?_
        refine ⟨es ++ fs, by simpa using hbuilt.trans hx, ⟨?_, rfl, rfl, ?_, ?_⟩⟩
        · rw [hsrc, hsol]
          exact .built hend hcode
        · rw [hsrc, hsol, hmodes]
          simp
        · rw [hsrc, hsol, hclients]
          simp [sessionCount, hcode]
      · refine Bench.told_ends (.log _ _ _) fun x hx => ?_
        refine Bench.told_ends (notePreview_tells _) fun y hy => ?_
        subst hbuild
        have hbefore : w.Did (es ++ fs) y := by simpa using (hbuilt.trans hx).trans hy
        rw [ends_bind]
        refine (sourceLoop_history ⟨hend, hcode, hsrc, hsol, hmodes, hclients⟩ hbefore rfl).mono
          ?_ fun f c hc => hc
        rintro ⟨success, used⟩ c ⟨gs, hc, rfl, hmended, hreturned⟩
        simp only
        rw [ends_ite]
        refine ⟨fun hsuccess => solutionPhase_history (hmended hsuccess) hc, fun hsuccess => ?_⟩
        exact ⟨gs, hc, hreturned (by simpa using hsuccess)⟩
    · refine ⟨fun hw => hbad ⟨hw.reaches _, (hw.of_did hstart).ends 0⟩, fun hf => ?_⟩
      have hno : BuildMode.solution ∉ startedModes fs := fun hm => by
        simpa using hfs.modes.subset hm
      refine ⟨es ++ fs, hstart.trans (hu hf), ?_⟩
      rw [scriptsOf_append_of_not_mem hstart hno, hnone .solution (by simp)]
      exact .unopened
  · refine ⟨fun hw => hbad ⟨hw.reaches _, hw.ends 0⟩, fun hf => ⟨es, hv hf, ?_⟩⟩
    have hno : BuildMode.solution ∉ startedModes es := fun hm => by
      simpa using hes.modes.subset hm
    rw [scriptsOf_eq_nil hno]
    exact .unopened

end Mender

end BuildMend
