import BuildMend.Proofs.FixRun.AttemptLog
import BuildMend.Proofs.FixRun.Tally

/-!
What cuts a run short, and what the run then tells.

* `Mender.Wraps`: what a run makes of the end of its play.
* `Mender.run_played`: a run ends as its play does, after the same answers.
* `Mender.Aborted`: what a run tells that is cut short by a fault: its message, its attempts, and that
  every run that gets the same answers up to there makes these attempts first.
* `Mender.Surfaces`: a run is cut short by a fault exactly where it meets a structural failure; every
  other failure leaves it as it is.
* `Mender.ofSettings_surfaces`: so it is with every run for a project with settings in range.
-/

namespace BuildMend

open Act World Number

/-! ### Set-ups -/

namespace FixSettings

/-- The limits of settings in range are positive. -/
lemma limits_of_ofChoices {c : FixChoices} {s : FixSettings} (h : ofChoices c = .ok s) :
    isBadLimit s.buildLimit = false ∧ isBadLimit s.assistantLimit = false := by
  have hwith {n : Nat} {hn : 1 ≤ n} {k : Option Nat} {hk : ∀ i ∈ k, 1 ≤ i}
      (h : withRetries c n hn k hk = .ok s) :
      isBadLimit s.buildLimit = false ∧ isBadLimit s.assistantLimit = false := by
    rw [withRetries] at h
    split at h
    · cases h
    · split at h
      · cases h
      · obtain rfl := Except.ok.inj h
        simp_all
  rw [ofChoices] at h
  split at h
  · split at h
    · exact hwith h
    · split at h
      · exact hwith h
      · cases h
  · cases h

end FixSettings

namespace Mender

/-- The set-up of a run for a project with settings in range names a program for every operation, and
its limits are positive. -/
lemma ofSettings_isWired {env? : String → Option String} {project : Path} {c : FixChoices}
    {settings : FixSettings} {assistant : AssistantProfile} {streams : Bool}
    (h : FixSettings.ofChoices c = .ok settings) :
    (ofSettings env? project settings assistant streams).IsWired := by
  obtain ⟨hbuild, hassistant⟩ := FixSettings.limits_of_ofChoices h
  have hpositive {limit : Option Amount} (h : FixSettings.isBadLimit limit = false) :
      ∀ l ∈ limit, l.isNonPositive = false := by
    intro l hl
    rw [Option.mem_def] at hl
    simpa [FixSettings.isBadLimit, hl] using h
  refine ⟨fun mode => ?_, hpositive hbuild, hpositive hassistant⟩
  cases mode
  · exact ⟨_, ["build", "/t:GenerateCode"], rfl⟩
  · exact ⟨_, ["build"], rfl⟩
  · exact ⟨_, ["build"], rfl⟩

/-! ### A run and its play -/

variable {m : Mender} {w : World}

/-- What a run makes of the end of its play: a fault is told with the attempts made so far, and any
other failure is left as it is. -/
inductive Wraps : Except Failure FixRun → Except Failure Unit → List Attempt → Prop
  | returned {r : FixRun} : Wraps (.ok r) (.ok ()) r.attempts
  | aborted {f as} : Wraps (.error (.fault (.fixRunAborted f as))) (.error (.fault f)) as
  | unchanged {e as} (h : ∀ f, e ≠ .fault f) : Wraps (.error e) (.error e) as

/-- The scene in which the play of a run begins. -/
def opening (w : World) : Scene := { tree := w.tree, supply := w.supply }

lemma shows_opening (h : ∀ c ∈ w.clients, c.leaves = true) :
    Shows w [] {} w (opening w) where
  deeds := ⟨[], (List.append_nil _).symm, rfl⟩
  attempts := rfl
  tree := rfl
  processes := rfl
  clients := rfl
  current := rfl
  leaves := h

/-- A fault ends a run with the attempts made so far, and a log record. -/
lemma run_of_fault {f : Fault} {b : Bench} (h : m.phases ⟨w, []⟩ = (.error (.fault f), b)) :
    (m.run w).1 = .error (.fault (.fixRunAborted f b.attempts)) ∧
      (m.run w).2.deeds = b.world.deeds := by
  have hlog : (Action.log .error .fixRun
      s!"Fix run aborted after {b.attempts.length} attempt(s): {f.message}" b.world).2.deeds
        = b.world.deeds := by
    simp [Action.log, World.deeds, World.trace, Event.isDeed]
  rw [run, h]
  exact ⟨rfl, hlog⟩

/-- A run ends as its play does, after the same answers. -/
theorem run_played (hm : m.IsWired) (h : ∀ c ∈ w.clients, c.leaves = true) :
    ∃ es, (m.run w).2.deeds = w.deeds ++ es ∧
      w.cues es = (m.play.run m (opening w)).2.cues ∧
      Wraps (m.run w).1 (m.play.run m (opening w)).1 (m.play.run m (opening w)).2.attempts := by
  obtain ⟨cs, hcs, hsupply, -⟩ := m.play.run_grows (m := m) (opening w)
  obtain rfl : (m.play.run m (opening w)).2.cues = cs := hcs
  have hcues {es : List Event}
      (hes : es.filterMap Event.question? =
        (m.play.run m (opening w)).2.cues.map Cue.question) :
      w.cues es = (m.play.run m (opening w)).2.cues := by
    rw [World.cues, hes]
    exact hsupply.symm
  have hphases := phases_follows hm (b := ⟨w, []⟩) (shows_opening h)
  rw [Follows, Ends] at hphases
  split at hphases
  · rename_i r b hb
    obtain ⟨⟨⟩, t, hplay, hattempts, hrec⟩ := hphases
    obtain ⟨es, hdeeds, hes⟩ := hrec.deeds
    rw [hplay] at hcues ⊢
    rw [run, hb]
    refine ⟨es, hdeeds, hcues hes, ?_⟩
    rw [hrec.attempts, ← hattempts]
    exact .returned
  · rename_i e b hb
    obtain ⟨t, hplay, hrec⟩ := hphases
    obtain ⟨es, hdeeds, hes⟩ := hrec.deeds
    rw [hplay] at hcues ⊢
    rw [hrec.attempts]
    cases e with
    | fault f =>
      obtain ⟨hrun, hsame⟩ := run_of_fault hb
      rw [hrun]
      exact ⟨es, hsame.trans hdeeds, hcues hes, .aborted⟩
    | _ =>
      rw [run, hb]
      exact ⟨es, hdeeds, hcues hes, .unchanged (by simp)⟩

/-! ### The attempts of a run that is cut short -/

/-- The attempts of a run that is cut short by a fault are the log of a run. -/
lemma aborted_log {f : Fault} {as : List Attempt} {es : List Event}
    (h : (m.run w).1 = .error (.fault (.fixRunAborted f as)))
    (hes : (m.run w).2.deeds = w.deeds ++ es) :
    ∃ source solution, as = source ++ solution ∧ m.AttemptLog w es source solution := by
  have hphases := phases_history (m := m) (w := w)
  rw [Ends] at hphases
  split at hphases
  · rename_i r b hb
    rw [run, hb] at h
    cases h
  · rename_i e b hb
    cases e with
    | fault g =>
      obtain ⟨hrun, hsame⟩ := run_of_fault hb
      obtain ⟨fs, hd, hlog⟩ := hphases.2 (by simp)
      obtain rfl : fs = es := List.append_cancel_left (hd.deeds.symm.trans (hsame.symm.trans hes))
      have hfault := Failure.fault.inj (Except.error.inj (hrun.symm.trans h))
      obtain ⟨-, rfl⟩ := Fault.fixRunAborted.inj hfault
      exact hlog.attemptLog
    | _ =>
      rw [run, hb] at h
      cases h

/-- The number of attempts of a phase is one less than the number of its builds that have ended by
themselves. -/
lemma made_opening (w : World) (phase : Phase) :
    (m.play.run m (opening w)).2.made phase =
      (m.play.run m (opening w)).2.builds m.tool.limit phase - 1 := by
  have hopening : m.Tally phase false (opening w) := ⟨rfl, fun _ => rfl⟩
  obtain ⟨opened, h⟩ := (play_tally hopening).state
  exact h.made_eq

/-- What a run tells that a fault has cut short after some deeds.  Its message is that of the fault.
Its attempts are the log of a run, one for each build of a phase but the first that has ended by
itself.  Every run from the same files that gets the same answers up to the one that is a failure, and
tells of its attempts, has made these attempts first. -/
structure Aborted (m : Mender) (w : World) (es : List Event) (f : Fault) (as : List Attempt) :
    Prop where
  message : (Fault.fixRunAborted f as).message = f.message
  attempts : ∃ source solution, as = source ++ solution ∧ m.AttemptLog w es source solution ∧
    source.length = (w.scriptsOf .source es).countP (·.endsByItself m.tool.limit) - 1 ∧
    solution.length = (w.scriptsOf .solution es).countP (·.endsByItself m.tool.limit) - 1
  first : ∀ v as', v.tree = w.tree → (∀ c ∈ v.clients, c.leaves = true) →
    (v.cues es).dropLast = (w.cues es).dropLast → toldAttempts? (m.run v).1 = some as' →
    as <+: as'

/-- The structural failures of a run surface, and no others.  It is cut short by a fault exactly if one
of the answers that it got is a structural failure that the fault tells of.  Any other failure among
the answers is what the run ends in; and it ends in no failure but for these and its own obstacles. -/
structure Surfaces (m : Mender) (w : World) (es : List Event) : Prop where
  iff_structural : ∀ f, (∃ as, (m.run w).1 = .error (.fault (.fixRunAborted f as))) ↔
    ∃ c ∈ w.cues es, m.StructuralFault c f
  aborted : ∀ f as, (m.run w).1 = .error (.fault (.fixRunAborted f as)) → m.Aborted w es f as
  unchanged : ∀ c ∈ w.cues es, ∀ e, m.failure? c = some e → (∀ f, e ≠ .fault f) →
    (m.run w).1 = .error e
  others : ∀ e, (m.run w).1 = .error e → (∃ f as, e = .fault (.fixRunAborted f as)) ∨
    (∀ f, e ≠ .fault f) ∧
      ((∃ c, (w.cues es).getLast? = some c ∧ m.failure? c = some e) ∨
        ∃ o : Obstacle, e = o.failure)

section Wraps

variable {r : Except Failure FixRun} {r' : Except Failure Unit} {f : Fault} {as : List Attempt}

lemma Wraps.eq_aborted_iff (h : Wraps r r' as) :
    (∃ bs, r = .error (.fault (.fixRunAborted f bs))) ↔ r' = .error (.fault f) := by
  cases h with
  | returned => simp
  | aborted => simp
  | unchanged h => simp [h]

lemma Wraps.attempts_eq (h : Wraps r r' as) {bs : List Attempt} (ht : toldAttempts? r = some bs) :
    bs = as := by
  cases h with
  | returned => exact (Option.some.inj ht).symm
  | aborted => exact (Option.some.inj ht).symm
  | @unchanged e _ h =>
    cases e with
    | fault f => exact absurd rfl (h f)
    | _ => cases ht

lemma Wraps.of_error (h : Wraps r r' as) {e : Failure} (hr : r' = .error e)
    (he : ∀ f, e ≠ .fault f) : r = .error e := by
  cases h with
  | returned => cases hr
  | @aborted f => exact absurd (Except.error.inj hr).symm (he f)
  | unchanged h => exact congrArg Except.error (Except.error.inj hr)

end Wraps

/-- What a run that is cut short by a fault tells. -/
lemma aborted_of_run (hm : m.IsWired) (h : ∀ c ∈ w.clients, c.leaves = true) {es : List Event}
    (hes : (m.run w).2.deeds = w.deeds ++ es) {f : Fault} {as : List Attempt}
    (hf : (m.run w).1 = .error (.fault (.fixRunAborted f as))) : m.Aborted w es f as := by
  obtain ⟨fs, hfs, hcues, hwraps⟩ := run_played hm h
  obtain rfl : fs = es := List.append_cancel_left (hfs.symm.trans hes)
  have has : as = (m.play.run m (opening w)).2.attempts :=
    hwraps.attempts_eq (by rw [hf]; rfl)
  refine ⟨rfl, ?_, fun v as' htree hv hagree htold => ?_⟩
  · obtain ⟨source, solution, hsplit, hlog⟩ := aborted_log hf hes
    have hmade (phase : Phase) : as.countP (·.phase = phase) =
        (w.scriptsOf phase.buildMode fs).countP (·.endsByItself m.tool.limit) - 1 := by
      rw [has, ← World.scripts_cues (s := w.supply) rfl fs]
      have hcount := made_opening (m := m) w phase
      rw [Scene.made, Scene.builds, Cue.ended, ← hcues] at hcount
      exact hcount
    have hsource := hmade .source
    have hsolution := hmade .solution
    -- the attempts of one phase are those of its part of the log
    have hall {phase : Phase} {bs : List Attempt} (hbs : ∀ a ∈ bs, a.phase = phase) (φ : Phase) :
        bs.countP (·.phase = φ) = if phase = φ then bs.length else 0 := by
      split
      · rw [List.countP_eq_length]
        intro a ha
        simpa [hbs a ha]
      · rw [List.countP_eq_zero]
        intro a ha
        simpa [hbs a ha]
    rw [hsplit, List.countP_append, hall hlog.sourceLog.phases, hall hlog.solutionLog.phases]
      at hsource hsolution
    exact ⟨source, solution, hsplit, hlog, by simpa [Phase.buildMode] using hsource,
      by simpa [Phase.buildMode] using hsolution⟩
  · obtain ⟨gs, -, hcues', hwraps'⟩ := run_played hm hv
    have hplay := hwraps.eq_aborted_iff.mp ⟨as, hf⟩
    obtain ⟨cs, hcs, -, -, hend⟩ := m.play.run_grows (m := m) (opening w)
    rw [hplay] at hend
    obtain ⟨before, c, rfl, -, hc⟩ | ⟨o, ho⟩ := hend.exists_of_error
    · have hwcues : w.cues fs = before ++ [c] := hcues.trans hcs
      have hbefore : before.map Cue.question = (fs.filterMap Event.question?).dropLast := by
        have hquestions := w.supply.map_question_cues (fs.filterMap Event.question?)
        rw [show w.supply.cues _ = _ from hwcues] at hquestions
        rw [← hquestions, List.map_append]
        simp
      rw [has, hwraps'.attempts_eq htold]
      refine m.play.attempts_prefix htree rfl hcs (by simp [hc]) ?_
      rw [hwcues, List.dropLast_concat, World.cues, Supply.dropLast_cues, ← hbefore] at hagree
      exact hagree
    · exact absurd ho.symm (o.failure_ne_fault f)

/-- A run whose clients leave lets structural failures surface, and no others. -/
theorem run_surfaces (hm : m.IsWired) (h : ∀ c ∈ w.clients, c.leaves = true) :
    ∃ es, (m.run w).2.deeds = w.deeds ++ es ∧ m.Surfaces w es := by
  obtain ⟨es, hes, hcues, hwraps⟩ := run_played hm h
  obtain ⟨cs, hcs, -, -, hend⟩ := m.play.run_grows (m := m) (opening w)
  obtain rfl : w.cues es = cs := hcues.trans hcs
  refine ⟨es, hes, ⟨fun f => ?_, fun f as hf => aborted_of_run hm h hes hf,
    fun c hc e he hno => hwraps.of_error (hend.eq_of_failure hc he) hno, fun e he => ?_⟩⟩
  · rw [hwraps.eq_aborted_iff]
    constructor
    · intro hf
      rw [hf] at hend
      obtain ⟨before, c, hsplit, -, hc⟩ | ⟨o, ho⟩ := hend.exists_of_error
      · exact ⟨c, by simp [hsplit], (failure?_eq_fault_iff hm).mp hc⟩
      · exact absurd ho.symm (o.failure_ne_fault f)
    · rintro ⟨c, hc, hf⟩
      exact hend.eq_of_failure hc ((failure?_eq_fault_iff hm).mpr hf)
  · rw [he] at hwraps
    generalize (m.play.run m (opening w)).1 = r at hwraps hend
    cases hwraps with
    | aborted => exact .inl ⟨_, _, rfl⟩
    | unchanged hno =>
      refine .inr ⟨hno, hend.exists_of_error.imp ?_ id⟩
      rintro ⟨before, c, hsplit, -, hc⟩
      exact ⟨c, by simp [hsplit], hc⟩

/-- A run for a project with settings in range lets structural failures surface, and no others, in
every world whose clients leave. -/
theorem ofSettings_surfaces (env? : String → Option String) (project : Path) (choices : FixChoices)
    (settings : FixSettings) (assistant : AssistantProfile) (streams : Bool) (w : World)
    (hsettings : FixSettings.ofChoices choices = .ok settings)
    (hleaves : ∀ c ∈ w.clients, c.leaves = true) :
    ∃ es, ((ofSettings env? project settings assistant streams).run w).2.deeds = w.deeds ++ es ∧
      (ofSettings env? project settings assistant streams).Surfaces w es :=
  run_surfaces (ofSettings_isWired hsettings) hleaves

/-- The wording and the number of attempts of a run that a fault has cut short. -/
def abortNotice? : Except Failure FixRun → Option (String × Nat)
  | .error (.fault (.fixRunAborted f as)) => some (f.message, as.length)
  | _ => none

lemma exists_of_abortNotice? {r : Except Failure FixRun} {text : String} {n : Nat}
    (h : abortNotice? r = some (text, n)) :
    ∃ f as, r = .error (.fault (.fixRunAborted f as)) ∧ f.message = text ∧ as.length = n := by
  unfold abortNotice? at h
  split at h
  · obtain ⟨rfl, rfl⟩ := Prod.mk.inj (Option.some.inj h)
    exact ⟨_, _, rfl, rfl, rfl⟩
  · cases h

theorem unfinished_run_surfaces :
    FixSettings.ofChoices { maxRetries := 2, buildLimit := some (.whole 60) } =
        .ok { FixSettings.ofRetries 2 with buildLimit := some (.whole 60) } ∧
      (∀ c ∈ unfinishedWorld.clients, c.leaves = true) ∧
      ∃ es, ((plain (some (.whole 60))).run unfinishedWorld).2.deeds =
          unfinishedWorld.deeds ++ es ∧
        (plain (some (.whole 60))).Surfaces unfinishedWorld es ∧
        ∃ f as, ((plain (some (.whole 60))).run unfinishedWorld).1 =
            .error (.fault (.fixRunAborted f as)) ∧
          f.message = "build-full-solution did not finish within 60s" ∧ as.length = 2 := by
  have hsettings : FixSettings.ofChoices { maxRetries := 2, buildLimit := some (.whole 60) } =
      .ok { FixSettings.ofRetries 2 with buildLimit := some (.whole 60) } := rfl
  have hleaves : ∀ c ∈ unfinishedWorld.clients, c.leaves = true := by simp [unfinishedWorld, running]
  obtain ⟨es, hes, hsurfaces⟩ := ofSettings_surfaces (fun _ => none) ["project"] _ _
    ⟨"model", "model", none, "acceptEdits", none⟩ false unfinishedWorld hsettings hleaves
  have hnotice : abortNotice? ((plain (some (.whole 60))).run unfinishedWorld).1
      = some ("build-full-solution did not finish within 60s", 2) := by decide +kernel
  exact ⟨hsettings, hleaves, es, hes, hsurfaces, exists_of_abortNotice? hnotice⟩

end Mender

end BuildMend
