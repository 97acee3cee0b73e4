import BuildMend.CommandLine.Run
import BuildMend.Proofs.Deeds

/-!
The order of a migration, and its verdict.

* `Migration.Service`: a migration whose steps and whose run that mends the build may be any actions;
  `Migration.run_eq_service`: a migration is one with its own.
* `Service.Performs`, `Service.Happened`: what happened in a migration, and that nothing else did but
  log records.
* `Story.outcome`: the outcome that a migration makes of what happened, `Service.run_story`.
* `Service.Verdict`, `Service.Tells`: what the outcome says.
* `Migration.sequence_and_verdict`: the verdict of every migration, and the exit code of the command.
-/

namespace BuildMend

open Act

/-! ### Log records -/

/-- From one world to another something may be logged or shown, and nothing else happens. -/
def World.Noted (w v : World) : Prop := ∃ es, v = w.told es ∧ ∀ e ∈ es, e.isDeed = false

namespace World.Noted

variable {w v u : World}

lemma refl (w : World) : w.Noted w := ⟨[], rfl, by simp⟩

/-- Files stay as they are. -/
lemma tree_eq (h : w.Noted v) : v.tree = w.tree := by
  obtain ⟨es, rfl, -⟩ := h
  rfl

lemma trans (h : w.Noted v) (h' : v.Noted u) : w.Noted u := by
  obtain ⟨es, rfl, hes⟩ := h
  obtain ⟨fs, rfl, hfs⟩ := h'
  refine ⟨fs ++ es, by simp [told], fun e he => ?_⟩
  exact (List.mem_append.mp he).elim (hfs e) (hes e)

end World.Noted

namespace Migration

open Text

/-! ### What is said -/

/-- What is said of a library whose build is not mended because changes are only reported. -/
def skipMessage : String := "Code generation skipped (dry-run)"

/-- What is said of a build that was mended. -/
def mendMessage (r : FixRun) : String :=
  s!"Code generation succeeded after {r.attemptsUsed} attempt(s)"

/-- The warning about a build that was not mended. -/
def mendWarning (r : FixRun) : String :=
  s!"Code generation completed with {r.remaining.length} remaining errors " ++
    "- manual fixes may be needed"

/-- The error of a step that stops a migration: its own, or else its title, or what it raised. -/
def stopError (s : Step) : Except Failure StepOutcome → String
  | .ok o => (firstGiven [o.error]).getD s!"{s.title} failed"
  | .error f => f.message

/-! ### Any steps -/

/-- A migration whose steps and whose run that mends the build may be any actions. -/
structure Service where
  project : Path
  /-- Whether changes are only reported. -/
  dryRun : Bool
  perform : Step → Action StepOutcome
  mend : Action FixRun

namespace Service

/-- One step, the `index`-th; whether the migration goes on. -/
def step (c : Service) (index : Nat) (s : Step) : MigrationAction Bool := do
  note .info s!"Step {index}: {s.title}..."
  let result ← inWorld (c.perform s)
  if result.success then
    addCompleted (s.completed result.filesChanged)
    match firstGiven [result.warning] with
    | some warning =>
      note .warning warning
      addWarning warning
    | none => pure ()
    return true
  else
    change ({ · with error := some (stopError s (.ok result)) })
    note .error s!"Step {index} failed: {stopError s (.ok result)}"
    return false

/-- Steps until one fails, the first of them the `index`-th; whether none does. -/
def steps (c : Service) : (index : Nat) → List Step → MigrationAction Bool
  | _, [] => return true
  | index, s :: rest => do
    if ← c.step index s then c.steps (index + 1) rest else return false

/-- The build is mended, unless changes are only reported; whether it succeeds in the end. -/
def fixBuild (c : Service) : MigrationAction Bool := do
  if c.dryRun then
    note .info "Skipping code generation in dry-run mode"
    addCompleted skipMessage
    return true
  note .info "Running code generation and fixing build errors..."
  let run ← inWorld c.mend
  change ({ · with fixRun := some run })
  if run.success then
    addCompleted (mendMessage run)
    return true
  addWarning (mendWarning run)
  return false

/-- All steps and then the build. -/
def parts (c : Service) : MigrationAction Unit := do
  if ← c.steps 1 Step.all then
    let fixed ← c.fixBuild
    note .warning s!"Note: {typeNote}"
    addWarning typeNote
    change ({ · with success := fixed })

/-- The migration up to its outcome. -/
def runOnBench (c : Service) : MigrationAction Unit := do
  note .info s!"Migrating library at: {c.project.fullText}"
  match ← Act.attempt c.parts with
  | .ok _ => return
  | .error f =>
    if f.isInterruption then .fail f
    note .error s!"Migration failed: {f.message}"
    change ({ · with error := some f.message })

/-- The migration. -/
def run (c : Service) : Action MigrationOutcome := fun w =>
  let (r, b) := c.runOnBench ⟨w, { success := false }⟩
  (r.map fun _ => b.result, b.world)

end Service

/-- A migration with its own steps and its own run that mends the build. -/
def service (m : Migration) : Service :=
  { project := m.library.project
    dryRun := m.library.dryRun
    perform := m.library.runStep
    mend := m.mend }

lemma service_steps (m : Migration) (index : Nat) (ss : List Step) :
    m.service.steps index ss = m.steps index ss := by
  induction ss generalizing index with
  | nil => rfl
  | cons s rest ih =>
    rw [Service.steps, steps, ih]
    rfl

theorem run_eq_service (m : Migration) : m.run = m.service.run := by
  have hparts : m.service.parts = m.parts := by
    rw [Service.parts, service_steps]
    rfl
  have hbench : m.service.runOnBench = m.runOnBench := by
    rw [Service.runOnBench, hparts]
    rfl
  funext w
  rw [Service.run, hbench]
  rfl

/-! ### What happens in a migration -/

namespace Service

variable {c : Service} {w v u : World}

/-- Some steps are performed one after the other, up to the first that does not succeed. These passed,
and this one stopped the migration, if any; nothing else happens but log records. -/
inductive Performs (c : Service) :
    List Step → World → List (Step × StepOutcome) → Option (Step × Except Failure StepOutcome) →
      World → Prop where
  | done {w v : World} (hv : w.Noted v) : Performs c [] w [] none v
  | passed {w v u x : World} {s : Step} {rest : List Step} {o : StepOutcome}
      {os : List (Step × StepOutcome)} {stop : Option (Step × Except Failure StepOutcome)}
      (hv : w.Noted v) (hs : c.perform s v = (.ok o, u)) (ho : o.success = true)
      (hrest : Performs c rest u os stop x) : Performs c (s :: rest) w ((s, o) :: os) stop x
  | failed {w v u : World} {s : Step} {rest : List Step} {o : StepOutcome}
      (hv : w.Noted v) (hs : c.perform s v = (.ok o, u)) (ho : o.success = false) :
      Performs c (s :: rest) w [] (some (s, .ok o)) u
  | raised {w v u : World} {s : Step} {rest : List Step} {f : Failure}
      (hv : w.Noted v) (hs : c.perform s v = (.error f, u)) :
      Performs c (s :: rest) w [] (some (s, .error f)) u

lemma Performs.noted {ss : List Step} {os : List (Step × StepOutcome)}
    {stop : Option (Step × Except Failure StepOutcome)} (h : c.Performs ss v os stop u)
    (hw : w.Noted v) : c.Performs ss w os stop u := by
  cases h with
  | done hv => exact .done (hw.trans hv)
  | passed hv hs ho hrest => exact .passed (hw.trans hv) hs ho hrest
  | failed hv hs ho => exact .failed (hw.trans hv) hs ho
  | raised hv hs => exact .raised (hw.trans hv) hs

end Service

/-- What happened in a migration: the steps that passed, the one that stopped it, and what the run that
mends the build came to, if one was asked for. -/
structure Story where
  passed : List (Step × StepOutcome)
  stopped : Option (Step × Except Failure StepOutcome) := none
  mended : Option (Except Failure FixRun) := none

namespace Story

/-- What was raised in a migration. -/
def raised? (t : Story) : Option Failure :=
  match t.stopped, t.mended with
  | some (_, .error f), _ => some f
  | none, some (.error f) => some f
  | _, _ => none

/-- What is said of the steps that passed. -/
def messages (t : Story) : List String := t.passed.map fun x => x.1.completed x.2.filesChanged

/-- The warnings of the steps that passed, without the empty ones. -/
def warnings (t : Story) : List String :=
  t.passed.filterMap fun x => firstGiven [x.2.warning]

end Story

namespace Service

/-- A migration from some world went as told: the steps in their order, and then the run that mends the
build, if all of them passed and changes are made. -/
inductive Happened (c : Service) (w : World) : Story → World → Prop where
  | stopped {passed : List (Step × StepOutcome)} {s : Step} {r : Except Failure StepOutcome}
      {v : World} (h : c.Performs Step.all w passed (some (s, r)) v) :
      Happened c w { passed, stopped := some (s, r) } v
  | skipped {passed : List (Step × StepOutcome)} {v : World}
      (h : c.Performs Step.all w passed none v) (hdry : c.dryRun = true) :
      Happened c w { passed } v
  | mended {passed : List (Step × StepOutcome)} {r : Except Failure FixRun} {v u x : World}
      (h : c.Performs Step.all w passed none v) (hdry : c.dryRun = false) (hu : v.Noted u)
      (hr : c.mend u = (r, x)) : Happened c w { passed, mended := some r } x

end Service

/-! ### The outcome of what happened -/

/-- The outcome so far, after some more steps that passed. -/
def afterSteps (o : MigrationOutcome) (os : List (Step × StepOutcome)) : MigrationOutcome :=
  { o with
    completedSteps := o.completedSteps ++ os.map fun x => x.1.completed x.2.filesChanged
    warnings := o.warnings ++ os.filterMap fun x => firstGiven [x.2.warning] }

lemma afterSteps_append (o : MigrationOutcome) (os os' : List (Step × StepOutcome)) :
    afterSteps (afterSteps o os) os' = afterSteps o (os ++ os') := by
  simp [afterSteps]

lemma afterSteps_nil (o : MigrationOutcome) : afterSteps o [] = o := by
  simp [afterSteps]

/-- The outcome so far, after the run that mends the build. -/
def afterMending (o : MigrationOutcome) (r : FixRun) : MigrationOutcome :=
  { o with
    fixRun := some r
    completedSteps := o.completedSteps ++ if r.success then [mendMessage r] else []
    warnings := o.warnings ++ if r.success then [] else [mendWarning r] }

lemma afterMending_of_success {r : FixRun} (h : r.success = true) (o : MigrationOutcome) :
    afterMending o r =
      { o with fixRun := some r, completedSteps := o.completedSteps ++ [mendMessage r] } := by
  simp [afterMending, h]

lemma afterMending_of_failure {r : FixRun} (h : r.success = false) (o : MigrationOutcome) :
    afterMending o r = { o with fixRun := some r, warnings := o.warnings ++ [mendWarning r] } := by
  simp [afterMending, h]

/-- The outcome at last, with what every migrated library should be looked at for. -/
def afterAll (o : MigrationOutcome) (success : Bool) : MigrationOutcome :=
  { o with warnings := o.warnings ++ [typeNote], success }

namespace Story

/-- The outcome up to the end of the steps. -/
def soFar (t : Story) : MigrationOutcome := afterSteps { success := false } t.passed

/-- The outcome that a migration makes of what happened. -/
def outcome (t : Story) : MigrationOutcome :=
  match t.stopped, t.mended with
  | some (s, r), _ => { t.soFar with error := some (stopError s r) }
  | none, none =>
    afterAll { t.soFar with completedSteps := t.soFar.completedSteps ++ [skipMessage] } true
  | none, some (.ok r) => afterAll (afterMending t.soFar r) r.success
  | none, some (.error f) => { t.soFar with error := some f.message }

end Story

/-! ### What the parts of a migration end in -/

section Parts

variable {α : Type} {c : Service} {b : MigrationBench}

lemma note_bind_ends {level : Level} {text : String} {k : MigrationAction α}
    {Q : α → MigrationBench → Prop} {E : Failure → MigrationBench → Prop}
    (h : ∀ v, b.world.Noted v → k.Ends { b with world := v } Q E) :
    (do note level text; k : MigrationAction α).Ends b Q E := by
  rw [ends_bind, note, inWorld, ends_zoom]
  obtain ⟨es, hes, hd⟩ := Action.Tells.log level .migration text b.world
  rw [ends_of_apply_ok hes]
  exact h _ ⟨es, rfl, hd⟩

lemma change_bind_ends {f : MigrationOutcome → MigrationOutcome} {k : MigrationAction α}
    {Q : α → MigrationBench → Prop} {E : Failure → MigrationBench → Prop} :
    (do change f; k : MigrationAction α).Ends b Q E ↔
      k.Ends { b with result := f b.result } Q E :=
  ends_bind

lemma inWorld_ends {a : Action α} {Q : α → MigrationBench → Prop}
    {E : Failure → MigrationBench → Prop}
    (hQ : ∀ x v, a b.world = (.ok x, v) → Q x { b with world := v })
    (hE : ∀ f v, a b.world = (.error f, v) → E f { b with world := v }) :
    (inWorld a).Ends b Q E := by
  rw [inWorld, ends_zoom, ends_iff]
  exact ⟨hQ, hE⟩

namespace Service

/-- A step passes, or fails, or raises something. -/
lemma step_ends {index : Nat} {s : Step} {Q : Bool → MigrationBench → Prop}
    {E : Failure → MigrationBench → Prop}
    (hpass : ∀ o v u x, b.world.Noted v → c.perform s v = (.ok o, u) → o.success = true →
      u.Noted x → Q true ⟨x, afterSteps b.result [(s, o)]⟩)
    (hfail : ∀ o v u x, b.world.Noted v → c.perform s v = (.ok o, u) → o.success = false →
      u.Noted x → Q false ⟨x, { b.result with error := some (stopError s (.ok o)) }⟩)
    (hraise : ∀ f v u, b.world.Noted v → c.perform s v = (.error f, u) → E f ⟨u, b.result⟩) :
    (c.step index s).Ends b Q E := by
  rw [step]
  refine note_bind_ends fun v hv => ?_
  rw [ends_bind]
  refine inWorld_ends (fun o u ho => ?_) fun f u hf => hraise f v u hv hf
  rw [ends_ite]
  refine ⟨fun hs => ?_, fun hs => ?_⟩
  · refine change_bind_ends.mpr ?_
    have hpass := hpass o v u
    cases hw : firstGiven [o.warning] with
    | some warning =>
      refine note_bind_ends fun x hx => change_bind_ends.mpr ?_
      simpa [afterSteps, hw] using hpass x hv ho hs hx
    | none => simpa [afterSteps, hw] using hpass u hv ho hs (.refl u)
  · refine change_bind_ends.mpr (note_bind_ends fun x hx => ?_)
    exact hfail o v u x hv ho (by simpa using hs) hx

/-- Steps are performed until one does not pass. -/
theorem steps_ends (index : Nat) (ss : List Step) :
    (c.steps index ss).Ends b
      (fun goesOn t => ∃ os stop v, c.Performs ss b.world os stop v ∧ v.Noted t.world ∧
        ((goesOn = true ∧ stop = none ∧ t.result = afterSteps b.result os) ∨
          goesOn = false ∧ ∃ s o, stop = some (s, .ok o) ∧
            t.result = { afterSteps b.result os with error := some (stopError s (.ok o)) }))
      fun f t => ∃ os s, c.Performs ss b.world os (some (s, .error f)) t.world ∧
        t.result = afterSteps b.result os := by
  induction ss generalizing index b with
  | nil =>
    exact ⟨[], none, b.world, .done (.refl _), .refl _, .inl ⟨rfl, rfl, (afterSteps_nil _).symm⟩⟩
  | cons s rest ih =>
    rw [steps, ends_bind]
    refine step_ends (fun o v u x hv hs ho hx => ?_) (fun o v u x hv hs ho hx => ?_)
      fun f v u hv hs => ?_
    · refine ends_ite.mpr ⟨fun _ => ?_, fun h => absurd rfl h⟩
      refine (ih (b := ⟨x, afterSteps b.result [(s, o)]⟩) (index + 1)).mono ?_ ?_
      · rintro goesOn t ⟨os, stop, y, hrest, hy, hend⟩
        rw [afterSteps_append] at hend
        exact ⟨_, stop, y, .passed hv hs ho (hrest.noted hx), hy, hend⟩
      · rintro f t ⟨os, s', hrest, hresult⟩
        rw [afterSteps_append] at hresult
        exact ⟨_, s', .passed hv hs ho (hrest.noted hx), hresult⟩
    · refine ends_ite.mpr ⟨fun h => absurd h Bool.false_ne_true, fun _ => ?_⟩
      exact ⟨[], _, u, .failed hv hs ho, hx, .inr ⟨rfl, s, o, rfl, by rw [afterSteps_nil]⟩⟩
    · exact ⟨[], s, .raised hv hs, (afterSteps_nil _).symm⟩

/-- The build is left alone, or a run that mends it returns or raises something. -/
lemma fixBuild_ends {Q : Bool → MigrationBench → Prop} {E : Failure → MigrationBench → Prop}
    (hskip : ∀ v, c.dryRun = true → b.world.Noted v →
      Q true ⟨v, { b.result with completedSteps := b.result.completedSteps ++ [skipMessage] }⟩)
    (hmend : ∀ r v u, c.dryRun = false → b.world.Noted v → c.mend v = (.ok r, u) →
      Q r.success ⟨u, afterMending b.result r⟩)
    (hraise : ∀ f v u, c.dryRun = false → b.world.Noted v → c.mend v = (.error f, u) →
      E f ⟨u, b.result⟩) :
    c.fixBuild.Ends b Q E := by
  rw [fixBuild, ends_ite]
  refine ⟨fun hdry => note_bind_ends fun v hv => hskip v hdry hv, fun hdry => ?_⟩
  have hreal : c.dryRun = false := by simpa using hdry
  refine note_bind_ends fun v hv => ?_
  rw [ends_bind]
  refine inWorld_ends (fun r u hr => ?_) fun f u hf => hraise f v u hreal hv hf
  have hmend := hmend r v u hreal hv hr
  refine change_bind_ends.mpr ?_
  rw [ends_ite]
  refine ⟨fun hs => ?_, fun hs => ?_⟩
  · rw [afterMending_of_success hs, hs] at hmend
    exact change_bind_ends.mpr hmend
  · have hs : r.success = false := by simpa using hs
    rw [afterMending_of_failure hs, hs] at hmend
    exact change_bind_ends.mpr hmend

end Service

end Parts

/-! ### The story of a migration -/

/-- What a migration ends in, by what happened: its outcome is told, unless it was interrupted. -/
def Story.result (t : Story) : Except Failure MigrationOutcome :=
  match t.raised? with
  | some f => if f.isInterruption then .error f else .ok t.outcome
  | none => .ok t.outcome

namespace Service

variable {c : Service} {w : World}

/-- The steps and the build of a migration, from its first log record on. -/
lemma parts_ends {v : World} (hv : w.Noted v) :
    c.parts.Ends ⟨v, { success := false }⟩
      (fun _ b => ∃ t u, c.Happened w t u ∧ u.Noted b.world ∧ t.raised? = none ∧
        b.result = t.outcome)
      fun f b => ∃ t, c.Happened w t b.world ∧ t.raised? = some f ∧
        { b.result with error := some f.message } = t.outcome := by
  rw [parts, ends_bind]
  refine (steps_ends 1 Step.all).mono ?_ ?_
  · rintro goesOn b ⟨os, stop, u, hsteps, hu, ⟨rfl, rfl, hresult⟩ | ⟨rfl, s, o, rfl, hresult⟩⟩
    · refine ends_ite.mpr ⟨fun _ => ?_, fun h => absurd rfl h⟩
      have hsteps := hsteps.noted hv
      rw [ends_bind]
      refine fixBuild_ends (fun x hdry hx => ?_) (fun r x y hreal hx hr => ?_)
        fun f x y hreal hx hf => ?_
      · refine note_bind_ends fun z hz => ?_
        refine ⟨_, u, .skipped hsteps hdry, (hu.trans hx).trans hz, rfl, ?_⟩
        simp only [hresult]
        rfl
      · refine note_bind_ends fun z hz => ?_
        refine ⟨_, y, .mended hsteps hreal (hu.trans hx) hr, hz, rfl, ?_⟩
        simp only [hresult]
        rfl
      · refine ⟨_, .mended hsteps hreal (hu.trans hx) hf, rfl, ?_⟩
        simp only [hresult]
        rfl
    · refine ends_ite.mpr ⟨fun h => absurd h Bool.false_ne_true, fun _ => ?_⟩
      exact ⟨_, u, .stopped (hsteps.noted hv), hu, rfl, hresult⟩
  · rintro f b ⟨os, s, hsteps, hresult⟩
    refine ⟨_, .stopped (hsteps.noted hv), rfl, ?_⟩
    simp only [hresult]
    rfl

/-- What a migration ends in is what happened in it. -/
theorem run_story (c : Service) (w : World) :
    ∃ t v, c.Happened w t v ∧ v.Noted (c.run w).2 ∧ (c.run w).1 = t.result := by
  have hbench : c.runOnBench.Ends ⟨w, { success := false }⟩
      (fun _ b => ∃ t v, c.Happened w t v ∧ v.Noted b.world ∧ .ok b.result = t.result)
      fun f b => ∃ t v, c.Happened w t v ∧ v.Noted b.world ∧ .error f = t.result := by
    rw [runOnBench]
    refine note_bind_ends fun v hv => ?_
    rw [ends_bind, ends_attempt]
    refine (parts_ends hv).mono ?_ ?_
    · rintro - b ⟨t, u, ht, hu, hraised, hresult⟩
      exact ⟨t, u, ht, hu, by rw [Story.result, hraised, hresult]⟩
    · rintro f b ⟨t, ht, hraised, hresult⟩
      refine ends_ite.mpr ⟨fun hf => ?_, fun hf => note_bind_ends fun x hx => ?_⟩
      · exact ⟨t, _, ht, .refl _, by rw [Story.result, hraised]; exact (if_pos hf).symm⟩
      · refine ⟨t, _, ht, hx, ?_⟩
        rw [Story.result, hraised, ← hresult]
        exact (if_neg hf).symm
  rw [run]
  rw [Ends] at hbench
  split at hbench <;> rename_i heq <;> rw [heq] <;> exact hbench

end Service

/-! ### The verdict -/

namespace Service

/-- What the outcome of a migration says of what happened. -/
structure Tells (c : Service) (t : Story) (o : MigrationOutcome) : Prop where
  /-- The messages of the steps that passed come first; a stopped migration has no others. -/
  completed : t.messages <+: o.completedSteps
  completedOnly : t.stopped.isSome → o.completedSteps = t.messages
  /-- So do their warnings. -/
  warned : t.warnings <+: o.warnings
  warnedOnly : t.stopped.isSome → o.warnings = t.warnings
  success : o.success = true ↔ t.stopped = none ∧ t.passed.map (·.1) = Step.all ∧
    (c.dryRun = true ∨ ∃ r, t.mended = some (.ok r) ∧ r.success = true)
  /-- There is an error exactly if a step failed or something was raised. -/
  error : o.error.isSome = true ↔ t.stopped.isSome = true ∨ t.raised?.isSome = true
  unmended : o.error.isSome = true → o.fixRun = none
  fixRun : ∀ r, o.fixRun = some r ↔ t.mended = some (.ok r)
  /-- What every migrated library should be looked at for is the last warning. -/
  noted : t.stopped = none → t.raised? = none → o.warnings.getLast? = some typeNote

lemma Performs.map_fst {c : Service} {ss : List Step} {w v : World}
    {os : List (Step × StepOutcome)} {stop : Option (Step × Except Failure StepOutcome)}
    (h : c.Performs ss w os stop v) (hstop : stop = none) : os.map (·.1) = ss := by
  induction h with
  | done => rfl
  | passed _ _ _ _ ih => rw [List.map_cons, ih hstop]
  | failed | raised => cases hstop

lemma soFar_completedSteps (t : Story) : t.soFar.completedSteps = t.messages := by
  simp [Story.soFar, afterSteps, Story.messages]

lemma soFar_warnings (t : Story) : t.soFar.warnings = t.warnings := by
  simp [Story.soFar, afterSteps, Story.warnings]

/-- The outcome of what happened says it. -/
theorem Happened.tells {c : Service} {w v : World} {t : Story} (h : c.Happened w t v) :
    c.Tells t t.outcome := by
  have hcompleted := soFar_completedSteps t
  have hwarned := soFar_warnings t
  cases h with
  | stopped h =>
    constructor <;> simp_all [Story.outcome, Story.raised?, Story.soFar, afterSteps]
  | skipped h hdry =>
    have hall := h.map_fst rfl
    constructor <;> simp_all [Story.outcome, Story.raised?, afterAll, Story.soFar, afterSteps]
  | @mended passed r _ _ _ h hdry =>
    have hall := h.map_fst rfl
    cases r with
    | ok r =>
      constructor <;>
        simp_all [Story.outcome, Story.raised?, afterAll, afterMending, Story.soFar, afterSteps]
    | error f =>
      constructor <;> simp_all [Story.outcome, Story.raised?, Story.soFar, afterSteps]

/-- What a migration ends in, by what happened: it is told, unless the migration is cancelled or waits
for ever. -/
structure Verdict (c : Service) (t : Story) (r : Except Failure MigrationOutcome) : Prop where
  tells : ∀ o, r = .ok o → c.Tells t o
  escapes : ∀ f, r = .error f ↔ t.raised? = some f ∧ f.isInterruption = true

lemma Happened.verdict {c : Service} {w v : World} {t : Story} (h : c.Happened w t v) :
    c.Verdict t t.result := by
  have htold (hresult : t.result = .ok t.outcome)
      (hraised : ∀ f, t.raised? = some f → f.isInterruption = false) : c.Verdict t t.result := by
    rw [hresult]
    refine ⟨fun o ho => Except.ok.inj ho ▸ h.tells, fun f => ?_⟩
    constructor
    · intro heq
      cases heq
    · rintro ⟨hf, hint⟩
      rw [hraised f hf] at hint
      cases hint
  cases hraised : t.raised? with
  | none => exact htold (by rw [Story.result, hraised]) (by simp [hraised])
  | some f =>
    cases hf : f.isInterruption with
    | false =>
      refine htold (by rw [Story.result, hraised]; simp [hf]) fun g hg => ?_
      rwa [← Option.some.inj (hraised.symm.trans hg)]
    | true =>
      have hresult : t.result = .error f := by rw [Story.result, hraised]; exact if_pos hf
      rw [hresult]
      refine ⟨fun o ho => (by cases ho), fun g => ?_⟩
      rw [hraised, Except.error.injEq, Option.some.injEq]
      exact ⟨fun heq => ⟨heq, heq ▸ hf⟩, fun heq => heq.1⟩

end Service

/-! ### The command -/

section Command

open CommandLine

variable {path : String} {verbose quiet dryRun : Bool} {w : World}

/-- The command on a directory exits as the migration ended. -/
lemma migrate_exit {project : Path} (h : Target.ofArgument w path = .directory project) :
    (migrate path verbose quiet dryRun w).1.exit =
      match ((ofProject w.env? project dryRun (!quiet) (.ofChoices w.env? {})).run w).1 with
      | .ok o => .code (if o.success then 0 else 1)
      | .error f => .failure f := by
  delta migrate
  simp only [h]
  obtain ⟨r, v⟩ := (ofProject w.env? project dryRun (!quiet) (.ofChoices w.env? {})).run w
  cases r <;> rfl

/-- The command exits with success exactly if a migration succeeded. -/
lemma migrate_exit_zero_iff :
    (migrate path verbose quiet dryRun w).1.exit = .code 0 ↔
      ∃ project o, Target.ofArgument w path = .directory project ∧
        ((ofProject w.env? project dryRun (!quiet) (.ofChoices w.env? {})).run w).1 = .ok o ∧
        o.success = true := by
  cases h : Target.ofArgument w path with
  | tooLong =>
    delta migrate
    simp [h, refusedPath]
  | nothing =>
    delta migrate
    simp [h, noDirectory]
  | directory project =>
    rw [migrate_exit h]
    constructor
    · intro hexit
      split at hexit
      · rename_i o ho
        exact ⟨project, o, rfl, ho, by simpa using hexit⟩
      · cases hexit
    · rintro ⟨_, o, ⟨rfl⟩, ho, hs⟩
      simp [ho, hs]

end Command

/-- Every migration performs its steps in their order up to the first that does not pass, and asks for
the run that mends the build only behind all of them; its outcome says what happened, whatever the
steps and that run come to, and only an interruption leaves it without one. The command exits as
the outcome says. -/
theorem sequence_and_verdict :
    (∀ (c : Service) (w : World), ∃ t v, c.Happened w t v ∧ v.Noted (c.run w).2 ∧
      c.Verdict t (c.run w).1) ∧
    (∀ m : Migration, m.run = m.service.run) ∧
    ∀ (path : String) (verbose quiet dryRun : Bool) (w : World),
      (CommandLine.migrate path verbose quiet dryRun w).1.exit = .code 0 ↔
        ∃ project o, CommandLine.Target.ofArgument w path = .directory project ∧
          ((ofProject w.env? project dryRun (!quiet) (.ofChoices w.env? {})).run w).1 = .ok o ∧
          o.success = true := by
  refine ⟨fun c w => ?_, run_eq_service, fun _ _ _ _ _ => migrate_exit_zero_iff⟩
  obtain ⟨t, v, ht, hv, hresult⟩ := c.run_story w
  exact ⟨t, v, ht, hv, hresult ▸ ht.verdict⟩

end Migration

end BuildMend
