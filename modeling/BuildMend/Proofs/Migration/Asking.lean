import BuildMend.Migration.Run
import BuildMend.Proofs.CommitService
import BuildMend.Proofs.Deeds
import BuildMend.Proofs.Within

/-!
What a migration does that only reports changes.

* `World.Asked`: the files stay as they are, and nothing is done but asking the web service.
* `Library.runStep_asks`: a step of such a migration only asks.
* `Migration.run_asks`: such a migration as a whole only asks.
-/

namespace BuildMend

open Act

/-! ### Asking -/

namespace Event

/-- Whether the web service is asked. -/
def isRequest : Event → Bool
  | .get _ => true
  | _ => false

end Event

/-- From one world to another the files stay as they are, and nothing is done but asking the web
service: no process is started, no client of the assistant is created and no run that mends a build
is asked for. -/
structure World.Asked (w v : World) : Prop where
  tree : v.tree = w.tree
  did : ∃ es, w.Did es v ∧ ∀ e ∈ es, e.isRequest = true

instance : IsPreorder World World.Asked where
  refl w := ⟨rfl, [], .refl w, by simp⟩
  trans w v u h h' := by
    obtain ⟨es, hes, hall⟩ := h.did
    obtain ⟨fs, hfs, hall'⟩ := h'.did
    exact ⟨h'.tree.trans h.tree, es ++ fs, hes.trans hfs,
      List.forall_mem_append.mpr ⟨hall, hall'⟩⟩

/-- An action only asks. -/
abbrev Action.Asks {α : Type} (a : Action α) : Prop := a.Within World.Asked

namespace Action

lemma Tells.asks {a : Action Unit} (h : a.Tells) : a.Asks := by
  intro w
  obtain ⟨es, hes, hd⟩ := h w
  have hnil : es.reverse.filter Event.isDeed = [] := by
    simpa [List.filter_eq_nil_iff] using hd
  rw [hes]
  exact ⟨rfl, [], ⟨by simp [World.told], by simp [World.told], by rw [World.deeds_told, hnil]⟩,
    by simp⟩

lemma asks_log (level : Level) (source : Source) (text : String) :
    (Action.log level source text).Asks :=
  (Tells.log level source text).asks

lemma asks_request (r : Request) : (record (.get r)).Asks := fun w =>
  ⟨rfl, [.get r], .of_deed _ rfl rfl rfl w, by simp [Event.isRequest]⟩

lemma asks_lookFor (p : Path) : (lookFor p).Asks :=
  within_get.bind fun _ => within_ite (within_throw _) (within_pure _)

lemma asks_readFile (p : Path) : (readFile p).Asks := by
  refine within_get.bind fun w => ?_
  split
  · exact within_throw _
  · split
    · exact within_pure _
    · exact within_throw _

end Action

/-! ### The web service -/

namespace CommitService

variable (l : CommitService)

/-- A reply may be used up, and nothing else happens. -/
lemma asks_nextReply : nextReply.Asks := by
  intro w
  rw [nextReply_apply]
  split
  · exact refl_of World.Asked w
  · exact ⟨rfl, [], ⟨by simp, by simp, by simp [World.deeds, World.trace]⟩, by simp⟩

lemma asks_fetch (url : String) (parameters : List (String × Json)) :
    (l.fetch url parameters).Asks := by
  refine (Action.asks_request _).bind fun _ => asks_nextReply.bind fun reply => ?_
  cases reply with
  | raises m => exact within_fail _
  | answer status body =>
    refine within_ite ((Action.asks_log _ _ _).bind fun _ => within_pure _) ?_
    exact (within_ofExcept _).bind fun _ => within_pure _

lemma asks_hasPath (owner repo path : String) (branch : Option String) :
    (l.hasPath owner repo path branch).Asks := by
  refine (l.asks_fetch _ _).bind fun answer => ?_
  split <;> exact within_pure _

lemma asks_latestForPath (owner repo path : String) (branch : Option String) :
    (l.latestForPath owner repo path branch).Asks :=
  (l.asks_fetch _ _).bind fun _ => within_ofExcept _

lemma asks_latest (owner repo : String) (branch : Option String) :
    (l.latest owner repo branch).Asks :=
  (l.asks_fetch _ _).bind fun _ => within_ofExcept _

end CommitService

/-! ### The steps -/

namespace Migration

open Text

namespace Library

variable {l : Library} (hdry : l.dryRun = true)

lemma asks_note (level : Level) (text : String) : (note level text).Asks :=
  Action.asks_log level .migrationSteps text

lemma asks_load (place : Path) : (load place).Asks :=
  (Action.asks_readFile place).bind fun _ => within_pure _

lemma asks_hasLocationFile : l.hasLocationFile.Asks :=
  (Action.asks_lookFor _).bind fun _ => within_get.bind fun _ => within_pure _

lemma asks_newestCommit (u : CommitUpdate) : (l.newestCommit u).Asks := by
  have hnewest (found : Json) : (if found.isEmptyValue then do
      note .info "Could not find path-specific commits, using latest main commit"
      l.commits.latest u.owner u.repo (some usualBranch)
      else pure found : Action Json).Asks :=
    within_ite ((asks_note _ _).bind fun _ => l.commits.asks_latest _ _ _) (within_pure _)
  exact within_ite ((within_pure _).bind hnewest) ((l.commits.asks_latestForPath _ _ _ _).bind hnewest)

include hdry

/-- Nothing is written. -/
lemma asks_save (place : Path) (text : List Char) : (l.save place text).Asks := by
  rw [save, if_pos hdry]
  exact asks_note _ _

lemma asks_savePoints (place : Path) (points : List CodePoint) :
    (l.savePoints place points).Asks := by
  rw [savePoints]
  split
  · exact asks_save hdry _ _
  · rw [if_pos hdry]
    exact asks_save hdry _ _

lemma asks_editFiles (edit : List Char → List Char) (places : List Path) :
    (l.editFiles edit places).Asks := by
  induction places with
  | nil => exact within_pure _
  | cons place rest ih =>
    refine (asks_load place).bind fun text => within_ite ?_ ih
    exact (asks_save hdry _ _).bind fun _ => ih.bind fun _ => within_pure _

lemma asks_editCode (edit : CodeEdit) : (l.editCode edit).Asks :=
  (Action.asks_lookFor _).bind fun _ => within_get.bind fun _ =>
    (asks_editFiles hdry _ _).bind fun _ => within_pure _

lemma asks_editProjects : l.editProjects.Asks := by
  refine (Action.asks_lookFor _).bind fun _ => within_get.bind fun w => ?_
  split
  · exact within_pure _
  · exact (asks_editFiles hdry _ _).bind fun _ => within_pure _

lemma asks_updateEmitterPath : l.updateEmitterPath.Asks := by
  refine asks_hasLocationFile.bind fun _ => ?_
  refine within_ite (within_pure _) ((asks_load _).bind fun text => ?_)
  refine within_ite ((asks_note _ _).bind fun _ => within_pure _) ?_
  exact (asks_save hdry _ _).bind fun _ => within_pure _

/-- A specification that has moved is not searched for. -/
lemma asks_relocate (u : CommitUpdate) : (l.relocate u).Asks := by
  refine (asks_note _ _).bind fun _ => ?_
  rw [if_pos hdry]
  exact within_pure _

lemma asks_lookUp (u : CommitUpdate) : (l.lookUp u).Asks := by
  have hfound (there : Bool) : (if there then do return .inr (← l.newestCommit u)
      else do return .inl (← l.relocate u) : Action (StepOutcome ⊕ Json)).Asks :=
    within_ite ((asks_newestCommit u).bind fun _ => within_pure _)
      ((asks_relocate hdry u).bind fun _ => within_pure _)
  exact within_ite ((within_pure _).bind hfound) ((l.commits.asks_hasPath _ _ _ _).bind hfound)

lemma asks_saveCommit (u : CommitUpdate) (newest : Json) : (l.saveCommit u newest).Asks := by
  have hsave : (do
      l.savePoints l.locationFile (TspLocation.withCommit newest.text u.points)
      let start ← Act.ofExcept (commitStart newest)
      note .info s!"Updated commit SHA to {start}..."
      return .changed 1 : Action StepOutcome).Asks :=
    (asks_savePoints hdry _ _).bind fun _ => (within_ofExcept _).bind fun _ =>
      (asks_note _ _).bind fun _ => within_pure _
  rw [saveCommit]
  refine within_ite (within_pure _) ?_
  dsimp only
  split
  · exact within_ite (within_pure _) hsave
  · exact hsave

lemma asks_updateCommitOf (u : CommitUpdate) : (l.updateCommitOf u).Asks := by
  refine (asks_note _ _).bind fun _ => (asks_lookUp hdry u).attempt.bind fun found => ?_
  split
  · exact within_pure _
  · exact asks_saveCommit hdry _ _
  · exact within_ite (within_pure _) (within_fail _)

lemma asks_updateCommit : l.updateCommit.Asks := by
  refine asks_hasLocationFile.bind fun _ => ?_
  refine within_ite (within_pure _) ((asks_load _).bind fun text => ?_)
  split
  · exact within_pure _
  · dsimp only
    split
    · exact within_fail _
    · exact within_pure _
    · exact asks_updateCommitOf hdry _

/-- A step that only reports changes only asks. -/
theorem runStep_asks (s : Step) : (l.runStep s).Asks := by
  cases s with
  | emitterPath => exact asks_updateEmitterPath hdry
  | commit => exact asks_updateCommit hdry
  | projectFiles => exact asks_editProjects hdry
  | code edit => exact asks_editCode hdry edit

end Library

end Migration

/-! ### The migration -/

namespace Migration

/-- A migration under way only asks. -/
def benchAsked (b c : MigrationBench) : Prop := b.world.Asked c.world

instance : IsPreorder MigrationBench benchAsked where
  refl b := refl_of World.Asked b.world
  trans _ _ _ h h' := trans_of World.Asked h h'

variable {α : Type} {m : Migration}

lemma within_inWorld {a : Action α} (h : a.Asks) : (inWorld a).Within benchAsked :=
  fun b => h b.world

lemma within_note (level : Level) (text : String) : (note level text).Within benchAsked :=
  within_inWorld (Action.asks_log _ _ _)

/-- The outcome is no part of the world. -/
lemma within_change (f : MigrationOutcome → MigrationOutcome) : (change f).Within benchAsked :=
  fun b => refl_of World.Asked b.world

variable (hdry : m.library.dryRun = true)

include hdry

lemma within_step (index : Nat) (s : Step) : (m.step index s).Within benchAsked := by
  refine (within_note _ _).bind fun _ =>
    (within_inWorld (Library.runStep_asks hdry s)).bind fun result => ?_
  refine within_ite ?_ ?_
  · refine (within_change _).bind fun _ => ?_
    split
    · exact (within_note _ _).bind fun _ => (within_change _).bind fun _ => within_pure _
    · exact within_pure _
  · exact (within_change _).bind fun _ => (within_note _ _).bind fun _ => within_pure _

lemma within_steps (index : Nat) (ss : List Step) : (m.steps index ss).Within benchAsked := by
  induction ss generalizing index with
  | nil => exact within_pure _
  | cons s rest ih =>
    refine (within_step hdry index s).bind fun goesOn => ?_
    exact within_ite (ih _) (within_pure _)

/-- No run that mends the build is asked for. -/
lemma within_fixBuild : m.fixBuild.Within benchAsked := by
  rw [fixBuild]
  rw [if_pos hdry]
  exact (within_note _ _).bind fun _ => (within_change _).bind fun _ => within_pure _

lemma within_parts : m.parts.Within benchAsked := by
  refine (within_steps hdry 1 Step.all).bind fun done => within_ite ?_ (within_pure _)
  exact (within_fixBuild hdry).bind fun _ => (within_note _ _).bind fun _ =>
    (within_change _).bind fun _ => within_change _

lemma within_runOnBench : m.runOnBench.Within benchAsked := by
  refine (within_note _ _).bind fun _ => (within_parts hdry).attempt.bind fun ending => ?_
  split
  · exact within_pure _
  · refine within_ite ((within_fail _).bind fun _ => ?_) ?_
    · exact (within_note _ _).bind fun _ => within_change _
    · exact (within_note _ _).bind fun _ => within_change _

/-- A migration that only reports changes only asks. -/
theorem run_asks : m.run.Asks := fun w => within_runOnBench hdry ⟨w, { success := false }⟩

end Migration

end BuildMend
