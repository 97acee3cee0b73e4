import BuildMend.BuildTool
import BuildMend.Proofs.Deeds

/-!
What an operation of the build tool ends in.

* `ProcessScript.endsByItself`: the processes that start, exit, and are given the time to do so.
* `ProcessScript.failure?`: what the other processes make an operation fail with.
* `BuildTool.execute_ends`: a process is started; it ends by itself, or it is killed at once if it has
  started at all.
* `BuildTool.run_ends`: the same of an operation, which may also be impossible before its process is
  started (`BuildTool.Reaches`).
-/

namespace BuildMend

open Act Number Text

/-! ### Processes -/

/-- Whether a limit is one within which something can be done at all. -/
def givesTime (limit : Option Amount) : Bool :=
  limit.all fun l => !l.isNonPositive && !l.isTooLarge

/-- What an operation fails with whose process has not ended when its time is over; without a limit it
waits for ever. -/
def overrun (mode : BuildMode) (limit : Option Amount) : Failure :=
  (limit.map fun l => Failure.fault (.buildTimeout mode l)).getD .stalled

/-- What an operation fails with whose process goes on in some way. -/
def ProcessEnd.failure? (mode : BuildMode) (limit : Option Amount) : ProcessEnd → Option Failure
  | .exits _ => none
  | .hangs => some (overrun mode limit)
  | .cancelled => some .cancelled

namespace ProcessScript

/-- Whether the system starts a process. -/
def starts : ProcessScript → Bool
  | .runs .. => true
  | _ => false

/-- Whether a process starts and exits by itself when it is given some limit. -/
def endsByItself (limit : Option Amount) : ProcessScript → Bool
  | .runs _ (.exits _) _ => givesTime limit
  | _ => false

/-- What an operation with a command fails with whose process does not end by itself. -/
def failure? (mode : BuildMode) (command : List String) (limit : Option Amount) :
    ProcessScript → Option Failure
  | .refused reason => some (BuildTool.startFailure reason command)
  | .raises m => some (.mishap m)
  | .runs _ ending _ =>
    if limit.any (·.isNonPositive) then some (overrun mode limit)
    else if limit.any (·.isTooLarge) then some .numberTooLarge
    else ending.failure? mode limit

/-- What a process leaves behind when it exits. -/
def leavings : ProcessScript → Leavings
  | .runs _ _ leavings => leavings
  | _ => {}

/-- The lines that a process prints. -/
def lines : ProcessScript → List String
  | .runs pieces _ _ => (LineReader.ofPieces pieces).all.map lineText
  | _ => []

/-- The code with which a process exits, if it does. -/
def exitCode? : ProcessScript → Option Int
  | .runs _ (.exits code) _ => some code
  | _ => none

/-- The code with which a process exits; one that does not exit has the code of a failure. -/
def exitCode (p : ProcessScript) : Int := p.exitCode?.getD 1

/-- What an operation whose process exits makes of it. -/
def build (mode : BuildMode) (p : ProcessScript) : Build :=
  .ofOutput mode p.exitCode (outputText p.lines)

/-- What is done about a started process that does not end by itself: it is killed. -/
def remains (limit : Option Amount) (p : ProcessScript) : List Event :=
  if p.starts && !p.endsByItself limit then [.kill] else []

/-- An operation fails exactly if its process does not end by itself. -/
lemma failure?_eq_none_iff {mode : BuildMode} {command : List String} {limit : Option Amount}
    {p : ProcessScript} : p.failure? mode command limit = none ↔ p.endsByItself limit = true := by
  cases p with
  | refused reason => simp [failure?, endsByItself]
  | raises m => simp [failure?, endsByItself]
  | runs pieces ending leavings =>
    cases ending <;> cases limit <;>
      simp [failure?, ProcessEnd.failure?, endsByItself, givesTime] <;> grind

lemma remains_of_endsByItself {limit : Option Amount} {p : ProcessScript}
    (h : p.endsByItself limit = true) : p.remains limit = [] := by simp [remains, h]

lemma eq_kill_of_mem_remains {limit : Option Amount} {p : ProcessScript} {e : Event}
    (h : e ∈ p.remains limit) : e = .kill := by
  rw [remains] at h
  split at h
  · exact List.mem_singleton.mp h
  · cases h

@[simp] lemma startedModes_remains {limit : Option Amount} {p : ProcessScript} :
    startedModes (p.remains limit) = [] := by
  rw [remains]
  split <;> rfl

end ProcessScript

/-! ### Starting a process -/

namespace BuildTool

lemma noteLines_tells (ls : List String) : (noteLines ls).Tells := by
  induction ls with
  | nil => exact .pure
  | cons l ls ih => exact .bind (.log _ _ _) ih

lemma noteUnreadable_tells (rs : List String) : (noteUnreadable rs).Tells := by
  induction rs with
  | nil => exact .pure
  | cons r rs ih => exact .bind (.log _ _ _) ih

lemma timeOut_ends {α : Type} {mode : BuildMode} {limit : Amount} {w : World}
    {Q : α → World → Prop} {E : Failure → World → Prop}
    (h : ∀ v, w.Did [.kill] v → E (.fault (.buildTimeout mode limit)) v) :
    (timeOut mode limit : Action α).Ends w Q E := by
  rw [timeOut, ends_bind]
  refine (Action.Tells.log _ _ _).ends fun v hv _ => ?_
  exact h _ (hv.trans (.of_deed .kill rfl rfl rfl v))

lemma nextProcess_apply (w : World) :
    nextProcess w = (.ok (w.process 0), { w with processes := w.processes.drop 1 }) := by
  obtain ⟨_, _, _, processes, _, _, _⟩ := w
  cases processes <;> rfl

/-- A process is started: the next one of the script. -/
lemma start_ends {mode : BuildMode} {command : List String} {directory : String} {w : World}
    {f : ProcessScript → Action (Int × List String)} {Q : Int × List String → World → Prop}
    {E : Failure → World → Prop}
    (h : ∀ v, w.Did [.start mode command directory] v → v.tree = w.tree →
      (f (w.process 0)).Ends v Q E) :
    (do Action.record (.start mode command directory); f (← nextProcess)).Ends w Q E := by
  rw [ends_bind, ends_of_apply_ok (Action.record_apply _ _), ends_bind,
    ends_of_apply_ok (nextProcess_apply _)]
  exact h _ ⟨rfl, rfl, by simp [World.deeds, World.trace, Event.isDeed]⟩ rfl

/-- A process that has the time goes on; unless it exits or is waited for without a limit, it is
killed. -/
lemma attend_ends {tool : BuildTool} {mode : BuildMode} {pieces : List Utf8.Octets}
    {ending : ProcessEnd} {leavings : Leavings} {w : World} {Q : Int × List String → World → Prop}
    {E : Failure → World → Prop}
    (hQ : ∀ v code, ending = .exits code → w.Did [] v → v.tree = w.tree.leave leavings →
      Q (code, (LineReader.ofPieces pieces).all.map lineText) v)
    (hE : ∀ f v, ending.failure? mode tool.limit = some f → (f ≠ .stalled → w.Did [.kill] v) →
      (f = .stalled → w.Did [] v) → E f v) :
    (tool.attend mode pieces ending leavings).Ends w Q E := by
  cases ending with
  | exits code =>
    simp only [attend, ends_bind]
    refine (noteLines_tells _).ends fun v hv htree => ?_
    rw [ends_of_apply_ok (Action.leave_apply _ _), ends_pure]
    exact hQ _ code rfl (hv.trans (.of_tree v _)) (by rw [htree])
  | hangs =>
    simp only [attend, ends_bind]
    refine (noteLines_tells _).ends fun v hv _ => ?_
    split
    · rename_i limit hlimit
      refine timeOut_ends fun u hu => hE _ _ ?_ (fun _ => hv.trans hu) (by simp)
      simp [ProcessEnd.failure?, overrun, hlimit]
    · rename_i hlimit
      refine hE _ _ ?_ (fun h => absurd rfl h) fun _ => hv
      simp [ProcessEnd.failure?, overrun, hlimit]
  | cancelled =>
    simp only [attend, ends_bind]
    refine (noteLines_tells _).ends fun v hv _ => ?_
    exact hE _ _ rfl (fun _ => hv.trans (.of_deed .kill rfl rfl rfl v)) (by simp)

/-- A process is started.  It ends by itself, or what is left of it is killed at once, unless it is
waited for without a limit. -/
lemma execute_ends {tool : BuildTool} {mode : BuildMode} {command : List String}
    {directory : String} {w : World} {Q : Int × List String → World → Prop}
    {E : Failure → World → Prop}
    (hQ : ∀ v, (w.process 0).endsByItself tool.limit = true →
      w.Did [.start mode command directory] v → v.tree = w.tree.leave (w.process 0).leavings →
      Q ((w.process 0).exitCode, (w.process 0).lines) v)
    (hE : ∀ f v, (w.process 0).failure? mode command tool.limit = some f →
      (f ≠ .stalled →
        w.Did (.start mode command directory :: (w.process 0).remains tool.limit) v) →
      (f = .stalled → w.Did [.start mode command directory] v) → E f v) :
    (tool.execute mode command directory).Ends w Q E := by
  rw [execute]
  refine start_ends fun v hv htree => ?_
  cases hp : w.process 0 with
  | refused reason =>
    rw [hp] at hE
    exact hE _ _ rfl (fun _ => hv) fun _ => hv
  | raises m =>
    rw [hp] at hE
    exact hE _ _ rfl (fun _ => hv) fun _ => hv
  | runs pieces ending leavings =>
    rw [hp] at hQ hE
    have hkilled (f : Failure) (u : World)
        (hf : (ProcessScript.runs pieces ending leavings).failure? mode command tool.limit = some f)
        (hu : f ≠ .stalled → v.Did [.kill] u) (hs : f = .stalled → v.Did [] u) : E f u := by
      have hrem : (ProcessScript.runs pieces ending leavings).remains tool.limit = [.kill] := by
        have hnot : ¬(ProcessScript.runs pieces ending leavings).endsByItself tool.limit = true := by
          rw [← @ProcessScript.failure?_eq_none_iff mode command, hf]
          simp
        simp [ProcessScript.remains, ProcessScript.starts, hnot]
      rw [hrem] at hE
      exact hE f u hf (fun h => hv.trans (hu h)) fun h => by simpa using hv.trans (hs h)
    have hattend (hn : tool.limit.any (·.isNonPositive) = false)
        (ht : tool.limit.any (·.isTooLarge) = false) :
        (tool.attend mode pieces ending leavings).Ends v Q E := by
      have hfail : (ProcessScript.runs pieces ending leavings).failure? mode command tool.limit
          = ending.failure? mode tool.limit := by simp [ProcessScript.failure?, hn, ht]
      refine attend_ends (fun u code he hu hleft => ?_) fun f u hf hu hs =>
        hkilled f u (hfail.trans hf) hu hs
      subst he
      exact hQ u (ProcessScript.failure?_eq_none_iff.mp hfail) (by simpa using hv.trans hu)
        (by rw [hleft, htree]; rfl)
    simp only
    split
    · rename_i limit hlimit
      rw [ends_ite, ends_ite]
      refine ⟨fun hn => ?_, fun hn => ⟨fun ht => ?_, fun ht => ?_⟩⟩
      · exact timeOut_ends fun u hu =>
          hkilled _ _ (by simp [ProcessScript.failure?, overrun, hlimit, hn]) (fun _ => hu) (by simp)
      · exact hkilled _ _ (by simp [ProcessScript.failure?, hlimit, hn, ht])
          (fun _ => .of_deed .kill rfl rfl rfl v) (by simp)
      · exact hattend (by simpa [hlimit] using hn) (by simpa [hlimit] using ht)
    · rename_i hlimit
      exact hattend (by simp [hlimit]) (by simp [hlimit])

/-! ### Operations -/

/-- Whether an operation for a project gets as far as starting its process. -/
def Reaches (tool : BuildTool) (mode : BuildMode) (project : Path) (t : FileTree) : Prop :=
  (mode.worksInSources = true → t.isTooLong (project ++ ["src"]) = false) ∧
    tool.command? mode ≠ none

/-- What an operation for a project fails with before its process is started. -/
def obstacle? (tool : BuildTool) (mode : BuildMode) (project : Path) (t : FileTree) :
    Option Failure :=
  if mode.worksInSources && t.isTooLong (project ++ ["src"]) then
    some (.pathTooLong (project ++ ["src"]).fullText)
  else if (tool.command? mode).isNone then some (.noCommand mode)
  else none

lemma Reaches.obstacle?_eq_none {tool : BuildTool} {mode : BuildMode} {project : Path}
    {t : FileTree} (h : tool.Reaches mode project t) : tool.obstacle? mode project t = none := by
  rw [obstacle?, if_neg (by simpa using h.1), if_neg (by simpa using h.2)]

lemma directoryFor_ends {project : Path} {mode : BuildMode} {w : World} {Q : Path → World → Prop}
    {E : Failure → World → Prop}
    (hQ : (mode.worksInSources && w.tree.isTooLong (project ++ ["src"])) = false →
      Q (buildDirectory w.tree project mode) w)
    (hE : (mode.worksInSources && w.tree.isTooLong (project ++ ["src"])) = true →
      E (.pathTooLong (project ++ ["src"]).fullText) w) :
    (directoryFor project mode).Ends w Q E := by
  have hfind (h : (mode.worksInSources && w.tree.isTooLong (project ++ ["src"])) = false) :
      (do return buildDirectory (← get).tree project mode : Action Path).Ends w Q E := hQ h
  simp only [directoryFor, Action.lookFor]
  rw [ends_ite]
  refine ⟨fun hm => ?_, fun hm => hfind (by simp [hm])⟩
  rw [ends_bind, ends_bind, ends_get, ends_ite]
  exact ⟨fun hl => hE (by simp [hm, hl]), fun hl => hfind (by simp [hl])⟩

/-- An operation whose process ends by itself has the outcome that the process gives it.  Any other
ends in a failure: before its process is started, or with what is left of the process killed. -/
theorem run_ends {tool : BuildTool} {mode : BuildMode} {project : Path} {w : World}
    {Q : Build → World → Prop} {E : Failure → World → Prop}
    (hQ : ∀ v e, tool.obstacle? mode project w.tree = none → e.mode? = some mode →
      (w.process 0).endsByItself tool.limit = true → w.Did [e] v →
      v.tree = w.tree.leave (w.process 0).leavings → Q ((w.process 0).build mode) v)
    (hreach : ∀ f, tool.obstacle? mode project w.tree = some f → E f w)
    (hE : ∀ f v e, tool.obstacle? mode project w.tree = none → e.mode? = some mode →
      (w.process 0).failure? mode ((tool.command? mode).getD []) tool.limit = some f →
      (f ≠ .stalled → w.Did (e :: (w.process 0).remains tool.limit) v) →
      (f = .stalled → w.Did [e] v) → E f v) :
    (tool.run mode project).Ends w Q E := by
  rw [run, ends_bind]
  refine directoryFor_ends (fun hlook => ?_) fun hlook => hreach _ (by simp [obstacle?, hlook])
  cases hc : tool.command? mode with
  | none => exact hreach _ (by simp [obstacle?, hlook, hc])
  | some command =>
    have hnone : tool.obstacle? mode project w.tree = none := by simp [obstacle?, hlook, hc]
    simp only
    rw [ends_bind]
    refine (Action.Tells.log _ _ _).ends fun v hv htree => ?_
    rw [ends_bind]
    have hp : v.process 0 = w.process 0 := by simpa using hv.process_eq 0
    refine execute_ends (fun u hends hu hleft => ?_) fun f u hf hu hs => ?_
    · rw [hp] at hends hleft ⊢
      have hdone (x : World) (hx : u.Did [] x) (hsame : x.tree = u.tree) :
          Q ((w.process 0).build mode) x :=
        hQ x _ hnone rfl hends (by simpa using hv.trans (hu.trans hx)) (by rw [hsame, hleft, htree])
      simp only
      rw [ends_bind]
      refine (noteUnreadable_tells _).ends fun x hx hsame => ?_
      rw [ends_ite]
      refine ⟨fun _ => ?_, fun _ => hdone x hx hsame⟩
      rw [ends_bind]
      exact (Action.Tells.log _ _ _).ends fun y hy hsame' =>
        hdone y (hx.trans hy) (hsame'.trans hsame)
    · rw [hp] at hf hu
      exact hE f u _ hnone rfl (by rw [hc]; exact hf) (fun h => by simpa using hv.trans (hu h))
        fun h => by simpa using hv.trans (hs h)

end BuildTool

end BuildMend
