import BuildMend.Proofs.FixRun.History

/-!
The attempts that a run tells of, in its outcome or when it is cut short.

* `Mender.Records`: an attempt says what two builds reported, and what became of the errors.
* `Mender.PhaseLog`: the attempts of a phase: numbered on, each from the build that the one before it
  left, and none after a success.
* `Mender.AttemptLog`: the attempts of a run: those of the source phase, and then those of the solution
  phase if the sources were mended.
* `Mender.attempts_told`: a run tells of such attempts, and its outcome agrees with them.
-/

namespace BuildMend

open Act World Text

/-- The errors that a process reports in what it prints. -/
def ProcessScript.errors (p : ProcessScript) : List Diagnostic :=
  (Findings.ofOutput (outputText p.lines)).errors

lemma assess_ne_resolved (key : ProgressKey) (before after : List Diagnostic) :
    assess key before after ≠ .resolved := by
  rw [assess]
  split
  · simp
  · split <;> simp

/-- The attempts that a run tells of: those of its outcome, or those made before a fault. -/
def toldAttempts? : Except Failure FixRun → Option (List Attempt)
  | .ok r => some r.attempts
  | .error (.fault (.fixRunAborted _ as)) => some as
  | .error _ => none

namespace Mender

variable {m : Mender}

/-! ### Logs -/

/-- An attempt says what one build and the next reported.  It is resolved exactly when the second one
succeeds, whatever that reports; otherwise the errors are compared. -/
structure Records (m : Mender) (a : Attempt) (p q : ProcessScript) : Prop where
  opened : p.endsByItself m.tool.limit = true
  rebuilt : q.endsByItself m.tool.limit = true
  before : a.before = p.errors
  after : a.after = q.errors
  resolved : a.progress = .resolved ↔ q.exitCode = 0
  assessed : q.exitCode ≠ 0 → a.progress = assess m.settings.progressKey a.before a.after

/-- The attempts of a phase beside the processes of its builds: the `i`-th attempt lies between the
`i`-th build and the next. -/
structure PhaseLog (m : Mender) (phase : Phase) (first : Nat) (scripts : List ProcessScript)
    (as : List Attempt) : Prop where
  numbers : as.map (·.number) = (List.range' first as.length).map Int.ofNat
  phases : ∀ a ∈ as, a.phase = phase
  records : ∀ i a, as[i]? = some a →
    ∃ p q, scripts[i]? = some p ∧ scripts[i + 1]? = some q ∧ m.Records a p q
  chained : ∀ i a b, as[i]? = some a → as[i + 1]? = some b → b.before = a.after
  unresolved : ∀ a ∈ as.dropLast, a.progress ≠ .resolved
  length_le : as.length ≤ m.settings.budget phase

/-- The attempts of a run with some deeds: those of the source phase, and then those of the solution
phase, which begins only when the last attempt of the first one has resolved the errors. -/
structure AttemptLog (m : Mender) (w : World) (es : List Event) (source solution : List Attempt) :
    Prop where
  sourceLog : m.PhaseLog .source 1 (w.scriptsOf .source es) source
  solutionLog : m.PhaseLog .solution (source.length + 1) (w.scriptsOf .solution es) solution
  mended : solution ≠ [] → ∃ a, source.getLast? = some a ∧ a.progress = .resolved

/-- What an outcome says agrees with its attempts. -/
structure Tells (m : Mender) (r : FixRun) (source solution : List Attempt) : Prop where
  used : r.attemptsUsed = r.attempts.length
  success : r.success = true ↔ ∀ a, r.attempts.getLast? = some a → a.progress = .resolved
  remaining : r.remaining = (r.attempts.getLast?.map (·.after)).getD []
  exhausted : r.success = false →
    (source.length = m.settings.budget .source ∧ solution = []) ∨
      solution.length = m.settings.budget .solution

/-! ### Courses -/

section Courses

variable {phase : Phase} {budget number : Nat} {p q : ProcessScript} {ps : List ProcessScript}
  {as : List Attempt} {o : Option Bool}

lemma attemptOf_records {current : Nat} {answer : String}
    (hp : p.endsByItself m.tool.limit = true) (hq : q.endsByItself m.tool.limit = true) :
    m.Records (m.attemptOf phase current (p.build phase.buildMode) (q.build phase.buildMode) answer)
      p q where
  opened := hp
  rebuilt := hq
  before := rfl
  after := rfl
  resolved := by
    rw [attemptOf, verdict, ← @success_build phase.buildMode q]
    split
    · simp_all
    · simp_all [assess_ne_resolved]
  assessed hcode := by
    rw [attemptOf, verdict, if_neg (by rwa [success_build])]

namespace Course

lemma numbers (h : m.Course phase budget number p ps as o) :
    as.map (·.number) = (List.range' number as.length).map Int.ofNat := by
  induction h with
  | cut => rfl
  | exhausted => rfl
  | resolved => rfl
  | failed _ _ _ _ ih =>
    rw [List.map_cons, ih, List.length_cons, List.range'_succ, List.map_cons]
    rfl

lemma phases (h : m.Course phase budget number p ps as o) : ∀ a ∈ as, a.phase = phase := by
  induction h with
  | cut => simp
  | exhausted => simp
  | resolved => simp [attemptOf]
  | failed _ _ _ _ ih =>
    intro a ha
    rcases List.mem_cons.mp ha with rfl | ha
    · rfl
    · exact ih a ha

lemma records (h : m.Course phase budget number p ps as o) (i : Nat) (a : Attempt)
    (ha : as[i]? = some a) :
    ∃ q r, (p :: ps)[i]? = some q ∧ (p :: ps)[i + 1]? = some r ∧ m.Records a q r := by
  induction h generalizing i with
  | cut => cases ha
  | exhausted => cases ha
  | resolved hp hq _ =>
    obtain ⟨rfl, rfl⟩ : i = 0 ∧ _ = a := by simpa [List.getElem?_singleton] using ha
    exact ⟨_, _, rfl, rfl, attemptOf_records hp hq⟩
  | failed hp hq _ _ ih =>
    cases i with
    | zero =>
      obtain rfl := Option.some.inj ha
      exact ⟨_, _, rfl, rfl, attemptOf_records hp hq⟩
    | succ i => exact ih i ha

lemma unresolved (h : m.Course phase budget number p ps as o) :
    ∀ a ∈ as.dropLast, a.progress ≠ .resolved := by
  induction h with
  | cut => simp
  | exhausted => simp
  | resolved => simp
  | @failed _ _ _ _ _ as _ _ hp hq hcode _ ih =>
    cases as with
    | nil => simp
    | cons b as =>
      rw [List.dropLast_cons_cons]
      intro a ha
      rcases List.mem_cons.mp ha with rfl | ha
      · exact fun h => hcode ((attemptOf_records hp hq).resolved.mp h)
      · exact ih a ha

lemma length_le (h : m.Course phase budget number p ps as o) : as.length ≤ budget := by
  induction h with
  | cut => simp
  | exhausted => simp
  | resolved => simp
  | failed _ _ _ _ ih => simpa using ih

/-- The attempts of a phase that takes its course. -/
lemma log (h : m.Course phase (m.settings.budget phase) number p ps as o) :
    m.PhaseLog phase number (p :: ps) as where
  numbers := h.numbers
  phases := h.phases
  records := h.records
  chained i a b ha hb := by
    obtain ⟨_, q, -, hq, hrec⟩ := h.records i a ha
    obtain ⟨q', _, hq', -, hrec'⟩ := h.records (i + 1) b hb
    obtain rfl : q = q' := Option.some.inj (hq.symm.trans hq')
    rw [hrec'.before, hrec.after]
  unresolved := h.unresolved
  length_le := h.length_le

/-- A phase that ends with a success has resolved the errors at last. -/
lemma getLast_resolved (h : m.Course phase budget number p ps as (some true)) :
    ∃ a, as.getLast? = some a ∧ a.progress = .resolved := by
  generalize ho : some true = o at h
  induction h with
  | cut => cases ho
  | exhausted => cases ho
  | resolved hp hq hcode => exact ⟨_, rfl, (attemptOf_records hp hq).resolved.mpr hcode⟩
  | failed _ _ _ _ ih =>
    obtain ⟨a, ha, hres⟩ := ih ho
    exact ⟨a, by rw [List.getLast?_cons, ha]; rfl, hres⟩

/-- A phase that ends without a success has used its budget and resolved nothing. -/
lemma exhausted_budget (h : m.Course phase budget number p ps as (some false)) :
    as.length = budget ∧ ∀ a ∈ as, a.progress ≠ .resolved := by
  generalize ho : some false = o at h
  induction h with
  | cut => cases ho
  | exhausted => simp
  | resolved => cases ho
  | failed hp hq hcode _ ih =>
    obtain ⟨hlen, hno⟩ := ih ho
    refine ⟨by simp [hlen], fun a ha => ?_⟩
    rcases List.mem_cons.mp ha with rfl | ha
    · exact fun h => hcode ((attemptOf_records hp hq).resolved.mp h)
    · exact hno a ha

end Course

end Courses

/-! ### Runs -/

lemma PhaseLog.nil {phase : Phase} {first : Nat} {scripts : List ProcessScript} :
    m.PhaseLog phase first scripts [] := by
  constructor <;> simp

/-- The attempts that a run can have made are the log of a run. -/
lemma Log.attemptLog {w : World} {es : List Event} {as : List Attempt}
    (h : m.Log (w.scriptsOf .source es) (w.scriptsOf .solution es) as) :
    ∃ source solution, as = source ++ solution ∧ m.AttemptLog w es source solution := by
  generalize hS : w.scriptsOf .source es = S at h
  generalize hT : w.scriptsOf .solution es = T at h
  cases h with
  | unopened => exact ⟨[], [], rfl, .nil, .nil, fun h => absurd rfl h⟩
  | sources _ _ h => exact ⟨as, [], (List.append_nil _).symm, hS ▸ h.log, .nil, fun h => absurd rfl h⟩
  | built _ _ h => exact ⟨as, [], (List.append_nil _).symm, hS ▸ h.log, .nil, fun h => absurd rfl h⟩
  | solution _ _ h _ _ h' => exact ⟨_, _, rfl, hS ▸ h.log, hT ▸ h'.log, fun _ => h.getLast_resolved⟩

lemma budget_pos (s : FixSettings) (phase : Phase) : 1 ≤ s.budget phase := by
  cases phase with
  | source => exact s.maxRetries_pos
  | solution =>
    have hsol := s.solutionMaxRetries_pos
    cases h : s.solutionMaxRetries with
    | none => simpa [FixSettings.budget, h] using s.maxRetries_pos
    | some n => simpa [FixSettings.budget, h] using hsol n (by simp [h])

/-- The attempts of a run that has returned are the log of a run, and its success agrees with them. -/
lemma Verdict.attemptLog {w : World} {es : List Event} {as : List Attempt} {success : Bool}
    (h : m.Verdict (w.scriptsOf .source es) (w.scriptsOf .solution es) as success) :
    ∃ source solution, as = source ++ solution ∧ m.AttemptLog w es source solution ∧
      (success = true ↔ ∀ a, as.getLast? = some a → a.progress = .resolved) ∧
      (success = false → (source.length = m.settings.budget .source ∧ solution = []) ∨
        solution.length = m.settings.budget .solution) := by
  -- attempts that have used a budget are some attempts, and the last one resolved nothing
  have hfailed {phase : Phase} {as : List Attempt} (hlen : as.length = m.settings.budget phase)
      (hno : ∀ a ∈ as, a.progress ≠ .resolved) :
      ∃ a, as.getLast? = some a ∧ a.progress ≠ .resolved := by
    have hne : as ≠ [] := by
      rintro rfl
      have hpos := budget_pos m.settings phase
      rw [← hlen] at hpos
      cases hpos
    exact ⟨_, List.getLast?_eq_some_getLast hne, hno _ (List.getLast_mem hne)⟩
  generalize hS : w.scriptsOf .source es = S at h
  generalize hT : w.scriptsOf .solution es = T at h
  cases h with
  | built => exact ⟨[], [], rfl, ⟨.nil, .nil, fun h => absurd rfl h⟩, by simp, by simp⟩
  | unmended _ _ h =>
    obtain ⟨hlen, hno⟩ := h.exhausted_budget
    obtain ⟨a, ha, hres⟩ := hfailed hlen hno
    refine ⟨as, [], (List.append_nil _).symm, ⟨hS ▸ h.log, .nil, fun h => absurd rfl h⟩, ?_,
      fun _ => Or.inl ⟨hlen, rfl⟩⟩
    exact ⟨by simp, fun h => absurd (h a ha) hres⟩
  | verified _ _ h _ _ =>
    obtain ⟨a, ha, hres⟩ := h.getLast_resolved
    refine ⟨as, [], (List.append_nil _).symm, ⟨hS ▸ h.log, .nil, fun h => absurd rfl h⟩, ?_, by simp⟩
    exact ⟨fun _ b hb => Option.some.inj (ha.symm.trans hb) ▸ hres, fun _ => rfl⟩
  | @mended _ _ as _ _ bs success _ _ h _ _ h' =>
    refine ⟨as, bs, rfl, ⟨hS ▸ h.log, hT ▸ h'.log, fun _ => h.getLast_resolved⟩, ?_⟩
    cases success with
    | true =>
      obtain ⟨a, ha, hres⟩ := h'.getLast_resolved
      have hlast : (as ++ bs).getLast? = some a := by rw [List.getLast?_append, ha]; rfl
      refine ⟨⟨fun _ b hb => Option.some.inj (hlast.symm.trans hb) ▸ hres, fun _ => rfl⟩, by simp⟩
    | false =>
      obtain ⟨hlen, hno⟩ := h'.exhausted_budget
      obtain ⟨a, ha, hres⟩ := hfailed hlen hno
      have hlast : (as ++ bs).getLast? = some a := by rw [List.getLast?_append, ha]; rfl
      exact ⟨⟨by simp, fun h => absurd (h a hlast) hres⟩, fun _ => Or.inr hlen⟩

/-- A run tells of its attempts in its outcome, or when a fault cuts it short.  They are numbered from
one on over both phases; each says what the build before it and the build after it reported, and
what became of the errors; only the last one of a phase has resolved them, and the solution phase
begins only after that. -/
theorem attempts_told (m : Mender) (w : World) (as : List Attempt)
    (h : toldAttempts? (m.run w).1 = some as) :
    ∃ es source solution, (m.run w).2.deeds = w.deeds ++ es ∧ as = source ++ solution ∧
      m.AttemptLog w es source solution ∧
      ∀ r, (m.run w).1 = .ok r → m.Tells r source solution := by
  have hphases := phases_history (m := m) (w := w)
  rw [run] at h ⊢
  rw [Ends] at hphases
  split at hphases
  · rename_i r b hb
    obtain ⟨es, hd, hret⟩ := hphases
    rw [hb] at h ⊢
    obtain rfl : r.attempts = as := Option.some.inj h
    obtain ⟨source, solution, has, hlog, hsuccess, hspent⟩ := hret.verdict.attemptLog
    refine ⟨es, source, solution, hd.deeds, hret.attempts.trans has, hlog, ?_⟩
    intro r' hr'
    obtain rfl : r = r' := Except.ok.inj hr'
    rw [← hret.attempts] at hsuccess
    exact ⟨by rw [hret.used, hret.attempts], hsuccess, rfl, hspent⟩
  · rename_i f b hb
    rw [hb] at h ⊢
    cases f with
    | fault f =>
      obtain ⟨es, hd, hlog⟩ := hphases.2 (by simp)
      obtain rfl : b.attempts = as := Option.some.inj h
      obtain ⟨source, solution, has, hlog⟩ := hlog.attemptLog
      have hlast : (Action.log .error .fixRun
          s!"Fix run aborted after {b.attempts.length} attempt(s): {f.message}" b.world).2.deeds
            = b.world.deeds := by
        simp [Action.log, World.deeds, World.trace, Event.isDeed]
      exact ⟨es, source, solution, hlast.trans hd.deeds, has, hlog, fun r hr => by cases hr⟩
    | _ => cases h

/-- The last process of the solution phase never ends. -/
def unfinishedWorld : World :=
  .running [.quiet, .runs [] (.exits 1) {}, .quiet, .quiet, .runs [] (.exits 1) {},
    .runs [] (.exits 2) {}, .runs [] .hangs {}]

theorem unfinished_attempts_told :
    ∃ as, toldAttempts? ((plain (some (.whole 60))).run unfinishedWorld).1 = some as ∧
      as.length = 2 ∧
      ∃ es source solution,
        ((plain (some (.whole 60))).run unfinishedWorld).2.deeds = unfinishedWorld.deeds ++ es ∧
          as = source ++ solution ∧
          (plain (some (.whole 60))).AttemptLog unfinishedWorld es source solution ∧
          ∀ r, ((plain (some (.whole 60))).run unfinishedWorld).1 = .ok r →
            (plain (some (.whole 60))).Tells r source solution := by
  have hlen : (toldAttempts? ((plain (some (.whole 60))).run unfinishedWorld).1).map List.length
      = some 2 := by decide +kernel
  obtain ⟨as, has, h2⟩ := Option.map_eq_some_iff.mp hlen
  exact ⟨as, has, h2, attempts_told _ _ as has⟩

end Mender

end BuildMend
