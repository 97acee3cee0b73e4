import BuildMend.Proofs.FixRun.AttemptLog

/-!
What decides a run: the exit codes of its builds, and nothing else.

* `firstSuccess`: the number of the first code, from the one numbered one on, that says success.
* `FixPlan.ofCodes`: how a run goes on some codes.
* `FixPlan.Fits`: an outcome and deeds are those of a plan.
* `Mender.run_follows_plan`: a run that nothing stops returns, and goes as the codes of its builds say;
  what the builds report and what the assistant answers does not matter.
-/

namespace BuildMend

open Act World

/-! ### Codes -/

/-- The least number from one to some number whose code says success. -/
def firstSuccess (codes : Nat → Int) (most : Nat) : Option Nat :=
  (List.range' 1 most).find? fun j => codes j == 0

lemma firstSuccess_eq_some_iff {codes : Nat → Int} {most k : Nat} :
    firstSuccess codes most = some k ↔
      (1 ≤ k ∧ k ≤ most) ∧ codes k = 0 ∧ ∀ j, 1 ≤ j → j < k → codes j ≠ 0 := by
  rw [firstSuccess, List.find?_range'_eq_some]
  simp only [beq_iff_eq, List.mem_range'_1, Bool.not_eq_true', beq_eq_false_iff_ne]
  constructor
  · rintro ⟨h0, hk, hno⟩
    exact ⟨by omega, h0, hno⟩
  · rintro ⟨hk, h0, hno⟩
    exact ⟨h0, by omega, hno⟩

lemma firstSuccess_eq_none_iff {codes : Nat → Int} {most : Nat} :
    firstSuccess codes most = none ↔ ∀ j, 1 ≤ j → j ≤ most → codes j ≠ 0 := by
  rw [firstSuccess, List.find?_eq_none]
  simp only [List.mem_range'_1, beq_iff_eq]
  exact ⟨fun h j hj hm => h j ⟨hj, by omega⟩, fun h j hj => h j hj.1 (by omega)⟩

/-- A sequence of codes begins with the codes of some processes. -/
def Begins (s : Nat → Int) (ps : List ProcessScript) : Prop :=
  ∀ i p, ps[i]? = some p → s i = p.exitCode

lemma Begins.tail {s : Nat → Int} {p : ProcessScript} {ps : List ProcessScript}
    (h : Begins s (p :: ps)) : Begins (fun i => s (i + 1)) ps :=
  fun i q hq => h (i + 1) q hq

/-! ### Plans -/

/-- How a run goes: its success, the phases of its attempts, the operations of the build tool, and the
number of its sessions. -/
structure FixPlan where
  success : Bool
  phases : List Phase
  modes : List BuildMode
  sessions : Nat

namespace FixPlan

/-- How a run with a budget for each phase goes when the builds of the sources end with some codes, and
those of the solution with some. -/
def ofCodes (most most' : Nat) (s t : Nat → Int) : FixPlan :=
  let opening : List BuildMode := [.regenerate, .source]
  let rounds (k : Nat) : List BuildMode := (List.replicate k opening).flatten
  if s 0 = 0 then ⟨true, [], opening, 0⟩
  else
    match firstSuccess s most with
    | none => ⟨false, List.replicate most .source, opening ++ rounds most, 1⟩
    | some k =>
      if t 0 = 0 then ⟨true, List.replicate k .source, opening ++ rounds k ++ [.solution], 1⟩
      else
        match firstSuccess t most' with
        | some j =>
          ⟨true, List.replicate k .source ++ List.replicate j .solution,
            opening ++ rounds k ++ List.replicate (j + 1) .solution, 2⟩
        | none =>
          ⟨false, List.replicate k .source ++ List.replicate most' .solution,
            opening ++ rounds k ++ List.replicate (most' + 1) .solution, 2⟩

/-- An outcome and deeds are those of a plan. -/
structure Fits (plan : FixPlan) (r : FixRun) (es : List Event) : Prop where
  success : r.success = plan.success
  used : r.attemptsUsed = plan.phases.length
  numbers : r.attempts.map (·.number) = (List.range' 1 plan.phases.length).map Int.ofNat
  phases : r.attempts.map (·.phase) = plan.phases
  modes : startedModes es = plan.modes
  sessions : es.countP Event.isClient = plan.sessions

end FixPlan

namespace Mender

variable {m : Mender}

/-! ### Courses -/

namespace Course

variable {phase : Phase} {budget number : Nat} {p : ProcessScript} {ps : List ProcessScript}
  {as : List Attempt}

/-- A phase that ends with a success stops at the first one. -/
lemma firstSuccess_eq_some (h : m.Course phase budget number p ps as (some true)) {s : Nat → Int}
    (hs : Begins s (p :: ps)) : firstSuccess s budget = some as.length := by
  rw [firstSuccess_eq_some_iff]
  generalize ho : some true = o at h
  induction h generalizing s with
  | cut => cases ho
  | exhausted => cases ho
  | resolved _ _ hcode =>
    refine ⟨by simp, ?_, fun j hj hlt => by simp at hlt; omega⟩
    rw [← hcode]
    exact hs 1 _ rfl
  | failed _ _ hcode _ ih =>
    obtain ⟨⟨hpos, hle⟩, hzero, hno⟩ := ih hs.tail ho
    simp only [List.length_cons]
    refine ⟨by omega, hzero, fun j hj hlt => ?_⟩
    obtain rfl | ⟨j, rfl, hj'⟩ : j = 1 ∨ ∃ i, j = i + 1 ∧ 1 ≤ i := by
      rcases Nat.lt_or_ge 1 j with h1 | h1
      · exact Or.inr ⟨j - 1, by omega, by omega⟩
      · exact Or.inl (by omega)
    · rw [hs 1 _ rfl]
      exact hcode
    · exact hno j hj' (by omega)

/-- A phase that ends without a success has met none within its budget. -/
lemma firstSuccess_eq_none (h : m.Course phase budget number p ps as (some false)) {s : Nat → Int}
    (hs : Begins s (p :: ps)) : firstSuccess s budget = none := by
  rw [firstSuccess_eq_none_iff]
  generalize ho : some false = o at h
  induction h generalizing s with
  | cut => cases ho
  | exhausted => exact fun j hj hle => by omega
  | resolved => cases ho
  | failed _ _ hcode _ ih =>
    intro j hj hle
    obtain rfl | ⟨j, rfl, hj'⟩ : j = 1 ∨ ∃ i, j = i + 1 ∧ 1 ≤ i := by
      rcases Nat.lt_or_ge 1 j with h1 | h1
      · exact Or.inr ⟨j - 1, by omega, by omega⟩
      · exact Or.inl (by omega)
    · rw [hs 1 _ rfl]
      exact hcode
    · exact ih hs.tail ho j hj' (by omega)

lemma phases_eq {o : Option Bool} (h : m.Course phase budget number p ps as o) :
    as.map (·.phase) = List.replicate as.length phase := by
  rw [List.eq_replicate_iff, List.length_map]
  exact ⟨rfl, by simpa using h.phases⟩

end Course

/-! ### Runs -/

/-- The attempts of a run are numbered on over its phases. -/
lemma Verdict.numbers {ps qs : List ProcessScript} {as : List Attempt} {success : Bool}
    (h : m.Verdict ps qs as success) :
    as.map (·.number) = (List.range' 1 as.length).map Int.ofNat := by
  cases h with
  | built => rfl
  | unmended _ _ h => exact h.numbers
  | verified _ _ h => exact h.numbers
  | mended _ _ h _ _ h' =>
    rw [List.map_append, h.numbers, h'.numbers, List.length_append, ← List.map_append,
      Nat.add_comm _ 1, List.range'_append_1]

lemma Returned.fits_of {w : World} {es : List Event} {as : List Attempt} {r : FixRun}
    {plan : FixPlan} (h : m.Returned w es as r) (hsuccess : r.success = plan.success)
    (hphases : as.map (·.phase) = plan.phases) (hmodes : startedModes es = plan.modes)
    (hsessions : es.countP Event.isClient = plan.sessions) : plan.Fits r es where
  success := hsuccess
  used := by rw [h.used, ← hphases, List.length_map]
  numbers := by rw [h.attempts, h.verdict.numbers, ← hphases, List.length_map]
  phases := by rw [h.attempts, hphases]
  modes := hmodes
  sessions := hsessions

/-- A run that has returned went as the codes of its builds say. -/
lemma Returned.fits {w : World} {es : List Event} {as : List Attempt} {r : FixRun}
    (h : m.Returned w es as r) {s t : Nat → Int} (hs : Begins s (w.scriptsOf .source es))
    (ht : Begins t (w.scriptsOf .solution es)) :
    (FixPlan.ofCodes (m.settings.budget .source) (m.settings.budget .solution) s t).Fits r es := by
  have hverdict := h.verdict
  have hmodes := h.modes
  have hclients := h.clients
  generalize w.scriptsOf .source es = S at *
  generalize w.scriptsOf .solution es = T at *
  generalize hsuccess : r.success = success at *
  cases hverdict with
  | built _ hcode =>
    have h0 : s 0 = 0 := (hs 0 _ rfl).trans hcode
    rw [FixPlan.ofCodes, if_pos h0]
    refine h.fits_of hsuccess rfl hmodes ?_
    simpa [sessionCount, hcode] using hclients
  | unmended _ hcode hcourse =>
    have h0 : s 0 ≠ 0 := (hs 0 _ rfl).symm ▸ hcode
    have hlen := hcourse.exhausted_budget.1
    simp only [FixPlan.ofCodes, if_neg h0, hcourse.firstSuccess_eq_none hs]
    refine h.fits_of hsuccess ?_ ?_ ?_
    · rw [hcourse.phases_eq, hlen]
    · rw [hmodes, List.length_cons, hcourse.length_eq, hlen]
      simp [List.replicate_succ, Phase.round, Phase.regenerates, Phase.buildMode]
    · simpa [sessionCount, hcode] using hclients
  | verified _ hcode hcourse _ hcode' =>
    have h0 : s 0 ≠ 0 := (hs 0 _ rfl).symm ▸ hcode
    have h0' : t 0 = 0 := (ht 0 _ rfl).trans hcode'
    simp only [FixPlan.ofCodes, if_neg h0, hcourse.firstSuccess_eq_some hs, if_pos h0']
    refine h.fits_of hsuccess hcourse.phases_eq ?_ ?_
    · rw [hmodes, List.length_cons, hcourse.length_eq]
      simp [List.replicate_succ, Phase.round, Phase.regenerates, Phase.buildMode]
    · simpa [sessionCount, hcode, hcode'] using hclients
  | @mended _ _ _ _ _ _ success _ hcode hcourse _ hcode' hcourse' =>
    have h0 : s 0 ≠ 0 := (hs 0 _ rfl).symm ▸ hcode
    have h0' : t 0 ≠ 0 := (ht 0 _ rfl).symm ▸ hcode'
    simp only [FixPlan.ofCodes, if_neg h0, hcourse.firstSuccess_eq_some hs, if_neg h0']
    cases success with
    | true =>
      simp only [hcourse'.firstSuccess_eq_some ht]
      refine h.fits_of hsuccess ?_ ?_ ?_
      · rw [List.map_append, hcourse.phases_eq, hcourse'.phases_eq]
      · rw [hmodes, List.length_cons, List.length_cons, hcourse.length_eq, hcourse'.length_eq]
        simp [List.replicate_succ, Phase.round, Phase.regenerates, Phase.buildMode]
      · simpa [sessionCount, hcode, hcode'] using hclients
    | false =>
      have hlen := hcourse'.exhausted_budget.1
      simp only [hcourse'.firstSuccess_eq_none ht]
      refine h.fits_of hsuccess ?_ ?_ ?_
      · rw [List.map_append, hcourse.phases_eq, hcourse'.phases_eq, hlen]
      · rw [hmodes, List.length_cons, List.length_cons, hcourse.length_eq, hcourse'.length_eq, hlen]
        simp [List.replicate_succ, Phase.round, Phase.regenerates, Phase.buildMode]
      · simpa [sessionCount, hcode, hcode'] using hclients

/-- A run that nothing stops returns.  Its success, its attempts, the operations of the build tool and
the number of its sessions are those of the plan for any codes that begin with the exit codes of its
builds of the sources and of the solution: nothing else decides them. -/
theorem run_follows_plan (m : Mender) (w : World) (h : m.Unhindered w) :
    ∃ r v es, m.run w = (.ok r, v) ∧ v.deeds = w.deeds ++ es ∧
      ∀ s t, Begins s (w.scriptsOf .source es) → Begins t (w.scriptsOf .solution es) →
        (FixPlan.ofCodes (m.settings.budget .source) (m.settings.budget .solution) s t).Fits
          r es := by
  obtain ⟨r, b, hb, es, hd, hret⟩ :=
    (phases_history.mono (fun _ _ hx => hx) fun f c hf => hf.1 h).exists_ok
  refine ⟨r, b.world, es, ?_, hd.deeds, fun s t hs ht => hret.fits hs ht⟩
  rw [run, hb]

/-- The sources build after one attempt, and the solution after another. -/
def mendableWorld : World :=
  .running [.quiet, .runs [] (.exits 1) {}, .quiet, .quiet, .runs [] (.exits 1) {}, .quiet]

lemma plain_unhindered : (plain none).Unhindered mendableWorld where
  reaches mode t := by
    refine ⟨fun _ => ?_, by cases mode <;> decide⟩
    have hpath : (plain none).project ++ ["src"] = ["project", "src"] := by decide +kernel
    have hlong : isLongPath (Path.fullText ["project", "src"]) = false := by decide +kernel
    have hname : isLongName "project" = false ∧ isLongName "src" = false := by decide +kernel
    rw [hpath]
    simp [FileTree.isTooLong, hlong, FileTree.meetsLongName, hname]
  ends i := by
    match i with
    | 0 | 1 | 2 | 3 | 4 | 5 => rfl
    | _ + 6 => rfl
  cooperates i := ⟨rfl, fun _ => rfl, rfl⟩

theorem plain_run_follows_plan :
    (plain none).Unhindered mendableWorld ∧
      ∃ r v es, (plain none).run mendableWorld = (.ok r, v) ∧
        v.deeds = mendableWorld.deeds ++ es ∧
        ∀ s t, Begins s (mendableWorld.scriptsOf .source es) →
          Begins t (mendableWorld.scriptsOf .solution es) →
          (FixPlan.ofCodes ((plain none).settings.budget .source)
            ((plain none).settings.budget .solution) s t).Fits r es :=
  ⟨plain_unhindered, run_follows_plan _ _ plain_unhindered⟩

end Mender

end BuildMend
