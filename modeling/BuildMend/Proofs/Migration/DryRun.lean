import BuildMend.Proofs.Migration.Asking
import BuildMend.Proofs.Migration.Rewriting

/-!
A migration that only reports changes tells the truth.

* `Library.dry`, `Library.real`: a library whose changes are only reported, or made.
* `Step.rewriting`: the steps that rewrite files, in their order.
* `Library.dry_run_faithful`: reporting changes writes nothing and starts nothing, and each of these
  steps ends as it does when they rewrite files.
-/

namespace BuildMend.Migration

open FileTree

/-- The steps that rewrite files, in their order. -/
def Step.rewriting : List Step :=
  [.projectFiles, .code .addNamespace, .code .renameAttributes, .code .renamePipeline,
    .code .removeUsing, .code .renameRawData]

example : Step.all = .emitterPath :: .commit :: Step.rewriting := rfl

namespace Rewrite

/-- The steps that rewrite files, in their order. -/
def inOrder : List Rewrite := .projectFiles :: CodeEdit.inOrder.map .code

lemma map_step_inOrder : inOrder.map step = Step.rewriting := rfl

/-- No name ends both like a project file and like code. -/
lemma nameEndsWith_code_of_project {p : Path} (h : nameEndsWith ".csproj" p = true) :
    nameEndsWith ".cs" p = false := by
  rw [nameEndsWith] at h ⊢
  cases hlast : p.getLast? with
  | none => rfl
  | some n =>
    rw [hlast] at h
    dsimp only at h ⊢
    by_contra hcode
    rw [Bool.not_eq_false, List.isSuffixOf_iff_suffix] at hcode
    rw [List.isSuffixOf_iff_suffix] at h
    obtain ⟨a, ha⟩ := h
    obtain ⟨b, hb⟩ := hcode
    have hend := congrArg List.getLast? (ha.trans hb.symm)
    rw [List.getLast?_append_of_ne_nil _ (by decide),
      List.getLast?_append_of_ne_nil _ (by decide)] at hend
    exact absurd hend (by decide)

/-- Every step leaves to the later ones what they have to do. -/
theorem pairwise_spares : inOrder.Pairwise Spares := by
  refine .cons (fun r hr => ?_) ?_
  · obtain ⟨edit, -, rfl⟩ := List.mem_map.mp hr
    exact Or.inl fun p => nameEndsWith_code_of_project
  · exact List.pairwise_map.mpr (CodeEdit.pairwise_spares.imp Or.inr)

end Rewrite

namespace Library

/-- The library whose changes are only reported. -/
def dry (l : Library) : Library := { l with dryRun := true }

/-- The library whose changes are made. -/
def real (l : Library) : Library := { l with dryRun := false }

/-- Steps that only report changes only ask, whatever fails in them. -/
lemma runSteps_asks {l : Library} (hdry : l.dryRun = true) (steps : List Step) (w : World) :
    w.Asked (l.runSteps steps w).2 := by
  induction steps generalizing w with
  | nil => exact refl_of World.Asked w
  | cons s rest ih => exact trans_of World.Asked (runStep_asks hdry s w) (ih _)

/-- The steps that rewrite files end as each of them would on the files that there were before. -/
lemma runSteps_rewriting (l : Library) (w : World) :
    (l.runSteps Step.rewriting w).1 = Rewrite.inOrder.map (l.outcome w.tree) := by
  rw [← Rewrite.map_step_inOrder]
  exact l.runSteps_eq Rewrite.pairwise_spares ⟨.refl _, fun _ _ _ _ => rfl⟩

/-- Reporting changes leaves every file as it is and does nothing but ask the web service, in any steps
and in a migration as a whole.  The steps that rewrite files end one by one as they do when each of
them gets the files that the ones before it have rewritten: as each would on the files that there
were before all of them. -/
theorem dry_run_faithful (l : Library) (w : World) :
    (∀ steps, w.Asked (l.dry.runSteps steps w).2) ∧
      (∀ assistant streams, w.Asked ((Migration.mk l.dry assistant streams).run w).2) ∧
      (l.dry.runSteps Step.rewriting w).1 = (l.real.runSteps Step.rewriting w).1 ∧
      (l.real.runSteps Step.rewriting w).1 = Rewrite.inOrder.map (l.outcome w.tree) := by
  refine ⟨fun steps => runSteps_asks rfl steps w, fun assistant streams => ?_, ?_, ?_⟩
  · exact Migration.run_asks (m := ⟨l.dry, assistant, streams⟩) rfl w
  · rw [runSteps_rewriting, runSteps_rewriting]
    rfl
  · rw [runSteps_rewriting]
    rfl

end Library

end BuildMend.Migration
