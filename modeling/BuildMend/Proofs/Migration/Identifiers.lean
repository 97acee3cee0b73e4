import BuildMend.Proofs.Migration.Edits

/-!
The edits that rename words, as maps on the words of a text.

* `CodeEdit.names`: the words that an edit renames, and what it puts in their place.
* `CodeEdit.renamings_eq_tokenMaps`: what each renaming makes of the words and marks of a text; a renaming
  is done once and for all, and any two can change places.
-/

namespace BuildMend.Migration

open Text

namespace CodeEdit

/-- The edits that rename words. -/
def renamings : List CodeEdit := [.renameAttributes, .renamePipeline, .renameRawData]

/-- The words that an edit renames, with what it puts in their place. -/
def names : CodeEdit → List (String × String)
  | .renameAttributes => attributeNames
  | .renamePipeline => pipelineNames
  | .renameRawData => rawDataNames
  | .addNamespace | .removeUsing => []

lemma apply_renaming : ∀ e ∈ renamings, ∀ text, e.apply text = renameWords e.names text := by
  simp only [renamings, List.forall_mem_cons, List.not_mem_nil, false_implies, implies_true, and_true]
  exact ⟨fun _ => rfl, fun _ => rfl, fun _ => rfl⟩

lemma isRenaming_names (e : CodeEdit) : IsRenaming e.names := by
  cases e <;> decide

/-- No name is among the replacements. -/
lemma replacement_not_isRenamed (e : CodeEdit) :
    ∀ n ∈ e.names, isRenamed e.names n.2.toList = false := by
  cases e <;> decide

/-- Two edits have neither names nor replacements in common. -/
def KeepsApart (e e' : CodeEdit) : Prop :=
  SparesNames e.names e'.names ∧ SparesNames e'.names e.names

instance : DecidableRel KeepsApart := fun _ _ => inferInstanceAs (Decidable (_ ∧ _))

instance : Std.Symm KeepsApart := ⟨fun _ _ h => h.symm⟩

lemma pairwise_keepsApart : renamings.Pairwise KeepsApart := by decide

/-- Any two renamings can change places. -/
lemma renamings_comm (text : List Char) {e e' : CodeEdit} (he : e ∈ renamings)
    (he' : e' ∈ renamings) : e.apply (e'.apply text) = e'.apply (e.apply text) := by
  by_cases heq : e = e'
  · rw [heq]
  · obtain ⟨hs, hs'⟩ := pairwise_keepsApart.forall he he' heq
    simp only [apply_renaming e he, apply_renaming e' he']
    exact renameWords_comm e.isRenaming_names e'.isRenaming_names hs hs' text

end CodeEdit

/-- What becomes of a token under the name it is. -/
lemma renameToken_cons (n : String × String) (names : List (String × String)) (t : List Char) :
    renameToken (n :: names) t = if t = n.1.toList then n.2.toList else renameToken names t := by
  by_cases h : t = n.1.toList
  · simp [renameToken, h]
  · simp [renameToken, h, Ne.symm h]

namespace CodeEdit

/-- Cut into words and marks, a text is renamed part by part: exactly the names change, each into its
replacement.  A renaming is done once and for all, leaves none of its names, and any two of them can
change places. -/
theorem renamings_eq_tokenMaps (text : List Char) :
    (∀ ts, tokens text = ts ↔ IsCut ts ∧ ts.flatten = text) ∧
      (tokens (renameAttributes.apply text) = (tokens text).map fun t =>
        if t = "CodeGenClient".toList ∨ t = "CodeGenModel".toList then "CodeGenType".toList else t) ∧
      (tokens (renamePipeline.apply text) = (tokens text).map fun t =>
        if t = "_pipeline".toList then "Pipeline".toList else t) ∧
      (tokens (renameRawData.apply text) = (tokens text).map fun t =>
        if t = "_serializedAdditionalRawData".toList then "_additionalBinaryDataProperties".toList
        else if t = "serializedAdditionalRawData".toList then "additionalBinaryDataProperties".toList
        else t) ∧
      ∀ e ∈ renamings,
        e.apply (e.apply text) = e.apply text ∧
        (∀ n ∈ e.names, n.1.toList ∉ tokens (e.apply text)) ∧
        ∀ e' ∈ renamings, e.apply (e'.apply text) = e'.apply (e.apply text) := by
  have hmap {e : CodeEdit} (he : e ∈ renamings) :
      tokens (e.apply text) = (tokens text).map (renameToken e.names) := by
    rw [apply_renaming e he, tokens_renameWords e.isRenaming_names]
  refine ⟨fun ts => tokens_eq_iff, ?_, ?_, ?_, fun e he =>
    ⟨?_, fun n hn hmem => ?_, fun e' => renamings_comm text he⟩⟩
  · rw [hmap (by decide)]
    refine List.map_congr_left fun t _ => ?_
    simp only [names, attributeNames, renameToken_cons, ← ite_or]
    rfl
  · rw [hmap (by decide)]
    refine List.map_congr_left fun t _ => ?_
    rw [names, pipelineNames, renameToken_cons]
    rfl
  · rw [hmap (by decide)]
    refine List.map_congr_left fun t _ => ?_
    rw [names, rawDataNames, renameToken_cons, renameToken_cons]
    rfl
  · simp only [apply_renaming e he]
    exact renameWords_twice e.isRenaming_names e.replacement_not_isRenamed text
  · rw [apply_renaming e he] at hmem
    have hnone := isRenamed_of_mem_tokens e.isRenaming_names e.replacement_not_isRenamed hmem
    have hname : isRenamed e.names n.1.toList = true := List.any_eq_true.mpr ⟨n, hn, by simp⟩
    rw [hname] at hnone
    cases hnone

end CodeEdit

end BuildMend.Migration
