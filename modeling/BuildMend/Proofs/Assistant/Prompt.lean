import BuildMend.Assistant.Prompt
import Mathlib

/-!
What stands in the request to mend the errors of a build.

* `Prompt.fixRequest_layout`: a request is its opening, the lines of the first errors, the line about
  the others, and the output.
* `Prompt.Alike`: two builds that make the same request, `Prompt.fixRequest_eq_of_alike`.

The errors and the output stand in a request as they are, whatever they hold.
-/

namespace BuildMend.Prompt

/-! ### The parts of a request -/

/-- How every request opens. -/
def opening : String :=
  "The following build errors occurred. Please analyze and fix them.\n\n" ++
    "REMEMBER: Do NOT edit any file in a 'Generated' folder. " ++
    "Create customization files instead.\n\n## Errors:\n"

/-- The lines of the first ten errors. -/
def shownErrors (errors : List Diagnostic) : String :=
  String.join ((errors.take 10).map fun e => "- " ++ e.text ++ "\n")

/-- The line that counts the errors behind the tenth, if there are any. -/
def countedErrors (errors : List Diagnostic) : String :=
  if 10 < errors.length then
    s!"- ... and {errors.length - 10} more errors (fix the above first)\n"
  else ""

/-- An output of at most 4000 characters, or the first 4000 of a longer one and the mark of a cut. -/
def shownOutput (output : String) : String :=
  if output.length ≤ 4000 then output
  else String.ofList (output.toList.take 4000) ++ "\n... [truncated]"

lemma shortened_eq (output : String) : shortened output = shownOutput output := by
  have hlimit : (output.toList.length : Int) ≤ (outputLimit : Int) ↔ output.length ≤ 4000 := by
    rw [String.length_toList, outputLimit]
    omega
  simp only [shortened, shownOutput, hlimit]
  rfl

/-! ### Lines -/

/-- A text of lines, cut behind some of them. -/
lemma ofLines_append (ls : List String) {rest : List String} (h : rest ≠ []) :
    ofLines (ls ++ rest) = String.join (ls.map (· ++ "\n")) ++ ofLines rest := by
  induction ls with
  | nil => simp
  | cons l ls ih =>
    have hne : ls ++ rest ≠ [] := by simp [h]
    rw [List.cons_append, ofLines, String.intercalate_cons_of_ne_nil hne, ← ofLines, ih,
      List.map_cons, String.join_cons, String.append_assoc, String.append_assoc]
    simp [String.append_assoc]

/-- The line about the errors that a request leaves out, ended like the lines around it. -/
lemma join_remainingLine (errors : List Diagnostic) :
    String.join ((remainingLine (errors.length - errorLimit)).map (· ++ "\n")) =
      countedErrors errors := by
  by_cases h : 10 < errors.length
  · have hmore : errors.length - errorLimit ≠ 0 := by
      rw [errorLimit]
      omega
    rw [remainingLine, if_neg hmore, countedErrors, if_pos h, List.map_singleton,
      String.join_cons, String.join_nil, String.append_empty, String.append_assoc]
    rfl
  · have hall : errors.length - errorLimit = 0 := by
      rw [errorLimit]
      omega
    rw [remainingLine, if_pos hall, countedErrors, if_neg h]
    rfl

/-- The parts of a request, in order. -/
theorem fixRequest_layout (errors : List Diagnostic) (output : String) :
    fixRequest errors output =
      opening ++ shownErrors errors ++ countedErrors errors ++
        "\n## Build Output (truncated):\n```\n" ++ shownOutput output ++ "\n```" := by
  have hlast : ofLines ["", "## Build Output (truncated):", "```", shortened output, "```"] =
      "\n## Build Output (truncated):\n```\n" ++ shownOutput output ++ "\n```" := by
    rw [← shortened_eq]
    simp only [ofLines, String.intercalate_cons_cons, String.intercalate_singleton,
      String.empty_append, ← String.append_assoc, String.reduceAppend]
    rw [String.append_assoc]
    rfl
  have hfirst : String.join (([
      "The following build errors occurred. Please analyze and fix them.",
      "",
      "REMEMBER: Do NOT edit any file in a 'Generated' folder. Create customization files instead.",
      "",
      "## Errors:"]).map (· ++ "\n")) = opening := by
    decide +kernel
  rw [fixRequest, ofLines_append _ (by simp), hlast, List.map_append, List.map_append,
    String.join_append, String.join_append, join_remainingLine, List.map_map, hfirst]
  simp only [shownErrors, String.append_assoc]
  rfl

/-! ### Requests that are the same -/

/-- Two builds agree on their first ten errors and on the number of errors, and their outputs are the
same, or both too long and the same as far as they are shown. -/
structure Alike (errors errors' : List Diagnostic) (output output' : String) : Prop where
  first : errors.take 10 = errors'.take 10
  count : errors.length = errors'.length
  output : output = output' ∨
    4000 < output.length ∧ 4000 < output'.length ∧
      output.toList.take 4000 = output'.toList.take 4000

/-- A request cannot tell between such builds. -/
theorem fixRequest_eq_of_alike {errors errors' : List Diagnostic} {output output' : String}
    (h : Alike errors errors' output output') :
    fixRequest errors output = fixRequest errors' output' := by
  have hshown : shownOutput output = shownOutput output' := by
    rcases h.output with heq | ⟨hlong, hlong', htake⟩
    · rw [heq]
    · rw [shownOutput, shownOutput, if_neg hlong.not_ge, if_neg hlong'.not_ge, htake]
  rw [fixRequest_layout, fixRequest_layout, hshown, shownErrors, shownErrors, h.first,
    countedErrors, countedErrors, h.count]

end BuildMend.Prompt
