import BuildMend.Proofs.Migration.Import
import BuildMend.Proofs.Migration.Rename

/-!
Edits of custom code do not get in each other's way.

* `hasToken_importCustomizations`, `hasToken_renameWords`: an edit keeps the tokens that it has nothing
  to do with.
* `hasDirective_importCustomizations`, `hasDirective_renameWords`: the edits before the removal of the
  old generator's directive neither make nor break one.
* `CodeEdit.pairwise_spares`: whether an edit changes a text does not depend on the edits before it.
-/

namespace BuildMend.Migration

open Text

/-! ### Tokens that an edit keeps -/

section Tokens

variable {p : List Char → Bool}

/-- The line of the new directive. -/
def importLine (s : List Char) : List Char := customizationsImport.toList ++ s

lemma not_neighbour_lineEnd {a m : List Char} :
    isWordNeighbour (a ++ ';' :: (m ++ ['\n'])).getLast? = false := by
  rw [← List.cons_append, ← List.append_assoc, List.getLast?_concat]
  decide

lemma isWordNeighbour_lineBreak {s : List Char} (hs : IsLineBreak s) (a : List Char) :
    isWordNeighbour (a ++ s).getLast? = false := by
  obtain ⟨m, rfl, -⟩ := hs.exists_eq
  rw [← List.append_assoc, List.getLast?_concat]
  decide

/-- The new directive adds none but its own tokens. -/
theorem hasToken_importCustomizations
    (hp : ∀ s, IsLineBreak s → ¬HasToken p (importLine s)) (text : List Char) :
    HasToken p (importCustomizations text) ↔ HasToken p text := by
  rcases importCustomizations_cases text with h | h
  · rw [h]
  · generalize importCustomizations text = result at h
    obtain @⟨a, m, s, -, hs, b⟩ := h
    have hline := hp s hs
    rw [importLine] at hline
    rw [hasToken_append (isApart_of_left not_neighbour_lineEnd),
      hasToken_append (isApart_of_left not_neighbour_lineEnd),
      hasToken_append (isApart_of_left (isWordNeighbour_lineBreak hs _))]
    simp only [hline, false_or]

/-- A renaming keeps the tokens that are none of its names and none of its replacements. -/
theorem hasToken_renameWords {names : List (String × String)} (hn : IsRenaming names)
    (hp : ∀ n ∈ names, p n.1.toList = false ∧ p n.2.toList = false) (text : List Char) :
    HasToken p (renameWords names text) ↔ HasToken p text := by
  have hsame (t : List Char) : p (renameToken names t) = p t := by
    rcases renameToken_eq_or names t with ⟨-, h⟩ | ⟨n, hmem, rfl, h⟩
    · rw [h]
    · rw [h, (hp n hmem).1, (hp n hmem).2]
  simp only [HasToken, tokens_renameWords hn, List.mem_map, exists_exists_and_eq_and, hsame]

end Tokens

/-! ### The directive that an edit keeps -/

/-- The new directive is not the old one, and is put where that cannot begin. -/
theorem hasDirective_importCustomizations (text : List Char) :
    HasDirective (importCustomizations text) ↔ HasDirective text := by
  rcases importCustomizations_cases text with h | h
  · rw [h]
  · generalize importCustomizations text = result at h
    obtain @⟨a, m, s, hm, hs, b⟩ := h
    have hnone : ¬HasDirective (customizationsImport.toList ++ s) := by
      rw [← removeAutorestUsing_ne_iff]
      rcases hs with rfl | rfl <;> decide
    obtain ⟨m', rfl, hm'⟩ := hs.exists_eq
    have himport : customizationsImport.toList =
        "using Microsoft.TypeSpec.Generator.Customizations".toList ++ [';'] := by decide
    have hline : customizationsImport.toList ++ (m' ++ ['\n']) =
        "using Microsoft.TypeSpec.Generator.Customizations".toList ++ ';' :: (m' ++ ['\n']) := by
      rw [himport, List.append_assoc, List.singleton_append]
    rw [hline] at hnone ⊢
    rw [hasDirective_append hm, hasDirective_append hm, hasDirective_append hm']
    simp only [hnone, false_or]

section Renaming

variable {names : List (String × String)}

/-- Whether a token is one of the replacements. -/
def isReplacement (names : List (String × String)) (t : List Char) : Bool :=
  names.any fun n => n.2.toList == t

/-- The directive's words are none of the names and none of the replacements. -/
def SparesDirective (names : List (String × String)) : Prop :=
  ∀ w ∈ directiveWords, isRenamed names w.toList = false ∧ isReplacement names w.toList = false

instance : Decidable (SparesDirective names) := inferInstanceAs (Decidable (∀ w ∈ directiveWords, _))

/-- Some words that the directive does not hold. -/
lemma isForeign_any {part : String × String → String} (hn : ∀ n ∈ names, IsWord (part n).toList)
    (hs : ∀ w ∈ directiveWords, (names.any fun n => (part n).toList == w.toList) = false) :
    IsForeign fun t => names.any fun n => (part n).toList == t where
  mark c hc := by
    by_contra h
    rw [Bool.not_eq_false, List.any_eq_true] at h
    obtain ⟨n, hmem, heq⟩ := h
    have hword := (hn n hmem).2 c (by simp [eq_of_beq heq])
    rw [hc] at hword
    cases hword
  word := hs

variable (hn : IsRenaming names)

include hn

lemma isForeign_isRenamed (hs : SparesDirective names) : IsForeign (isRenamed names) :=
  isForeign_any (fun n hmem => (hn n hmem).1) fun w hw => (hs w hw).1

lemma isForeign_isReplacement (hs : SparesDirective names) : IsForeign (isReplacement names) :=
  isForeign_any (fun n hmem => (hn n hmem).2.1) fun w hw => (hs w hw).2

/-- A token becomes a mark only if it is that mark. -/
lemma eq_of_renameToken_eq_mark {c : Char} (hc : isWordChar c = false) {t : List Char}
    (h : renameToken names t = [c]) : t = [c] := by
  rcases renameToken_eq_or names t with ⟨-, h'⟩ | ⟨n, hmem, -, h'⟩
  · rw [← h', h]
  · have hword := (hn n hmem).2.1.2 c (by rw [← h', h]; simp)
    rw [hc] at hword
    cases hword

/-- A renaming that spares the directive neither makes nor breaks one. -/
theorem hasDirective_renameWords (hs : SparesDirective names) (text : List Char) :
    HasDirective (renameWords names text) ↔ HasDirective text := by
  have hmark := renameToken_mark hn (c := '\n') (by decide)
  simp only [hasDirective_iff_tokens, tokens_renameWords hn]
  constructor
  · rintro ⟨ts', d, us', htokens, hts, hd⟩
    obtain ⟨ts, rest, hsplit, rfl, hrest⟩ := List.map_eq_append_iff.mp htokens
    obtain ⟨ds, us, rfl, hds, rfl⟩ := List.map_eq_append_iff.mp hrest
    -- a token of the directive is no replacement
    have hsame : ∀ t ∈ ds, renameToken names t = t := by
      intro t ht
      rcases renameToken_eq_or names t with ⟨-, h⟩ | ⟨n, hmem, -, h⟩
      · exact h
      · have hnone := hd.not_hasToken (isForeign_isReplacement hn hs)
        refine absurd ⟨renameToken names t, ?_, ?_⟩ hnone
        · rw [← hds]
          exact List.mem_map_of_mem ht
        · rw [h, isReplacement, List.any_eq_true]
          exact ⟨n, hmem, by simp⟩
    refine ⟨ts, d, us, ?_, ?_, hd⟩
    · rw [hsplit, ← hds, List.map_congr_left hsame, List.map_id']
    · intro t ht
      refine eq_of_renameToken_eq_mark hn (by decide) (hts (renameToken names t) ?_)
      rw [List.getLast?_map, ht]
      rfl
  · rintro ⟨ts, d, us, htokens, hts, hd⟩
    have hsame : ∀ t ∈ tokens d, renameToken names t = t := by
      intro t ht
      refine renameToken_of_not_isRenamed ?_
      by_contra h
      rw [Bool.not_eq_false] at h
      exact hd.not_hasToken (isForeign_isRenamed hn hs) ⟨t, ht, h⟩
    refine ⟨ts.map (renameToken names), d, us.map (renameToken names), ?_, ?_, hd⟩
    · rw [htokens, List.map_append, List.map_append, List.map_congr_left hsame, List.map_id']
    · intro t ht
      rw [List.getLast?_map, Option.mem_def, Option.map_eq_some_iff] at ht
      obtain ⟨u, hu, rfl⟩ := ht
      rw [hts u hu, hmark]

end Renaming

/-! ### Edits in a row -/

section Names

variable {names : List (String × String)}

/-- The line of the new directive holds none of some names. -/
def SparesImport (names : List (String × String)) : Prop :=
  ∀ s ∈ [['\r', '\n'], ['\n']], ∀ t ∈ tokens (importLine s), isRenamed names t = false

instance : Decidable (SparesImport names) := inferInstanceAs (Decidable (∀ s ∈ _, _))

/-- A renaming has as much to do before the new directive is put into a text as behind that. -/
lemma renameWords_import_ne_iff (hn : IsRenaming names) (hs : SparesImport names)
    (text : List Char) :
    renameWords names (importCustomizations text) ≠ importCustomizations text ↔
      renameWords names text ≠ text := by
  rw [renameWords_ne_iff hn, renameWords_ne_iff hn]
  refine hasToken_importCustomizations (fun s hbreak => ?_) text
  rintro ⟨t, ht, hren⟩
  have hmem : s ∈ [['\r', '\n'], ['\n']] := by rcases hbreak with rfl | rfl <;> simp
  rw [hs s hmem t ht] at hren
  cases hren

/-- A renaming has as much to do before another one as behind it. -/
lemma renameWords_rename_ne_iff (hn : IsRenaming names) {others : List (String × String)}
    (ho : IsRenaming others) (hs : SparesNames names others) (text : List Char) :
    renameWords names (renameWords others text) ≠ renameWords others text ↔
      renameWords names text ≠ text := by
  rw [renameWords_ne_iff hn, renameWords_ne_iff hn]
  exact hasToken_renameWords ho hs text

end Names

lemma isRenaming_attributeNames : IsRenaming attributeNames := by decide

lemma isRenaming_pipelineNames : IsRenaming pipelineNames := by decide

lemma isRenaming_rawDataNames : IsRenaming rawDataNames := by decide

namespace CodeEdit

/-- Whether an edit changes a text. -/
def Changes (e : CodeEdit) (text : List Char) : Prop := e.apply text ≠ text

/-- Whether the second edit changes a text does not depend on the first one. -/
def Spares (e e' : CodeEdit) : Prop := ∀ text, e'.Changes (e.apply text) ↔ e'.Changes text

/-- The edits in their order. -/
def inOrder : List CodeEdit :=
  [.addNamespace, .renameAttributes, .renamePipeline, .removeUsing, .renameRawData]

/-- The new directive leaves to every later edit what that has to do. -/
lemma addNamespace_spares :
    ∀ e ∈ [renameAttributes, renamePipeline, removeUsing, renameRawData], addNamespace.Spares e := by
  simp only [List.forall_mem_cons, List.not_mem_nil, false_implies, implies_true, and_true]
  refine ⟨renameWords_import_ne_iff isRenaming_attributeNames (by decide),
    renameWords_import_ne_iff isRenaming_pipelineNames (by decide), fun text => ?_,
    renameWords_import_ne_iff isRenaming_rawDataNames (by decide)⟩
  exact ((removeAutorestUsing_ne_iff _).trans (hasDirective_importCustomizations text)).trans
    (removeAutorestUsing_ne_iff text).symm

/-- A renaming leaves to the removal of the old directive what that has to do. -/
lemma removeUsing_rename_ne_iff {names : List (String × String)} (hn : IsRenaming names)
    (hs : SparesDirective names) (text : List Char) :
    removeUsing.Changes (renameWords names text) ↔ removeUsing.Changes text :=
  ((removeAutorestUsing_ne_iff _).trans (hasDirective_renameWords hn hs text)).trans
    (removeAutorestUsing_ne_iff text).symm

/-- The removal of the old directive leaves to the last renaming what that has to do. -/
lemma removeUsing_spares_renameRawData : removeUsing.Spares renameRawData := fun text =>
  ((renameWords_ne_iff isRenaming_rawDataNames _).trans
    (hasToken_removeAutorestUsing (isForeign_isRenamed isRenaming_rawDataNames (by decide)) text)).trans
    (renameWords_ne_iff isRenaming_rawDataNames text).symm

/-- Whether an edit changes a text does not depend on the edits before it. -/
theorem pairwise_spares : inOrder.Pairwise Spares := by
  refine .cons addNamespace_spares (.cons ?_ (.cons ?_ (.cons ?_ (List.pairwise_singleton _ _)))) <;>
    simp only [List.forall_mem_cons, List.not_mem_nil, false_implies, implies_true, and_true]
  · exact ⟨renameWords_rename_ne_iff isRenaming_pipelineNames isRenaming_attributeNames (by decide),
      removeUsing_rename_ne_iff isRenaming_attributeNames (by decide),
      renameWords_rename_ne_iff isRenaming_rawDataNames isRenaming_attributeNames (by decide)⟩
  · exact ⟨removeUsing_rename_ne_iff isRenaming_pipelineNames (by decide),
      renameWords_rename_ne_iff isRenaming_rawDataNames isRenaming_pipelineNames (by decide)⟩
  · exact removeUsing_spares_renameRawData

end CodeEdit

end BuildMend.Migration
