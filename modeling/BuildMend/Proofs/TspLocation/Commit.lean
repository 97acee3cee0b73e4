import BuildMend.Migration.TspLocation
import BuildMend.Proofs.Text.Field

/-!
Setting the commit in a text, and reading it back.

* `commitForm_at`, `withCommit_at`: a commit behind the first key is the one that is read, and the one
  whose place another commit takes.
* `exists_place`: where a commit is put, in a text without a key or with one that has a value.
* `IsSettable`: what is set is read back, setting it again changes nothing, and nothing of it is left
  when another one is set.
* `isSettable_iff`: a commit can be set in every text but those that a key without a value ends.
* `withCommit_bareKey`: in those a new line is put behind the key, and taken for its value.
-/

namespace BuildMend.TspLocation

open Text

variable {a rest s s' text : List Char}

/-- The key of a commit. -/
def commitKey : String := "commit:"

lemma isKey_commit : IsKey wordValue? commitKey := isKey_word ⟨':', by decide, by decide⟩

lemma entry_commit (s : List Char) :
    (entry commitKey s : List Char) = commitKey.toList ++ ([' '] ++ s) := by
  rw [entry, ← List.append_assoc]
  rfl

/-! ### Commits behind the first key -/

lemma wordValue?_space (hs : IsSolid s) (hrest : EndsWord rest) :
    wordValue? ([' '] ++ (s ++ rest)) = some (s, 1 + s.length) :=
  wordValue?_gap (by simp [isBlank]) hs hrest

/-- A commit behind the first key is the one that is found. -/
lemma commitForm_at (ha : Precedes commitKey a) (hs : IsSolid s) (hrest : EndsWord rest) :
    commitForm.first? (a ++ (entry commitKey s ++ rest)) =
      some ⟨a.length, (entry commitKey s : List Char).length, s⟩ := by
  have hfirst := isKey_commit.first?_of_precedes ha (wordValue?_space hs hrest)
  rw [entry_commit, List.append_assoc, List.append_assoc, List.length_append, List.length_append]
  exact hfirst

/-- It is the one that is read. -/
lemma commitValue?_at (ha : Precedes commitKey a) (hs : IsSolid s) (hrest : EndsWord rest) :
    commitValue? (a ++ (entry commitKey s ++ rest)) = some s := by
  rw [commitValue?, commitForm_at ha hs hrest]
  rfl

/-- Another commit takes its place. -/
lemma withCommit_at (ha : Precedes commitKey a) (hs : IsSolid s) (hrest : EndsWord rest) :
    withCommit s' (a ++ (entry commitKey s ++ rest)) = a ++ (entry commitKey s' ++ rest) := by
  have hfirst := commitForm_at ha hs hrest
  rw [withCommit, CharLike.map_look, hfirst]
  exact spliceFirst_of_first? hfirst _

/-! ### The place of a commit -/

/-- A text without a value behind a key gets a line at its end. -/
lemma withCommit_of_none (h : commitForm.first? text = none) (s : List Char) :
    withCommit s text = dropWhileEnd isBlank text ++ ['\n'] ++ (entry commitKey s ++ ['\n']) := by
  rw [withCommit, CharLike.map_look, h]
  simp only [appendEntry, List.append_assoc]
  rfl

lemma first?_eq_none_iff : commitForm.first? text = none ↔ commitValue? text = none := by
  rw [commitValue?, Option.map_eq_none_iff]

/-- A text without a key, or with one that has a value, has a place for a commit: behind what the key
does not begin in, and before a blank or the end. -/
theorem exists_place
    (h : containsText commitKey.toList text = true → (commitValue? text).isSome = true) :
    ∃ a rest, Precedes commitKey a ∧ EndsWord rest ∧
      ∀ s, withCommit s text = a ++ (entry commitKey s ++ rest) := by
  cases hfirst : commitForm.first? text with
  | some o =>
    obtain ⟨a, b, k, rfl, ha, hvalue, hstart, hlen⟩ := isKey_commit.first?_eq_some_iff.mp hfirst
    obtain ⟨gap, rest, rfl, -, -, hrest, rfl⟩ := wordValue?_eq_some_iff.mp hvalue
    rw [← List.append_assoc gap] at hfirst ⊢
    refine ⟨a, rest, ha, hrest, fun s => ?_⟩
    rw [withCommit, CharLike.map_look, hfirst]
    exact spliceFirst_keyed hfirst hstart (by rw [hlen, List.length_append, commitKey]) _
  | none =>
    have hnot : ¬containsText commitKey.toList text = true := fun hc => by
      have hsome := h hc
      rw [first?_eq_none_iff.mp hfirst] at hsome
      cases hsome
    obtain ⟨blanks, -, htext⟩ := exists_eq_dropWhileEnd isBlank text
    refine ⟨dropWhileEnd isBlank text ++ ['\n'], ['\n'],
      precedes_line (by decide) fun hc => hnot ?_, ?_, withCommit_of_none hfirst⟩
    · obtain ⟨x, y, hxy⟩ := containsText_iff.mp hc
      exact containsText_iff.mpr ⟨x, y ++ blanks, by rw [← List.append_assoc, ← hxy, ← htext]⟩
    · rintro c ⟨⟩
      decide

/-! ### The laws of setting -/

/-- A commit can be set in a text: it is read back, setting it again changes nothing, and nothing of it is
left when another one is set. -/
structure IsSettable (text : List Char) : Prop where
  reads : ∀ s, IsSolid s → commitValue? (withCommit s text) = some s
  settles : ∀ s, IsSolid s → withCommit s (withCommit s text) = withCommit s text
  replaces : ∀ s s', IsSolid s → IsSolid s' →
    withCommit s' (withCommit s text) = withCommit s' text

lemma isSettable_of_value
    (h : containsText commitKey.toList text = true → (commitValue? text).isSome = true) :
    IsSettable text := by
  obtain ⟨a, rest, ha, hrest, hset⟩ := exists_place h
  have hreplaces (s s' : List Char) (hs : IsSolid s) :
      withCommit s' (withCommit s text) = withCommit s' text := by
    rw [hset s, hset s', withCommit_at ha hs hrest]
  exact
    { reads := fun s hs => by rw [hset s, commitValue?_at ha hs hrest]
      settles := fun s hs => hreplaces s s hs
      replaces := fun s s' hs _ => hreplaces s s' hs }

/-- Behind a key without a value the line of the commit is taken for its value. -/
lemma commitValue?_withCommit_of_none (hkey : containsText commitKey.toList text = true)
    (hnone : commitValue? text = none) (s : List Char) :
    commitValue? (withCommit s text) = some commitKey.toList := by
  have hfirst := first?_eq_none_iff.mpr hnone
  obtain ⟨a, gap, htext⟩ := containsText_iff.mp hkey
  rw [List.append_assoc] at htext
  have hgap : ∀ c ∈ gap, isBlank c = true :=
    wordValue?_eq_none_iff.mp (isKey_commit.first?_eq_none_iff.mp hfirst a gap htext)
  have ha : Precedes commitKey a := isKey_commit.precedes_of_first? (htext ▸ hfirst)
  have hkept : dropWhileEnd isBlank text = a ++ commitKey.toList := by
    rw [htext, ← List.append_assoc]
    exact dropWhileEnd_append (by simp [commitKey, isBlank]) hgap
  have hset : withCommit s text =
      a ++ (commitKey.toList ++ (['\n'] ++ (commitKey.toList ++ ([' '] ++ s ++ ['\n'])))) := by
    rw [withCommit_of_none hfirst, hkept, entry_commit]
    simp only [List.append_assoc]
  have hread : wordValue? (['\n'] ++ (commitKey.toList ++ ([' '] ++ s ++ ['\n']))) =
      some (commitKey.toList, 1 + commitKey.toList.length) :=
    wordValue?_gap (by simp [isBlank]) (by decide) (by simp [EndsWord, isBlank])
  have hnew := isKey_commit.first?_of_precedes ha hread
  rw [← hset] at hnew
  rw [commitValue?, show commitForm = keyed wordValue? commitKey from rfl, hnew]
  rfl

/-- A commit can be set in a text exactly if there is no key in it or the key has a value.  A key without
one stands at the end, before nothing but blanks. -/
theorem isSettable_iff (text : List Char) :
    IsSettable text ↔
      (containsText commitKey.toList text = true → (commitValue? text).isSome = true) := by
  refine ⟨fun h hkey => ?_, isSettable_of_value⟩
  by_contra hvalue
  have hread := h.reads ['a'] (by decide)
  rw [commitValue?_withCommit_of_none hkey (by simpa using hvalue)] at hread
  exact absurd hread (by decide)

/-- A key without a value is taken for the commit that is set behind it, and setting that again does change
the text. -/
theorem withCommit_bareKey :
    commitValue? (withCommit "abc".toList "commit:".toList) = some "commit:".toList ∧
      withCommit "abc".toList (withCommit "abc".toList "commit:".toList) ≠
        withCommit "abc".toList "commit:".toList := by
  decide

end BuildMend.TspLocation
