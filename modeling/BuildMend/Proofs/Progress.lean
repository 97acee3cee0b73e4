import BuildMend.Progress
import Mathlib

/-!
What the verdicts on attempts have to do with each other.

* `knownAs`, `messages`: what the errors of a list are known by, as a set, and their messages.
* `assess_eq_reduced_iff`, `assess_eq_none_iff`, `assess_eq_changed_iff`: each verdict by the number of errors
  and these sets.
* `Stalls`: the relation between the errors before and behind an attempt that made no progress.
* `assess_coherent`: verdicts do not depend on order, agree between the keys where they can, and no progress
  of each attempt of a row is no progress of the whole row.

Messages are a part of what an error is known by in full, so a key that sees more calls fewer attempts the same.
-/

namespace BuildMend

/-! ### The errors of a list as a set -/

/-- The message in what an error is known by. -/
def ErrorIdentity.messageText : ErrorIdentity → String
  | .message m => m
  | .full _ _ _ _ m => m

/-- What the errors of a list are known by. -/
def knownAs (key : ProgressKey) (errors : List Diagnostic) : Finset ErrorIdentity :=
  (errorIdentities key errors).toFinset

/-- The messages of the errors of a list. -/
def messages (errors : List Diagnostic) : Finset String := (errors.map (·.message)).toFinset

variable {key : ProgressKey} {before after : List Diagnostic}

/-- Every key sees the message of an error. -/
lemma messageText_ofDiagnostic (key : ProgressKey) (d : Diagnostic) :
    (ErrorIdentity.ofDiagnostic key d).messageText = d.message := by
  cases key <;> rfl

lemma image_messageText_knownAs (key : ProgressKey) (errors : List Diagnostic) :
    (knownAs key errors).image ErrorIdentity.messageText = messages errors := by
  ext m
  simp [knownAs, errorIdentities, messages, messageText_ofDiagnostic]

/-- Errors that are known by the same have the same messages. -/
lemma messages_eq_of_knownAs_eq (h : knownAs key after = knownAs key before) :
    messages after = messages before := by
  rw [← image_messageText_knownAs key, h, image_messageText_knownAs]

/-- Under the key of messages nothing but the messages counts. -/
lemma knownAs_message_eq_iff :
    knownAs .message after = knownAs .message before ↔ messages after = messages before := by
  have himage (errors : List Diagnostic) :
      knownAs .message errors = (messages errors).image .message := by
    ext x
    simp [knownAs, errorIdentities, messages, ErrorIdentity.ofDiagnostic]
  refine ⟨messages_eq_of_knownAs_eq, fun h => ?_⟩
  rw [himage, himage, h]

/-- The order of errors does not count. -/
lemma knownAs_perm {errors errors' : List Diagnostic} (h : errors.Perm errors') :
    knownAs key errors = knownAs key errors' :=
  List.toFinset_eq_of_perm _ _ (h.map _)

lemma sameErrors_iff : sameErrors key before after = true ↔ knownAs key after = knownAs key before := by
  rw [sameErrors, Finset.ext_iff]
  simp only [Bool.and_eq_true, List.all_eq_true, List.contains_iff_mem, knownAs, List.mem_toFinset]
  exact ⟨fun ⟨h, h'⟩ x => ⟨h' x, h x⟩, fun h => ⟨fun x => (h x).2, fun x => (h x).1⟩⟩

/-! ### Each verdict -/

lemma assess_eq_reduced_iff : assess key before after = .reduced ↔ after.length < before.length := by
  rw [assess]
  split
  · simp [*]
  · split <;> simp [*]

/-- There is no progress when the errors are as many at least, and known by the same. -/
lemma assess_eq_none_iff :
    assess key before after = .none ↔
      before.length ≤ after.length ∧ knownAs key after = knownAs key before := by
  rw [assess, noProgress, ← sameErrors_iff]
  by_cases h : after.length < before.length
  · simp [h, Nat.not_le.mpr h]
  · simp [h, Nat.not_lt.mp h]

lemma assess_eq_changed_iff :
    assess key before after = .changed ↔
      before.length ≤ after.length ∧ knownAs key after ≠ knownAs key before := by
  rw [assess, noProgress, ne_eq, ← sameErrors_iff]
  by_cases h : after.length < before.length
  · simp [h, Nat.not_le.mpr h]
  · simp [h, Nat.not_lt.mp h]

/-- What is no progress in full is none by messages. -/
lemma assess_message_of_full (h : assess .full before after = .none) :
    assess .message before after = .none := by
  obtain ⟨hlength, hknown⟩ := assess_eq_none_iff.mp h
  exact assess_eq_none_iff.mpr
    ⟨hlength, knownAs_message_eq_iff.mpr (messages_eq_of_knownAs_eq hknown)⟩

/-- What is a change by messages is one in full. -/
lemma assess_full_of_message (h : assess .message before after = .changed) :
    assess .full before after = .changed := by
  obtain ⟨hlength, hknown⟩ := assess_eq_changed_iff.mp h
  refine assess_eq_changed_iff.mpr ⟨hlength, fun hfull => hknown ?_⟩
  exact knownAs_message_eq_iff.mpr (messages_eq_of_knownAs_eq hfull)

/-- An attempt after which some messages are gone, and no new ones there, made progress. -/
lemma assess_ne_none_of_ssubset (h : messages after ⊂ messages before) :
    assess key before after ≠ .none := by
  intro hnone
  exact h.ne (messages_eq_of_knownAs_eq (assess_eq_none_iff.mp hnone).2)

/-! ### Rows of attempts -/

/-- From some errors to others there is no progress. -/
def Stalls (key : ProgressKey) (before after : List Diagnostic) : Prop :=
  assess key before after = .none

/-- Two attempts without progress make none together, as no errors are lost and the set stays. -/
instance (key : ProgressKey) : IsPreorder (List Diagnostic) (Stalls key) where
  refl _ := assess_eq_none_iff.mpr ⟨le_rfl, rfl⟩
  trans _ _ _ h h' := by
    obtain ⟨hlength, hknown⟩ := assess_eq_none_iff.mp h
    obtain ⟨hlength', hknown'⟩ := assess_eq_none_iff.mp h'
    exact assess_eq_none_iff.mpr ⟨hlength.trans hlength', hknown'.trans hknown⟩

/-- A row of attempts without progress makes none as a whole. -/
lemma Stalls.of_isChain {errors : List Diagnostic} {rest : List (List Diagnostic)}
    (h : (errors :: rest).IsChain (Stalls key)) :
    Stalls key errors ((errors :: rest).getLast (List.cons_ne_nil _ _)) := by
  induction rest generalizing errors with
  | nil => exact refl_of (Stalls key) errors
  | cons next rest ih =>
    obtain ⟨hstep, hrest⟩ := List.isChain_cons_cons.mp h
    rw [List.getLast_cons (List.cons_ne_nil _ _)]
    exact trans_of (Stalls key) hstep (ih hrest)

/-- Verdicts are coherent: the order of errors does not count; no progress in full is none by messages, and a
change by messages is one in full; whether there are fewer errors does not depend on the key; where messages
are lost and none are new there is progress; and a row of attempts without progress makes none as a whole. -/
theorem assess_coherent :
    (∀ (key : ProgressKey) (before before' after after' : List Diagnostic), before.Perm before' →
      after.Perm after' → assess key before after = assess key before' after') ∧
    (∀ before after, assess .full before after = .none → assess .message before after = .none) ∧
    (∀ before after, assess .message before after = .changed →
      assess .full before after = .changed) ∧
    (∀ (key key' : ProgressKey) (before after : List Diagnostic),
      assess key before after = .reduced ↔ assess key' before after = .reduced) ∧
    (∀ (key : ProgressKey) (before after : List Diagnostic), messages after ⊂ messages before →
      assess key before after ≠ .none) ∧
    ∀ (key : ProgressKey) (errors : List Diagnostic) (rest : List (List Diagnostic)),
      (errors :: rest).IsChain (fun before after => assess key before after = .none) →
        assess key errors ((errors :: rest).getLast (List.cons_ne_nil _ _)) = .none := by
  refine ⟨fun key before before' after after' hbefore hafter => ?_,
    fun _ _ => assess_message_of_full, fun _ _ => assess_full_of_message,
    fun _ _ _ _ => by rw [assess_eq_reduced_iff, assess_eq_reduced_iff],
    fun _ _ _ => assess_ne_none_of_ssubset, fun _ _ _ => Stalls.of_isChain⟩
  have hsame : noProgress key before after = noProgress key before' after' := by
    rw [noProgress, noProgress, hbefore.length_eq, hafter.length_eq, Bool.eq_iff_iff,
      Bool.and_eq_true, Bool.and_eq_true, sameErrors_iff, sameErrors_iff, knownAs_perm hbefore,
      knownAs_perm hafter]
  rw [assess, assess, hbefore.length_eq, hafter.length_eq, hsame]

end BuildMend
