import BuildMend.Text.CodePoint

/-!
Scanning a text for the places where a form stands.

* `Form`: a form says whether it stands at a place, what it reads there and how many characters it
  takes; it sees the character before the place and the text from the place on.
* `Form.occurrences`: the places where a form stands, from left to right and without overlap.
* `Form.first?`: the first of them.
* `replaceAll`, `replaceFirst`: the text with every occurrence, or the first one, replaced by what the
  form reads there; `spliceFirst`: the text with the first one replaced by another text.
* `afterLiteral?`, `containsText`: whether a text begins with another, or contains it.

A place is looked at only when the occurrence before it has ended, so each occurrence starts at the
first place not yet taken where the form stands.  An occurrence that takes no character is none.
-/

namespace BuildMend.Text

/-- A form reads a value at a place and says how many characters it takes; it sees the character
before the place, if there is one, and the text from the place on. -/
abbrev Form (α : Type) := (before : Option Char) → (text : List Char) → Option (α × Nat)

/-- A place where a form stands. -/
structure Occurrence (α : Type) where
  /-- The number of characters before it. -/
  start : Nat
  /-- The number of characters it takes. -/
  length : Nat
  /-- What the form reads there. -/
  value : α

/-- The number of characters up to and including the occurrence. -/
def Occurrence.stop {α : Type} (o : Occurrence α) : Nat := o.start + o.length

/-- A place is the start of a line when it is the start of the text or follows a line feed. -/
def atLineStart (before : Option Char) : Bool := before.all (· == '\n')

namespace Form

variable {α : Type}

/-- The form with another reading of what it finds. -/
def map {β : Type} (f : α → β) (form : Form α) : Form β := fun before text =>
  (form before text).map fun (value, length) => (f value, length)

/-- The occurrences in a text whose first `skip` characters are taken and before which `start`
characters stand. -/
def occurrencesFrom (form : Form α) :
    (start skip : Nat) → (before : Option Char) → List Char → List (Occurrence α)
  | _, _, _, [] => []
  | start, skip + 1, _, c :: rest => occurrencesFrom form (start + 1) skip (some c) rest
  | start, 0, before, c :: rest =>
    match form before (c :: rest) with
    | some (value, length + 1) =>
      ⟨start, length + 1, value⟩ :: occurrencesFrom form (start + 1) length (some c) rest
    | _ => occurrencesFrom form (start + 1) 0 (some c) rest

/-- The occurrences of a form in a text, from left to right. -/
def occurrences (form : Form α) (text : List Char) : List (Occurrence α) :=
  form.occurrencesFrom 0 0 none text

/-- The first occurrence in a text before which `start` characters stand. -/
def firstFrom? (form : Form α) :
    (start : Nat) → (before : Option Char) → List Char → Option (Occurrence α)
  | _, _, [] => none
  | start, before, c :: rest =>
    match form before (c :: rest) with
    | some (value, length + 1) => some ⟨start, length + 1, value⟩
    | _ => firstFrom? form (start + 1) (some c) rest

/-- The first occurrence of a form in a text. -/
def first? (form : Form α) (text : List Char) : Option (Occurrence α) :=
  form.firstFrom? 0 none text

end Form

/-- The text with every occurrence replaced by what the form reads there, when its first `skip`
characters are taken. -/
def replaceAllFrom (form : Form (List Char)) :
    (skip : Nat) → (before : Option Char) → List Char → List Char
  | _, _, [] => []
  | skip + 1, _, c :: rest => replaceAllFrom form skip (some c) rest
  | 0, before, c :: rest =>
    match form before (c :: rest) with
    | some (replacement, length + 1) => replacement ++ replaceAllFrom form length (some c) rest
    | _ => c :: replaceAllFrom form 0 (some c) rest

/-- The text with every occurrence replaced by what the form reads there. -/
def replaceAll (form : Form (List Char)) (text : List Char) : List Char :=
  replaceAllFrom form 0 none text

/-- A text in which a form stands nowhere is not changed. -/
theorem replaceAllFrom_of_firstFrom? {form : Form (List Char)} {text : List Char} :
    ∀ {start : Nat} {before : Option Char}, form.firstFrom? start before text = none →
      replaceAllFrom form 0 before text = text := by
  induction text with
  | nil => intro _ _ _; rfl
  | cons c rest ih =>
    intro start before h
    unfold Form.firstFrom? at h
    unfold replaceAllFrom
    split at h
    · cases h
    · rename_i hne
      split
      · rename_i r n heq
        exact absurd heq (hne r n)
      · rw [ih h]

/-- The text with its first occurrence, if there is one, replaced by what the form reads there. -/
def replaceFirst (form : Form (List Char)) (text : List Char) : List Char :=
  match form.first? text with
  | none => text
  | some o => text.take o.start ++ o.value ++ text.drop o.stop

/-- The text with the first occurrence of a form, if there is one, replaced by another text.  The
units of the two texts need only look like characters. -/
def spliceFirst {α β : Type} [CharLike α] (form : Form β) (new text : List α) : List α :=
  match form.first? (text.map CharLike.look) with
  | none => text
  | some o => text.take o.start ++ new ++ text.drop o.stop

/-- The text after a fixed beginning, if it has that beginning. -/
def afterLiteral? {α : Type} [BEq α] : (literal text : List α) → Option (List α)
  | [], text => some text
  | _ :: _, [] => none
  | l :: literal, c :: text => if l == c then afterLiteral? literal text else none

/-- The text after a fixed beginning is what has to be added to it. -/
theorem afterLiteral?_eq_some_iff {α : Type} [BEq α] [LawfulBEq α] {literal text rest : List α} :
    afterLiteral? literal text = some rest ↔ text = literal ++ rest := by
  induction literal generalizing text with
  | nil => simp [afterLiteral?, eq_comm]
  | cons l literal ih =>
    cases text with
    | nil => simp [afterLiteral?]
    | cons c text =>
      by_cases h : l = c
      · simp [afterLiteral?, h, ih]
      · simp [afterLiteral?, h, Ne.symm h]

/-- Whether a text contains another. -/
def containsText (needle : List Char) : List Char → Bool
  | [] => needle.isEmpty
  | c :: rest => needle.isPrefixOf (c :: rest) || containsText needle rest

/-- A text contains another exactly when it is that text with something before and after it. -/
theorem containsText_iff {needle text : List Char} :
    containsText needle text = true ↔ ∃ a b, text = a ++ needle ++ b := by
  induction text with
  | nil => simp [containsText, List.isEmpty_iff]
  | cons c rest ih =>
    simp only [containsText, Bool.or_eq_true, ih, List.isPrefixOf_iff_prefix]
    constructor
    · rintro (⟨b, hb⟩ | ⟨a, b, rfl⟩)
      · exact ⟨[], b, by simp [hb]⟩
      · exact ⟨c :: a, b, by simp⟩
    · rintro ⟨a, b, h⟩
      cases a with
      | nil => exact Or.inl ⟨b, by simpa using h.symm⟩
      | cons d a =>
        obtain ⟨rfl, h⟩ := List.cons.inj h
        exact Or.inr ⟨a, b, by simpa using h⟩

end BuildMend.Text
