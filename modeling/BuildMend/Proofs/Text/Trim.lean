import BuildMend.Text.Blank
import BuildMend.Text.Scan
import Mathlib

/-!
Texts without blanks at their ends.

* `IsTrimmed`: neither end of a text is a blank.
* `head?_dropWhile`, `forall_head?_of_front`: how what is left of a text begins.
* `trim_append`: blanks put around such a text are trimmed away again.
* `trim_between`, `trim_piece_append`: blanks around a text make no difference to what is left of it, and of
  a trimmed piece with a text behind it only the end of that text is trimmed.
* `exists_eq_trim`, `isTrimmed_trim`: a text is what is left of it when it is trimmed, between blanks.
* `trim_eq_nil_iff`: nothing is left exactly of a text of blanks.
* `containsText_trim`: a piece that is trimmed itself stands in a text exactly if it stands in what is left.
-/

namespace BuildMend.Text

/-- Neither end of a text is a blank. -/
def IsTrimmed (s : List Char) : Prop :=
  (∀ c ∈ s.head?, isBlank c = false) ∧ ∀ c ∈ s.getLast?, isBlank c = false

lemma isTrimmed_iff {s : List Char} :
    (s.head?.all (!isBlank ·) && s.getLast?.all (!isBlank ·)) = true ↔ IsTrimmed s := by
  simp [IsTrimmed, Option.all_eq_true]

instance (s : List Char) : Decidable (IsTrimmed s) := decidable_of_iff _ isTrimmed_iff

lemma isTrimmed_of_forall {s : List Char} (hs : ∀ c ∈ s, isBlank c = false) : IsTrimmed s :=
  ⟨fun c hc => hs c (List.mem_of_mem_head? hc), fun c hc => hs c (List.mem_of_mem_getLast? hc)⟩

lemma dropWhile_eq_self {p : Char → Bool} {s : List Char} (h : ∀ c ∈ s.head?, p c = false) :
    s.dropWhile p = s := by
  cases s with
  | nil => rfl
  | cons c s => exact List.dropWhile_cons_of_neg (by simp [h c rfl])

lemma takeWhile_eq_nil {p : Char → Bool} {s : List Char} (h : ∀ c ∈ s.head?, p c = false) :
    s.takeWhile p = [] := by
  cases s with
  | nil => rfl
  | cons c s => exact List.takeWhile_cons_of_neg (by simp [h c rfl])

lemma takeWhile_append {p : Char → Bool} {a b : List Char} (ha : ∀ c ∈ a, p c = true)
    (hb : ∀ c ∈ b.head?, p c = false) : (a ++ b).takeWhile p = a := by
  rw [List.takeWhile_append_of_pos ha, takeWhile_eq_nil hb, List.append_nil]

lemma dropWhile_append {p : Char → Bool} {a b : List Char} (ha : ∀ c ∈ a, p c = true)
    (hb : ∀ c ∈ b.head?, p c = false) : (a ++ b).dropWhile p = b := by
  rw [List.dropWhile_append_of_pos ha, dropWhile_eq_self hb]

/-- What is left when units of a kind are dropped at the front begins with another. -/
lemma head?_dropWhile {p : Char → Bool} {s : List Char} : ∀ c ∈ (s.dropWhile p).head?, p c = false := by
  intro c hc
  have hhead := List.head?_dropWhile_not p s
  rw [hc] at hhead
  exact hhead

/-- A front of a text begins as the text does, if it is not empty. -/
lemma forall_head?_of_front {P : Char → Prop} {a b : List Char} (h : a <+: b)
    (hb : ∀ c ∈ b.head?, P c) : ∀ c ∈ a.head?, P c := by
  obtain ⟨t, rfl⟩ := h
  intro c hc
  cases a with
  | nil => cases hc
  | cons d a => exact hb c hc

/-- What is dropped at the front ends before a piece that does not begin with a unit of the kind. -/
lemma dropWhile_append_piece {p : Char → Bool} {s : List Char} (hs : ∀ c ∈ s.head?, p c = false)
    (a : List Char) : (a ++ s).dropWhile p = a.dropWhile p ++ s := by
  rw [List.dropWhile_append]
  split
  · rename_i h
    rw [List.isEmpty_iff.mp h, dropWhile_eq_self hs, List.nil_append]
  · rfl

/-- What is dropped at the end begins behind a piece that does not end with a unit of the kind. -/
lemma dropWhileEnd_piece_append {p : Char → Bool} {s : List Char} (hs : ∀ c ∈ s.getLast?, p c = false)
    (a : List Char) : dropWhileEnd p (s ++ a) = s ++ dropWhileEnd p a := by
  rw [dropWhileEnd, List.reverse_append, dropWhile_append_piece (by simpa using hs), List.reverse_append,
    List.reverse_reverse, dropWhileEnd]

lemma dropWhileEnd_eq_nil {p : Char → Bool} {s : List Char} (hs : ∀ c ∈ s, p c = true) :
    dropWhileEnd p s = [] := by
  rw [dropWhileEnd, List.dropWhile_eq_nil_iff.mpr (by simpa using hs)]
  rfl

/-- Units of the kind that are put behind a text are dropped again, if its last one is another. -/
lemma dropWhileEnd_append {p : Char → Bool} {s a : List Char} (hs : ∀ c ∈ s.getLast?, p c = false)
    (ha : ∀ c ∈ a, p c = true) : dropWhileEnd p (s ++ a) = s := by
  rw [dropWhileEnd_piece_append hs, dropWhileEnd_eq_nil ha, List.append_nil]

/-- Blanks put around a text are trimmed away again. -/
theorem trim_append {b s a : List Char} (hb : ∀ c ∈ b, isBlank c = true) (hne : s ≠ [])
    (hs : IsTrimmed s) (ha : ∀ c ∈ a, isBlank c = true) : trim (b ++ (s ++ a)) = s := by
  have hstart : trimStart (b ++ (s ++ a)) = s ++ a := by
    rw [trimStart, List.dropWhile_append_of_pos hb]
    exact dropWhile_eq_self (by rw [List.head?_append_of_ne_nil _ hne]; exact hs.1)
  rw [trim, hstart, trimEnd, dropWhileEnd_append hs.2 ha]

/-! ### What is left -/

/-- A text is what is left of it, with units of the kind behind it. -/
lemma exists_eq_dropWhileEnd (p : Char → Bool) (s : List Char) :
    ∃ a, (∀ c ∈ a, p c = true) ∧ s = dropWhileEnd p s ++ a := by
  refine ⟨(s.reverse.takeWhile p).reverse, fun c hc => ?_, ?_⟩
  · exact List.all_eq_true.mp List.all_takeWhile c (List.mem_reverse.mp hc)
  · rw [dropWhileEnd, ← List.reverse_append, List.takeWhile_append_dropWhile, List.reverse_reverse]

lemma dropWhileEnd_front (p : Char → Bool) (s : List Char) : dropWhileEnd p s <+: s := by
  obtain ⟨a, -, hsplit⟩ := exists_eq_dropWhileEnd p s
  exact ⟨a, hsplit.symm⟩

/-- Nothing of the kind is left at the end. -/
lemma getLast_dropWhileEnd {p : Char → Bool} {s : List Char} :
    ∀ c ∈ (dropWhileEnd p s).getLast?, p c = false := by
  intro c hc
  rw [dropWhileEnd, List.getLast?_reverse] at hc
  exact head?_dropWhile c hc

/-- A text is what is left of it when it is trimmed, between blanks. -/
theorem exists_eq_trim (s : List Char) :
    ∃ b a, (∀ c ∈ b, isBlank c = true) ∧ (∀ c ∈ a, isBlank c = true) ∧ s = b ++ (trim s ++ a) := by
  obtain ⟨a, ha, hsplit⟩ := exists_eq_dropWhileEnd isBlank (trimStart s)
  refine ⟨s.takeWhile isBlank, a, List.all_eq_true.mp List.all_takeWhile, ha, ?_⟩
  rw [trim, trimEnd, ← hsplit, trimStart, List.takeWhile_append_dropWhile]

/-- Nothing is left exactly of a text of blanks. -/
lemma trim_eq_nil_iff {s : List Char} : trim s = [] ↔ ∀ c ∈ s, isBlank c = true := by
  constructor
  · intro h
    obtain ⟨b, a, hb, ha, hsplit⟩ := exists_eq_trim s
    rw [h, List.nil_append] at hsplit
    rw [hsplit]
    exact fun c hc => (List.mem_append.mp hc).elim (hb c) (ha c)
  · intro h
    have hstart : trimStart s = [] := by
      rw [trimStart, List.dropWhile_eq_nil_iff]
      exact h
    rw [trim, hstart]
    rfl

/-- Blanks before a text are trimmed away. -/
lemma trim_blanks_append {b : List Char} (hb : ∀ c ∈ b, isBlank c = true) (s : List Char) :
    trim (b ++ s) = trim s := by
  rw [trim, trim, trimStart, trimStart, List.dropWhile_append_of_pos hb]

/-- A piece that is trimmed itself stands in a text exactly if it stands in what is left of it. -/
theorem containsText_trim {piece : List Char} (hne : piece ≠ []) (hp : IsTrimmed piece) (s : List Char) :
    containsText piece (trim s) = true ↔ containsText piece s = true := by
  simp only [containsText_iff]
  constructor
  · rintro ⟨x, y, hxy⟩
    obtain ⟨b, a, -, -, hsplit⟩ := exists_eq_trim s
    exact ⟨b ++ x, y ++ a, by rw [hsplit, hxy]; simp⟩
  · rintro ⟨x, y, rfl⟩
    refine ⟨x.dropWhile isBlank, dropWhileEnd isBlank y, ?_⟩
    rw [trim, trimStart, List.append_assoc,
      dropWhile_append_piece (by rw [List.head?_append_of_ne_nil _ hne]; exact hp.1), trimEnd,
      ← List.append_assoc,
      dropWhileEnd_piece_append (by rw [List.getLast?_append_of_ne_nil _ hne]; exact hp.2)]

/-- A trimmed text is trimmed. -/
theorem isTrimmed_trim (s : List Char) : IsTrimmed (trim s) :=
  ⟨forall_head?_of_front (dropWhileEnd_front isBlank (trimStart s)) head?_dropWhile, getLast_dropWhileEnd⟩

/-- Blanks around a text make no difference to what is left of it. -/
theorem trim_between {b a : List Char} (hb : ∀ c ∈ b, isBlank c = true) (s : List Char)
    (ha : ∀ c ∈ a, isBlank c = true) : trim (b ++ (s ++ a)) = trim s := by
  obtain ⟨x, y, hx, hy, hsplit⟩ := exists_eq_trim s
  rw [trim_blanks_append hb]
  by_cases hnil : trim s = []
  · rw [hnil, trim_eq_nil_iff]
    intro c hc
    exact (List.mem_append.mp hc).elim (trim_eq_nil_iff.mp hnil c) (ha c)
  · have hblanks : ∀ c ∈ y ++ a, isBlank c = true :=
      fun c hc => (List.mem_append.mp hc).elim (hy c) (ha c)
    calc trim (s ++ a)
        = trim (x ++ (trim s ++ (y ++ a))) := by
          conv_lhs => rw [hsplit]
          simp only [List.append_assoc]
      _ = trim s := trim_append hx hnil (isTrimmed_trim s) hblanks

/-- Of a trimmed piece and a text behind it nothing is trimmed but the end of the text. -/
lemma trim_piece_append {s : List Char} (hne : s ≠ []) (hs : IsTrimmed s) (a : List Char) :
    trim (s ++ a) = s ++ trimEnd a := by
  rw [trim, trimStart, dropWhile_eq_self (by rw [List.head?_append_of_ne_nil _ hne]; exact hs.1), trimEnd,
    dropWhileEnd_piece_append hs.2, trimEnd]

lemma trim_eq_self_iff {s : List Char} : trim s = s ↔ IsTrimmed s := by
  constructor
  · intro h
    rw [← h]
    exact isTrimmed_trim s
  · intro h
    by_cases hne : s = []
    · rw [hne]
      rfl
    · have hkept : trim ([] ++ (s ++ [])) = s := trim_append (by simp) hne h (by simp)
      simpa using hkept

lemma length_trim_le (s : List Char) : (trim s).length ≤ s.length := by
  obtain ⟨b, a, -, -, hsplit⟩ := exists_eq_trim s
  have hlength := congrArg List.length hsplit
  simp only [List.length_append] at hlength
  omega

end BuildMend.Text
