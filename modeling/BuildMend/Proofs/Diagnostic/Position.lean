import BuildMend.Diagnostic.Reader
import BuildMend.Proofs.Text.Lines
import BuildMend.Proofs.Text.Trim
import Mathlib

/-!
Positions in a text: a line and a column between brackets, and a colon.

* `StartsPosition`, `HasPosition`: a text starts with a position, or has one somewhere.
* `StartsPosition.of_append`: a position does not go on over a character that none can hold.
* `Report.startsPosition_of_tail?`: the tail of a report starts with a position.
* `Report.grow?_eq_none`, `Report.grow?_append`: a file name grows up to the first position that a tail
  starts with, and within its line only.
-/

namespace BuildMend

open Text

/-! ### Positions -/

/-- Some digits. -/
def AreDigits (s : List Char) : Prop := s ≠ [] ∧ ∀ c ∈ s, isAsciiDigit c = true

/-- A text starts with a position. -/
def StartsPosition (s : List Char) : Prop :=
  ∃ line column rest, AreDigits line ∧ AreDigits column ∧
    s = '(' :: (line ++ ',' :: (column ++ ')' :: ':' :: rest))

/-- A text has a position somewhere. -/
def HasPosition (s : List Char) : Prop := ∃ a b, s = a ++ b ∧ StartsPosition b

/-- The characters behind the opening bracket of a position. -/
def isPositionChar (c : Char) : Bool := isAsciiDigit c || c == ',' || c == ')' || c == ':'

lemma StartsPosition.head {c : Char} {s : List Char} (h : StartsPosition (c :: s)) : c = '(' := by
  obtain ⟨_, _, _, _, _, hs⟩ := h
  exact (List.cons.inj hs).1

/-- A position does not go on over a character that none can hold. -/
lemma StartsPosition.of_append {a b : List Char} {c : Char} (ha : a ≠ [])
    (hc : isPositionChar c = false) (h : StartsPosition (a ++ c :: b)) : StartsPosition a := by
  obtain ⟨line, column, rest, hline, hcolumn, hs⟩ := h
  obtain ⟨d, a, rfl⟩ := List.exists_cons_of_ne_nil ha
  rw [List.cons_append] at hs
  obtain ⟨rfl, htail⟩ := List.cons.inj hs
  have hbody : ∀ x ∈ line ++ ',' :: (column ++ [')', ':']), isPositionChar x = true := by
    intro x hx
    simp only [List.mem_append, List.mem_cons, List.not_mem_nil, or_false] at hx
    rcases hx with hx | rfl | hx | rfl | rfl
    · simp [isPositionChar, hline.2 x hx]
    · decide
    · simp [isPositionChar, hcolumn.2 x hx]
    · decide
    · decide
  have hsplit : a ++ c :: b = line ++ ',' :: (column ++ [')', ':']) ++ rest := by
    simp [htail]
  rcases List.append_eq_append_iff.mp hsplit with ⟨t, ht, hrest⟩ | ⟨t, ht, -⟩
  · cases t with
    | nil =>
      refine ⟨line, column, [], hline, hcolumn, ?_⟩
      rw [List.append_nil] at ht
      rw [← ht]
    | cons e t =>
      -- the character would be one of the position's
      obtain ⟨rfl, -⟩ := List.cons.inj hrest
      rw [hbody c (by rw [ht]; simp)] at hc
      cases hc
  · refine ⟨line, column, t, hline, hcolumn, ?_⟩
    rw [ht]
    simp

lemma not_hasPosition_nil : ¬HasPosition [] := by
  rintro ⟨a, b, h, hb⟩
  obtain ⟨rfl, rfl⟩ := List.append_eq_nil_iff.mp h.symm
  obtain ⟨_, _, _, _, _, hs⟩ := hb
  cases hs

lemma hasPosition_cons {c : Char} {s : List Char} :
    HasPosition (c :: s) ↔ StartsPosition (c :: s) ∨ HasPosition s := by
  constructor
  · rintro ⟨a, b, hab, hb⟩
    cases a with
    | nil => exact Or.inl (hab ▸ hb)
    | cons d a => exact Or.inr ⟨a, b, (List.cons.inj hab).2, hb⟩
  · rintro (h | ⟨a, b, rfl, hb⟩)
    · exact ⟨[], c :: s, rfl, h⟩
    · exact ⟨c :: a, b, rfl, hb⟩

/-- A position goes on with whatever follows. -/
lemma StartsPosition.append {a : List Char} (h : StartsPosition a) (b : List Char) :
    StartsPosition (a ++ b) := by
  obtain ⟨line, column, rest, hline, hcolumn, rfl⟩ := h
  exact ⟨line, column, rest ++ b, hline, hcolumn, by simp⟩

lemma HasPosition.append_right {a : List Char} (h : HasPosition a) (b : List Char) :
    HasPosition (a ++ b) := by
  obtain ⟨x, y, rfl, hy⟩ := h
  exact ⟨x, y ++ b, by simp, hy.append b⟩

lemma HasPosition.append_left {b : List Char} (h : HasPosition b) (a : List Char) :
    HasPosition (a ++ b) := by
  obtain ⟨x, y, rfl, hy⟩ := h
  exact ⟨a ++ x, y, by simp, hy⟩

/-- A position stands on one side of a character that none can hold. -/
lemma HasPosition.of_append {a b : List Char} {c : Char} (hc : isPositionChar c = false)
    (hbracket : c ≠ '(') (h : HasPosition (a ++ c :: b)) : HasPosition a ∨ HasPosition b := by
  induction a with
  | nil =>
    rcases hasPosition_cons.mp h with hstart | hlater
    · exact absurd hstart.head hbracket
    · exact Or.inr hlater
  | cons d a ih =>
    rcases hasPosition_cons.mp h with hstart | hlater
    · exact Or.inl (hasPosition_cons.mpr (Or.inl (hstart.of_append (List.cons_ne_nil d a) hc)))
    · exact (ih hlater).imp_left fun ha => ha.append_left [d]

/-- No position starts in a text without an opening bracket. -/
lemma hasPosition_append_iff {a b : List Char} (ha : '(' ∉ a) :
    HasPosition (a ++ b) ↔ HasPosition b := by
  refine ⟨fun h => ?_, fun h => h.append_left a⟩
  induction a with
  | nil => exact h
  | cons c a ih =>
    obtain ⟨hc, ha⟩ : '(' ≠ c ∧ '(' ∉ a := by simpa using ha
    rcases hasPosition_cons.mp h with hstart | hlater
    · exact absurd hstart.head.symm hc
    · exact ih ha hlater

/-- Without an opening bracket there is no position. -/
lemma not_hasPosition_of_not_mem {s : List Char} (h : '(' ∉ s) : ¬HasPosition s := by
  have hnil := hasPosition_append_iff (b := []) h
  rw [List.append_nil] at hnil
  exact fun hs => not_hasPosition_nil (hnil.mp hs)

namespace Report

/-! ### The tail of a report -/

/-- Some characters of a kind in front of a text that goes on otherwise. -/
lemma run?_append {p : Char → Bool} {a b : List Char} (hne : a ≠ []) (ha : ∀ c ∈ a, p c = true)
    (hb : ∀ c ∈ b.head?, p c = false) : run? p (a ++ b) = some (a, b) := by
  rw [run?, takeWhile_append ha hb, List.dropWhile_append_of_pos ha, dropWhile_eq_self hb]
  cases a with
  | nil => exact absurd rfl hne
  | cons c a => rfl

lemma run?_eq_some {p : Char → Bool} {s found rest : List Char} (h : run? p s = some (found, rest)) :
    s = found ++ rest ∧ found ≠ [] ∧ ∀ c ∈ found, p c = true := by
  have hsplit := (List.takeWhile_append_dropWhile (p := p) (l := s)).symm
  have hall : ∀ c ∈ s.takeWhile p, p c = true := List.all_eq_true.mp List.all_takeWhile
  rw [run?] at h
  split at h
  · cases h
  · rename_i hne
    obtain ⟨rfl, rfl⟩ := Prod.mk.inj (Option.some.inj h)
    exact ⟨hsplit, hne, hall⟩

/-- The tail of a report starts with a position. -/
lemma startsPosition_of_tail? {s : List Char} {r : Report × Nat} (h : tail? s = some r) :
    StartsPosition s := by
  simp only [tail?, Option.bind_eq_bind, Option.bind_eq_some_iff] at h
  obtain ⟨s₁, h₁, ⟨line, s₂⟩, h₂, s₃, h₃, ⟨column, s₄⟩, h₄, s₅, h₅, -⟩ := h
  rw [afterLiteral?_eq_some_iff] at h₁ h₃ h₅
  obtain ⟨rfl, hline⟩ := run?_eq_some h₂
  dsimp only at h₃
  subst h₃
  obtain ⟨rfl, hcolumn⟩ := run?_eq_some h₄
  dsimp only at h₅
  subst h₅
  exact ⟨line, column, s₅, hline, hcolumn, h₁⟩

/-- The text behind a position. -/
def afterPosition? (s : List Char) : Option (List Char) := do
  let rest ← afterLiteral? ['('] s
  let (_, rest) ← run? isAsciiDigit rest
  let rest ← afterLiteral? [','] rest
  let (_, rest) ← run? isAsciiDigit rest
  afterLiteral? [')', ':'] rest

lemma isSome_afterPosition?_iff {s : List Char} : (afterPosition? s).isSome ↔ StartsPosition s := by
  constructor
  · intro h
    obtain ⟨rest, h⟩ := Option.isSome_iff_exists.mp h
    simp only [afterPosition?, Option.bind_eq_bind, Option.bind_eq_some_iff,
      afterLiteral?_eq_some_iff] at h
    obtain ⟨s₁, rfl, ⟨line, s₂⟩, h₂, s₃, rfl, ⟨column, s₄⟩, h₄, rfl⟩ := h
    obtain ⟨rfl, hline⟩ := run?_eq_some h₂
    obtain ⟨rfl, hcolumn⟩ := run?_eq_some h₄
    exact ⟨line, column, rest, hline, hcolumn, rfl⟩
  · rintro ⟨line, column, rest, hline, hcolumn, rfl⟩
    have hl : run? isAsciiDigit (line ++ ',' :: (column ++ ')' :: ':' :: rest)) =
        some (line, ',' :: (column ++ ')' :: ':' :: rest)) :=
      run?_append hline.1 hline.2 (by simp; decide)
    have hc : run? isAsciiDigit (column ++ ')' :: ':' :: rest) = some (column, ')' :: ':' :: rest) :=
      run?_append hcolumn.1 hcolumn.2 (by simp; decide)
    simp [afterPosition?, afterLiteral?, hl, hc]

instance (s : List Char) : Decidable (StartsPosition s) :=
  decidable_of_iff _ isSome_afterPosition?_iff

lemma exists_mem_tails_iff {s : List Char} : (∃ t ∈ s.tails, StartsPosition t) ↔ HasPosition s := by
  constructor
  · rintro ⟨t, ht, hstart⟩
    obtain ⟨a, rfl⟩ := (List.mem_tails _ _).mp ht
    exact ⟨a, t, rfl, hstart⟩
  · rintro ⟨a, b, rfl, hb⟩
    exact ⟨b, (List.mem_tails _ _).mpr ⟨a, rfl⟩, hb⟩

instance (s : List Char) : Decidable (HasPosition s) := decidable_of_iff _ exists_mem_tails_iff

lemma tail?_eq_none {s : List Char} (h : ¬StartsPosition s) : tail? s = none :=
  Option.eq_none_iff_forall_not_mem.mpr fun _ hr => h (startsPosition_of_tail? hr)

/-! ### The file name of a report -/

/-- In a line without a position no file name comes to its end. -/
lemma grow?_eq_none {line rest : List Char} (hno : ¬HasPosition line) (hline : '\n' ∉ line)
    (hrest : EndsLine rest) (name : List Char) : grow? name (line ++ rest) = none := by
  induction line generalizing name with
  | nil =>
    cases rest with
    | nil => rfl
    | cons c rest =>
      obtain rfl : c = '\n' := hrest c rfl
      have htail : tail? ('\n' :: rest) = none := by
        refine tail?_eq_none fun h => ?_
        exact absurd h.head (by decide)
      simp [grow?, htail]
  | cons c line ih =>
    obtain ⟨hstart, hlater⟩ := not_or.mp fun h => hno (hasPosition_cons.mpr h)
    obtain ⟨hc, hl⟩ : '\n' ≠ c ∧ '\n' ∉ line := by simpa using hline
    have htail : tail? (c :: line ++ rest) = none := by
      refine tail?_eq_none fun h => hstart ?_
      cases rest with
      | nil => simpa using h
      | cons d rest =>
        obtain rfl : d = '\n' := hrest d rfl
        exact h.of_append (List.cons_ne_nil c line) (by decide)
    rw [List.cons_append] at htail ⊢
    simp [grow?, htail, hc.symm, ih hlater hl]

/-- A file name without a position grows until the tail of the report follows. -/
lemma grow?_append {file tail : List Char} {report : Report} {length : Nat}
    (hno : ¬HasPosition file) (hfile : '\n' ∉ file) (htail : tail? tail = some (report, length))
    (name : List Char) :
    grow? name (file ++ tail) =
      some ({ report with file := name.reverse ++ file }, file.length + length) := by
  -- the bracket of the tail belongs to no position of the file name
  obtain ⟨b, htext⟩ : ∃ b, tail = '(' :: b := by
    obtain ⟨_, _, _, _, _, h⟩ := startsPosition_of_tail? htail
    exact ⟨_, h⟩
  induction file generalizing name with
  | nil =>
    rw [htext] at htail ⊢
    simp [grow?, htail]
  | cons c file ih =>
    obtain ⟨hstart, hlater⟩ := not_or.mp fun h => hno (hasPosition_cons.mpr h)
    obtain ⟨hc, hf⟩ : '\n' ≠ c ∧ '\n' ∉ file := by simpa using hfile
    have hnone : tail? (c :: (file ++ tail)) = none := by
      refine tail?_eq_none fun h => hstart ?_
      rw [htext, ← List.cons_append] at h
      exact h.of_append (List.cons_ne_nil c file) (by decide)
    rw [List.cons_append, grow?, hnone]
    simp [hc.symm, ih hlater hf, Nat.add_right_comm]

end Report

end BuildMend
