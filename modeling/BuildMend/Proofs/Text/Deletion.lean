import BuildMend.Proofs.Text.LineByLine
import BuildMend.Proofs.Text.Trim

/-!
Texts without their blanks, and without a piece.

* `squeeze`: a text without its blanks; `squeeze_lines`: that is what its lines are without theirs.
* `without`: a text without a piece, wherever that stands; `squeeze_without`: a piece that lies in one
  line is taken out line by line.
* `IsUnbordered`: no proper end of a piece is a start of it, so its places do not overlap.
-/

namespace BuildMend.Text

/-! ### Without blanks -/

/-- A text without its blanks. -/
def squeeze (text : List Char) : List Char := text.filter (!isBlank ·)

@[simp] lemma squeeze_nil : squeeze [] = [] := rfl

@[simp] lemma squeeze_append (a b : List Char) : squeeze (a ++ b) = squeeze a ++ squeeze b :=
  List.filter_append a b

@[simp] lemma squeeze_lineFeed (text : List Char) : squeeze ('\n' :: text) = squeeze text :=
  List.filter_cons_of_neg (by decide)

lemma squeeze_blanks {b : List Char} (h : ∀ c ∈ b, isBlank c = true) : squeeze b = [] :=
  List.filter_eq_nil_iff.mpr fun c hc => by simp [h c hc]

lemma squeeze_splitOn (text : List Char) : squeeze text = (text.splitOn '\n').flatMap squeeze := by
  obtain ⟨l, ls, hsplit, rfl, -⟩ := exists_lines text
  rw [hsplit]
  clear hsplit
  induction ls generalizing l with
  | nil => simp
  | cons k ls ih => simpa using ih k

lemma flatMap_squeeze_linesBy (f : List Char → List Char) (text : List Char) :
    (linesBy f text).flatMap squeeze = (text.splitOn '\n').flatMap fun l => squeeze (f l) := by
  rw [linesBy]
  induction text.splitOn '\n' with
  | nil => rfl
  | cons l ls ih =>
    rw [List.map_cons, List.flatMap_cons, ← ih]
    by_cases h : f l = []
    · rw [List.filter_cons_of_neg (by simp [h]), h, squeeze_nil, List.nil_append]
    · rw [List.filter_cons_of_pos (by simp [h]), List.flatMap_cons]

/-- Without its blanks a text is what its lines are without theirs. -/
lemma squeeze_lines (text : List Char) : squeeze text = (linesBy id text).flatMap squeeze :=
  (squeeze_splitOn text).trans (flatMap_squeeze_linesBy id text).symm

/-! ### Without a piece -/

/-- Where a piece stands; it reads nothing. -/
def pieceForm (piece : List Char) : Form (List Char) := fun _ text =>
  (afterLiteral? piece text).map fun _ => ([], piece.length)

/-- A text without a piece, wherever that stands. -/
def without (piece text : List Char) : List Char := replaceAll (pieceForm piece) text

section Without

variable {piece : List Char}

lemma replaceAllFrom_pieceForm (before : Option Char) (text : List Char) :
    replaceAllFrom (pieceForm piece) 0 before text = without piece text := by
  cases text <;> rfl

lemma without_cons {c : Char} {rest : List Char} (h : afterLiteral? piece (c :: rest) = none) :
    without piece (c :: rest) = c :: without piece rest := by
  rw [without, replaceAll, replaceAllFrom_no_match fun _ _ => by simp [pieceForm, h],
    replaceAllFrom_pieceForm]

lemma without_piece_append (hne : piece ≠ []) (b : List Char) :
    without piece (piece ++ b) = without piece b := by
  have hform : pieceForm piece none (piece ++ b) = some ([], piece.length) := by
    rw [pieceForm, afterLiteral?_eq_some_iff.mpr rfl]
    rfl
  rw [without, replaceAll, replaceAllFrom_match hne hform, replaceAllFrom_pieceForm, List.nil_append]

/-- A text in which the piece does not stand stays. -/
lemma without_eq_self {text : List Char} (h : containsText piece text = false) :
    without piece text = text := by
  induction text with
  | nil => rfl
  | cons c rest ih =>
    obtain ⟨hhere, hlater⟩ := Bool.or_eq_false_iff.mp h
    have hnone : afterLiteral? piece (c :: rest) = none := by
      refine Option.eq_none_iff_forall_ne_some.mpr fun r hr => ?_
      rw [afterLiteral?_eq_some_iff] at hr
      rw [hr, List.isPrefixOf_iff_prefix.mpr (List.prefix_append piece r)] at hhere
      cases hhere
    rw [without_cons hnone, ih hlater]

lemma without_append_of_not_mem {c : Char} {g : List Char} (hc : c ∉ g) (m : List Char) :
    without (c :: piece) (g ++ m) = g ++ without (c :: piece) m := by
  induction g with
  | nil => rfl
  | cons d g ih =>
    obtain ⟨hd, hg⟩ : c ≠ d ∧ c ∉ g := by simpa using hc
    rw [List.cons_append, without_cons (by simp [afterLiteral?, hd]), ih hg, List.cons_append]

/-- Whether a piece without a line feed stands at a place is decided within the line. -/
lemma afterLiteral?_line (hp : '\n' ∉ piece) {s : List Char} (hs : EndsLine s) (l : List Char) :
    afterLiteral? piece (l ++ s) = (afterLiteral? piece l).map (· ++ s) := by
  induction piece generalizing l with
  | nil => rfl
  | cons e piece ih =>
    obtain ⟨he, hp⟩ : '\n' ≠ e ∧ '\n' ∉ piece := by simpa using hp
    cases l with
    | nil =>
      cases s with
      | nil => rfl
      | cons c s =>
        obtain rfl := hs c rfl
        simp [afterLiteral?, he.symm]
    | cons c l =>
      rw [List.cons_append, afterLiteral?, afterLiteral?, ih hp]
      split <;> rfl

lemma without_append_lineFeed (hne : piece ≠ []) (hp : '\n' ∉ piece) (l text : List Char) :
    without piece (l ++ '\n' :: text) = without piece l ++ '\n' :: without piece text := by
  induction hn : l.length using Nat.strong_induction_on generalizing l with
  | _ n ih =>
    subst hn
    have hline := afterLiteral?_line hp (endsLine_lineFeed text) l
    cases l with
    | nil =>
      obtain ⟨e, piece, rfl⟩ := List.exists_cons_of_ne_nil hne
      rw [List.nil_append, without_cons hline]
      rfl
    | cons c l =>
      cases hpiece : afterLiteral? piece (c :: l) with
      | none =>
        rw [hpiece, List.cons_append] at hline
        rw [List.cons_append, without_cons hline, without_cons hpiece, ih l.length (by simp) l rfl,
          List.cons_append]
      | some r =>
        rw [afterLiteral?_eq_some_iff] at hpiece
        have hshort : r.length < (c :: l).length := by
          rw [hpiece, List.length_append]
          have := List.length_pos_iff.mpr hne
          omega
        rw [hpiece, List.append_assoc, without_piece_append hne, without_piece_append hne,
          ih r.length hshort r rfl]

/-- A piece that lies in one line is taken out line by line. -/
theorem squeeze_without (hne : piece ≠ []) (hp : '\n' ∉ piece) (text : List Char) :
    squeeze (without piece text) = (text.splitOn '\n').flatMap fun l => squeeze (without piece l) := by
  obtain ⟨l, ls, hsplit, rfl, -⟩ := exists_lines text
  rw [hsplit]
  clear hsplit
  induction ls generalizing l with
  | nil => simp
  | cons k ls ih =>
    rw [behind_cons, without_append_lineFeed hne hp, squeeze_append, squeeze_lineFeed, ih]
    rfl

end Without

/-! ### Places of a piece -/

/-- Behind characters that do not begin the piece it stands exactly if it stands in the rest. -/
lemma containsText_append_of_not_mem {c : Char} {piece g : List Char} (hc : c ∉ g) (m : List Char) :
    containsText (c :: piece) (g ++ m) = containsText (c :: piece) m := by
  induction g with
  | nil => rfl
  | cons d g ih =>
    obtain ⟨hd, hg⟩ : c ≠ d ∧ c ∉ g := by simpa using hc
    have hhere : (c :: piece).isPrefixOf (d :: (g ++ m)) = false := by simp [List.isPrefixOf, hd]
    rw [List.cons_append, containsText, hhere, Bool.false_or, ih hg]

/-- No proper end of a piece is a start of it. -/
def IsUnbordered (piece : List Char) : Prop :=
  ∀ h ∈ piece.tails, h ≠ [] → h <+: piece → h = piece

instance (piece : List Char) : Decidable (IsUnbordered piece) :=
  inferInstanceAs (Decidable (∀ h ∈ piece.tails, _))

/-- A second place of such a piece is the first one or lies behind it. -/
lemma IsUnbordered.eq_nil_or_behind {piece : List Char} (hp : IsUnbordered piece) {g r b : List Char}
    (h : piece ++ r = g ++ (piece ++ b)) : g = [] ∨ ∃ g', r = g' ++ (piece ++ b) := by
  rcases List.append_eq_append_iff.mp h with ⟨g', rfl, hr⟩ | ⟨e, hpiece, hrest⟩
  · exact Or.inr ⟨g', hr⟩
  · by_cases he : e = []
    · rw [he, List.nil_append] at hrest
      exact Or.inr ⟨[], hrest.symm⟩
    · have hend : e ∈ piece.tails := (List.mem_tails _ _).mpr ⟨g, hpiece.symm⟩
      have hstart : e <+: piece :=
        List.prefix_of_prefix_length_le ⟨r, hrest.symm⟩ (List.prefix_append piece b)
          (by rw [hpiece, List.length_append]; omega)
      have hwhole := congrArg List.length hpiece
      rw [hp e hend he hstart, List.length_append] at hwhole
      exact Or.inl (List.length_eq_zero_iff.mp (by omega))

end BuildMend.Text
