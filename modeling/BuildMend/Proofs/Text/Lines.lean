import BuildMend.Proofs.Text.Scan

/-!
Forms that stand at the start of a line.

* `Form.valuesFrom`: what a form reads in a text, from left to right.
* `Form.OfLines`: a form stands only where a line starts, and not at an empty line.
* `Form.Yields`: what a form reads in some lines, wherever those stand in a text.
* `Form.OfLines.yields_line`: it reads in a line what stands at its start.
* `Form.OfLines.yields_intercalate`, `Form.OfLines.yields_flatMap`: in texts with line feeds between
  them, or behind them, a form reads what it reads in each of them.
-/

namespace BuildMend.Text

/-- A text is over, or a line ends at its start. -/
def EndsLine (rest : List Char) : Prop := ∀ c ∈ rest.head?, c = '\n'

lemma endsLine_nil : EndsLine [] := by simp [EndsLine]

lemma endsLine_lineFeed (rest : List Char) : EndsLine ('\n' :: rest) := by simp [EndsLine]

namespace Form

variable {α β : Type} {form : Form α} {before : Option Char}

/-! ### What a form reads -/

/-- What a form reads in a text that follows some character, from left to right. -/
def valuesFrom (form : Form α) (before : Option Char) (text : List Char) : List α :=
  (form.occurrencesFrom 0 0 before text).map (·.value)

lemma map_value_occurrencesFrom {start start' skip : Nat} {text : List Char} :
    (form.occurrencesFrom start skip before text).map (·.value) =
      (form.occurrencesFrom start' skip before text).map (·.value) := by
  induction text generalizing start start' skip before with
  | nil => cases skip <;> rfl
  | cons c rest ih =>
    cases skip with
    | succ skip => exact ih
    | zero =>
      rw [occurrencesFrom, occurrencesFrom]
      split
      · rw [List.map_cons, List.map_cons, ih]
      · exact ih

@[simp] lemma valuesFrom_nil : form.valuesFrom before [] = [] := rfl

/-- Where a form stands, it reads a value and goes on behind the text it takes. -/
lemma valuesFrom_match {a b : List Char} {value : α} (ha : a ≠ [])
    (h : form before (a ++ b) = some (value, a.length)) :
    form.valuesFrom before (a ++ b) = value :: form.valuesFrom (lastOr before a) b := by
  rw [valuesFrom, occurrencesFrom_match ha h, List.map_cons, map_value_occurrencesFrom]
  rfl

/-- Where a form does not stand, it goes on behind the next character. -/
lemma valuesFrom_no_match {c : Char} {rest : List Char} (h : form before (c :: rest) = none) :
    form.valuesFrom before (c :: rest) = form.valuesFrom (some c) rest := by
  rw [valuesFrom, occurrencesFrom, h]
  exact map_value_occurrencesFrom

/-! ### Lines -/

/-- A form stands only where a line starts, and not at an empty line. -/
structure OfLines (form : Form α) : Prop where
  start : ∀ before text, atLineStart before = false → form before text = none
  nonempty : ∀ before rest, EndsLine rest → form before rest = none

/-- What a form reads in some lines, wherever those stand in a text. -/
def Yields (form : Form α) (lines : List Char) (values : List α) : Prop :=
  ∀ before rest, atLineStart before = true → EndsLine rest →
    form.valuesFrom before (lines ++ rest) = values ++ form.valuesFrom (lastOr before lines) rest

lemma Yields.valuesFrom {lines : List Char} {values : List α} (h : form.Yields lines values)
    (hb : atLineStart before = true) : form.valuesFrom before lines = values := by
  have hall := h before [] hb endsLine_nil
  rwa [List.append_nil, valuesFrom_nil, List.append_nil] at hall

lemma yields_nil : form.Yields [] [] := fun _ _ _ _ => rfl

namespace OfLines

/-- Within a line nothing is read. -/
lemma valuesFrom_inside (h : form.OfLines) (hb : atLineStart before = false)
    {a : List Char} (ha : '\n' ∉ a) (b : List Char) :
    form.valuesFrom before (a ++ b) = form.valuesFrom (lastOr before a) b := by
  induction a generalizing before with
  | nil => rfl
  | cons c a ih =>
    obtain ⟨hc, ha⟩ : '\n' ≠ c ∧ '\n' ∉ a := by simpa using ha
    have hinside : atLineStart (some c) = false := by simpa [atLineStart] using hc.symm
    rw [List.cons_append, valuesFrom_no_match (h.start _ _ hb), ih hinside ha, lastOr_cons]

/-- In a line a form reads what stands at its start and takes the whole line, or nothing. -/
theorem yields_line (h : form.OfLines) {line : List Char} (value : Option α) (hline : '\n' ∉ line)
    (hreads : ∀ before rest, atLineStart before = true → EndsLine rest →
      form before (line ++ rest) = value.map fun v => (v, line.length)) :
    form.Yields line value.toList := by
  intro before rest hb hrest
  have hstart := hreads before rest hb hrest
  cases line with
  | nil =>
    rw [List.nil_append, h.nonempty _ _ hrest] at hstart
    cases value with
    | none => rfl
    | some v => cases hstart
  | cons c line =>
    cases value with
    | some v => exact valuesFrom_match (List.cons_ne_nil c line) hstart
    | none =>
      obtain ⟨hc, hl⟩ : '\n' ≠ c ∧ '\n' ∉ line := by simpa using hline
      have hinside : atLineStart (some c) = false := by simpa [atLineStart] using hc.symm
      rw [List.cons_append] at hstart ⊢
      rw [valuesFrom_no_match hstart, h.valuesFrom_inside hinside hl, lastOr_cons]
      rfl

/-- Behind a line feed a form goes on with what follows. -/
lemma yields_lineFeed (h : form.OfLines) {a b : List Char} {x y : List α} (ha : form.Yields a x)
    (hb : form.Yields b y) : form.Yields (a ++ '\n' :: b) (x ++ y) := by
  intro before rest hbefore hrest
  have hbreak (c : Option Char) :
      form.valuesFrom c ('\n' :: (b ++ rest)) = form.valuesFrom (some '\n') (b ++ rest) :=
    valuesFrom_no_match (h.nonempty c _ (endsLine_lineFeed _))
  have hlast : lastOr before (a ++ '\n' :: b) = lastOr (some '\n') b := by
    rw [lastOr_append, lastOr_cons]
  rw [List.append_assoc, List.cons_append, ha _ _ hbefore (endsLine_lineFeed _), hbreak,
    hb _ _ rfl hrest, hlast, List.append_assoc]

/-- In texts with line feeds between them a form reads what it reads in each of them. -/
theorem yields_intercalate (h : form.OfLines) {text : β → List Char} {values : β → List α}
    {items : List β} (hitems : ∀ i ∈ items, form.Yields (text i) (values i)) :
    form.Yields (['\n'].intercalate (items.map text)) (items.flatMap values) := by
  induction items with
  | nil => exact yields_nil
  | cons i items ih =>
    have hi := hitems i List.mem_cons_self
    have htail : ∀ j ∈ items, form.Yields (text j) (values j) :=
      fun j hj => hitems j (List.mem_cons_of_mem i hj)
    cases items with
    | nil => simpa using hi
    | cons j items =>
      have hboth := h.yields_lineFeed hi (ih htail)
      rwa [List.map_cons, List.map_cons, List.intercalate_cons_cons, List.append_assoc,
        List.singleton_append, ← List.map_cons, List.flatMap_cons]

/-- In texts with a line feed behind each of them a form reads what it reads in each of them. -/
theorem yields_flatMap (h : form.OfLines) {text : β → List Char} {values : β → List α}
    {items : List β} (hitems : ∀ i ∈ items, form.Yields (text i) (values i)) :
    form.Yields (items.flatMap fun i => text i ++ ['\n']) (items.flatMap values) := by
  induction items with
  | nil => exact yields_nil
  | cons i items ih =>
    have hi := hitems i List.mem_cons_self
    have htail := ih fun j hj => hitems j (List.mem_cons_of_mem i hj)
    have hboth := h.yields_lineFeed hi htail
    rwa [List.flatMap_cons, List.flatMap_cons, List.append_assoc, List.singleton_append]

end OfLines

end Form

end BuildMend.Text
