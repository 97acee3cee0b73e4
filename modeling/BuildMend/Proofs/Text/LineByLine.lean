import BuildMend.Proofs.Text.Lines

/-!
Texts line by line.

* `behind`, `exists_lines`: a text is its first line, with the other lines behind line feeds.
* `exists_splitOn_piece`: a piece without a line feed stands within one line.
* `containsText_iff_exists_line`: such a piece stands in a text exactly if it stands in one of its lines.
* `linesBy`: the lines of a text as some function reads them, without those that it leaves empty.
* `Form.AtLines`: a form stands only where a line starts; `Form.AtLines.replaceAll_lines`: such a form is
  replaced line by line; `Form.AtLines.replaceAllFrom_line`: a line at whose start it does not stand is
  kept.
-/

namespace BuildMend.Text

/-! ### The lines of a text -/

/-- Some lines, each behind a line feed. -/
def behind (ls : List (List Char)) : List Char := ls.flatMap ('\n' :: ·)

@[simp] lemma behind_nil : behind [] = [] := rfl

@[simp] lemma behind_cons (l : List Char) (ls : List (List Char)) :
    behind (l :: ls) = '\n' :: (l ++ behind ls) := rfl

lemma endsLine_behind (ls : List (List Char)) : EndsLine (behind ls) := by
  cases ls with
  | nil => exact endsLine_nil
  | cons l ls => exact endsLine_lineFeed _

/-- A text is its first line with the other lines behind it. -/
theorem exists_lines (text : List Char) :
    ∃ l ls, text.splitOn '\n' = l :: ls ∧ text = l ++ behind ls ∧ ∀ k ∈ l :: ls, '\n' ∉ k := by
  induction hn : text.length using Nat.strong_induction_on generalizing text with
  | _ n ih =>
    subst hn
    by_cases hfeed : '\n' ∈ text
    · obtain ⟨l, rest, rfl, hl⟩ := List.eq_append_cons_of_mem hfeed
      have hshort : rest.length < (l ++ '\n' :: rest).length := by
        rw [List.length_append, List.length_cons]
        omega
      obtain ⟨k, ls, hsplit, hrest, hls⟩ := ih rest.length hshort rest rfl
      refine ⟨l, k :: ls, ?_, ?_, List.forall_mem_cons.mpr ⟨hl, hls⟩⟩
      · rw [List.splitOn_append_cons_self_of_not_mem hl, hsplit]
      · rw [behind_cons, ← hrest]
    · exact ⟨text, [], List.splitOn_eq_singleton hfeed, by simp, by simpa using hfeed⟩

lemma splitOn_behind {l : List Char} {ls : List (List Char)} (h : ∀ k ∈ l :: ls, '\n' ∉ k) :
    (l ++ behind ls).splitOn '\n' = l :: ls := by
  induction ls generalizing l with
  | nil => simpa using List.splitOn_eq_singleton (h l (by simp))
  | cons k ls ih =>
    obtain ⟨hl, hls⟩ := List.forall_mem_cons.mp h
    rw [behind_cons, List.splitOn_append_cons_self_of_not_mem hl, ih hls]

/-! ### Pieces of lines -/

/-- A text goes on with the rest of a line, and some more lines. -/
lemma exists_splitOn_append (b : List Char) :
    ∃ y after, ∀ p, '\n' ∉ p → (p ++ b).splitOn '\n' = (p ++ y) :: after := by
  obtain ⟨y, after, -, rfl, hall⟩ := exists_lines b
  obtain ⟨hy, hafter⟩ := List.forall_mem_cons.mp hall
  refine ⟨y, after, fun p hp => ?_⟩
  rw [← List.append_assoc]
  exact splitOn_behind (List.forall_mem_cons.mpr ⟨by simp [hp, hy], hafter⟩)

/-- A text with a line feed has a last one. -/
lemma exists_last_lineFeed {a : List Char} (ha : '\n' ∈ a) : ∃ k x, a = k ++ '\n' :: x ∧ '\n' ∉ x := by
  obtain ⟨x, k, hk, hx⟩ := List.eq_append_cons_of_mem (List.mem_reverse.mpr ha)
  refine ⟨k.reverse, x.reverse, ?_, by simpa using hx⟩
  rw [← List.reverse_reverse a, hk]
  simp

/-- The last line of a text begins behind its last line feed. -/
lemma exists_lastLine (a : List Char) :
    ∃ before x, '\n' ∉ x ∧ ∀ s, (a ++ s).splitOn '\n' = before ++ (x ++ s).splitOn '\n' := by
  by_cases ha : '\n' ∈ a
  · obtain ⟨k, x, rfl, hx⟩ := exists_last_lineFeed ha
    refine ⟨k.splitOn '\n', x, hx, fun s => ?_⟩
    rw [List.append_assoc, List.cons_append, List.splitOn_append_cons_self]
  · exact ⟨[], a, ha, fun s => rfl⟩

/-- A piece without a line feed stands within one line. -/
lemma exists_splitOn_piece (a b : List Char) :
    ∃ before x y after, ∀ m, '\n' ∉ m →
      (a ++ (m ++ b)).splitOn '\n' = before ++ (x ++ (m ++ y)) :: after := by
  obtain ⟨before, x, hx, ha⟩ := exists_lastLine a
  obtain ⟨y, after, hb⟩ := exists_splitOn_append b
  refine ⟨before, x, y, after, fun m hm => ?_⟩
  rw [ha, ← List.append_assoc, hb (x ++ m) (by simp [hx, hm]), List.append_assoc]

/-- A text is one of its lines, with something before and behind it. -/
lemma exists_around_line {text l : List Char} (h : l ∈ text.splitOn '\n') :
    ∃ a b, text = a ++ (l ++ b) := by
  obtain ⟨k, ls, hsplit, rfl, -⟩ := exists_lines text
  rw [hsplit] at h
  clear hsplit
  induction ls generalizing k with
  | nil =>
    obtain rfl := List.mem_singleton.mp h
    exact ⟨[], behind [], rfl⟩
  | cons m ls ih =>
    rcases List.mem_cons.mp h with rfl | h
    · exact ⟨[], behind (m :: ls), rfl⟩
    · obtain ⟨a, b, hab⟩ := ih m h
      exact ⟨k ++ '\n' :: a, b, by rw [behind_cons, hab]; simp⟩

/-- A piece without a line feed stands in a text exactly if it stands in one of its lines. -/
theorem containsText_iff_exists_line {needle text : List Char} (hn : '\n' ∉ needle) :
    containsText needle text = true ↔ ∃ l ∈ text.splitOn '\n', containsText needle l = true := by
  simp only [containsText_iff]
  constructor
  · rintro ⟨a, b, rfl⟩
    obtain ⟨before, x, y, after, hsplit⟩ := exists_splitOn_piece a b
    exact ⟨x ++ (needle ++ y), by rw [List.append_assoc, hsplit needle hn]; simp, x, y, by simp⟩
  · rintro ⟨l, hl, x, y, rfl⟩
    obtain ⟨a, b, rfl⟩ := exists_around_line hl
    exact ⟨a ++ x, y ++ b, by simp⟩

/-! ### Lines as they are read -/

/-- The lines of a text as some function reads them; those that it leaves empty are left out. -/
def linesBy (f : List Char → List Char) (text : List Char) : List (List Char) :=
  ((text.splitOn '\n').map f).filter fun l => !l.isEmpty

section LinesBy

variable {f : List Char → List Char} {l a b text : List Char}

lemma linesBy_append (a b : List Char) :
    linesBy f (a ++ '\n' :: b) = linesBy f a ++ linesBy f b := by
  rw [linesBy, List.splitOn_append_cons_self, List.map_append, List.filter_append]
  rfl

/-- A piece stands in what is read of some line exactly if it stands in one of those that are not left
out. -/
lemma exists_containsText_linesBy {needle : List Char} (hn : needle ≠ []) :
    (∃ k ∈ linesBy f text, containsText needle k = true) ↔
      ∃ l ∈ text.splitOn '\n', containsText needle (f l) = true := by
  constructor
  · rintro ⟨k, hk, hneedle⟩
    obtain ⟨l, hl, rfl⟩ := List.mem_map.mp (List.mem_filter.mp hk).1
    exact ⟨l, hl, hneedle⟩
  · rintro ⟨l, hl, hneedle⟩
    refine ⟨f l, List.mem_filter.mpr ⟨List.mem_map_of_mem hl, ?_⟩, hneedle⟩
    rw [Bool.not_eq_true', List.isEmpty_eq_false_iff]
    intro hnil
    rw [hnil, containsText, List.isEmpty_iff] at hneedle
    exact hn hneedle

lemma containsText_iff_exists_linesBy {needle : List Char} (hne : needle ≠ []) (hn : '\n' ∉ needle) :
    containsText needle text = true ↔ ∃ l ∈ linesBy id text, containsText needle l = true :=
  (containsText_iff_exists_line hn).trans (exists_containsText_linesBy (f := id) hne).symm

lemma linesBy_line (hl : '\n' ∉ l) : linesBy f l = if f l = [] then [] else [f l] := by
  rw [linesBy, List.splitOn_eq_singleton hl]
  by_cases h : f l = [] <;> simp [h]

end LinesBy

/-! ### Forms that stand where lines start -/

/-- A form stands only where a line starts, and it is all the same to it whether that is the first line. -/
structure Form.AtLines {α : Type} (form : Form α) : Prop where
  inside : ∀ before text, atLineStart before = false → form before text = none
  start : ∀ text, form none text = form (some '\n') text

/-- Behind a part of a line no line starts. -/
lemma atLineStart_lastOr {p : List Char} (hne : p ≠ []) (hp : '\n' ∉ p) (before : Option Char) :
    atLineStart (lastOr before p) = false := by
  obtain ⟨q, c, rfl⟩ := (List.eq_nil_or_concat' p).resolve_left hne
  have hc : c ≠ '\n' := by
    rintro rfl
    exact hp (by simp)
  rw [lastOr, List.getLast?_concat]
  simpa [atLineStart] using hc

/-- Some lines of a text behind others, with what a form reads in the place of what it takes. -/
def replaceLines (form : Form (List Char)) : List (List Char) → List Char
  | [] => []
  | l :: ls => replaceAllFrom form 0 (some '\n') (l ++ behind ls)

/-- The text behind a line, with what a form reads in the place of what it takes. -/
def replaceBehind (form : Form (List Char)) : List (List Char) → List Char
  | [] => []
  | l :: ls => '\n' :: replaceLines form (l :: ls)

lemma linesBy_replaceBehind {f : List Char → List Char} (hf : f [] = []) (form : Form (List Char))
    (l : List Char) (ls : List (List Char)) :
    linesBy f (l ++ replaceBehind form ls) = linesBy f l ++ linesBy f (replaceLines form ls) := by
  cases ls with
  | nil => simp [replaceBehind, replaceLines, linesBy_line, hf]
  | cons k ls => exact linesBy_append l _

namespace Form.AtLines

variable {form : Form (List Char)} {before : Option Char} {l : List Char} {ls : List (List Char)}

/-- A text is replaced line by line, its first line like the others. -/
lemma replaceAll_lines (h : form.AtLines) (l : List Char) (ls : List (List Char)) :
    replaceAll form (l ++ behind ls) = replaceLines form (l :: ls) := by
  rw [replaceAll, replaceLines]
  cases l ++ behind ls with
  | nil => rfl
  | cons c rest => rw [replaceAllFrom, replaceAllFrom, h.start]

/-- Within a line nothing is replaced. -/
lemma replaceAllFrom_inside (h : form.AtLines) (hb : atLineStart before = false) (hl : '\n' ∉ l) :
    replaceAllFrom form 0 before (l ++ behind ls) = l ++ replaceBehind form ls := by
  induction l generalizing before with
  | nil =>
    cases ls with
    | nil => rfl
    | cons k ls =>
      rw [List.nil_append, behind_cons, replaceAllFrom_no_match fun _ _ => by simp [h.inside _ _ hb]]
      rfl
  | cons c l ih =>
    obtain ⟨hc, hl⟩ : '\n' ≠ c ∧ '\n' ∉ l := by simpa using hl
    have hinside : atLineStart (some c) = false := by simpa [atLineStart] using hc.symm
    rw [List.cons_append, replaceAllFrom_no_match fun _ _ => by simp [h.inside _ _ hb], ih hinside hl]
    rfl

/-- A line at whose start the form does not stand is kept. -/
theorem replaceAllFrom_line (h : form.AtLines) (hl : '\n' ∉ l)
    (hno : ∀ new n, form before (l ++ behind ls) ≠ some (new, n + 1)) :
    replaceAllFrom form 0 before (l ++ behind ls) = l ++ replaceBehind form ls := by
  cases l with
  | nil =>
    cases ls with
    | nil => rfl
    | cons k ls =>
      rw [List.nil_append, behind_cons] at hno ⊢
      rw [replaceAllFrom_no_match hno]
      rfl
  | cons c l =>
    obtain ⟨hc, hl⟩ : '\n' ≠ c ∧ '\n' ∉ l := by simpa using hl
    have hinside : atLineStart (some c) = false := by simpa [atLineStart] using hc.symm
    rw [List.cons_append] at hno ⊢
    rw [replaceAllFrom_no_match hno, h.replaceAllFrom_inside hinside hl]
    rfl

end Form.AtLines

end BuildMend.Text
