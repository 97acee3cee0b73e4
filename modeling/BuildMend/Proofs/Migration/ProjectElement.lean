import BuildMend.Proofs.Migration.Effect
import BuildMend.Proofs.Text.Deletion

/-!
Project files without the element that asks for the old generator.

* `cutLine`: a line without the element, if that stands at its start.
* `linesBy_editProjectText`: the edit of a project file does this to each of its lines.
* `ElementsBeginLines`: the element stands only at the starts of lines.
* `editProjectText_reaches_iff`: exactly then the edit takes every element out of a text.
* `Library.projectFiles_reach_iff`: when the step for project files succeeds, and what it leaves.
-/

namespace BuildMend.Migration

open Text

/-! ### Lines without the element -/

/-- What a line has behind an element at its start. -/
def afterElement? (l : List Char) : Option (List Char) :=
  afterLiteral? autorestElement (l.dropWhile isTabOrSpace)

/-- A line without an element at its start, and without the spaces around that; any other line stays. -/
def cutLine (l : List Char) : List Char :=
  match afterElement? l with
  | some rest => dropOne '\r' (rest.dropWhile isTabOrSpace)
  | none => l

lemma isBlank_of_isTabOrSpace {c : Char} (h : isTabOrSpace c = true) : isBlank c = true := by
  rw [isTabOrSpace, Bool.or_eq_true, beq_iff_eq, beq_iff_eq] at h
  rcases h with rfl | rfl <;> decide

lemma cutLine_of_none {l : List Char} (h : afterElement? l = none) : cutLine l = l := by
  rw [cutLine, h]

lemma exists_dropOne (c : Char) (m : List Char) :
    ∃ g, (∀ d ∈ g, d = c) ∧ m = g ++ dropOne c m := by
  cases m with
  | nil => exact ⟨[], by simp, rfl⟩
  | cons d m =>
    by_cases hd : d = c
    · exact ⟨[c], by simp, by simp [dropOne, hd]⟩
    · exact ⟨[], by simp, by simp [dropOne, hd]⟩

/-- What goes at the start of a line: spaces, the element and blanks. -/
lemma cutLine_of_some {l rest : List Char} (h : afterElement? l = some rest) :
    ∃ g, (∀ c ∈ g, isBlank c = true) ∧ rest = g ++ cutLine l ∧
      l = l.takeWhile isTabOrSpace ++ (autorestElement ++ rest) := by
  obtain ⟨g, hg, hdrop⟩ := exists_dropOne '\r' (rest.dropWhile isTabOrSpace)
  have hcut : cutLine l = dropOne '\r' (rest.dropWhile isTabOrSpace) := by
    rw [cutLine, h]
  refine ⟨rest.takeWhile isTabOrSpace ++ g, fun c hc => ?_, ?_, ?_⟩
  · rcases List.mem_append.mp hc with hc | hc
    · exact isBlank_of_isTabOrSpace (List.all_eq_true.mp List.all_takeWhile c hc)
    · rw [hg c hc]
      decide
  · rw [hcut, List.append_assoc, ← hdrop, List.takeWhile_append_dropWhile]
  · rw [← afterLiteral?_eq_some_iff.mp h, List.takeWhile_append_dropWhile]

lemma dropOne_append {c : Char} {m s : List Char} (hs : ∀ d ∈ s.head?, d ≠ c) :
    dropOne c (m ++ s) = dropOne c m ++ s := by
  cases m with
  | nil =>
    cases s with
    | nil => rfl
    | cons d s => exact if_neg (by simpa using hs d rfl)
  | cons d m =>
    rw [List.cons_append, dropOne, dropOne]
    split <;> rfl

lemma lineFeed_not_mem_element : '\n' ∉ autorestElement := by decide

lemma autorestElement_ne_nil : autorestElement ≠ [] := by decide

/-- At the start of a line the form stands if the element does, and takes what goes with it, with the
line feed of a line that has nothing else. -/
lemma elementForm_line {before : Option Char} (hb : atLineStart before = true) {s : List Char}
    (hs : EndsLine s) (l : List Char) :
    elementForm before (l ++ s) =
      (afterElement? l).map fun _ =>
        ([], (l ++ s).length - (dropOne '\n' (cutLine l ++ s)).length) := by
  have hspace : ∀ c ∈ s.head?, isTabOrSpace c = false := fun c hc => by
    obtain rfl := hs c hc
    decide
  have hreturn : ∀ c ∈ s.head?, c ≠ '\r' := fun c hc => by
    obtain rfl := hs c hc
    decide
  simp only [elementForm, hb, Bool.not_true, Bool.false_eq_true, if_false, Option.bind_eq_bind]
  rw [dropWhile_append_piece hspace, afterLiteral?_line lineFeed_not_mem_element hs, ← afterElement?]
  cases h : afterElement? l with
  | none => rfl
  | some rest =>
    rw [Option.map_some, Option.bind_some, dropWhile_append_piece hspace, dropOne_append hreturn, cutLine,
      h]
    rfl

lemma elementForm_atLines : elementForm.AtLines :=
  ⟨fun before text h => by simp [elementForm, h], fun _ => rfl⟩

section Line

variable {l rest : List Char} {ls : List (List Char)}

lemma replaceLines_element_none (hl : '\n' ∉ l) (h : afterElement? l = none) :
    replaceLines elementForm (l :: ls) = cutLine l ++ replaceBehind elementForm ls := by
  have hform := elementForm_line (show atLineStart (some '\n') = true from rfl) (endsLine_behind ls) l
  rw [h] at hform
  rw [cutLine_of_none h]
  exact elementForm_atLines.replaceAllFrom_line hl (by simp [hform])

/-- What the form takes of a line. -/
lemma exists_taken_element (h : afterElement? l = some rest) : ∃ p, p ≠ [] ∧ l = p ++ cutLine l := by
  obtain ⟨g, -, hrest, hline⟩ := cutLine_of_some h
  refine ⟨l.takeWhile isTabOrSpace ++ (autorestElement ++ g), fun hnil => ?_, ?_⟩
  · exact autorestElement_ne_nil (List.append_eq_nil_iff.mp (List.append_eq_nil_iff.mp hnil).2).1
  · rw [List.append_assoc, List.append_assoc, ← hrest, ← hline]

/-- Where nothing else is in the line, it goes with its line feed. -/
lemma replaceLines_element_gone (h : afterElement? l = some rest) (hcut : cutLine l = []) :
    replaceLines elementForm (l :: ls) = replaceLines elementForm ls := by
  have hform := elementForm_line (show atLineStart (some '\n') = true from rfl) (endsLine_behind ls) l
  obtain ⟨p, hne, hsplit⟩ := exists_taken_element h
  rw [hcut, List.append_nil] at hsplit
  rw [h, Option.map_some, hcut, List.nil_append] at hform
  subst hsplit
  cases ls with
  | nil =>
    have hwhole : elementForm (some '\n') (l ++ []) = some ([], l.length) := by
      simpa [dropOne] using hform
    exact replaceAllFrom_match hne hwhole
  | cons k ls =>
    have hline : l ++ behind (k :: ls) = l ++ ['\n'] ++ (k ++ behind ls) := by simp
    have hlength : (l ++ behind (k :: ls)).length - (dropOne '\n' (behind (k :: ls))).length =
        (l ++ ['\n']).length := by
      rw [hline, List.length_append]
      exact Nat.add_sub_cancel _ _
    rw [hlength, hline] at hform
    rw [replaceLines, hline, replaceAllFrom_match (by simp) hform, lastOr_append]
    rfl

/-- Where something else is in the line, that stays. -/
lemma replaceLines_element_left (hl : '\n' ∉ l) (h : afterElement? l = some rest) (hcut : cutLine l ≠ []) :
    replaceLines elementForm (l :: ls) = cutLine l ++ replaceBehind elementForm ls := by
  have hform := elementForm_line (show atLineStart (some '\n') = true from rfl) (endsLine_behind ls) l
  obtain ⟨p, hne, hsplit⟩ := exists_taken_element h
  rw [h, Option.map_some] at hform
  generalize cutLine l = m at hform hsplit hcut
  subst hsplit
  obtain ⟨hp, hm⟩ : '\n' ∉ p ∧ '\n' ∉ m := by simpa using hl
  have hkeeps : dropOne '\n' (m ++ behind ls) = m ++ behind ls := by
    obtain ⟨c, m, rfl⟩ := List.exists_cons_of_ne_nil hcut
    have hc : c ≠ '\n' := by
      rintro rfl
      exact hm List.mem_cons_self
    rw [List.cons_append, dropOne, if_neg (by simpa using hc)]
  have hlength : (p ++ m ++ behind ls).length - (m ++ behind ls).length = p.length := by
    rw [List.append_assoc, List.length_append]
    exact Nat.add_sub_cancel _ _
  rw [hkeeps, hlength, List.append_assoc] at hform
  rw [replaceLines, List.append_assoc, replaceAllFrom_match hne hform, List.nil_append,
    elementForm_atLines.replaceAllFrom_inside (atLineStart_lastOr hne hp _) hm]

/-- What is left of some lines, up to their line feeds: what is left of the first one, and of the
others. -/
lemma linesBy_replaceLines_element (hl : '\n' ∉ l) (ls : List (List Char)) :
    linesBy id (replaceLines elementForm (l :: ls)) =
      linesBy cutLine l ++ linesBy id (replaceLines elementForm ls) := by
  -- a line of which something is left
  have hleft (hcut : '\n' ∉ cutLine l) (hline : replaceLines elementForm (l :: ls) =
      cutLine l ++ replaceBehind elementForm ls) :
      linesBy id (replaceLines elementForm (l :: ls)) =
        linesBy cutLine l ++ linesBy id (replaceLines elementForm ls) := by
    rw [hline, linesBy_replaceBehind rfl, linesBy_line hcut, linesBy_line hl]
    rfl
  cases h : afterElement? l with
  | none => exact hleft (by rwa [cutLine_of_none h]) (replaceLines_element_none hl h)
  | some rest =>
    by_cases hcut : cutLine l = []
    · rw [replaceLines_element_gone h hcut, linesBy_line hl, if_pos hcut, List.nil_append]
    · obtain ⟨p, -, hsplit⟩ := exists_taken_element h
      have hfeed : '\n' ∉ cutLine l := fun hmem => hl (hsplit ▸ List.mem_append_right p hmem)
      exact hleft hfeed (replaceLines_element_left hl h hcut)

end Line

/-- Without the element a text has the lines that are left of its own. -/
lemma linesBy_replaceAll_element (text : List Char) :
    linesBy id (replaceAll elementForm text) = linesBy cutLine text := by
  obtain ⟨l, ls, -, rfl, hlines⟩ := exists_lines text
  rw [elementForm_atLines.replaceAll_lines]
  induction ls generalizing l with
  | nil =>
    rw [linesBy_replaceLines_element (hlines l List.mem_cons_self), behind_nil, List.append_nil]
    exact List.append_nil _
  | cons k ls ih =>
    obtain ⟨hl, hls⟩ := List.forall_mem_cons.mp hlines
    rw [linesBy_replaceLines_element hl, ih k hls, behind_cons, linesBy_append]

/-! ### Runs of line feeds -/

lemma linesBy_feeds {n : ℕ} (hn : 0 < n) (a b : List Char) :
    linesBy id (a ++ (List.replicate n '\n' ++ b)) = linesBy id a ++ linesBy id b := by
  induction n generalizing a with
  | zero => exact absurd hn (Nat.lt_irrefl 0)
  | succ n ih =>
    rw [List.replicate_succ, List.cons_append, linesBy_append]
    cases n with
    | zero => rfl
    | succ n => rw [← List.nil_append (List.replicate (n + 1) '\n' ++ b), ih (Nat.succ_pos n)]; rfl

/-- What the form takes is a run of line feeds. -/
lemma exists_blankRun (before : Option Char) {text : List Char}
    (h : 3 ≤ (text.takeWhile (· == '\n')).length) :
    ∃ n rest, 3 ≤ n ∧ text = List.replicate n '\n' ++ rest ∧
      blankRunForm before text = some (['\n', '\n'], n) := by
  have hfeeds : text.takeWhile (· == '\n') =
      List.replicate (text.takeWhile (· == '\n')).length '\n' :=
    List.eq_replicate_of_mem fun c hc => by
      simpa using List.all_eq_true.mp List.all_takeWhile c hc
  refine ⟨(text.takeWhile (· == '\n')).length, text.dropWhile (· == '\n'), h, ?_, if_pos h⟩
  rw [← hfeeds, List.takeWhile_append_dropWhile]

/-- Where runs of line feeds are shortened, the lines with something in them stay. -/
lemma linesBy_replaceAllFrom_blankRun (before : Option Char) (a text : List Char) :
    linesBy id (a ++ replaceAllFrom blankRunForm 0 before text) = linesBy id (a ++ text) := by
  induction hn : text.length using Nat.strong_induction_on generalizing before a text with
  | _ n ih =>
    subst hn
    by_cases hrun : 3 ≤ (text.takeWhile (· == '\n')).length
    · obtain ⟨n, rest, hthree, rfl, hform⟩ := exists_blankRun before hrun
      have hne : List.replicate n '\n' ≠ [] := List.length_pos_iff.mp (by rw [List.length_replicate]; omega)
      have hshort : rest.length < (List.replicate n '\n' ++ rest).length := by
        rw [List.length_append, List.length_replicate]
        omega
      have hlater := ih rest.length hshort (lastOr before (List.replicate n '\n')) [] rest rfl
      have hmatch : blankRunForm before (List.replicate n '\n' ++ rest) =
          some (['\n', '\n'], (List.replicate n '\n').length) := by
        rw [hform, List.length_replicate]
      calc linesBy id (a ++ replaceAllFrom blankRunForm 0 before (List.replicate n '\n' ++ rest))
          = linesBy id (a ++ (List.replicate 2 '\n' ++
              replaceAllFrom blankRunForm 0 (lastOr before (List.replicate n '\n')) rest)) := by
            rw [replaceAllFrom_match hne hmatch]
            rfl
        _ = linesBy id a ++ linesBy id rest := by
            rw [linesBy_feeds Nat.two_pos]
            exact congrArg _ hlater
        _ = linesBy id (a ++ (List.replicate n '\n' ++ rest)) := by
            rw [linesBy_feeds (by omega)]
    · cases text with
      | nil => rfl
      | cons c rest =>
        have hno : ∀ new k, blankRunForm before (c :: rest) ≠ some (new, k + 1) := by
          intro new k h
          rw [blankRunForm, if_neg hrun] at h
          cases h
        rw [replaceAllFrom_no_match hno]
        simpa using ih rest.length (by simp) (some c) (a ++ [c]) rest rfl

/-! ### The edit of a project file -/

/-- A line that does not name the element stays. -/
lemma cutLine_of_not_named {l : List Char} (h : containsText autorestName l = false) : cutLine l = l := by
  refine cutLine_of_none (Option.eq_none_iff_forall_ne_some.mpr fun rest hrest => ?_)
  obtain ⟨g, -, -, hline⟩ := cutLine_of_some hrest
  obtain ⟨tail, hname⟩ : ∃ tail, autorestElement = ['<'] ++ (autorestName ++ tail) :=
    ⟨">true</IncludeAutorestDependency>".toList, by decide⟩
  have hcontains : containsText autorestName l = true := by
    rw [containsText_iff, hline, hname]
    exact ⟨l.takeWhile isTabOrSpace ++ ['<'], tail ++ rest, by simp only [List.append_assoc]⟩
  rw [h] at hcontains
  cases hcontains

/-- The edit of a project file takes the element out of each line that it starts, and shortens runs of
blank lines. -/
theorem linesBy_editProjectText (text : List Char) :
    linesBy id (Library.editProjectText text) = linesBy cutLine text := by
  rw [Library.editProjectText]
  split
  · rw [removeAutorestElement, replaceAll, ← List.nil_append (replaceAllFrom _ _ _ _),
      linesBy_replaceAllFrom_blankRun, List.nil_append, linesBy_replaceAll_element]
  · rename_i hname
    have hlines : (text.splitOn '\n').map cutLine = (text.splitOn '\n').map id := by
      refine List.map_congr_left fun l hl => cutLine_of_not_named (Bool.eq_false_iff.mpr fun h => ?_)
      exact hname ((containsText_iff_exists_line (by decide)).mpr ⟨l, hl, h⟩)
    rw [linesBy, linesBy, hlines]

/-! ### Elements at the starts of lines -/

/-- Wherever the element stands in a text, only spaces stand before it in its line. -/
def ElementsBeginLines (text : List Char) : Prop :=
  ∀ l ∈ text.splitOn '\n', ∀ a b, l = a ++ (autorestElement ++ b) → ∀ c ∈ a, isTabOrSpace c = true

lemma isUnbordered_autorestElement : IsUnbordered autorestElement := by decide

lemma exists_autorestElement : ∃ tail, autorestElement = '<' :: tail := ⟨autorestElement.tail, by decide⟩

lemma start_mem_autorestElement : '<' ∈ autorestElement := by decide

/-- In what is left of a line the element stands where it stands behind the one at the line's start. -/
lemma containsText_cutLine {l g rest : List Char} (hg : ∀ c ∈ g, isBlank c = true)
    (hrest : rest = g ++ cutLine l) :
    containsText autorestElement (cutLine l) = containsText autorestElement rest := by
  obtain ⟨tail, htail⟩ := exists_autorestElement
  have hstart : '<' ∉ g := fun hmem => absurd (hg '<' hmem) (by decide)
  rw [hrest, htail, containsText_append_of_not_mem hstart]

/-- A line that starts with no element has none, if all of them stand at its start. -/
lemma not_containsText_of_none {l : List Char} (h : afterElement? l = none)
    (hstart : ∀ a b, l = a ++ (autorestElement ++ b) → ∀ c ∈ a, isTabOrSpace c = true) :
    containsText autorestElement l = false := by
  refine Bool.eq_false_iff.mpr fun hcontains => ?_
  obtain ⟨a, b, hl⟩ := containsText_iff.mp hcontains
  rw [List.append_assoc] at hl
  have hhead : ∀ c ∈ (autorestElement ++ b).head?, isTabOrSpace c = false := by
    obtain ⟨tail, htail⟩ := exists_autorestElement
    rw [htail]
    rintro c ⟨⟩
    decide
  rw [hl, afterElement?, List.dropWhile_append_of_pos (hstart a b hl), dropWhile_eq_self hhead,
    afterLiteral?_eq_some_iff.mpr rfl] at h
  cases h

/-- Behind an element at the start of a line there is no other one exactly if all of them stand at the
start. -/
lemma not_containsText_rest_iff {l ws rest : List Char} (hws : ∀ c ∈ ws, isTabOrSpace c = true)
    (hline : l = ws ++ (autorestElement ++ rest)) :
    containsText autorestElement rest = false ↔
      ∀ a b, l = a ++ (autorestElement ++ b) → ∀ c ∈ a, isTabOrSpace c = true := by
  constructor
  · intro hnone a b hl
    rcases List.append_eq_append_iff.mp (hline.symm.trans hl) with ⟨e, rfl, he⟩ | ⟨e, rfl, -⟩
    · rcases isUnbordered_autorestElement.eq_nil_or_behind he with rfl | ⟨x, rfl⟩
      · rwa [List.append_nil]
      · rw [containsText_iff.mpr ⟨x, b, (List.append_assoc _ _ _).symm⟩] at hnone
        cases hnone
    · exact fun c hc => hws c (List.mem_append_left e hc)
  · intro hstart
    refine Bool.eq_false_iff.mpr fun hcontains => ?_
    obtain ⟨x, y, hx⟩ := containsText_iff.mp hcontains
    have hsecond : l = ws ++ (autorestElement ++ x) ++ (autorestElement ++ y) := by
      rw [hline, hx]
      simp only [List.append_assoc]
    have hspace := hstart _ y hsecond '<'
      (List.mem_append_right _ (List.mem_append_left x start_mem_autorestElement))
    exact absurd hspace (by decide)

/-- What is left of a line holds no element exactly if all of them stand at its start. -/
lemma containsText_cutLine_iff (l : List Char) :
    containsText autorestElement (cutLine l) = false ↔
      ∀ a b, l = a ++ (autorestElement ++ b) → ∀ c ∈ a, isTabOrSpace c = true := by
  cases h : afterElement? l with
  | none =>
    rw [cutLine_of_none h]
    refine ⟨?_, not_containsText_of_none h⟩
    rintro hnone a b rfl
    rw [containsText_iff.mpr ⟨a, b, (List.append_assoc _ _ _).symm⟩] at hnone
    cases hnone
  | some rest =>
    obtain ⟨g, hg, hrest, hline⟩ := cutLine_of_some h
    rw [containsText_cutLine hg hrest]
    exact not_containsText_rest_iff (List.all_eq_true.mp List.all_takeWhile) hline

lemma elementsBeginLines_iff {text : List Char} :
    (∀ l ∈ text.splitOn '\n', containsText autorestElement (cutLine l) = false) ↔
      ElementsBeginLines text := by
  simp only [containsText_cutLine_iff]
  rfl

instance (text : List Char) : Decidable (ElementsBeginLines text) :=
  decidable_of_iff _ elementsBeginLines_iff

/-- What is left of a line without any element is that line without elements, blanks aside. -/
lemma squeeze_cutLine {l : List Char} (hnone : containsText autorestElement (cutLine l) = false) :
    squeeze (cutLine l) = squeeze (without autorestElement l) := by
  cases h : afterElement? l with
  | none =>
    rw [cutLine_of_none h] at hnone ⊢
    rw [without_eq_self hnone]
  | some rest =>
    obtain ⟨g, hg, hrest, hline⟩ := cutLine_of_some h
    rw [containsText_cutLine hg hrest] at hnone
    have hspaces : ∀ c ∈ l.takeWhile isTabOrSpace, isTabOrSpace c = true :=
      List.all_eq_true.mp List.all_takeWhile
    have hstart : '<' ∉ l.takeWhile isTabOrSpace := fun hmem => absurd (hspaces '<' hmem) (by decide)
    have hwithout : without autorestElement l = l.takeWhile isTabOrSpace ++ rest := by
      obtain ⟨tail, htail⟩ := exists_autorestElement
      have hbehind : without ('<' :: tail) (l.takeWhile isTabOrSpace ++ (autorestElement ++ rest)) =
          l.takeWhile isTabOrSpace ++ without ('<' :: tail) (autorestElement ++ rest) :=
        without_append_of_not_mem hstart _
      rw [← htail, without_piece_append autorestElement_ne_nil, without_eq_self hnone, ← hline] at hbehind
      exact hbehind
    rw [hwithout, squeeze_append, squeeze_blanks fun c hc => isBlank_of_isTabOrSpace (hspaces c hc), hrest,
      squeeze_append, squeeze_blanks hg]
    rfl

/-- The edit takes every element out of a text, and nothing else but blanks, exactly if all of them stand
at the starts of lines. -/
theorem editProjectText_reaches_iff (text : List Char) :
    (containsText autorestElement (Library.editProjectText text) = false ∧
        squeeze (Library.editProjectText text) = squeeze (without autorestElement text)) ↔
      ElementsBeginLines text := by
  have hlines := linesBy_editProjectText text
  generalize Library.editProjectText text = new at hlines
  have hcontains : containsText autorestElement new = true ↔
      ∃ l ∈ text.splitOn '\n', containsText autorestElement (cutLine l) = true := by
    rw [containsText_iff_exists_linesBy autorestElement_ne_nil lineFeed_not_mem_element, hlines,
      exists_containsText_linesBy autorestElement_ne_nil]
  have hnone : containsText autorestElement new = false ↔ ElementsBeginLines text := by
    rw [← elementsBeginLines_iff, ← Bool.not_eq_true, hcontains, not_exists]
    simp only [not_and, Bool.not_eq_true]
  refine ⟨fun h => hnone.mp h.1, fun h => ⟨hnone.mpr h, ?_⟩⟩
  rw [squeeze_lines, hlines, flatMap_squeeze_linesBy,
    squeeze_without autorestElement_ne_nil lineFeed_not_mem_element]
  refine List.flatMap_congr fun l hl => ?_
  exact squeeze_cutLine ((containsText_cutLine_iff l).mpr (h l hl))

/-! ### All project files -/

namespace Library

open FileTree

/-- A success of the step for project files means that there is one, and that all of them have been
read. -/
lemma reads_of_success {l : Library} {w : World} {outcome : StepOutcome}
    (hr : (l.runStep .projectFiles w).1 = .ok outcome) (hsuccess : outcome.success = true) :
    w.tree.isTooLong l.sources = false ∧ l.projectFiles w.tree ≠ [] ∧
      ∀ p ∈ l.projectFiles w.tree, ∃ text, w.tree.HoldsText p text := by
  obtain ⟨v, hv, -⟩ := l.runStep_eq .projectFiles w
  have houtcome : l.outcome w.tree .projectFiles = .ok outcome :=
    (congrArg Prod.fst hv).symm.trans hr
  obtain ⟨hlong, hreads, n, hresult⟩ := reads_of_outcome houtcome
  refine ⟨hlong, fun hnone => ?_, hreads⟩
  rw [Rewrite.files, hnone] at hresult
  rw [hresult] at hsuccess
  cases hsuccess

/-- The step for project files succeeds exactly if there is one and all of them can be read.  It makes no
place and takes none away, and it takes every element out of a project file, and nothing else but blanks,
exactly if all of them stand at the starts of lines. -/
theorem projectFiles_reach_iff (l : Library) (w : World) :
    let root := l.codeDirectory w.tree
    let r := l.real.runStep .projectFiles w
    ((∃ outcome, r.1 = .ok outcome ∧ outcome.success = true) ↔
        w.tree.isTooLong l.sources = false ∧ (∃ p ∈ w.tree.places, IsProjectFile root p) ∧
          ∀ p ∈ w.tree.places, IsProjectFile root p → ∃ text, w.tree.HoldsText p text) ∧
      ∀ outcome, r.1 = .ok outcome → outcome.success = true →
        w.tree.SamePlaces r.2.tree ∧
          ∀ p ∈ w.tree.places, IsProjectFile root p →
            ∃ old new, w.tree.HoldsText p old ∧ r.2.tree.HoldsText p new ∧
              ((containsText autorestElement new = false ∧
                  squeeze new = squeeze (without autorestElement old)) ↔
                ElementsBeginLines old) := by
  intro root r
  have hmem {p : Path} : p ∈ l.real.projectFiles w.tree ↔ p ∈ w.tree.places ∧ IsProjectFile root p :=
    mem_projectFiles_iff
  refine ⟨⟨fun ⟨outcome, hr, hsuccess⟩ => ?_, fun ⟨hlong, ⟨p, hp, hkind⟩, hreads⟩ => ?_⟩,
    fun outcome hr hsuccess => ?_⟩
  · obtain ⟨hlong, hsome, hreads⟩ := reads_of_success hr hsuccess
    obtain ⟨p, hp⟩ := List.exists_mem_of_ne_nil _ hsome
    exact ⟨hlong, ⟨p, hmem.mp hp⟩, fun q hq hkind => hreads q (hmem.mpr ⟨hq, hkind⟩)⟩
  · obtain ⟨outcome, v, hv, -, hsuccess, -⟩ := runStep_edited (l := l.real) (w := w)
      (r := .projectFiles) rfl hlong (List.ne_nil_of_mem (hmem.mpr ⟨hp, hkind⟩))
      fun q hq => hreads q (hmem.mp hq).1 (hmem.mp hq).2
    exact ⟨outcome, congrArg Prod.fst hv, hsuccess⟩
  · obtain ⟨hlong, hsome, hreads⟩ := reads_of_success hr hsuccess
    obtain ⟨_, v, hv, hedited, -, -⟩ := runStep_edited (l := l.real) (w := w) (r := .projectFiles) rfl
      hlong hsome hreads
    have hworld : r.2 = v := congrArg Prod.snd hv
    rw [hworld]
    refine ⟨hedited.same, fun p hp hkind => ?_⟩
    have hfile := hmem.mpr ⟨hp, hkind⟩
    obtain ⟨old, hold⟩ := hreads p hfile
    exact ⟨old, editProjectText old, hold, hedited.edits p hfile old hold,
      editProjectText_reaches_iff old⟩

/-- A library that holds one project file. -/
def projectTree (text : String) : FileTree :=
  { files := [(["lib", "lib.csproj"], Utf8.encode text.toList)], directories := [] }

lemma places_projectTree (text : String) :
    (projectTree text).places = [["lib"], ["lib", "lib.csproj"]] := by
  rfl

lemma isProjectFile_projectTree : IsProjectFile ["lib"] ["lib", "lib.csproj"] :=
  ⟨[], "lib.csproj", rfl, by decide⟩

theorem projectFiles_reach_ownLine :
    let text := "<P>\r\n  <IncludeAutorestDependency>true</IncludeAutorestDependency>\r\n</P>"
    let r := plainLibrary.real.runStep .projectFiles { tree := projectTree text }
    (∃ outcome, r.1 = .ok outcome ∧ outcome.success = true) ∧
      ∃ new, r.2.tree.HoldsText ["lib", "lib.csproj"] new ∧
        containsText autorestElement new = false ∧
        squeeze new = squeeze (without autorestElement text.toList) := by
  intro text r
  have hroot : plainLibrary.codeDirectory (projectTree text) = ["lib"] := by decide +kernel
  have hplace : ["lib", "lib.csproj"] ∈ (projectTree text).places := by
    rw [places_projectTree]
    simp
  have hkind : IsProjectFile (plainLibrary.codeDirectory (projectTree text)) ["lib", "lib.csproj"] :=
    hroot ▸ isProjectFile_projectTree
  have hreads : ∀ p ∈ (projectTree text).places,
      IsProjectFile (plainLibrary.codeDirectory (projectTree text)) p →
        ∃ text', (projectTree text).HoldsText p text' := by
    intro p hp hp'
    rw [places_projectTree] at hp
    rcases List.mem_cons.mp hp with rfl | hp
    · exact absurd hp'.nameEndsWith (by decide)
    · obtain rfl := List.mem_singleton.mp hp
      exact ⟨text.toList, rfl⟩
  obtain ⟨hsucceeds, hall⟩ := projectFiles_reach_iff plainLibrary { tree := projectTree text }
  obtain ⟨outcome, hr, hsuccess⟩ := hsucceeds.mpr ⟨by decide +kernel, ⟨_, hplace, hkind⟩, hreads⟩
  obtain ⟨old, new, hold, hnew, hiff⟩ := (hall outcome hr hsuccess).2 _ hplace hkind
  obtain rfl : old = text.toList := hold.inj rfl
  exact ⟨⟨outcome, hr, hsuccess⟩, new, hnew, hiff.mpr (by decide +kernel)⟩

/-- An element behind something else in its line stays, and the step says that there is none. -/
theorem projectFiles_miss_inline :
    let text := "<P><IncludeAutorestDependency>true</IncludeAutorestDependency></P>\n"
    ∃ v, plainLibrary.real.runStep .projectFiles { tree := projectTree text } =
        (.ok (.warned "No IncludeAutorestDependency found in .csproj files"), v) ∧
      v.tree.HoldsText ["lib", "lib.csproj"] text.toList ∧
      containsText autorestElement text.toList = true := by
  intro text
  have hfiles : plainLibrary.real.projectFiles (projectTree text) = [["lib", "lib.csproj"]] := by
    decide +kernel
  have hlong : (projectTree text).isTooLong plainLibrary.real.sources = false := by decide +kernel
  have hstays : editProjectText text.toList = text.toList := by decide +kernel
  have hread : (projectTree text).textAt ["lib", "lib.csproj"] = .ok text.toList :=
    textAt_eq_ok_iff.mpr rfl
  obtain ⟨v, hv, hedited⟩ := plainLibrary.real.runStep_eq .projectFiles { tree := projectTree text }
  have houtcome : plainLibrary.real.outcome (projectTree text) .projectFiles =
      .ok (.warned "No IncludeAutorestDependency found in .csproj files") := by
    rw [outcome, if_neg (by simp [hlong]), Rewrite.files, hfiles, List.map_singleton, verdict, hread,
      Except.map, Rewrite.edit, hstays, bne_self_eq_false]
    rfl
  rw [houtcome] at hv
  refine ⟨v, hv, textAt_eq_ok_iff.mp ?_, by decide +kernel⟩
  rcases hedited.each ["lib", "lib.csproj"] with hsame | ⟨-, old, hold, hnew⟩
  · rw [hsame, hread]
  · obtain rfl : old = text.toList := Except.ok.inj (hold.symm.trans hread)
    rw [hnew, Rewrite.edit, hstays]

end Library

end BuildMend.Migration
