import BuildMend.Proofs.Migration.Directive
import BuildMend.Proofs.Text.LineByLine

/-!
The lines that are left when the directive of the old generator's namespace is removed.

* `DirectivesAlone`: the namespace stands only in lines that are nothing but its directive.
* `keptLines`: of lines that are not blank, those that are left; a directive that is indented stays behind
  one that goes.
* `linesBy_removeAutorestUsing`: what is left of a text are these lines.
* `removeAutorestUsing_lines_iff`: the directives go and nothing else does, exactly if no indented one
  follows another one.
-/

namespace BuildMend.Migration

open Text

/-- The directive of the old generator's namespace, as a line has it. -/
def autorestUsing : List Char := "using Autorest.CSharp.Core;".toList

/-- The old generator's namespace. -/
def autorestNamespace : List Char := "Autorest.CSharp.Core".toList

/-- Every line with the old generator's namespace is its directive, between blanks. -/
def DirectivesAlone (lines : List (List Char)) : Prop :=
  ∀ l ∈ lines, containsText autorestNamespace l = true → trim l = autorestUsing

instance (lines : List (List Char)) : Decidable (DirectivesAlone lines) :=
  inferInstanceAs (Decidable (∀ l ∈ lines, _))

/-! ### Lines and directives -/

/-- The directive as a line has it is one that the form knows. -/
lemma isDirective_line {b : List Char} (hb : AreBlank b) : IsDirective (b ++ autorestUsing) :=
  .intro (t := [' ']) (u := []) hb (by simp [AreBlank, isBlank]) (by simp) (by simp [AreBlank])

lemma IsDirective.takeWhile {d : List Char} (h : IsDirective d) (b : List Char) :
    ∃ t u, AreBlank t ∧ t ≠ [] ∧ AreBlank u ∧
      d ++ b = (d ++ b).takeWhile isBlank ++
        ("using".toList ++ (t ++ (autorestNamespace ++ (u ++ ([';'] ++ b))))) := by
  obtain @⟨s, t, u, hs, ht, hne, hu⟩ := h
  refine ⟨t, u, ht, hne, hu, ?_⟩
  have hstart : (s ++ ("using".toList ++ (t ++ (autorestNamespace ++ (u ++ ([';'] ++ b)))))).takeWhile
      isBlank = s := takeWhile_append hs (by rintro c ⟨⟩; decide)
  have hwhole : s ++ ("using".toList ++ (t ++ ("Autorest.CSharp.Core".toList ++ (u ++ [';'])))) ++ b =
      s ++ ("using".toList ++ (t ++ (autorestNamespace ++ (u ++ ([';'] ++ b))))) := by
    unfold autorestNamespace
    simp only [List.append_assoc]
  rw [hwhole, hstart]

/-- Blanks before a directive belong to it. -/
lemma exists_directive_behind {z t d b : List Char} (hz : AreBlank z) (hd : IsDirective d)
    (h : z ++ t = d ++ b) : ∃ d', IsDirective d' ∧ t = d' ++ b := by
  obtain ⟨t', u, ht', hne, hu, hsplit⟩ := hd.takeWhile b
  rw [← h, List.takeWhile_append_of_pos hz, List.append_assoc] at hsplit
  refine ⟨_, .intro (areBlank_takeWhile t) ht' hne hu, ?_⟩
  conv_lhs => rw [List.append_cancel_left hsplit]
  unfold autorestNamespace
  simp only [List.append_assoc]

/-- A line that is not blank is some blanks and what starts behind them. -/
lemma exists_indent {l : List Char} (h : trim l ≠ []) :
    ∃ indent c rest, l = indent ++ c :: rest ∧ AreBlank indent ∧ isBlank c = false := by
  have hne : l.dropWhile isBlank ≠ [] := fun hnil =>
    h (trim_eq_nil_iff.mpr (List.dropWhile_eq_nil_iff.mp hnil))
  obtain ⟨c, rest, hrest⟩ := List.exists_cons_of_ne_nil hne
  have hc : isBlank c = false := head?_dropWhile c (by rw [hrest]; rfl)
  refine ⟨l.takeWhile isBlank, c, rest, ?_, areBlank_takeWhile l, hc⟩
  rw [← hrest, List.takeWhile_append_dropWhile]

/-- A line that begins with the namespace is not its directive. -/
lemma trim_namespace_ne (y : List Char) : trim (autorestNamespace ++ y) ≠ autorestUsing := by
  intro h
  obtain ⟨b, a, hb, -, hsplit⟩ := exists_eq_trim (autorestNamespace ++ y)
  rw [h] at hsplit
  cases b with
  | nil => exact absurd (List.cons.inj hsplit).1 (by decide)
  | cons c b =>
    have hc : 'A' = c := (List.cons.inj hsplit).1
    have hblank := hb c (by simp)
    rw [← hc] at hblank
    exact absurd hblank (by decide)

lemma lineFeed_not_mem_namespace : '\n' ∉ autorestNamespace := by decide

/-- In a directive no line ends before the namespace: that would begin a line, which is no directive. -/
lemma lineFeed_not_mem_gap {s t r : List Char} (ht : AreBlank t)
    (halone : DirectivesAlone ((s ++ (t ++ (autorestNamespace ++ r))).splitOn '\n')) : '\n' ∉ t := by
  intro hfeed
  obtain ⟨k, x, rfl, hx⟩ := exists_last_lineFeed hfeed
  have hblank : AreBlank x := fun c hc => ht c (by simp [hc])
  have hname : '\n' ∉ x ++ autorestNamespace := by
    rw [List.mem_append, not_or]
    exact ⟨hx, lineFeed_not_mem_namespace⟩
  obtain ⟨y, after, hpiece⟩ := exists_splitOn_append r
  have hsplit : s ++ (k ++ '\n' :: x ++ (autorestNamespace ++ r)) =
      s ++ k ++ '\n' :: (x ++ autorestNamespace ++ r) := by
    simp only [List.append_assoc, List.cons_append]
  rw [hsplit, List.splitOn_append_cons_self, hpiece _ hname] at halone
  have hdirective := halone _ (List.mem_append_right _ List.mem_cons_self)
    (containsText_iff.mpr ⟨x, y, rfl⟩)
  rw [List.append_assoc, trim_blanks_append hblank] at hdirective
  exact trim_namespace_ne y hdirective

/-- Where a line that is not blank starts with a directive, it is nothing else. -/
lemma trim_eq_of_directive {l : List Char} {ls : List (List Char)} (hlines : ∀ k ∈ l :: ls, '\n' ∉ k)
    (halone : DirectivesAlone (l :: ls)) (hl : trim l ≠ []) {d b : List Char} (hd : IsDirective d)
    (h : l ++ behind ls = d ++ b) : trim l = autorestUsing := by
  obtain ⟨t, u, ht, -, -, hsplit⟩ := hd.takeWhile b
  have hindent : '\n' ∉ (l ++ behind ls).takeWhile isBlank := by
    obtain ⟨indent, c, rest, rfl, hindent, hc⟩ := exists_indent hl
    have htake : (indent ++ c :: rest ++ behind ls).takeWhile isBlank = indent := by
      rw [List.append_assoc]
      exact takeWhile_append hindent (by simpa using hc)
    rw [htake]
    exact fun hmem => hlines _ List.mem_cons_self (List.mem_append_left _ hmem)
  rw [← h] at hsplit
  have hsplitOn := splitOn_behind hlines
  generalize (l ++ behind ls).takeWhile isBlank = s at hsplit hindent
  generalize u ++ ([';'] ++ b) = r at hsplit
  rw [hsplit, ← List.append_assoc s] at hsplitOn
  have hgap : '\n' ∉ t := lineFeed_not_mem_gap ht (hsplitOn ▸ halone)
  have huse : '\n' ∉ "using".toList := by decide
  -- so the namespace stands in the line
  have hstart : '\n' ∉ s ++ "using".toList ++ (t ++ autorestNamespace) := by
    simp only [List.mem_append, not_or]
    exact ⟨⟨hindent, huse⟩, hgap, lineFeed_not_mem_namespace⟩
  obtain ⟨y, after, hpiece⟩ := exists_splitOn_append r
  have hline : s ++ "using".toList ++ (t ++ autorestNamespace) ++ y = l := by
    have hfirst := hpiece _ hstart
    rw [List.append_assoc _ _ r, List.append_assoc t, hsplitOn] at hfirst
    exact (List.cons.inj hfirst).1.symm
  refine halone l List.mem_cons_self (containsText_iff.mpr ⟨s ++ "using".toList ++ t, y, ?_⟩)
  rw [← hline, List.append_assoc _ t]

/-! ### The lines that are left -/

/-- A line begins with a blank. -/
def isIndented (l : List Char) : Bool := l.head?.any isBlank

/-- The lines with something in them. -/
def solidLines (ls : List (List Char)) : List (List Char) := ls.filter fun l => !(trim l).isEmpty

/-- What is left of lines with something in them, behind a directive that goes or another line: the
blanks before an indented directive go with a directive before it, and then it does not start a line. -/
def keptLines : (after : Bool) → List (List Char) → List (List Char)
  | _, [] => []
  | after, l :: ls =>
    if trim l = autorestUsing ∧ ¬(after = true ∧ isIndented l = true) then keptLines true ls
    else trim l :: keptLines false ls

section Kept

variable {after : Bool} {l : List Char} {ls : List (List Char)}

lemma solidLines_blank (h : trim l = []) : solidLines (l :: ls) = solidLines ls := by
  simp [solidLines, h]

lemma solidLines_solid (h : trim l ≠ []) : solidLines (l :: ls) = l :: solidLines ls := by
  simp [solidLines, h]

lemma keptLines_directive (h : trim l = autorestUsing) (hi : after = true → isIndented l = false) :
    keptLines after (l :: ls) = keptLines true ls := by
  rw [keptLines, if_pos ⟨h, fun ⟨ha, hl⟩ => by simp [hi ha] at hl⟩]

lemma keptLines_other (h : trim l = autorestUsing → after = true ∧ isIndented l = true) :
    keptLines after (l :: ls) = trim l :: keptLines false ls := by
  rw [keptLines, if_neg fun ⟨hl, hno⟩ => hno (h hl)]

/-- Without blanks before it, it makes no difference what a line follows. -/
lemma keptLines_unindented (h : isIndented l = false) :
    keptLines after (l :: ls) = keptLines false (l :: ls) := by
  simp [keptLines, h]

end Kept

/-! ### A directive and the text behind it -/

/-- What is left of a text behind a directive, with some character at the directive's end. -/
def dropped (c : Option Char) (b : List Char) : List Char :=
  replaceAllFrom autorestForm 0 (lastOr c (b.takeWhile isBlank)) (b.dropWhile isBlank)

/-- What is left of some lines of a text behind a directive. -/
def droppedLines : List (List Char) → List Char
  | [] => []
  | l :: ls => dropped (some '\n') (l ++ behind ls)

lemma autorestForm_atLines : autorestForm.AtLines := by
  refine ⟨fun before text h => by simp [autorestForm, h], fun text => rfl⟩

/-- A directive at the start of a line goes. -/
lemma replaceAllFrom_directive {before : Option Char} (hb : atLineStart before = true)
    {d : List Char} (hd : IsDirective d) (b : List Char) :
    replaceAllFrom autorestForm 0 before (d ++ b) = dropped (some ';') b := by
  have hform := autorestForm_isDirective hb hd b
  have hsplit : d ++ b = d ++ b.takeWhile isBlank ++ b.dropWhile isBlank := by
    rw [List.append_assoc, List.takeWhile_append_dropWhile]
  have hlast : lastOr before d = some ';' := by
    obtain ⟨e, rfl, -⟩ := hd.semicolon
    rw [lastOr, List.getLast?_concat]
    rfl
  rw [hsplit] at hform ⊢
  rw [replaceAllFrom_match (List.append_ne_nil_of_left_ne_nil hd.ne_nil _) hform, lastOr_append, hlast]
  rfl

lemma dropped_blanks {a : List Char} (ha : AreBlank a) (c : Option Char) (b : List Char) :
    dropped c (a ++ b) = dropped (lastOr c a) b := by
  rw [dropped, dropped, List.takeWhile_append_of_pos ha, List.dropWhile_append_of_pos ha, lastOr_append]

lemma dropped_behind (c : Option Char) (ls : List (List Char)) :
    dropped c (behind ls) = droppedLines ls := by
  cases ls with
  | nil => rfl
  | cons l ls =>
    exact dropped_blanks (a := ['\n']) (by simp [AreBlank, isBlank]) c (l ++ behind ls)

/-- A line at whose start no directive stands is kept. -/
lemma replaceAllFrom_autorest_line {l : List Char} (hl : '\n' ∉ l) {ls : List (List Char)}
    {before : Option Char} (hno : ∀ d b, IsDirective d → l ++ behind ls ≠ d ++ b) :
    replaceAllFrom autorestForm 0 before (l ++ behind ls) = l ++ replaceBehind autorestForm ls := by
  refine autorestForm_atLines.replaceAllFrom_line hl fun new n hform => ?_
  obtain ⟨-, -, d, s, rest, htext, -, hd, -⟩ := isDirective_of_form hform
  exact hno d (s ++ rest) hd htext

/-- A text of blanks holds no directive. -/
lemma IsDirective.not_areBlank {d b : List Char} (h : IsDirective d) : ¬AreBlank (d ++ b) := by
  intro hblank
  obtain ⟨e, rfl, -⟩ := h.semicolon
  exact absurd (hblank ';' (by simp)) (by decide)

lemma linesBy_trim_blank {l : List Char} (hl : '\n' ∉ l) (h : trim l = []) : linesBy trim l = [] := by
  rw [linesBy_line hl, if_pos h]

lemma linesBy_trim_solid {l : List Char} (hl : '\n' ∉ l) (h : trim l ≠ []) :
    linesBy trim l = [trim l] := by
  rw [linesBy_line hl, if_neg h]

section Step

variable {l : List Char} {ls : List (List Char)}

/-- A blank line goes with a directive behind it. -/
lemma replaceLines_blank (hblank : trim l = []) {d b : List Char} (hd : IsDirective d)
    (htext : l ++ behind ls = d ++ b) :
    replaceLines autorestForm (l :: ls) = replaceLines autorestForm ls := by
  have harea : AreBlank l := trim_eq_nil_iff.mp hblank
  cases ls with
  | nil =>
    rw [behind_nil, List.append_nil] at htext
    exact absurd (htext ▸ harea) hd.not_areBlank
  | cons k ls =>
    have hz : AreBlank (l ++ ['\n']) := by
      intro c hc
      rcases List.mem_append.mp hc with hc | hc
      · exact harea c hc
      · obtain rfl := List.mem_singleton.mp hc
        decide
    have hnext : l ++ ['\n'] ++ (k ++ behind ls) = d ++ b := by
      rw [← htext, behind_cons, List.append_assoc]
      rfl
    obtain ⟨d', hd', htext'⟩ := exists_directive_behind hz hd hnext
    rw [replaceLines, replaceLines, htext, htext', replaceAllFrom_directive rfl hd,
      replaceAllFrom_directive rfl hd']

/-- What is left of some lines, when it is known what is left of those behind the first one. -/
lemma linesBy_replaceLines_cons (hlines : ∀ k ∈ l :: ls, '\n' ∉ k) (halone : DirectivesAlone (l :: ls))
    (hkept : linesBy trim (replaceLines autorestForm ls) = keptLines false (solidLines ls))
    (hdropped : linesBy trim (droppedLines ls) = keptLines true (solidLines ls)) :
    linesBy trim (replaceLines autorestForm (l :: ls)) = keptLines false (solidLines (l :: ls)) := by
  have hl := hlines l List.mem_cons_self
  -- a line at whose start no directive stands
  have hstay (hno : ∀ d b, IsDirective d → l ++ behind ls ≠ d ++ b) :
      linesBy trim (replaceLines autorestForm (l :: ls)) =
        linesBy trim l ++ keptLines false (solidLines ls) := by
    rw [replaceLines, replaceAllFrom_autorest_line hl hno, linesBy_replaceBehind rfl, hkept]
  by_cases hblank : trim l = []
  · rw [solidLines_blank hblank]
    by_cases hstands : ∃ d b, IsDirective d ∧ l ++ behind ls = d ++ b
    · obtain ⟨d, b, hd, htext⟩ := hstands
      rw [replaceLines_blank hblank hd htext, hkept]
    · rw [hstay fun d b hd htext => hstands ⟨d, b, hd, htext⟩, linesBy_trim_blank hl hblank]
      rfl
  rw [solidLines_solid hblank]
  by_cases hdirective : trim l = autorestUsing
  · obtain ⟨b, a, hb, ha, hsplit⟩ := exists_eq_trim l
    have htext : l ++ behind ls = b ++ autorestUsing ++ (a ++ behind ls) := by
      rw [← hdirective]
      conv_lhs => rw [hsplit]
      simp only [List.append_assoc]
    rw [keptLines_directive hdirective (by simp), replaceLines, htext,
      replaceAllFrom_directive rfl (isDirective_line hb), dropped_blanks ha, dropped_behind, hdropped]
  · rw [keptLines_other fun h => absurd h hdirective,
      hstay fun d b hd htext => hdirective (trim_eq_of_directive hlines halone hblank hd htext),
      linesBy_trim_solid hl hblank]
    rfl

/-- What is left of some lines behind a directive, when it is known what is left of those behind the
first one. -/
lemma linesBy_droppedLines_cons (hlines : ∀ k ∈ l :: ls, '\n' ∉ k)
    (hhere : linesBy trim (replaceLines autorestForm (l :: ls)) = keptLines false (solidLines (l :: ls)))
    (hkept : linesBy trim (replaceLines autorestForm ls) = keptLines false (solidLines ls))
    (hdropped : linesBy trim (droppedLines ls) = keptLines true (solidLines ls)) :
    linesBy trim (droppedLines (l :: ls)) = keptLines true (solidLines (l :: ls)) := by
  by_cases hblank : trim l = []
  · rw [droppedLines, dropped_blanks (trim_eq_nil_iff.mp hblank), dropped_behind,
      solidLines_blank hblank, hdropped]
  obtain ⟨indent, c, rest, rfl, hindent, hc⟩ := exists_indent hblank
  have hl := hlines _ List.mem_cons_self
  have hstart : droppedLines ((indent ++ c :: rest) :: ls) =
      replaceAllFrom autorestForm 0 (lastOr (some '\n') indent) (c :: rest ++ behind ls) := by
    rw [droppedLines, List.append_assoc, dropped_blanks hindent, dropped]
    simp [hc]
  rw [solidLines_solid hblank] at hhere ⊢
  by_cases hnone : indent = []
  · -- the line starts where the blanks behind the directive end
    subst hnone
    rw [hstart, keptLines_unindented (by simp [isIndented, hc]), ← hhere]
    rfl
  · -- behind its indentation the line does not start any more
    obtain ⟨hfeed, hrest⟩ : '\n' ∉ indent ∧ '\n' ∉ c :: rest := by
      rwa [List.mem_append, not_or] at hl
    have htrim : trim (indent ++ c :: rest) = trim (c :: rest) := trim_blanks_append hindent _
    have hindented : isIndented (indent ++ c :: rest) = true := by
      obtain ⟨x, indent, rfl⟩ := List.exists_cons_of_ne_nil hnone
      simpa [isIndented] using hindent x List.mem_cons_self
    rw [hstart, autorestForm_atLines.replaceAllFrom_inside (atLineStart_lastOr hnone hfeed _) hrest,
      linesBy_replaceBehind rfl, hkept, keptLines_other fun _ => ⟨rfl, hindented⟩, htrim,
      linesBy_trim_solid hrest (htrim ▸ hblank)]
    rfl

end Step

/-- What is left of some lines, and what is left of them behind a directive. -/
lemma linesBy_replaceLines {ls : List (List Char)} (hlines : ∀ k ∈ ls, '\n' ∉ k)
    (halone : DirectivesAlone ls) :
    linesBy trim (replaceLines autorestForm ls) = keptLines false (solidLines ls) ∧
      linesBy trim (droppedLines ls) = keptLines true (solidLines ls) := by
  induction ls with
  | nil => exact ⟨rfl, rfl⟩
  | cons l ls ih =>
    obtain ⟨hkept, hdropped⟩ := ih (List.forall_mem_cons.mp hlines).2 (List.forall_mem_cons.mp halone).2
    have hhere := linesBy_replaceLines_cons hlines halone hkept hdropped
    exact ⟨hhere, linesBy_droppedLines_cons hlines hhere hkept hdropped⟩

/-- Without the directive a text has these lines. -/
theorem linesBy_removeAutorestUsing {text : List Char} (h : DirectivesAlone (text.splitOn '\n')) :
    linesBy trim (removeAutorestUsing text) = keptLines false (solidLines (text.splitOn '\n')) := by
  obtain ⟨l, ls, hsplit, rfl, hlines⟩ := exists_lines text
  rw [hsplit] at h ⊢
  rw [removeAutorestUsing, autorestForm_atLines.replaceAll_lines]
  exact (linesBy_replaceLines hlines h).1

/-! ### Exactly the directives -/

/-- Of two lines that follow each other not both are the directive, with blanks before the second. -/
def NotStacked (l k : List Char) : Prop :=
  ¬(trim l = autorestUsing ∧ trim k = autorestUsing ∧ isIndented k = true)

instance : DecidableRel NotStacked := fun _ _ => inferInstanceAs (Decidable (¬_))

/-- The directives go and nothing else does exactly if none of them is left behind another one. -/
lemma keptLines_eq_filter_iff {after : Bool} {ls : List (List Char)} :
    keptLines after ls = (ls.map trim).filter (· ≠ autorestUsing) ↔
      ls.IsChain NotStacked ∧
        (after = true → ∀ l ∈ ls.head?, ¬(trim l = autorestUsing ∧ isIndented l = true)) := by
  induction ls generalizing after with
  | nil => simp [keptLines]
  | cons l ls ih =>
    rw [List.isChain_cons, List.map_cons]
    by_cases hl : trim l = autorestUsing
    · rw [List.filter_cons_of_neg (by simp [hl])]
      by_cases hleft : after = true ∧ isIndented l = true
      · -- it is left, though it is the directive
        rw [keptLines_other fun _ => hleft]
        refine iff_of_false (fun h => ?_) fun h => h.2 hleft.1 l rfl ⟨hl, hleft.2⟩
        have hmem : trim l ∈ (ls.map trim).filter (· ≠ autorestUsing) := h ▸ List.mem_cons_self
        simpa [hl] using (List.mem_filter.mp hmem).2
      · rw [keptLines, if_pos ⟨hl, hleft⟩, ih]
        simp only [NotStacked, hl, true_and, forall_const, List.head?_cons, Option.mem_some_iff,
          forall_eq']
        exact ⟨fun ⟨hchain, hhead⟩ => ⟨⟨hhead, hchain⟩, fun ha hi => hleft ⟨ha, hi⟩⟩,
          fun ⟨⟨hhead, hchain⟩, _⟩ => ⟨hchain, hhead⟩⟩
    · rw [List.filter_cons_of_pos (by simpa using hl), keptLines_other fun h => absurd h hl,
        List.cons.injEq, ih]
      simp [NotStacked, hl]

lemma linesBy_trim (text : List Char) :
    linesBy trim text = (solidLines (text.splitOn '\n')).map trim := by
  rw [linesBy, List.filter_map, solidLines]
  rfl

/-- A text with the directive has the namespace. -/
lemma HasDirective.containsText {text : List Char} (h : HasDirective text) :
    containsText autorestNamespace text = true := by
  obtain ⟨a, d, b, rfl, -, hd⟩ := h
  obtain ⟨t, u, -, -, -, hsplit⟩ := hd.takeWhile b
  rw [containsText_iff, hsplit]
  refine ⟨a ++ ((d ++ b).takeWhile isBlank ++ ("using".toList ++ t)), u ++ ([';'] ++ b), ?_⟩
  simp only [List.append_assoc]

/-- Once all lines with the namespace are gone, there is none. -/
lemma not_containsText_of_linesBy {text left : List Char} (h : DirectivesAlone (text.splitOn '\n'))
    (hleft : linesBy trim left = (linesBy trim text).filter (· ≠ autorestUsing)) :
    containsText autorestNamespace left = false := by
  refine Bool.eq_false_iff.mpr fun hcontains => ?_
  have hne : autorestNamespace ≠ [] := by decide
  have htrimmed : IsTrimmed autorestNamespace := by decide
  obtain ⟨l, hl, hname⟩ := (containsText_iff_exists_line (by decide)).mp hcontains
  rw [← containsText_trim hne htrimmed] at hname
  -- the line is one of the old text, and not a directive there
  obtain ⟨m, hm, hname⟩ := (exists_containsText_linesBy hne).mpr ⟨l, hl, hname⟩
  rw [hleft, List.mem_filter] at hm
  obtain ⟨hold, hother⟩ := hm
  obtain ⟨k, hk, rfl⟩ := List.mem_map.mp (List.mem_filter.mp hold).1
  rw [containsText_trim hne htrimmed] at hname
  rw [h k hk hname] at hother
  simp at hother

/-- If the old generator's namespace stands only in lines that are nothing but its directive, then
exactly these lines go, no such directive is left, and removing it again changes nothing, exactly if no
such line begins with a blank and follows another one, blank lines aside. -/
theorem removeAutorestUsing_lines_iff (text : List Char) (h : DirectivesAlone (text.splitOn '\n')) :
    (linesBy trim (removeAutorestUsing text) = (linesBy trim text).filter (· ≠ autorestUsing) ∧
        containsText autorestNamespace (removeAutorestUsing text) = false ∧
        removeAutorestUsing (removeAutorestUsing text) = removeAutorestUsing text) ↔
      (solidLines (text.splitOn '\n')).IsChain NotStacked := by
  have hlines : linesBy trim (removeAutorestUsing text) =
        (linesBy trim text).filter (· ≠ autorestUsing) ↔
      (solidLines (text.splitOn '\n')).IsChain NotStacked := by
    rw [linesBy_removeAutorestUsing h, linesBy_trim, keptLines_eq_filter_iff]
    simp
  rw [← hlines]
  refine ⟨fun h => h.1, fun hleft => ?_⟩
  have hnone := not_containsText_of_linesBy h hleft
  refine ⟨hleft, hnone, not_not.mp fun hne => ?_⟩
  rw [((removeAutorestUsing_ne_iff _).mp hne).containsText] at hnone
  cases hnone

/-- Directives at the starts of their lines go, with the lines and the blanks around them. -/
theorem removeAutorestUsing_lines_apart :
    let text :=
      "using Azure;\r\n\n  using Autorest.CSharp.Core;\r\n\nusing Autorest.CSharp.Core;\n A".toList
    DirectivesAlone (text.splitOn '\n') ∧
      linesBy trim (removeAutorestUsing text) = (linesBy trim text).filter (· ≠ autorestUsing) ∧
      containsText autorestNamespace (removeAutorestUsing text) = false ∧
      removeAutorestUsing (removeAutorestUsing text) = removeAutorestUsing text := by
  intro text
  have halone : DirectivesAlone (text.splitOn '\n') := by decide
  exact ⟨halone, (removeAutorestUsing_lines_iff text halone).mpr (by decide)⟩

/-- An indented directive behind another one stays, as a line of its own. -/
theorem removeAutorestUsing_lines_stacked :
    let text := "using Autorest.CSharp.Core;\n  using Autorest.CSharp.Core;\n".toList
    DirectivesAlone (text.splitOn '\n') ∧
      removeAutorestUsing text = "using Autorest.CSharp.Core;\n".toList ∧
      linesBy trim (removeAutorestUsing text) ≠ (linesBy trim text).filter (· ≠ autorestUsing) := by
  decide

end BuildMend.Migration
