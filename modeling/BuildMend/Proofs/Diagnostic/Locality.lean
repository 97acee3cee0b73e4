import BuildMend.Proofs.Diagnostic.Rendering

/-!
When the diagnostics of two texts, one on the lines behind the other, are those of each of them.

* `Report.isOpen`, `Report.breaksOff`: a text ends within a report, at a place where blanks are passed
  over: the report goes on over the line feed.
* `Report.tail?_lineFeed`, `Report.form_lineFeed`: other reports do not go on over a line feed.
* `Report.valuesFrom_lineFeed`: so the reports of a text that does not break off are read wherever its
  lines stand.
* `Report.valuesFrom_completed`: a report that breaks off takes the line behind it for its message.
* `Findings.local_iff`: a text can be followed by any lines exactly if it does not break off.
* `Findings.hidden_error`: a line that is no diagnostic may hide the diagnostic on the next line.
-/

namespace BuildMend

open Text

/-! ### Parts of a report before a line feed -/

section Parts

variable {p : Char → Bool} {s b : List Char}

lemma takeWhile_lineFeed (hp : p '\n' = false) : (s ++ '\n' :: b).takeWhile p = s.takeWhile p := by
  induction s with
  | nil => simp [hp]
  | cons c s ih => simp [List.takeWhile_cons, ih]

lemma dropWhile_lineFeed (hp : p '\n' = false) :
    (s ++ '\n' :: b).dropWhile p = s.dropWhile p ++ '\n' :: b := by
  induction s with
  | nil => simp [hp]
  | cons c s ih =>
    simp only [List.cons_append, List.dropWhile_cons, ih]
    split <;> rfl

lemma afterLiteral?_lineFeed {literal : List Char} (hl : '\n' ∉ literal) :
    afterLiteral? literal (s ++ '\n' :: b) = (afterLiteral? literal s).map (· ++ '\n' :: b) := by
  induction literal generalizing s with
  | nil => rfl
  | cons l literal ih =>
    obtain ⟨hne, hl⟩ : '\n' ≠ l ∧ '\n' ∉ literal := by simpa using hl
    cases s with
    | nil => simp [afterLiteral?, hne.symm]
    | cons c s =>
      simp only [List.cons_append, afterLiteral?, ih hl]
      split <;> rfl

/-- Blanks are passed over up to the first other character. -/
lemma takeWhile_append_of_not_all (h : s.all p = false) (x : List Char) :
    (s ++ x).takeWhile p = s.takeWhile p := by
  induction s with
  | nil => cases h
  | cons c s ih =>
    cases hc : p c with
    | false => simp [hc]
    | true => simp [hc, ih (by simpa [hc] using h)]

lemma dropWhile_append_of_not_all (h : s.all p = false) (x : List Char) :
    (s ++ x).dropWhile p = s.dropWhile p ++ x := by
  induction s with
  | nil => cases h
  | cons c s ih =>
    cases hc : p c with
    | false => simp [hc]
    | true => simp [hc, ih (by simpa [hc] using h)]

lemma dropWhile_ne_nil_of_not_all (h : s.all p = false) : s.dropWhile p ≠ [] := by
  intro hnil
  rw [List.dropWhile_eq_nil_iff] at hnil
  rw [List.all_eq_true.mpr hnil] at h
  cases h

end Parts

namespace Report

variable {p : Char → Bool} {s b : List Char}

/-- What is found, with some more text behind the rest. -/
def withRest {α : Type} (x : List Char) (v : α × List Char) : α × List Char := (v.1, v.2 ++ x)

lemma run?_lineFeed (hp : p '\n' = false) :
    run? p (s ++ '\n' :: b) = (run? p s).map (withRest ('\n' :: b)) := by
  rw [run?, run?, takeWhile_lineFeed hp, dropWhile_lineFeed hp]
  split <;> rfl

lemma severity?_lineFeed :
    severity? (s ++ '\n' :: b) = (severity? s).map (withRest ('\n' :: b)) := by
  simp only [severity?, afterLiteral?_lineFeed (show '\n' ∉ "error".toList by decide),
    afterLiteral?_lineFeed (show '\n' ∉ "warning".toList by decide)]
  cases afterLiteral? "error".toList s <;> cases afterLiteral? "warning".toList s <;> rfl

/-- The position at the front, between brackets and with a colon, and the text behind it. -/
def position? (s : List Char) : Option ((List Char × List Char) × List Char) := do
  let rest ← afterLiteral? ['('] s
  let (line, rest) ← run? isAsciiDigit rest
  let rest ← afterLiteral? [','] rest
  let (column, rest) ← run? isAsciiDigit rest
  let rest ← afterLiteral? [')', ':'] rest
  return ((line, column), rest)

/-- A code and the colon behind it, and the text after them. -/
def code? (s : List Char) : Option (List Char × List Char) := do
  let (letters, rest) ← run? isCapital s
  let (digits, rest) ← run? isAsciiDigit rest
  let rest ← afterLiteral? [':'] rest
  return (letters ++ digits, rest)

lemma position?_lineFeed :
    position? (s ++ '\n' :: b) = (position? s).map (withRest ('\n' :: b)) := by
  simp only [position?, afterLiteral?_lineFeed (show '\n' ∉ ['('] by decide),
    afterLiteral?_lineFeed (show '\n' ∉ [','] by decide),
    afterLiteral?_lineFeed (show '\n' ∉ [')', ':'] by decide), Option.bind_eq_bind,
    run?_lineFeed (show isAsciiDigit '\n' = false by decide), Option.bind_map, Option.map_bind,
    Function.comp_def, withRest, Option.pure_def, Option.map_some]

lemma code?_lineFeed : code? (s ++ '\n' :: b) = (code? s).map (withRest ('\n' :: b)) := by
  simp only [code?, afterLiteral?_lineFeed (show '\n' ∉ [':'] by decide), Option.bind_eq_bind,
    run?_lineFeed (show isAsciiDigit '\n' = false by decide),
    run?_lineFeed (show isCapital '\n' = false by decide), Option.bind_map, Option.map_bind,
    Function.comp_def, withRest, Option.pure_def, Option.map_some]

lemma tail?_eq (s : List Char) : tail? s = do
    let ((line, column), rest) ← position? s
    let (severity, rest) ← severity? (rest.dropWhile isBlank)
    let (_, rest) ← run? isBlank rest
    let (code, rest) ← code? rest
    let (message, length) ← lineValue? rest
    return (⟨[], line, column, severity, code, message, []⟩, s.length - rest.length + length) := by
  simp only [tail?, position?, code?, Option.bind_eq_bind, Option.bind_assoc, Option.pure_def,
    Option.bind_some]

/-! ### Reports that go on over a line feed -/

/-- Behind a position a text ends where blanks are passed over: before or behind a severity, or behind
a code and its colon. -/
def endsInGap (s : List Char) : Bool :=
  s.all isBlank ||
    (severity? (s.dropWhile isBlank)).any fun (_, rest) =>
      rest.all isBlank ||
        ((run? isBlank rest).bind fun (_, rest) => code? rest).any fun (_, rest) => rest.all isBlank

/-- A text starts with a position, and ends where blanks are passed over behind it. -/
def isOpen (s : List Char) : Bool := (position? s).any fun (_, rest) => endsInGap rest

lemma run?_blank_append (h : s.all isBlank = false) (x : List Char) :
    run? isBlank (s ++ x) = (run? isBlank s).map (withRest x) := by
  rw [run?, run?, takeWhile_append_of_not_all h, dropWhile_append_of_not_all h]
  split <;> rfl

lemma lineValue?_lineFeed (h : s.all isBlank = false) :
    lineValue? (s ++ '\n' :: b) = lineValue? s := by
  rw [lineValue?, lineValue?, takeWhile_append_of_not_all h, dropWhile_append_of_not_all h]
  obtain ⟨c, rest, hrest⟩ := List.exists_cons_of_ne_nil (dropWhile_ne_nil_of_not_all h)
  have hvalue : (c :: rest ++ '\n' :: b).takeWhile (· != '\n') = (c :: rest).takeWhile (· != '\n') :=
    takeWhile_lineFeed rfl
  rw [hrest]
  simp only [List.cons_append] at hvalue ⊢
  rw [hvalue]

/-- The tail of a report that does not break off is read before a line feed as at the end. -/
theorem tail?_lineFeed (h : isOpen s = false) : tail? (s ++ '\n' :: b) = tail? s := by
  rw [tail?_eq, tail?_eq, position?_lineFeed]
  cases hpos : position? s with
  | none => rfl
  | some pos =>
  simp only [isOpen, hpos, Option.any_some, endsInGap, Bool.or_eq_false_iff] at h
  simp only [Option.map_some, withRest, Option.bind_eq_bind, Option.bind_some,
    dropWhile_append_of_not_all h.1, severity?_lineFeed]
  cases hsev : severity? (pos.2.dropWhile isBlank) with
  | none => rfl
  | some sev =>
  simp only [hsev, Option.any_some, Bool.or_eq_false_iff] at h
  simp only [Option.map_some, withRest, Option.bind_some, run?_blank_append h.2.1]
  cases hgap : run? isBlank sev.2 with
  | none => rfl
  | some gap =>
  simp only [hgap, Option.bind_some] at h
  simp only [Option.map_some, withRest, Option.bind_some, code?_lineFeed]
  cases hcode : code? gap.2 with
  | none => rfl
  | some code =>
  simp only [hcode, Option.any_some] at h
  simp only [Option.map_some, withRest, Option.bind_some, lineValue?_lineFeed h.2.2,
    List.length_append, Nat.add_sub_add_right]

/-! ### What a report takes -/

lemma position?_suffix {pos : (List Char × List Char) × List Char} (h : position? s = some pos) :
    pos.2 <:+ s := by
  simp only [position?, Option.bind_eq_bind, Option.bind_eq_some_iff, Option.pure_def,
    Option.some.injEq, afterLiteral?_eq_some_iff] at h
  obtain ⟨s₁, rfl, ⟨line, s₂⟩, h₂, s₃, rfl, ⟨column, s₄⟩, h₄, s₅, rfl, rfl⟩ := h
  obtain ⟨rfl, -⟩ := run?_eq_some h₂
  obtain ⟨rfl, -⟩ := run?_eq_some h₄
  exact ⟨['('] ++ (line ++ ([','] ++ (column ++ [')', ':']))), by simp⟩

lemma severity?_suffix {sev : Severity × List Char} (h : severity? s = some sev) : sev.2 <:+ s := by
  rw [severity?] at h
  split at h
  · rename_i rest hrest
    rw [afterLiteral?_eq_some_iff] at hrest
    obtain rfl := Option.some.inj h
    exact ⟨_, hrest.symm⟩
  · obtain ⟨rest, hrest, rfl⟩ := Option.map_eq_some_iff.mp h
    rw [afterLiteral?_eq_some_iff] at hrest
    exact ⟨_, hrest.symm⟩

lemma code?_suffix {code : List Char × List Char} (h : code? s = some code) : code.2 <:+ s := by
  simp only [code?, Option.bind_eq_bind, Option.bind_eq_some_iff, Option.pure_def,
    Option.some.injEq, afterLiteral?_eq_some_iff] at h
  obtain ⟨⟨letters, s₁⟩, h₁, ⟨digits, s₂⟩, h₂, s₃, rfl, rfl⟩ := h
  obtain ⟨rfl, -⟩ := run?_eq_some h₁
  obtain ⟨rfl, -⟩ := run?_eq_some h₂
  exact ⟨letters ++ (digits ++ [':']), by simp⟩

lemma lineValue?_length_le {v : List Char × Nat} (h : lineValue? s = some v) : v.2 ≤ s.length := by
  obtain ⟨value, n⟩ := v
  obtain ⟨gap, rest, rfl, rfl, -⟩ := exists_of_lineValue? h
  simp only [List.length_append]
  omega

/-- The tail of a report, by its parts. -/
lemma exists_of_tail? {r : Report × Nat} (h : tail? s = some r) :
    ∃ pos sev gap code v, position? s = some pos ∧ severity? (pos.2.dropWhile isBlank) = some sev ∧
      run? isBlank sev.2 = some gap ∧ code? gap.2 = some code ∧ lineValue? code.2 = some v ∧
      r = (⟨[], pos.1.1, pos.1.2, sev.1, code.1, v.1, []⟩, s.length - code.2.length + v.2) := by
  rw [tail?_eq] at h
  simp only [Option.bind_eq_bind, Option.bind_eq_some_iff, Option.pure_def, Option.some.injEq] at h
  obtain ⟨pos, hpos, sev, hsev, gap, hgap, code, hcode, v, hv, rfl⟩ := h
  exact ⟨pos, sev, gap, code, v, hpos, hsev, hgap, hcode, hv, rfl⟩

/-- The parts of a tail stand one behind the other. -/
lemma code_suffix {pos : (List Char × List Char) × List Char} {sev : Severity × List Char}
    {gap code : List Char × List Char} (hpos : position? s = some pos)
    (hsev : severity? (pos.2.dropWhile isBlank) = some sev) (hgap : run? isBlank sev.2 = some gap)
    (hcode : code? gap.2 = some code) : code.2 <:+ s :=
  (code?_suffix hcode).trans <| (List.IsSuffix.trans ⟨_, (run?_eq_some hgap).1.symm⟩ <|
    (severity?_suffix hsev).trans <| (List.dropWhile_suffix _).trans (position?_suffix hpos))

lemma tail?_length_le {r : Report × Nat} (h : tail? s = some r) : r.2 ≤ s.length := by
  obtain ⟨pos, sev, gap, code, v, hpos, hsev, hgap, hcode, hv, rfl⟩ := exists_of_tail? h
  have hlen := (code_suffix hpos hsev hgap hcode).length_le
  have hvalue := lineValue?_length_le hv
  dsimp only
  omega

lemma grow?_length_le {name : List Char} {r : Report × Nat} (h : grow? name s = some r) :
    r.2 ≤ s.length := by
  induction s generalizing name r with
  | nil => cases h
  | cons c s ih =>
    rw [grow?] at h
    split at h
    · rename_i report length htail
      obtain rfl := Option.some.inj h
      have hlen := tail?_length_le htail
      exact hlen
    · split at h
      · cases h
      · obtain ⟨r', hr', rfl⟩ := Option.map_eq_some_iff.mp h
        exact Nat.succ_le_succ (ih hr')

lemma form_length {before : Option Char} {r : Report × Nat} (h : form before s = some r) :
    0 < r.2 ∧ r.2 ≤ s.length := by
  cases s with
  | nil => cases h
  | cons c s =>
    simp only [form] at h
    split at h
    · cases h
    · obtain ⟨r', hr', rfl⟩ := Option.map_eq_some_iff.mp h
      exact ⟨Nat.succ_pos _, Nat.succ_le_succ (grow?_length_le hr')⟩

/-! ### Texts that break off -/

/-- Behind the beginning of a file name a position follows with which the text breaks off, before any
tail of a report and within the line. -/
def growsOpen : List Char → Bool
  | [] => false
  | c :: rest => isOpen (c :: rest) || ((tail? (c :: rest)).isNone && c != '\n' && growsOpen rest)

/-- A report starts here, and the text breaks off within it. -/
def startsOpen (before : Option Char) : List Char → Bool
  | [] => false
  | c :: rest => atLineStart before && c != '\n' && growsOpen rest

/-- Whether a text whose first `skip` characters are taken breaks off within a report. -/
def breaksOffFrom : (skip : Nat) → (before : Option Char) → List Char → Bool
  | _, _, [] => false
  | skip + 1, _, c :: rest => breaksOffFrom skip (some c) rest
  | 0, before, c :: rest =>
    startsOpen before (c :: rest) ||
      match form before (c :: rest) with
      | some (_, length + 1) => breaksOffFrom length (some c) rest
      | _ => breaksOffFrom 0 (some c) rest

/-- Whether a text breaks off within a report: it ends where the report passes over blanks, and so the
report goes on over a line feed. -/
def breaksOff (text : List Char) : Bool := breaksOffFrom 0 none text

lemma grow?_lineFeed (h : growsOpen s = false) (name : List Char) :
    grow? name (s ++ '\n' :: b) = grow? name s := by
  induction s generalizing name with
  | nil =>
    have hnone : tail? ('\n' :: b) = none :=
      tail?_eq_none fun hstart => absurd hstart.head (by decide)
    simp [grow?, hnone]
  | cons c s ih =>
    rw [growsOpen, Bool.or_eq_false_iff] at h
    have htail := tail?_lineFeed (b := b) h.1
    rw [List.cons_append] at htail ⊢
    rw [grow?, grow?, htail]
    cases hr : tail? (c :: s) with
    | some r => rfl
    | none =>
      simp only
      split
      · rfl
      · rename_i hc
        have hc : c ≠ '\n' := by simpa using hc
        rw [ih (by simpa [hr, hc] using h.2)]

lemma form_lineFeed {before : Option Char} (h : startsOpen before s = false) (hs : s ≠ []) :
    form before (s ++ '\n' :: b) = form before s := by
  obtain ⟨c, s, rfl⟩ := List.exists_cons_of_ne_nil hs
  simp only [List.cons_append, form]
  split
  · rfl
  · rename_i hstart
    have hopen : growsOpen s = false := by
      obtain ⟨hb, hc⟩ : atLineStart before = true ∧ c ≠ '\n' := by simpa using hstart
      simpa [startsOpen, hb, hc] using h
    rw [grow?_lineFeed hopen]
    cases hr : grow? [c] s with
    | none => rfl
    | some r =>
      have hlen := grow?_length_le hr
      simp only [Option.map_some, List.take_succ_cons, List.take_append_of_le_length hlen]

/-! ### Texts that do not break off -/

lemma breaksOffFrom_skip {before : Option Char} (x y : List Char) :
    breaksOffFrom x.length before (x ++ y) = breaksOffFrom 0 (lastOr before x) y := by
  induction x generalizing before with
  | nil => rfl
  | cons c x ih => rw [List.length_cons, List.cons_append, breaksOffFrom, ih, lastOr_cons]

/-- Where no report starts that the text breaks off within, the text is read up to some place, and
whether a line feed follows behind it does not matter for that. -/
lemma exists_read {before : Option Char} (h : startsOpen before s = false) (hs : s ≠ []) :
    ∃ x y values, y.length < s.length ∧
      breaksOffFrom 0 before s = breaksOffFrom 0 (lastOr before x) y ∧
      form.valuesFrom before s = values ++ form.valuesFrom (lastOr before x) y ∧
      ∀ b, form.valuesFrom before (s ++ '\n' :: b) =
        values ++ form.valuesFrom (lastOr before x) (y ++ '\n' :: b) := by
  obtain ⟨c, rest, rfl⟩ := List.exists_cons_of_ne_nil hs
  have hbreak (b : List Char) := form_lineFeed (b := b) h hs
  cases hr : form before (c :: rest) with
  | none =>
    refine ⟨[c], rest, [], by simp, ?_, Form.valuesFrom_no_match hr, fun b => ?_⟩
    · rw [breaksOffFrom, h, hr]
      rfl
    · exact Form.valuesFrom_no_match ((hbreak b).trans hr)
  | some r =>
    obtain ⟨value, length⟩ := r
    obtain ⟨hpos, hlen⟩ := form_length hr
    obtain ⟨length, rfl⟩ := Nat.exists_eq_succ_of_ne_zero hpos.ne'
    -- the report takes the text up to its length
    obtain ⟨x, y, hxy, hx⟩ : ∃ x y, rest = x ++ y ∧ x.length = length :=
      ⟨rest.take length, rest.drop length, (List.take_append_drop _ _).symm,
        List.length_take_of_le (Nat.le_of_succ_le_succ hlen)⟩
    subst hxy hx
    refine ⟨c :: x, y, [value], by simp, ?_, ?_, fun b => ?_⟩
    · rw [breaksOffFrom, h, hr, lastOr_cons, Bool.false_or]
      exact breaksOffFrom_skip x y
    · exact Form.valuesFrom_match (a := c :: x) (by simp) hr
    · have hr' := (hbreak b).trans hr
      rw [← List.cons_append, List.append_assoc] at hr' ⊢
      exact Form.valuesFrom_match (by simp) hr'

/-- The reports of a text that does not break off are read wherever its lines stand. -/
theorem valuesFrom_lineFeed {before : Option Char} (h : breaksOffFrom 0 before s = false)
    (b : List Char) :
    form.valuesFrom before (s ++ '\n' :: b) =
      form.valuesFrom before s ++ form.valuesFrom (some '\n') b := by
  induction hn : s.length using Nat.strong_induction_on generalizing s before with
  | _ n ih =>
    cases s with
    | nil => exact Form.valuesFrom_no_match (ofLines_form.nonempty _ _ (endsLine_lineFeed b))
    | cons c rest =>
      have hstart : startsOpen before (c :: rest) = false := by
        rw [breaksOffFrom, Bool.or_eq_false_iff] at h
        exact h.1
      obtain ⟨x, y, values, hshort, hbreaks, hvalues, hbehind⟩ := exists_read hstart (by simp)
      rw [hbehind, hvalues, ih _ (hn ▸ hshort) (hbreaks ▸ h) rfl, List.append_assoc]

/-- A text that breaks off is read up to the report within which it does. -/
theorem exists_startsOpen {before : Option Char} (h : breaksOffFrom 0 before s = true) :
    ∃ before' t values, startsOpen before' t = true ∧
      form.valuesFrom before s = values ++ form.valuesFrom before' t ∧
      ∀ b, form.valuesFrom before (s ++ '\n' :: b) =
        values ++ form.valuesFrom before' (t ++ '\n' :: b) := by
  induction hn : s.length using Nat.strong_induction_on generalizing s before with
  | _ n ih =>
    cases hstart : startsOpen before s with
    | true => exact ⟨before, s, [], hstart, rfl, fun b => rfl⟩
    | false =>
      have hne : s ≠ [] := by
        rintro rfl
        cases h
      obtain ⟨x, y, values, hshort, hbreaks, hvalues, hbehind⟩ := exists_read hstart hne
      obtain ⟨before', t, values', hopen, ht, htb⟩ := ih _ (hn ▸ hshort) (hbreaks ▸ h) rfl
      refine ⟨before', t, values ++ values', hopen, ?_, fun b => ?_⟩
      · rw [hvalues, ht, List.append_assoc]
      · rw [hbehind, htb, List.append_assoc]

/-! ### What a report that breaks off takes -/

/-- A message as a report may have it at the end of a text. -/
structure IsMessage (m : List Char) : Prop where
  ne : m ≠ []
  head : ∀ c ∈ m.head?, isBlank c = false
  line : '\n' ∉ m

/-- What a report lacks that breaks off behind its position, its severity or its code. -/
def completions : List (List Char) := ["error CS1: ".toList, "CS1: ".toList, []]

lemma lineValue?_gap {g m : List Char} (hg : g.all isBlank = true) (hm : IsMessage m) :
    lineValue? (g ++ m) = some (m, (g ++ m).length) := by
  have h := Text.lineValue?_gap (List.all_eq_true.mp hg) hm.ne hm.head hm.line endsLine_nil
  rwa [List.append_nil, ← List.length_append] at h

/-- The parts of a tail whose message is the rest of the text. -/
lemma tail?_of_parts {pos : (List Char × List Char) × List Char} {sev : Severity × List Char}
    {gap code : List Char × List Char} {m : List Char} (hpos : position? s = some pos)
    (hsev : severity? (pos.2.dropWhile isBlank) = some sev) (hgap : run? isBlank sev.2 = some gap)
    (hcode : code? gap.2 = some code) (hm : lineValue? code.2 = some (m, code.2.length)) :
    tail? s = some (⟨[], pos.1.1, pos.1.2, sev.1, code.1, m, []⟩, s.length) := by
  have hlen := (code_suffix hpos hsev hgap hcode).length_le
  rw [tail?_eq]
  simp only [hpos, hsev, hgap, hcode, hm, Option.bind_eq_bind, Option.bind_some, Option.pure_def,
    Nat.sub_add_cancel hlen]

lemma all_isBlank_lineFeed (h : s.all isBlank = true) : (s ++ ['\n']).all isBlank = true := by
  rw [List.all_append, h]
  rfl

lemma dropWhile_gap {g x : List Char} (hg : g.all isBlank = true)
    (hx : ∀ c ∈ x.head?, isBlank c = false) : (g ++ '\n' :: x).dropWhile isBlank = x := by
  rw [List.append_cons, List.dropWhile_append_of_pos
    (List.all_eq_true.mp (all_isBlank_lineFeed hg)), dropWhile_eq_self hx]

lemma run?_gap {g x : List Char} (hg : g.all isBlank = true)
    (hx : ∀ c ∈ x.head?, isBlank c = false) :
    run? isBlank (g ++ '\n' :: x) = some (g ++ ['\n'], x) := by
  rw [List.append_cons]
  exact run?_append (by simp) (List.all_eq_true.mp (all_isBlank_lineFeed hg)) hx

lemma position?_behind {pos : (List Char × List Char) × List Char} (hpos : position? s = some pos)
    (b : List Char) : position? (s ++ '\n' :: b) = some (pos.1, pos.2 ++ '\n' :: b) := by
  rw [position?_lineFeed, hpos]
  rfl

lemma severity?_behind {sev : Severity × List Char} (hgap : s.all isBlank = false)
    (hsev : severity? (s.dropWhile isBlank) = some sev) (b : List Char) :
    severity? ((s ++ '\n' :: b).dropWhile isBlank) = some (sev.1, sev.2 ++ '\n' :: b) := by
  rw [dropWhile_append_of_not_all hgap, severity?_lineFeed, hsev]
  rfl

/-- A blank is passed over before a message. -/
lemma lineValue?_message {m : List Char} (hm : IsMessage m) :
    lineValue? (' ' :: m) = some (m, (' ' :: m).length) :=
  lineValue?_gap (g := [' ']) rfl hm

section Completed

variable {pos : (List Char × List Char) × List Char} {sev : Severity × List Char} {m : List Char}

/-- A report that breaks off behind its position takes the rest from the next line. -/
lemma tail?_behind_position (hpos : position? s = some pos) (hend : pos.2.all isBlank = true)
    (hm : IsMessage m) :
    tail? (s ++ '\n' :: ("error CS1: ".toList ++ m)) =
      some (⟨[], pos.1.1, pos.1.2, .error, "CS1".toList, m, []⟩,
        (s ++ '\n' :: ("error CS1: ".toList ++ m)).length) := by
  have hsev : severity? ((pos.2 ++ '\n' :: ("error CS1: ".toList ++ m)).dropWhile isBlank) =
      some (.error, ' ' :: ("CS1: ".toList ++ m)) := by
    rw [dropWhile_gap hend (by simp; decide)]
    rfl
  have hgap : run? isBlank (' ' :: ("CS1: ".toList ++ m)) = some ([' '], "CS1: ".toList ++ m) :=
    run?_append (List.cons_ne_nil ' ' []) (by simp; decide) (by simp; decide)
  have hcode : code? ("CS1: ".toList ++ m) = some ("CS1".toList, ' ' :: m) := rfl
  exact tail?_of_parts (position?_behind hpos _) hsev hgap hcode (lineValue?_message hm)

/-- A report that breaks off behind its severity takes the rest from the next line. -/
lemma tail?_behind_severity (hpos : position? s = some pos) (hgap : pos.2.all isBlank = false)
    (hsev : severity? (pos.2.dropWhile isBlank) = some sev) (hend : sev.2.all isBlank = true)
    (hm : IsMessage m) :
    tail? (s ++ '\n' :: ("CS1: ".toList ++ m)) =
      some (⟨[], pos.1.1, pos.1.2, sev.1, "CS1".toList, m, []⟩,
        (s ++ '\n' :: ("CS1: ".toList ++ m)).length) := by
  have hgap' : run? isBlank (sev.2 ++ '\n' :: ("CS1: ".toList ++ m)) =
      some (sev.2 ++ ['\n'], "CS1: ".toList ++ m) :=
    run?_gap hend (by simp; decide)
  have hcode : code? ("CS1: ".toList ++ m) = some ("CS1".toList, ' ' :: m) := rfl
  exact tail?_of_parts (position?_behind hpos _) (severity?_behind hgap hsev _) hgap' hcode
    (lineValue?_message hm)

/-- A report that breaks off behind its code takes its message from the next line. -/
lemma tail?_behind_code {gap code : List Char × List Char} (hpos : position? s = some pos)
    (hgap : pos.2.all isBlank = false) (hsev : severity? (pos.2.dropWhile isBlank) = some sev)
    (hgap' : sev.2.all isBlank = false) (hrun : run? isBlank sev.2 = some gap)
    (hcode : code? gap.2 = some code) (hend : code.2.all isBlank = true) (hm : IsMessage m) :
    tail? (s ++ '\n' :: m) =
      some (⟨[], pos.1.1, pos.1.2, sev.1, code.1, m, []⟩, (s ++ '\n' :: m).length) := by
  have hrun' : run? isBlank (sev.2 ++ '\n' :: m) = some (gap.1, gap.2 ++ '\n' :: m) := by
    rw [run?_blank_append hgap', hrun]
    rfl
  have hcode' : code? (gap.2 ++ '\n' :: m) = some (code.1, code.2 ++ '\n' :: m) := by
    rw [code?_lineFeed, hcode]
    rfl
  have hvalue : lineValue? (code.2 ++ '\n' :: m) = some (m, (code.2 ++ '\n' :: m).length) := by
    rw [List.append_cons]
    exact lineValue?_gap (all_isBlank_lineFeed hend) hm
  have htail := tail?_of_parts (position?_behind hpos m) (severity?_behind hgap hsev m) hrun'
    hcode' hvalue
  exact htail

end Completed

/-- A report that breaks off goes on with what it lacks and any message. -/
theorem tail?_completed (h : isOpen s = true) :
    ∃ line column, ∃ pre ∈ completions, ∀ m, IsMessage m →
      ∃ severity code, tail? (s ++ '\n' :: (pre ++ m)) =
        some (⟨[], line, column, severity, code, m, []⟩, (s ++ '\n' :: (pre ++ m)).length) := by
  cases hpos : position? s with
  | none => simp [isOpen, hpos] at h
  | some pos =>
  simp only [isOpen, hpos, Option.any_some, endsInGap] at h
  refine ⟨pos.1.1, pos.1.2, ?_⟩
  cases hgap : pos.2.all isBlank with
  | true =>
    exact ⟨_, by simp [completions], fun m hm =>
      ⟨.error, "CS1".toList, tail?_behind_position hpos hgap hm⟩⟩
  | false =>
  cases hsev : severity? (pos.2.dropWhile isBlank) with
  | none => simp [hgap, hsev] at h
  | some sev =>
  simp only [hgap, hsev, Option.any_some, Bool.false_or] at h
  cases hgap' : sev.2.all isBlank with
  | true =>
    exact ⟨_, by simp [completions], fun m hm =>
      ⟨sev.1, "CS1".toList, tail?_behind_severity hpos hgap hsev hgap' hm⟩⟩
  | false =>
  cases hrun : run? isBlank sev.2 with
  | none => simp [hgap', hrun] at h
  | some gap =>
  cases hcode : code? gap.2 with
  | none => simp [hgap', hrun, hcode] at h
  | some code =>
    simp only [hgap', hrun, hcode, Option.bind_some, Option.any_some, Bool.false_or] at h
    exact ⟨[], by simp [completions], fun m hm =>
      ⟨sev.1, code.1, tail?_behind_code hpos hgap hsev hgap' hrun hcode h hm⟩⟩

/-- A file name grows up to the position with which the text breaks off. -/
lemma grow?_of_growsOpen (h : growsOpen s = true) :
    ∃ u t, s = u ++ t ∧ isOpen t = true ∧ ∀ name b r, tail? (t ++ '\n' :: b) = some r →
      grow? name (s ++ '\n' :: b) = some ({ r.1 with file := name.reverse ++ u }, u.length + r.2) := by
  induction s with
  | nil => cases h
  | cons c s ih =>
    cases hopen : isOpen (c :: s) with
    | true =>
      refine ⟨[], c :: s, rfl, hopen, fun name b r hr => ?_⟩
      rw [List.cons_append] at hr ⊢
      rw [grow?, hr]
      simp
    | false =>
      simp only [growsOpen, hopen, Bool.false_or, Bool.and_eq_true] at h
      obtain ⟨⟨htail, hc⟩, hgrows⟩ := h
      obtain ⟨u, t, rfl, ht, hgrow⟩ := ih hgrows
      refine ⟨c :: u, t, rfl, ht, fun name b r hr => ?_⟩
      have hnone : tail? (c :: (u ++ t ++ '\n' :: b)) = none := by
        rw [← List.cons_append, tail?_lineFeed hopen]
        simpa using htail
      have hc : (c == '\n') = false := by simpa using hc
      rw [List.cons_append, grow?, hnone, hc, hgrow _ b r hr]
      simp [Nat.add_right_comm]

lemma form_of_grow? {before : Option Char} {c : Char} {r : Report × Nat}
    (hb : atLineStart before = true) (hc : c ≠ '\n') (h : grow? [c] s = some r) :
    form before (c :: s) = some ({ r.1 with source := (c :: s).take (r.2 + 1) }, r.2 + 1) := by
  simp [form, hb, hc, h]

/-- A report that takes a whole text is the only one there. -/
lemma valuesFrom_whole {before : Option Char} {r : Report} (hs : s ≠ [])
    (h : form before s = some (r, s.length)) : form.valuesFrom before s = [r] := by
  have h : form before (s ++ []) = some (r, s.length) := by rwa [List.append_nil]
  simpa using Form.valuesFrom_match hs h

/-- Behind a text that breaks off, what the report lacks and any message belong to the report. -/
theorem valuesFrom_completed {before : Option Char} (h : startsOpen before s = true) :
    ∃ line column, ∃ pre ∈ completions, ∀ m, IsMessage m →
      ∃ r, form.valuesFrom before (s ++ '\n' :: (pre ++ m)) = [r] ∧ r.line = line ∧
        r.column = column := by
  cases s with
  | nil => cases h
  | cons c s =>
    simp only [startsOpen, Bool.and_eq_true, bne_iff_ne] at h
    obtain ⟨⟨hb, hc⟩, hgrows⟩ := h
    obtain ⟨u, t, rfl, ht, hgrow⟩ := grow?_of_growsOpen hgrows
    obtain ⟨line, column, pre, hpre, htail⟩ := tail?_completed ht
    refine ⟨line, column, pre, hpre, fun m hm => ?_⟩
    obtain ⟨severity, code, hr⟩ := htail m hm
    have hform := form_of_grow? hb hc (hgrow [c] _ _ hr)
    -- the report takes all of the text
    have hlen : u.length + (t ++ '\n' :: (pre ++ m)).length + 1 =
        (c :: (u ++ t ++ '\n' :: (pre ++ m))).length := by
      simp only [List.length_append, List.length_cons]
      omega
    simp only [hlen] at hform
    exact ⟨_, valuesFrom_whole (List.cons_ne_nil c _) hform, rfl, rfl⟩

end Report

/-! ### Findings -/

namespace Findings

/-- Whether a text can be followed by any lines: its diagnostics and theirs are those of both. -/
def IsLocal (a : String) : Prop :=
  ∀ b, (ofOutput (a ++ "\n" ++ b)).errors = (ofOutput a).errors ++ (ofOutput b).errors ∧
    (ofOutput (a ++ "\n" ++ b)).warnings = (ofOutput a).warnings ++ (ofOutput b).warnings

/-- The diagnostics that are read behind some character. -/
def diagnosticsFrom (before : Option Char) (s : List Char) : List Diagnostic :=
  (Report.form.valuesFrom before s).filterMap Diagnostic.ofReport?

lemma diagnostics_eq (a : String) : diagnostics a = diagnosticsFrom none a.toList := rfl

/-- The start of a text is the start of a line. -/
lemma diagnosticsFrom_lineFeed (s : List Char) :
    diagnosticsFrom (some '\n') s = diagnosticsFrom none s := by
  cases s with
  | nil => rfl
  | cons c s =>
    have hform : Report.form (some '\n') (c :: s) = Report.form none (c :: s) := rfl
    rw [diagnosticsFrom, diagnosticsFrom, Form.valuesFrom, Form.valuesFrom, Form.occurrencesFrom,
      Form.occurrencesFrom, hform]

lemma toList_lines (a b : String) : (a ++ "\n" ++ b).toList = a.toList ++ '\n' :: b.toList := by
  simp

/-- The errors and the warnings are all diagnostics. -/
lemma length_errors_add_warnings (a : String) :
    (ofOutput a).errors.length + (ofOutput a).warnings.length = (diagnostics a).length :=
  (List.length_eq_length_filter_add _).symm

/-- Whether a report can be read depends on its position. -/
lemma length_filterMap_ofReport? {r r' : Report} (hline : r.line = r'.line)
    (hcolumn : r.column = r'.column) :
    ([r].filterMap Diagnostic.ofReport?).length = ([r'].filterMap Diagnostic.ofReport?).length := by
  simp only [List.filterMap_cons, List.filterMap_nil, Diagnostic.ofReport?, hline, hcolumn]
  split_ifs <;> rfl

lemma isLocal_of_breaksOff {a : String} (h : Report.breaksOff a.toList = false) : IsLocal a := by
  intro b
  have hboth : diagnostics (a ++ "\n" ++ b) = diagnostics a ++ diagnostics b := by
    rw [diagnostics_eq, diagnostics_eq, diagnostics_eq, toList_lines, ← diagnosticsFrom_lineFeed b.toList,
      diagnosticsFrom, Report.valuesFrom_lineFeed h, List.filterMap_append]
    rfl
  simp only [ofOutput, hboth, List.filter_append, and_self]

/-- The lines that a report may take: they hold no diagnostic, or one. -/
lemma length_diagnostics_completion {pre : List Char} (h : pre ∈ Report.completions) :
    (diagnostics (String.ofList (pre ++ "x".toList))).length = 0 ∧
      (diagnostics (String.ofList (pre ++ "x(1,1): error CS1: x".toList))).length = 1 := by
  simp only [Report.completions, List.mem_cons, List.not_mem_nil, or_false] at h
  rcases h with rfl | rfl | rfl <;> decide

lemma not_isLocal_of_breaksOff {a : String} (h : Report.breaksOff a.toList = true) : ¬IsLocal a := by
  intro hlocal
  obtain ⟨before, t, values, hopen, hvalues, hbehind⟩ := Report.exists_startsOpen h
  obtain ⟨line, column, pre, hpre, hcompleted⟩ := Report.valuesFrom_completed hopen
  obtain ⟨hnone, hone⟩ := length_diagnostics_completion hpre
  -- as many diagnostics are read, whether or not the line that is taken holds one
  have hcount (m : List Char) : (diagnostics (a ++ "\n" ++ String.ofList (pre ++ m))).length =
      (diagnostics a).length + (diagnostics (String.ofList (pre ++ m))).length := by
    rw [← length_errors_add_warnings, ← length_errors_add_warnings, ← length_errors_add_warnings,
      (hlocal _).1, (hlocal _).2, List.length_append, List.length_append]
    omega
  have htaken (m : List Char) : diagnostics (a ++ "\n" ++ String.ofList (pre ++ m)) =
      values.filterMap Diagnostic.ofReport? ++ diagnosticsFrom before (t ++ '\n' :: (pre ++ m)) := by
    rw [diagnostics_eq, toList_lines, String.toList_ofList, diagnosticsFrom, hbehind,
      List.filterMap_append]
    rfl
  obtain ⟨r, hr, hline, hcolumn⟩ := hcompleted "x".toList ⟨by decide, by simp; decide, by decide⟩
  obtain ⟨r', hr', hline', hcolumn'⟩ :=
    hcompleted "x(1,1): error CS1: x".toList ⟨by decide, by simp; decide, by decide⟩
  have hsame := length_filterMap_ofReport? (hline.trans hline'.symm) (hcolumn.trans hcolumn'.symm)
  have hfirst := hcount "x".toList
  have hsecond := hcount "x(1,1): error CS1: x".toList
  rw [htaken, List.length_append, diagnosticsFrom, hr, hnone] at hfirst
  rw [htaken, List.length_append, diagnosticsFrom, hr', hone] at hsecond
  omega

/-- A text can be followed by any lines exactly if it does not break off within a report, where the
report passes over blanks and so goes on over the line feed. -/
theorem local_iff (a : String) : IsLocal a ↔ Report.breaksOff a.toList = false := by
  refine ⟨fun h => ?_, isLocal_of_breaksOff⟩
  cases hbreaks : Report.breaksOff a.toList with
  | false => rfl
  | true => exact absurd h (not_isLocal_of_breaksOff hbreaks)

example : Report.breaksOff "a.cs(1,2): error CS0001:".toList = true := by decide

example : Report.breaksOff "a.cs(1,2): error CS0001: see b.cs(3,4):".toList = false := by decide

/-- A line that is no diagnostic may hide the diagnostic on the next line. -/
theorem hidden_error :
    ¬∀ a b : String,
      (ofOutput (a ++ "\n" ++ b)).errors = (ofOutput a).errors ++ (ofOutput b).errors ∧
        (ofOutput (a ++ "\n" ++ b)).warnings = (ofOutput a).warnings ++ (ofOutput b).warnings := by
  intro h
  have hline := (h "a.cs(1,2): error CS0001:" "b.cs(3,4): error CS0002: bang").1
  revert hline
  decide

end Findings

end BuildMend
