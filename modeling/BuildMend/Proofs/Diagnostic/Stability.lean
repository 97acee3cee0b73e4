import BuildMend.Proofs.Diagnostic.Locality

/-!
Diagnostics that are read, printed and read again.

* `Report.Head`: a report from its position to the colon of its code, part by part.
* `Report.tail?_eq_some_iff`: the tail of a report is a head with a value of a line behind it.
* `Report.Head.exists_append`: a head does not go on over the bracket of another one.
* `Report.grow?_eq_some_iff`: a file name grows up to the first tail in its line.
* `Report.tail?_eq_none_of_bracket`: whether a tail starts before the bracket of a position does not
  depend on the blanks before that bracket, nor on what is behind it.
* `Findings.ofOutput_text`: a diagnostic that is found somewhere is the only one in its own text.
-/

namespace BuildMend

open Text Number

lemma IsCode.head_not_blank {code : List Char} (h : IsCode code) (b : List Char) :
    ∀ c ∈ (code ++ b).head?, isBlank c = false := by
  obtain ⟨letters, digits, rfl, ⟨hne, hletters⟩, -⟩ := h
  obtain ⟨c, letters, rfl⟩ := List.exists_cons_of_ne_nil hne
  simpa using Report.isBlank_capital (hletters c (by simp))

namespace Report

variable {s rest : List Char}

/-! ### The parts of a tail -/

lemma position?_eq_some_iff {line column : List Char} :
    position? s = some ((line, column), rest) ↔
      AreDigits line ∧ AreDigits column ∧
        s = '(' :: (line ++ ',' :: (column ++ ')' :: ':' :: rest)) := by
  constructor
  · intro h
    simp only [position?, Option.bind_eq_bind, Option.bind_eq_some_iff, Option.pure_def,
      Option.some.injEq, afterLiteral?_eq_some_iff, Prod.mk.injEq] at h
    obtain ⟨s₁, rfl, ⟨line', s₂⟩, h₂, s₃, rfl, ⟨column', s₄⟩, h₄, s₅, rfl, ⟨rfl, rfl⟩, rfl⟩ := h
    obtain ⟨rfl, hline⟩ := run?_eq_some h₂
    obtain ⟨rfl, hcolumn⟩ := run?_eq_some h₄
    exact ⟨hline, hcolumn, rfl⟩
  · rintro ⟨hline, hcolumn, rfl⟩
    have hl : run? isAsciiDigit (line ++ ',' :: (column ++ ')' :: ':' :: rest)) =
        some (line, ',' :: (column ++ ')' :: ':' :: rest)) :=
      run?_append hline.1 hline.2 (by simp; decide)
    have hc : run? isAsciiDigit (column ++ ')' :: ':' :: rest) = some (column, ')' :: ':' :: rest) :=
      run?_append hcolumn.1 hcolumn.2 (by simp; decide)
    simp [position?, afterLiteral?, hl, hc]

lemma severity?_eq_some_iff {v : Severity} :
    severity? s = some (v, rest) ↔ s = v.name.toList ++ rest := by
  constructor
  · intro h
    rw [severity?] at h
    split at h
    · rename_i hrest
      obtain ⟨rfl, rfl⟩ := Prod.mk.inj (Option.some.inj h)
      exact afterLiteral?_eq_some_iff.mp hrest
    · obtain ⟨rest', hrest, hv⟩ := Option.map_eq_some_iff.mp h
      obtain ⟨rfl, rfl⟩ := Prod.mk.inj hv
      exact afterLiteral?_eq_some_iff.mp hrest
  · rintro rfl
    exact severity?_name v rest

lemma code?_eq_some_iff {code : List Char} :
    code? s = some (code, rest) ↔ IsCode code ∧ s = code ++ ':' :: rest := by
  constructor
  · intro h
    simp only [code?, Option.bind_eq_bind, Option.bind_eq_some_iff, Option.pure_def,
      Option.some.injEq, afterLiteral?_eq_some_iff, Prod.mk.injEq] at h
    obtain ⟨⟨letters, s₁⟩, h₁, ⟨digits, s₂⟩, h₂, s₃, rfl, rfl, rfl⟩ := h
    obtain ⟨rfl, hletters⟩ := run?_eq_some h₁
    obtain ⟨rfl, hdigits⟩ := run?_eq_some h₂
    exact ⟨⟨letters, digits, rfl, hletters, hdigits⟩, by simp⟩
  · rintro ⟨hcode, rfl⟩
    obtain ⟨letters, digits, rfl, -, hletters, hdigits⟩ := run?_code hcode rest
    simp only [code?, hletters, hdigits, afterLiteral?, Option.bind_eq_bind, Option.bind_some,
      beq_self_eq_true, if_true, Option.pure_def]

/-! ### The head of a report -/

/-- A report from its position to the colon of its code, with the blanks between its parts. -/
structure Head where
  line : List Char
  column : List Char
  /-- The blanks before the severity. -/
  gap : List Char
  severity : Severity
  /-- The blanks behind the severity. -/
  space : List Char
  code : List Char
  line_digits : AreDigits line
  column_digits : AreDigits column
  gap_blank : IsGap gap
  space_ne : space ≠ []
  space_blank : IsGap space
  code_isCode : IsCode code

namespace Head

/-- The text of a head behind its opening bracket. -/
def body (h : Head) : List Char :=
  h.line ++ ',' :: (h.column ++ ')' :: ':' ::
    (h.gap ++ (h.severity.name.toList ++ (h.space ++ (h.code ++ [':'])))))

/-- The text of a head. -/
def text (h : Head) : List Char := '(' :: h.body

/-- The report that a head begins, with a message. -/
def report (h : Head) (message : List Char) : Report :=
  ⟨[], h.line, h.column, h.severity, h.code, message, []⟩

/-- Behind its first character a head has no opening bracket. -/
lemma bracket_not_mem_body (h : Head) : '(' ∉ h.body := by
  have hline : '(' ∉ h.line := fun hc => absurd (h.line_digits.2 _ hc) (by decide)
  have hcolumn : '(' ∉ h.column := fun hc => absurd (h.column_digits.2 _ hc) (by decide)
  have hgap : '(' ∉ h.gap := h.gap_blank.not_mem (by decide)
  have hspace : '(' ∉ h.space := h.space_blank.not_mem (by decide)
  have hcode : '(' ∉ h.code := h.code_isCode.not_mem (by decide) (by decide)
  have hname : '(' ∉ h.severity.name.toList := by cases h.severity <;> decide
  simp [body, hline, hcolumn, hgap, hspace, hcode, hname]

/-- A head does not go on over the bracket of another one. -/
lemma exists_append {h : Head} {y t : List Char} (hy : y ≠ [])
    (heq : y ++ '(' :: t = h.text ++ rest) : ∃ z, y = h.text ++ z := by
  obtain ⟨c, y, rfl⟩ := List.exists_cons_of_ne_nil hy
  obtain ⟨rfl, hbody⟩ : c = '(' ∧ y ++ '(' :: t = h.body ++ rest := List.cons.inj heq
  rcases List.append_eq_append_iff.mp hbody with ⟨z, hz, hrest⟩ | ⟨z, hz, -⟩
  · cases z with
    | nil => exact ⟨[], by simp [text, hz]⟩
    | cons d z =>
      -- the bracket would be one of the head's
      obtain ⟨rfl, -⟩ := List.cons.inj hrest
      exact absurd (by simp [hz]) h.bracket_not_mem_body
  · exact ⟨z, by rw [hz]; rfl⟩

end Head

/-- The tail of a report is a head with a value of a line behind it. -/
theorem tail?_eq_some_iff {r : Report} {n : Nat} :
    tail? s = some (r, n) ↔ ∃ (h : Head) (rest message : List Char) (k : Nat),
      s = h.text ++ rest ∧ lineValue? rest = some (message, k) ∧ r = h.report message ∧
        n = h.text.length + k := by
  constructor
  · intro h
    obtain ⟨⟨⟨line, column⟩, s₁⟩, ⟨severity, s₂⟩, ⟨space, s₃⟩, ⟨code, rest⟩, ⟨message, k⟩, hpos, hsev,
      hspace, hcode, hv, hr⟩ := exists_of_tail? h
    obtain ⟨rfl, rfl⟩ := Prod.mk.inj hr
    obtain ⟨hline, hcolumn, rfl⟩ := position?_eq_some_iff.mp hpos
    obtain ⟨rfl, hne, hblank⟩ := run?_eq_some hspace
    obtain ⟨hisCode, hs₃⟩ := code?_eq_some_iff.mp hcode
    obtain ⟨gap, hgap, hs₁⟩ : ∃ gap, IsGap gap ∧ s₁ = gap ++ s₁.dropWhile isBlank :=
      ⟨s₁.takeWhile isBlank, List.all_eq_true.mp List.all_takeWhile,
        List.takeWhile_append_dropWhile.symm⟩
    rw [severity?_eq_some_iff.mp hsev] at hs₁
    let head : Head :=
      ⟨line, column, gap, severity, space, code, hline, hcolumn, hgap, hne, hblank, hisCode⟩
    have htext : '(' :: (line ++ ',' :: (column ++ ')' :: ':' :: s₁)) = head.text ++ rest := by
      dsimp only at hs₃
      simp [head, Head.text, Head.body, hs₁, hs₃]
    refine ⟨head, rest, message, k, htext, hv, rfl, ?_⟩
    rw [htext, List.length_append, Nat.add_sub_cancel]
  · rintro ⟨h, rest, message, k, rfl, hv, rfl, rfl⟩
    have hpos : position? (h.text ++ rest) = some ((h.line, h.column),
        h.gap ++ (h.severity.name.toList ++ (h.space ++ (h.code ++ ':' :: rest)))) :=
      position?_eq_some_iff.mpr ⟨h.line_digits, h.column_digits, by simp [Head.text, Head.body]⟩
    have hgap : (h.gap ++ (h.severity.name.toList ++ (h.space ++ (h.code ++ ':' :: rest)))).dropWhile
        isBlank = h.severity.name.toList ++ (h.space ++ (h.code ++ ':' :: rest)) := by
      rw [List.dropWhile_append_of_pos h.gap_blank]
      cases h.severity <;> rfl
    have hspace : run? isBlank (h.space ++ (h.code ++ ':' :: rest)) =
        some (h.space, h.code ++ ':' :: rest) :=
      run?_append h.space_ne h.space_blank (h.code_isCode.head_not_blank _)
    have hcode : code? (h.code ++ ':' :: rest) = some (h.code, rest) :=
      code?_eq_some_iff.mpr ⟨h.code_isCode, rfl⟩
    rw [tail?_eq]
    simp only [hpos, hgap, severity?_name, hspace, hcode, hv, Option.bind_eq_bind, Option.bind_some,
      Option.pure_def, List.length_append, Nat.add_sub_cancel]
    rfl

/-- Behind a head there is a tail wherever there is a value of a line. -/
lemma Head.tail?_ne_none (h : Head) (hrest : rest.all isBlank = false) :
    tail? (h.text ++ rest) ≠ none := by
  obtain ⟨⟨v, k⟩, hv⟩ := Option.isSome_iff_exists.mp (lineValue?_isSome (by simpa using hrest))
  rw [tail?_eq_some_iff.mpr ⟨h, rest, v, k, rfl, hv, rfl, rfl⟩]
  exact Option.some_ne_none _

/-- Where no tail begins before the bracket of another one, none begins there when the text between
them is shorter, or what follows is another. -/
lemma tail?_eq_none_of_bracket {y z t t' : List Char} (hy : y ≠ [])
    (h : tail? (y ++ z ++ '(' :: t) = none) : tail? (y ++ '(' :: t') = none := by
  by_contra hsome
  obtain ⟨⟨r, n⟩, hr⟩ := Option.ne_none_iff_exists'.mp hsome
  obtain ⟨head, rest, -, -, htext, -⟩ := tail?_eq_some_iff.mp hr
  obtain ⟨x, rfl⟩ := Head.exists_append hy htext
  rw [List.append_assoc, List.append_assoc] at h
  have hbracket : isBlank '(' = false := by decide
  exact head.tail?_ne_none (by simp [hbracket]) h

/-! ### The file name of a report -/

/-- A file name grows, within its line, up to the first tail of a report. -/
theorem grow?_eq_some_iff {name : List Char} {r : Report} {n : Nat} :
    grow? name s = some (r, n) ↔ ∃ (file tail : List Char) (report : Report) (k : Nat),
      s = file ++ tail ∧ '\n' ∉ file ∧ (∀ x y, file = x ++ y → y ≠ [] → tail? (y ++ tail) = none) ∧
        tail? tail = some (report, k) ∧ r = { report with file := name.reverse ++ file } ∧
          n = file.length + k := by
  constructor
  · intro h
    induction s generalizing name r n with
    | nil => cases h
    | cons c s ih =>
      rw [grow?] at h
      split at h
      · rename_i report k htail
        obtain ⟨rfl, rfl⟩ := Prod.mk.inj (Option.some.inj h)
        refine ⟨[], c :: s, report, k, rfl, by simp, fun x y hxy hy => ?_, htail, by simp, by simp⟩
        exact absurd (List.append_eq_nil_iff.mp hxy.symm).2 hy
      · rename_i hnone
        split at h
        · cases h
        · rename_i hc
          obtain ⟨⟨r', n'⟩, hr', hrn⟩ := Option.map_eq_some_iff.mp h
          obtain ⟨rfl, rfl⟩ := Prod.mk.inj hrn
          obtain ⟨file, tail, report, k, rfl, hfile, hfirst, htail, rfl, rfl⟩ := ih hr'
          refine ⟨c :: file, tail, report, k, rfl, ?_, fun x y hxy hy => ?_, htail, by simp,
            by simp [Nat.add_right_comm]⟩
          · have hne : c ≠ '\n' := by simpa using hc
            simp [hfile, hne.symm]
          · cases x with
            | nil =>
              obtain rfl : c :: file = y := hxy
              exact hnone
            | cons d x => exact hfirst x y (List.cons.inj hxy).2 hy
  · rintro ⟨file, tail, report, k, rfl, hfile, hfirst, htail, rfl, rfl⟩
    induction file generalizing name with
    | nil =>
      cases tail with
      | nil => cases htail
      | cons c tail => simp [grow?, htail]
    | cons c file ih =>
      obtain ⟨hc, hf⟩ : '\n' ≠ c ∧ '\n' ∉ file := by simpa using hfile
      have hnone : tail? (c :: (file ++ tail)) = none := hfirst [] (c :: file) rfl (by simp)
      have hlater := @ih (c :: name) hf fun x y hxy hy => hfirst (c :: x) y (by simp [hxy]) hy
      rw [List.cons_append, grow?, hnone, hlater]
      simp [hc.symm, Nat.add_right_comm]

end Report

/-! ### Numbers that are read -/

/-- Digits behind a number make one below the next power of ten. -/
lemma foldl_digits_lt {s : List Char} (hs : ∀ c ∈ s, isAsciiDigit c = true) (n : Nat) :
    (s.map fun c => c.toNat - 48).foldl (fun n d => 10 * n + d) n < (n + 1) * 10 ^ s.length := by
  induction s generalizing n with
  | nil => simp
  | cons c s ih =>
    obtain ⟨hc, hrest⟩ := List.forall_mem_cons.mp hs
    have hdigit : c.toNat - 48 < 10 := by
      simp only [isAsciiDigit, Bool.and_eq_true, decide_eq_true_eq, Char.le_def,
        UInt32.le_iff_toNat_le] at hc
      have hhigh : c.toNat ≤ 57 := hc.2
      omega
    calc ((c :: s).map fun c => c.toNat - 48).foldl (fun n d => 10 * n + d) n
        < (10 * n + (c.toNat - 48) + 1) * 10 ^ s.length := ih hrest _
      _ ≤ (10 * (n + 1)) * 10 ^ s.length := Nat.mul_le_mul_right _ (by omega)
      _ = (n + 1) * 10 ^ (c :: s).length := by rw [List.length_cons, pow_succ]; ring

/-- A number has no more digits than the numeral in which it was read. -/
lemma digitCount_ofAsciiDigits_le {s : List Char} (h : AreDigits s) :
    digitCount (ofAsciiDigits s) ≤ s.length := by
  refine Nat.toDigits_length 10 _ _ (List.length_pos_iff.mpr h.1) ?_
  simpa [ofAsciiDigits, ofDigits] using foldl_digits_lt h.2 0

/-! ### Diagnostics that are read -/

namespace Diagnostic

/-- What holds of every diagnostic that is read in a text: its parts can be read again, and in its own
text no file name but a whole one, or none at all, has the tail of a report behind it. -/
structure IsRead (d : Diagnostic) : Prop where
  file_trimmed : IsTrimmed d.file.toList
  file_line : '\n' ∉ d.file.toList
  file_first : ∀ x y, d.file.toList = x ++ y → x ≠ [] → y ≠ [] →
    Report.tail? (y ++ d.tailText) = none
  line_nonneg : 0 ≤ d.line
  line_digits : digitCount d.line.toNat ≤ digitLimit
  column_nonneg : 0 ≤ d.column
  column_digits : digitCount d.column.toNat ≤ digitLimit
  code : IsCode d.code.toList
  message_trimmed : IsTrimmed d.message.toList
  message_line : '\n' ∉ d.message.toList

end Diagnostic

namespace Report

/-- The report that stands somewhere: a file name that grows up to the first tail in its line. -/
lemma exists_of_form {before : Option Char} {s : List Char} {r : Report} {n : Nat}
    (h : form before s = some (r, n)) :
    ∃ file tail report k, file ≠ [] ∧ '\n' ∉ file ∧
      (∀ x y, file = x ++ y → x ≠ [] → y ≠ [] → tail? (y ++ tail) = none) ∧
        tail? tail = some (report, k) ∧ r = { report with file := file, source := r.source } := by
  cases s with
  | nil => cases h
  | cons c s =>
    simp only [form] at h
    split at h
    · cases h
    · rename_i hc
      obtain ⟨⟨r', k⟩, hr', hr⟩ := Option.map_eq_some_iff.mp h
      obtain ⟨rfl, -⟩ := Prod.mk.inj hr
      obtain ⟨file, tail, report, k, rfl, hfile, hfirst, htail, rfl, -⟩ := grow?_eq_some_iff.mp hr'
      refine ⟨c :: file, tail, report, k, by simp, ?_, fun x y hxy hx hy => ?_, htail, by simp⟩
      · have hne : c ≠ '\n' := by
          rintro rfl
          simp at hc
        simp [hfile, hne.symm]
      · obtain ⟨d, x, rfl⟩ := List.exists_cons_of_ne_nil hx
        exact hfirst x y (List.cons.inj hxy).2 hy

end Report

lemma lineFeed_not_mem_lineValue? {s value : List Char} {k : Nat}
    (h : lineValue? s = some (value, k)) : '\n' ∉ value := by
  obtain ⟨-, -, -, -, -, hline, -⟩ := exists_of_lineValue? h
  exact hline

lemma not_mem_trim {s : List Char} {c : Char} (h : c ∉ s) : c ∉ trim s := by
  obtain ⟨b, a, -, -, hs⟩ := exists_eq_trim s
  rw [hs] at h
  exact fun hc => h (by simp [hc])

/-- Every diagnostic that is read in a text can be read again. -/
theorem Findings.isRead_of_mem_diagnostics {output : String} {d : Diagnostic}
    (h : d ∈ diagnostics output) : d.IsRead := by
  obtain ⟨r, hr, hd⟩ := List.mem_filterMap.mp h
  obtain ⟨o, ho, rfl⟩ := List.mem_map.mp hr
  obtain ⟨a, b, -, -, hform, -⟩ := Form.standsAt_of_mem_occurrences ho
  obtain ⟨file, tail, report, k, -, hline, hfirst, htail, hreport⟩ := Report.exists_of_form hform
  obtain ⟨head, rest, message, k, rfl, hmessage, rfl, -⟩ := Report.tail?_eq_some_iff.mp htail
  rw [hreport, Diagnostic.ofReport?] at hd
  split at hd
  · cases hd
  · rename_i hdigits
    obtain rfl := Option.some.inj hd
    simp only [Bool.or_eq_true, decide_eq_true_eq, not_or, Nat.not_lt] at hdigits
    exact {
      file_trimmed := by simpa using isTrimmed_trim file
      file_line := by simpa using not_mem_trim hline
      file_first := by
        intro x y hxy hx hy
        rw [String.toList_ofList] at hxy
        obtain ⟨b, a, -, -, hfile⟩ := exists_eq_trim file
        rw [hxy] at hfile
        have hnone := hfirst (b ++ x) (y ++ a) (by simp [hfile]) (by simp [hx]) (by simp [hy])
        exact Report.tail?_eq_none_of_bracket hy hnone
      line_nonneg := Int.natCast_nonneg _
      line_digits := (digitCount_ofAsciiDigits_le head.line_digits).trans hdigits.1
      column_nonneg := Int.natCast_nonneg _
      column_digits := (digitCount_ofAsciiDigits_le head.column_digits).trans hdigits.2
      code := by
        rw [String.toList_ofList]
        exact head.code_isCode
      message_trimmed := by
        rw [String.toList_ofList]
        exact isTrimmed_trim message
      message_line := by
        rw [String.toList_ofList]
        exact not_mem_trim (lineFeed_not_mem_lineValue? hmessage) }

/-! ### Diagnostics that are read again -/

namespace Diagnostic

variable {d : Diagnostic}

/-- The head of a diagnostic in its text. -/
def IsRead.head (h : d.IsRead) : Report.Head where
  line := digits d.line
  column := digits d.column
  gap := [' ']
  severity := d.severity
  space := [' ']
  code := d.code.toList
  line_digits := areDigits_digits d.line
  column_digits := areDigits_digits d.column
  gap_blank := by decide
  space_ne := by simp
  space_blank := by decide
  code_isCode := h.code

lemma IsRead.tailText_eq (h : d.IsRead) : d.tailText = h.head.text ++ ' ' :: d.message.toList := by
  simp [tailText, head, Report.Head.text, Report.Head.body]

/-- Behind a blank a message is read, also when there is none. -/
lemma exists_lineValue?_message {m : List Char} (hm : IsTrimmed m) (hline : '\n' ∉ m) :
    ∃ v, lineValue? (' ' :: m) = some (v, 1 + m.length) ∧ trim v = m := by
  by_cases hne : m = []
  · subst hne
    exact ⟨[' '], rfl, rfl⟩
  · have hv := Report.lineValue?_space hne hm.1 hline endsLine_nil
    have htrim := trim_append (b := []) (a := []) (by simp) hne hm (by simp)
    rw [List.append_nil] at hv htrim
    exact ⟨m, hv, htrim⟩

/-- The tail in the text of a diagnostic. -/
lemma IsRead.exists_tail (h : d.IsRead) :
    ∃ v, Report.tail? d.tailText = some (h.head.report v, d.tailText.length) ∧
      trim v = d.message.toList := by
  obtain ⟨v, hv, htrim⟩ := exists_lineValue?_message h.message_trimmed h.message_line
  refine ⟨v, Report.tail?_eq_some_iff.mpr ⟨h.head, _, v, _, h.tailText_eq, hv, rfl, ?_⟩, htrim⟩
  rw [h.tailText_eq, List.length_append, List.length_cons, Nat.add_comm 1]

/-- A report with the parts of a diagnostic stands for it. -/
lemma IsRead.ofReport?_report (h : d.IsRead) (hfile : d.file.toList ≠ []) {v : List Char}
    (hv : trim v = d.message.toList) (source : List Char) :
    ofReport? { h.head.report v with file := d.file.toList, source := source } = some d := by
  have hname : trim d.file.toList = d.file.toList := by
    simpa using trim_append (b := []) (a := []) (by simp) hfile h.file_trimmed (by simp)
  have hline : ¬digitLimit < (digits d.line).length := Nat.not_lt.mpr h.line_digits
  have hcolumn : ¬digitLimit < (digits d.column).length := Nat.not_lt.mpr h.column_digits
  simp only [ofReport?, Report.Head.report, head, hline, hcolumn, hname, hv,
    ofAsciiDigits_digits h.line_nonneg, ofAsciiDigits_digits h.column_nonneg, String.ofList_toList]
  rfl

/-- The text of a diagnostic with a file's name is one report, which stands for the diagnostic. -/
theorem IsRead.exists_report (h : d.IsRead) (hfile : d.file.toList ≠ []) :
    ∃ r, Findings.reports d.text = [r] ∧ ofReport? r = some d := by
  obtain ⟨v, htail, hv⟩ := h.exists_tail
  obtain ⟨c, name, hname⟩ := List.exists_cons_of_ne_nil hfile
  have hline : '\n' ∉ c :: name := hname ▸ h.file_line
  have hc : c ≠ '\n' := fun hc => hline (by simp [hc])
  have htext : d.text.toList = c :: (name ++ d.tailText) := by
    rw [toList_text h.line_nonneg h.column_nonneg, hname]
    rfl
  have hgrow : Report.grow? [c] (name ++ d.tailText) =
      some ({ h.head.report v with file := d.file.toList }, name.length + d.tailText.length) :=
    Report.grow?_eq_some_iff.mpr ⟨name, d.tailText, _, _, rfl, List.not_mem_of_not_mem_cons hline,
      fun x y hxy hy => h.file_first (c :: x) y (by rw [hname, hxy]; rfl) (by simp) hy, htail,
      by rw [hname]; rfl, rfl⟩
  have hform := Report.form_of_grow? (rfl : atLineStart none = true) hc hgrow
  -- the report takes the whole text
  have hlength : name.length + d.tailText.length + 1 = (c :: (name ++ d.tailText)).length := by
    rw [List.length_cons, List.length_append]
  simp only [hlength] at hform
  have hreports := Report.valuesFrom_whole (List.cons_ne_nil c _) hform
  rw [← htext] at hreports
  exact ⟨_, hreports, h.ofReport?_report hfile hv _⟩

end Diagnostic

namespace Findings

/-- A diagnostic with a file's name that is found in some output is the only one in its own text: it is
found there again, and nothing else. -/
theorem ofOutput_text {output : String} {d : Diagnostic}
    (h : d ∈ (ofOutput output).errors ∨ d ∈ (ofOutput output).warnings) (hfile : d.file ≠ "") :
    ofOutput d.text =
      { errors := if d.isError then [d] else []
        warnings := if d.isError then [] else [d]
        unreadable := [] } := by
  have hmem : d ∈ diagnostics output :=
    h.elim (fun h => (List.mem_filter.mp h).1) fun h => (List.mem_filter.mp h).1
  have hne : d.file.toList ≠ [] := by simpa [String.toList_eq_nil_iff] using hfile
  obtain ⟨r, hreports, hr⟩ := (isRead_of_mem_diagnostics hmem).exists_report hne
  have hfound : diagnostics d.text = [d] := by simp [diagnostics, hreports, hr]
  simp only [ofOutput, hfound, hreports]
  cases he : d.isError <;> simp [hr, he]

/-- A diagnostic without a message, whose position has leading zeros and whose severity stands on the
next line; the file's name holds a position and a severity of its own. -/
theorem ofOutput_text_broken :
    let d : Diagnostic := ⟨.warning, "see a(1,2): error", 3, 4, "CS5", ""⟩
    d ∈ (ofOutput "note\n  see a(1,2): error (003,04):\n\twarning CS5:  \n").warnings ∧
      ofOutput d.text = { errors := [], warnings := [d], unreadable := [] } := by
  have hmem : ⟨.warning, "see a(1,2): error", 3, 4, "CS5", ""⟩ ∈
      (ofOutput "note\n  see a(1,2): error (003,04):\n\twarning CS5:  \n").warnings := by decide
  exact ⟨hmem, ofOutput_text (Or.inr hmem) (by decide)⟩

end Findings

end BuildMend
