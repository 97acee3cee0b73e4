import BuildMend.Number.Decimal
import BuildMend.Proofs.Diagnostic.Position
import BuildMend.Proofs.Text.Field

/-!
Diagnostics that are printed are read again.

* `Diagnostic.IsPlain`: the diagnostics whose text says all of them.
* `OutputLine`, `Layout`: the lines of an output, each a diagnostic with blanks around it or noise, and
  the ways to put them together.
* `Report.yields_ofLine`, `Report.yields_noise`: the form of a report reads a diagnostic in its line and
  nothing in noise.
* `Findings.ofOutput_layout`: the diagnostics of an output are those of its lines.
-/

namespace BuildMend

open Text Number

/-! ### The text of a diagnostic -/

/-- The capital letters and the digits of a code. -/
def IsCode (s : List Char) : Prop :=
  ∃ letters digits, s = letters ++ digits ∧ (letters ≠ [] ∧ ∀ c ∈ letters, Report.isCapital c = true) ∧
    AreDigits digits

namespace Diagnostic

/-- The diagnostics whose text says all of them: nothing in the file's name can be taken for a
position, nothing is lost at the ends of the name and of the message, and the numbers are read. -/
structure IsPlain (d : Diagnostic) : Prop where
  file_ne : d.file.toList ≠ []
  file_trimmed : IsTrimmed d.file.toList
  file_line : '\n' ∉ d.file.toList
  file_position : ¬HasPosition d.file.toList
  line_nonneg : 0 ≤ d.line
  line_digits : digitCount d.line.toNat ≤ digitLimit
  column_nonneg : 0 ≤ d.column
  column_digits : digitCount d.column.toNat ≤ digitLimit
  code : IsCode d.code.toList
  message_ne : d.message.toList ≠ []
  message_trimmed : IsTrimmed d.message.toList
  message_line : '\n' ∉ d.message.toList

/-- The digits of a number. -/
def digits (n : Int) : List Char := Nat.toDigits 10 n.toNat

lemma areDigits_digits (n : Int) : AreDigits (digits n) := by
  refine ⟨Nat.toDigits_ne_nil, fun c hc => ?_⟩
  have hdigit := Nat.isDigit_of_mem_toDigits (by decide) (by decide) hc
  simp only [Char.isDigit, Bool.and_eq_true, decide_eq_true_eq] at hdigit
  simp only [isAsciiDigit, Bool.and_eq_true, decide_eq_true_eq]
  exact hdigit

/-- The digits of a number write it. -/
lemma ofAsciiDigits_digits {n : Int} (h : 0 ≤ n) : (ofAsciiDigits (digits n) : Int) = n := by
  have hread : ofAsciiDigits (digits n) = n.toNat := by
    rw [ofAsciiDigits, ofDigits, List.foldl_map, digits]
    exact Nat.ofDigitChars_ten_toDigits
  rw [hread, Int.toNat_of_nonneg h]

lemma toList_toString {n : Int} (h : 0 ≤ n) : (toString n).toList = digits n := by
  obtain ⟨k, rfl⟩ := Int.eq_ofNat_of_zero_le h
  have htext : toString (k : Int) = toString k := rfl
  rw [htext, Nat.toString_eq_ofList_toDigits, String.toList_ofList]
  rfl

/-- The text of a diagnostic behind the file's name. -/
def tailText (d : Diagnostic) : List Char :=
  '(' :: (digits d.line ++ ',' :: (digits d.column ++ ')' :: ':' :: ' ' ::
    (d.severity.name.toList ++ ' ' :: (d.code.toList ++ ':' :: ' ' :: d.message.toList))))

lemma toList_text {d : Diagnostic} (hl : 0 ≤ d.line) (hc : 0 ≤ d.column) :
    d.text.toList = d.file.toList ++ d.tailText := by
  have hparts : d.text.toList = d.file.toList ++ ('(' :: ((toString d.line).toList ++
      ',' :: ((toString d.column).toList ++ ')' :: ':' :: ' ' ::
        (d.severity.name.toList ++ ' ' :: (d.code.toList ++ ':' :: ' ' :: d.message.toList))))) := by
    simp only [text, String.toList_append, List.append_assoc]
    rfl
  rw [hparts, toList_toString hl, toList_toString hc, tailText]

end Diagnostic

/-! ### Lines of an output -/

/-- A text that holds nothing but blanks. -/
def IsGap (s : List Char) : Prop := ∀ c ∈ s, isBlank c = true

instance (s : List Char) : Decidable (IsGap s) := decidable_of_iff _ List.all_eq_true

/-- A line of an output: a diagnostic with something before and behind it, or noise. -/
inductive OutputLine where
  | report (indent : String) (d : Diagnostic) (trailing : String)
  | noise (text : String)

namespace OutputLine

/-- The text of a line. -/
def text : OutputLine → String
  | .report indent d trailing => indent ++ d.text ++ trailing
  | .noise text => text

/-- The diagnostic of a line. -/
def diagnostic? : OutputLine → Option Diagnostic
  | .report _ d _ => some d
  | .noise _ => none

/-- A line has blanks around a plain diagnostic, or holds no position. -/
def IsClean : OutputLine → Prop
  | .report indent d trailing =>
    IsGap indent.toList ∧ '\n' ∉ indent.toList ∧ d.IsPlain ∧ IsGap trailing.toList
  | .noise text => ¬HasPosition text.toList

end OutputLine

/-- How the lines of an output are put together. -/
inductive Layout where
  /-- With line feeds between them. -/
  | joined
  /-- With a carriage return and a line feed behind each of them. -/
  | returned

/-- The output that some lines make. -/
def Layout.output : Layout → List OutputLine → String
  | .joined, lines => "\n".intercalate (lines.map (·.text))
  | .returned, lines => String.join (lines.map (·.text ++ "\r\n"))

/-! ### What is read in a line -/

namespace Report

lemma severity?_name (s : Severity) (rest : List Char) :
    severity? (s.name.toList ++ rest) = some (s, rest) := by
  cases s <;> rfl

lemma lineValue?_space {m rest : List Char} (hne : m ≠ []) (hm : ∀ c ∈ m.head?, isBlank c = false)
    (hline : '\n' ∉ m) (hrest : EndsLine rest) :
    lineValue? (' ' :: (m ++ rest)) = some (m, 1 + m.length) :=
  have hgap : ∀ c ∈ [' '], isBlank c = true := by simp [isBlank]
  lineValue?_gap hgap hne hm hline hrest

lemma run?_digits {n : Int} {c : Char} (hc : isAsciiDigit c = false) (rest : List Char) :
    run? isAsciiDigit (Diagnostic.digits n ++ c :: rest) =
      some (Diagnostic.digits n, c :: rest) :=
  run?_append (Diagnostic.areDigits_digits n).1 (Diagnostic.areDigits_digits n).2 (by simpa using hc)

lemma isBlank_capital {c : Char} (h : isCapital c = true) : isBlank c = false := by
  simp only [isCapital, Bool.and_eq_true, decide_eq_true_eq, Char.le_def, UInt32.le_iff_toNat_le] at h
  have hlow : 65 ≤ c.toNat := h.1
  have hhigh : c.toNat ≤ 90 := h.2
  simp only [isBlank, Bool.or_eq_false_iff, Bool.and_eq_false_iff, decide_eq_false_iff_not,
    beq_eq_false_iff_ne]
  omega

lemma isCapital_digit {c : Char} (h : isAsciiDigit c = true) : isCapital c = false := by
  simp only [isAsciiDigit, Bool.and_eq_true, decide_eq_true_eq, Char.le_def, UInt32.le_iff_toNat_le] at h
  have hhigh : c.toNat ≤ 57 := h.2
  have hlow : ¬65 ≤ c.toNat := by omega
  simp only [isCapital, Bool.and_eq_false_iff, decide_eq_false_iff_not, Char.le_def, UInt32.le_iff_toNat_le]
  exact Or.inl hlow

/-- The letters and the digits of a code are read one after the other. -/
lemma run?_code {code : List Char} (h : IsCode code) (rest : List Char) :
    ∃ letters digits, code = letters ++ digits ∧
      run? isBlank (' ' :: (code ++ ':' :: rest)) = some ([' '], code ++ ':' :: rest) ∧
      run? isCapital (code ++ ':' :: rest) = some (letters, digits ++ ':' :: rest) ∧
      run? isAsciiDigit (digits ++ ':' :: rest) = some (digits, ':' :: rest) := by
  obtain ⟨letters, digits, rfl, ⟨hne, hletters⟩, hdne, hdigits⟩ := h
  obtain ⟨c, letters, rfl⟩ := List.exists_cons_of_ne_nil hne
  obtain ⟨d, digits, rfl⟩ := List.exists_cons_of_ne_nil hdne
  have hcapital : isBlank c = false := isBlank_capital (hletters c (by simp))
  have hdigit : isCapital d = false := isCapital_digit (hdigits d (by simp))
  refine ⟨c :: letters, d :: digits, rfl, ?_, ?_, ?_⟩
  · exact run?_append (List.cons_ne_nil ' ' []) (by simp; decide) (by simpa using hcapital)
  · rw [List.append_assoc]
    exact run?_append hne hletters (by simpa using hdigit)
  · exact run?_append hdne hdigits (by simp; decide)

/-- The tail of a report is read from the text of a plain diagnostic with something behind it. -/
lemma tail?_tailText {d : Diagnostic} (h : d.IsPlain) {trailing rest : List Char}
    (ht : '\n' ∉ trailing) (hrest : EndsLine rest) :
    tail? (d.tailText ++ trailing ++ rest) =
      some (⟨[], Diagnostic.digits d.line, Diagnostic.digits d.column, d.severity, d.code.toList,
        d.message.toList ++ trailing, []⟩, (d.tailText ++ trailing).length) := by
  generalize hm : d.message.toList ++ trailing = m
  -- what is left of the text behind each of its parts
  obtain ⟨message, hmessage⟩ : ∃ s, s = ' ' :: (m ++ rest) := ⟨_, rfl⟩
  obtain ⟨code, hcode⟩ : ∃ s, s = d.code.toList ++ ':' :: message := ⟨_, rfl⟩
  obtain ⟨severity, hseverity⟩ : ∃ s, s = d.severity.name.toList ++ ' ' :: code := ⟨_, rfl⟩
  obtain ⟨column, hcolumn⟩ :
    ∃ s, s = Diagnostic.digits d.column ++ ')' :: ':' :: ' ' :: severity := ⟨_, rfl⟩
  obtain ⟨line, hline⟩ : ∃ s, s = Diagnostic.digits d.line ++ ',' :: column := ⟨_, rfl⟩
  have htext : d.tailText ++ trailing ++ rest = '(' :: line := by
    simp only [Diagnostic.tailText, hline, hcolumn, hseverity, hcode, hmessage, ← hm,
      List.append_assoc, List.cons_append]
  have hvalue : lineValue? message = some (m, 1 + m.length) := by
    rw [hmessage, ← hm]
    refine lineValue?_space (by simp [h.message_ne]) ?_ (by simp [h.message_line, ht]) hrest
    rw [List.head?_append_of_ne_nil _ h.message_ne]
    exact h.message_trimmed.1
  have hgap : (' ' :: severity).dropWhile isBlank = severity := by
    rw [hseverity]
    cases d.severity <;> rfl
  have hlength : (d.tailText ++ trailing).length =
      ('(' :: line).length - message.length + (1 + m.length) := by
    have hall := congrArg List.length htext
    have hle : message.length ≤ line.length := by
      simp only [hline, hcolumn, hseverity, hcode, List.length_append, List.length_cons]
      omega
    have hlast : message.length = 1 + m.length + rest.length := by
      simp only [hmessage, List.length_append, List.length_cons]
      omega
    rw [List.length_append, List.length_cons] at hall
    rw [List.length_cons]
    omega
  obtain ⟨letters, digits, hparts, hspace, hletters, hdigits⟩ := run?_code h.code message
  rw [← hcode] at hspace hletters
  rw [htext, hlength, tail?, hparts]
  simp only [Option.bind_eq_bind, afterLiteral?, beq_self_eq_true, if_true, Option.bind_some,
    hline, run?_digits (n := d.line) (c := ',') (by decide), hcolumn,
    run?_digits (n := d.column) (c := ')') (by decide), hgap]
  rw [hseverity, severity?_name]
  simp only [Option.bind_some, hspace, hletters, hdigits, afterLiteral?, beq_self_eq_true, if_true, hvalue]
  rfl

/-- A report stands at the start of a line only, and not at an empty one. -/
lemma ofLines_form : form.OfLines where
  start before text h := by
    cases text with
    | nil => rfl
    | cons c text => simp [form, h]
  nonempty before rest h := by
    cases rest with
    | nil => rfl
    | cons c rest =>
      obtain rfl : c = '\n' := h c rfl
      simp [form]

/-- The report of a diagnostic in a line. -/
def ofLine (indent : List Char) (d : Diagnostic) (trailing : List Char) : Report where
  file := indent ++ d.file.toList
  line := Diagnostic.digits d.line
  column := Diagnostic.digits d.column
  severity := d.severity
  code := d.code.toList
  message := d.message.toList ++ trailing
  source := indent ++ d.text.toList ++ trailing

end Report

lemma IsGap.not_mem {s : List Char} (h : IsGap s) {c : Char} (hc : isBlank c = false) : c ∉ s := by
  intro hmem
  rw [h c hmem] at hc
  cases hc

lemma not_mem_digits (n : Int) {c : Char} (hc : isAsciiDigit c = false) :
    c ∉ Diagnostic.digits n := by
  intro hmem
  rw [(Diagnostic.areDigits_digits n).2 c hmem] at hc
  cases hc

lemma IsCode.not_mem {code : List Char} (h : IsCode code) {c : Char}
    (hletter : Report.isCapital c = false) (hdigit : isAsciiDigit c = false) : c ∉ code := by
  obtain ⟨letters, digits, rfl, ⟨-, hletters⟩, -, hdigits⟩ := h
  intro hmem
  rcases List.mem_append.mp hmem with hmem | hmem
  · rw [hletters c hmem] at hletter
    cases hletter
  · rw [hdigits c hmem] at hdigit
    cases hdigit

/-- The text of a plain diagnostic is one line. -/
lemma Diagnostic.IsPlain.lineFeed_not_mem {d : Diagnostic} (h : d.IsPlain) :
    '\n' ∉ d.text.toList := by
  have hname : '\n' ∉ d.severity.name.toList := by cases d.severity <;> decide
  have hcode : '\n' ∉ d.code.toList := h.code.not_mem (by decide) (by decide)
  have hdigits (n : Int) : '\n' ∉ digits n := not_mem_digits n (by decide)
  rw [toList_text h.line_nonneg h.column_nonneg]
  simp [tailText, h.file_line, hdigits, hname, hcode, h.message_line]

/-! ### What is read in an output -/

namespace Report

/-- The report of a diagnostic is read in its line. -/
theorem yields_ofLine {indent trailing : List Char} {d : Diagnostic} (hindent : IsGap indent)
    (hd : d.IsPlain) (hi : '\n' ∉ indent) (ht : '\n' ∉ trailing) :
    form.Yields (indent ++ d.text.toList ++ trailing) [ofLine indent d trailing] := by
  have hline : '\n' ∉ indent ++ d.text.toList ++ trailing := by
    simp [hi, hd.lineFeed_not_mem, ht]
  refine ofLines_form.yields_line (some (ofLine indent d trailing)) hline
    fun before rest hb hrest => ?_
  -- the name that is read starts with the blanks before the file
  obtain ⟨c, name, hname⟩ := List.exists_cons_of_ne_nil
    (List.append_ne_nil_of_right_ne_nil indent hd.file_ne)
  have htext : indent ++ d.text.toList ++ trailing ++ rest =
      c :: (name ++ (d.tailText ++ trailing ++ rest)) := by
    rw [Diagnostic.toList_text hd.line_nonneg hd.column_nonneg, ← List.cons_append, ← hname]
    simp
  have hposition : ¬HasPosition name := by
    intro h
    have hall : HasPosition (indent ++ d.file.toList) := by
      rw [hname]
      exact h.append_left [c]
    exact hd.file_position ((hasPosition_append_iff (hindent.not_mem (by decide))).mp hall)
  have hbreak : '\n' ∉ c :: name := by
    rw [← hname]
    simp [hi, hd.file_line]
  have hgrow := grow?_append hposition (List.not_mem_of_not_mem_cons hbreak)
    (tail?_tailText hd ht hrest) [c]
  have hlength : name.length + (d.tailText ++ trailing).length + 1 =
      (indent ++ d.text.toList ++ trailing).length := by
    have hall := congrArg List.length htext
    simp only [List.length_append, List.length_cons] at hall ⊢
    omega
  have hsource : (c :: (name ++ (d.tailText ++ trailing ++ rest))).take
      (indent ++ d.text.toList ++ trailing).length = indent ++ d.text.toList ++ trailing := by
    rw [← htext, List.take_left]
  have hc : (c == '\n') = false := by
    rw [beq_eq_false_iff_ne]
    exact fun h => hbreak (by simp [h])
  rw [htext, form, hb, hc, hgrow]
  simp only [Bool.not_true, Bool.or_self, Bool.false_eq_true, if_false, Option.map_some, hlength,
    hsource, ofLine, hname]
  rfl

/-- Nothing is read in a line without a position. -/
lemma yields_noise_line {line : List Char} (hline : '\n' ∉ line) (h : ¬HasPosition line) :
    form.Yields line [] := by
  refine ofLines_form.yields_line none hline fun before rest hb hrest => ?_
  cases line with
  | nil => exact ofLines_form.nonempty _ _ hrest
  | cons c line =>
    obtain ⟨-, hlater⟩ := not_or.mp fun hp => h (hasPosition_cons.mpr hp)
    have hnone := grow?_eq_none hlater (List.not_mem_of_not_mem_cons hline) hrest [c]
    simp [form, hnone]

/-- Nothing is read in a text without a position. -/
theorem yields_noise {s : List Char} (h : ¬HasPosition s) : form.Yields s [] := by
  induction hn : s.length using Nat.strong_induction_on generalizing s with
  | _ n ih =>
    by_cases hs : '\n' ∈ s
    · obtain ⟨a, b, rfl, ha⟩ := List.eq_append_cons_of_mem hs
      have hfirst : ¬HasPosition a := fun hp => h (hp.append_right _)
      have hrest : ¬HasPosition b := fun hp => h ((hp.append_left ['\n']).append_left a)
      have hshort : b.length < n := by
        rw [← hn, List.length_append, List.length_cons]
        omega
      exact ofLines_form.yields_lineFeed (yields_noise_line ha hfirst) (ih _ hshort hrest rfl)
    · exact yields_noise_line hs h

end Report

/-- The reports that are read in a line. -/
def OutputLine.reports : OutputLine → List Report
  | .report indent d trailing =>
    [Report.ofLine indent.toList d (trailing.toList.takeWhile (· != '\n'))]
  | .noise _ => []

lemma IsGap.not_hasPosition {s : List Char} (h : IsGap s) : ¬HasPosition s :=
  not_hasPosition_of_not_mem (h.not_mem (by decide))

/-- A clean line is read, also when the blanks behind its diagnostic break it. -/
lemma OutputLine.IsClean.yields {l : OutputLine} (h : l.IsClean) :
    Report.form.Yields l.text.toList l.reports := by
  cases l with
  | noise text => exact Report.yields_noise h
  | report indent d trailing =>
    obtain ⟨hindent, hi, hd, htrailing⟩ := h
    have htext : (OutputLine.report indent d trailing).text.toList =
        indent.toList ++ d.text.toList ++ trailing.toList := by
      simp [text]
    rw [htext]
    by_cases ht : '\n' ∈ trailing.toList
    · obtain ⟨a, b, hab, ha⟩ := List.eq_append_cons_of_mem ht
      have hb : IsGap b := fun c hc => htrailing c (by simp [hab, hc])
      have hkept : trailing.toList.takeWhile (· != '\n') = a := by
        rw [hab]
        exact takeWhile_append (fun c hc => bne_iff_ne.mpr fun h => ha (h ▸ hc)) (by simp)
      have hlines := Report.ofLines_form.yields_lineFeed (Report.yields_ofLine hindent hd hi ha)
        (Report.yields_noise hb.not_hasPosition)
      rw [reports, hkept, hab, ← List.append_assoc]
      exact hlines
    · have hkept : trailing.toList.takeWhile (· != '\n') = trailing.toList :=
        List.takeWhile_eq_self_iff.mpr fun c hc => bne_iff_ne.mpr fun h => ht (h ▸ hc)
      rw [reports, hkept]
      exact Report.yields_ofLine hindent hd hi ht

/-- A report in a line stands for the diagnostic there. -/
lemma Diagnostic.ofReport?_ofLine {d : Diagnostic} (h : d.IsPlain) {indent trailing : List Char}
    (hi : IsGap indent) (ht : IsGap trailing) :
    Diagnostic.ofReport? (Report.ofLine indent d trailing) = some d := by
  have hnone : IsGap [] := by simp [IsGap]
  have hfile : trim (indent ++ d.file.toList) = d.file.toList := by
    have hall := trim_append hi h.file_ne h.file_trimmed hnone
    rwa [List.append_nil] at hall
  have hmessage : trim (d.message.toList ++ trailing) = d.message.toList :=
    trim_append hnone h.message_ne h.message_trimmed ht
  have hline : ¬digitLimit < (digits d.line).length := Nat.not_lt.mpr h.line_digits
  have hcolumn : ¬digitLimit < (digits d.column).length := Nat.not_lt.mpr h.column_digits
  simp only [ofReport?, Report.ofLine, hline, hcolumn, hfile, hmessage,
    ofAsciiDigits_digits h.line_nonneg, ofAsciiDigits_digits h.column_nonneg, String.ofList_toList]
  rfl

lemma OutputLine.IsClean.ofReport?_reports {l : OutputLine} (h : l.IsClean) :
    l.reports.map Diagnostic.ofReport? = l.diagnostic?.toList.map some := by
  cases l with
  | noise text => rfl
  | report indent d trailing =>
    obtain ⟨hindent, -, hd, htrailing⟩ := h
    have hkept : IsGap (trailing.toList.takeWhile (· != '\n')) := fun c hc =>
      htrailing c ((List.takeWhile_sublist _).subset hc)
    exact congrArg (fun d => [d]) (Diagnostic.ofReport?_ofLine hd hindent hkept)

/-! ### The diagnostics of an output -/

namespace OutputLine

/-- The line with a carriage return behind it. -/
def returned : OutputLine → OutputLine
  | .report indent d trailing => .report indent d (trailing ++ "\r")
  | .noise text => .noise (text ++ "\r")

lemma text_returned (l : OutputLine) : l.returned.text.toList = l.text.toList ++ ['\r'] := by
  cases l <;> simp [returned, text]

@[simp] lemma diagnostic?_returned (l : OutputLine) : l.returned.diagnostic? = l.diagnostic? := by
  cases l <;> rfl

lemma IsClean.returned {l : OutputLine} (h : l.IsClean) : l.returned.IsClean := by
  cases l with
  | noise text =>
    intro hp
    rw [String.toList_append] at hp
    rcases hp.of_append (by decide) (by decide) with hp | hp
    · exact h hp
    · exact not_hasPosition_nil hp
  | report indent d trailing =>
    obtain ⟨hindent, hi, hd, htrailing⟩ := h
    refine ⟨hindent, hi, hd, fun c hc => ?_⟩
    rw [String.toList_append, List.mem_append] at hc
    rcases hc with hc | hc
    · exact htrailing c hc
    · obtain rfl : c = '\r' := by simpa using hc
      rfl

end OutputLine

namespace Layout

/-- A line as it stands in an output. -/
def line : Layout → OutputLine → OutputLine
  | .joined, l => l
  | .returned, l => l.returned

lemma isClean_line (layout : Layout) {l : OutputLine} (h : l.IsClean) : (layout.line l).IsClean := by
  cases layout with
  | joined => exact h
  | returned => exact h.returned

@[simp] lemma diagnostic?_line (layout : Layout) (l : OutputLine) :
    (layout.line l).diagnostic? = l.diagnostic? := by
  cases layout with
  | joined => rfl
  | returned => exact l.diagnostic?_returned

/-- The reports of an output are those of its lines. -/
lemma reports_output (layout : Layout) {lines : List OutputLine} (h : ∀ l ∈ lines, l.IsClean) :
    Findings.reports (layout.output lines) = lines.flatMap fun l => (layout.line l).reports := by
  have hline : ∀ l ∈ lines, Report.form.Yields (layout.line l).text.toList (layout.line l).reports :=
    fun l hl => (layout.isClean_line (h l hl)).yields
  have hyields : Report.form.Yields (layout.output lines).toList
      (lines.flatMap fun l => (layout.line l).reports) := by
    cases layout with
    | joined =>
      have houtput : (Layout.joined.output lines).toList =
          ['\n'].intercalate (lines.map fun l => l.text.toList) := by
        rw [output, String.toList_intercalate, List.map_map]
        rfl
      rw [houtput]
      exact Report.ofLines_form.yields_intercalate hline
    | returned =>
      have houtput : (Layout.returned.output lines).toList =
          lines.flatMap fun l => l.returned.text.toList ++ ['\n'] := by
        simp [output, String.toList_join, List.flatMap_map, OutputLine.text_returned]
      rw [houtput]
      exact Report.ofLines_form.yields_flatMap hline
  exact hyields.valuesFrom rfl

/-- Each report of an output stands for the diagnostic of its line. -/
lemma ofReport?_reports_output (layout : Layout) {lines : List OutputLine}
    (h : ∀ l ∈ lines, l.IsClean) :
    (Findings.reports (layout.output lines)).map Diagnostic.ofReport? =
      (lines.filterMap OutputLine.diagnostic?).map some := by
  rw [layout.reports_output h]
  induction lines with
  | nil => rfl
  | cons l lines ih =>
    have hl : l.IsClean := h l List.mem_cons_self
    have htail := ih fun l hl => h l (List.mem_cons_of_mem _ hl)
    have hfirst := (layout.isClean_line hl).ofReport?_reports
    rw [diagnostic?_line] at hfirst
    rw [List.flatMap_cons, List.map_append, htail, hfirst, ← List.map_append]
    cases hd : l.diagnostic? <;> simp [hd]

end Layout

namespace Findings

/-- The diagnostics of an output are those of its lines, in their order: the errors, the warnings, and
nothing that cannot be read. -/
theorem ofOutput_layout (layout : Layout) {lines : List OutputLine} (h : ∀ l ∈ lines, l.IsClean) :
    ofOutput (layout.output lines) =
      { errors := (lines.filterMap OutputLine.diagnostic?).filter Diagnostic.isError
        warnings := (lines.filterMap OutputLine.diagnostic?).filter (!Diagnostic.isError ·)
        unreadable := [] } := by
  have hreports := layout.ofReport?_reports_output h
  have hfound : diagnostics (layout.output lines) = lines.filterMap OutputLine.diagnostic? := by
    have hvalues := congrArg (List.filterMap id) hreports
    rw [List.filterMap_map, List.filterMap_map] at hvalues
    exact hvalues.trans List.filterMap_some
  have hread : ∀ r ∈ reports (layout.output lines), (Diagnostic.ofReport? r).isNone = false := by
    intro r hr
    have hmem := List.mem_map_of_mem (f := Diagnostic.ofReport?) hr
    rw [hreports] at hmem
    obtain ⟨d, -, hd⟩ := List.mem_map.mp hmem
    rw [← hd]
    rfl
  have hunread : (reports (layout.output lines)).filter
      (fun r => (Diagnostic.ofReport? r).isNone) = [] :=
    List.filter_eq_nil_iff.mpr fun r hr => by simp [hread r hr]
  rw [ofOutput, hfound, hunread]
  rfl

/-- Two reports of one diagnostic, whose message looks like another, around a line of noise. -/
theorem ofOutput_repeated :
    ofOutput (Layout.returned.output
      [.report "  " ⟨.error, "src/Old (1,2)/A.cs", 7, 12, "CS0103", "see B.cs(1,2): error CS1: x"⟩ "\t",
        .noise "1 Warning(s), 2 Error(s): stopped",
        .report "" ⟨.error, "src/Old (1,2)/A.cs", 7, 12, "CS0103", "see B.cs(1,2): error CS1: x"⟩ ""]) =
      { errors :=
          [⟨.error, "src/Old (1,2)/A.cs", 7, 12, "CS0103", "see B.cs(1,2): error CS1: x"⟩,
            ⟨.error, "src/Old (1,2)/A.cs", 7, 12, "CS0103", "see B.cs(1,2): error CS1: x"⟩]
        warnings := []
        unreadable := [] } := by
  have hplain : Diagnostic.IsPlain
      ⟨.error, "src/Old (1,2)/A.cs", 7, 12, "CS0103", "see B.cs(1,2): error CS1: x"⟩ :=
    { file_ne := by decide
      file_trimmed := by decide
      file_line := by decide
      file_position := by decide
      line_nonneg := by decide
      line_digits := by decide
      column_nonneg := by decide
      column_digits := by decide
      code := ⟨"CS".toList, "0103".toList, by decide, by simp; decide, by decide, by simp; decide⟩
      message_ne := by decide
      message_trimmed := by decide
      message_line := by decide }
  refine ofOutput_layout .returned fun l hl => ?_
  simp only [List.mem_cons, List.not_mem_nil, or_false] at hl
  rcases hl with rfl | rfl | rfl
  · exact ⟨by decide, by decide, hplain, by decide⟩
  · show ¬HasPosition "1 Warning(s), 2 Error(s): stopped".toList
    decide
  · exact ⟨by decide, by decide, hplain, by decide⟩

end Findings

end BuildMend
