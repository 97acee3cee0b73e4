import BuildMend.Json.Reader
import Mathlib

/-!
What a text must hold for the reader to stop without a fault.

* `HasLongNumber`: some digits in a row are too many for a whole number; `isOpening`: a container is opened.
* `Stop.IsWarranted`: the text has what a stop is about.
* `Leads`: what reading a part leaves is an end of the text, and a stop is warranted by the text.
* `partsLead`: so it is for every value, all elements and all members.
* `warrants_of_readChars`: so it is for a whole text.
* `readChars_onesObject`: a number with too many digits does stop the reader.
-/

namespace BuildMend.Json

open Number Text

/-! ### What stops are about -/

/-- Some digits in a row are more than a whole number may have. -/
def HasLongNumber (text : List Char) : Prop :=
  ∃ a ds b, text = a ++ (ds ++ b) ∧ digitLimit < ds.length ∧ ∀ c ∈ ds, isAsciiDigit c = true

/-- Whether a container is opened. -/
def isOpening (c : Char) : Bool := c == '[' || c == '\x7b'

/-- The characters that code points look like. -/
def looks (s : List CodePoint) : List Char := s.map CodePoint.look

/-- A text has what a stop is about: enough digits in a row, or more openings than containers may lie within
one another.  A fault needs nothing. -/
def Stop.IsWarranted (depth : Nat) (s : List CodePoint) : Stop → Prop
  | .fault .. => True
  | .tooManyDigits _ => HasLongNumber (looks s)
  | .tooDeep _ => depth < (looks s).countP isOpening

/-- What reading a part of a text leaves is an end of the text, or it stops for a reason that the text has. -/
def Leads {α : Type} (depth : Nat) (s : List CodePoint) : Result α → Prop
  | .ok (_, rest) => rest <:+ s
  | .error e => e.IsWarranted depth s

lemma HasLongNumber.of_suffix {s t : List Char} (h : HasLongNumber s) (hst : s <:+ t) :
    HasLongNumber t := by
  obtain ⟨a, ds, b, rfl, hmany, hds⟩ := h
  obtain ⟨u, rfl⟩ := hst
  exact ⟨u ++ a, ds, b, by rw [List.append_assoc], hmany, hds⟩

lemma Stop.IsWarranted.of_suffix {depth : Nat} {s t : List CodePoint} {e : Stop}
    (h : e.IsWarranted depth s) (hst : s <:+ t) : e.IsWarranted depth t := by
  have hlooks : looks s <:+ looks t := hst.map _
  cases e with
  | fault => trivial
  | tooManyDigits => exact HasLongNumber.of_suffix h hlooks
  | tooDeep => exact Nat.lt_of_lt_of_le h (hlooks.sublist.countP_le)

namespace Leads

variable {α β : Type} {depth : Nat} {s t : List CodePoint} {r : Result α}

lemma of_suffix (h : Leads depth s r) (hst : s <:+ t) : Leads depth t r := by
  cases r with
  | ok => exact h.trans hst
  | error => exact Stop.IsWarranted.of_suffix h hst

lemma map (h : Leads depth s r) (f : α → β) :
    Leads depth s (r.map fun (x, rest) => (f x, rest)) := by
  cases r <;> exact h

lemma fail (kind : FaultKind) (left : List CodePoint) :
    Leads depth s (failAt kind left : Result α) := trivial

/-- Within a container that is opened, one less may lie within another. -/
lemma within {c : Char} (hc : isOpening c = true) (h : Leads depth s r) :
    Leads (depth + 1) (.char c :: s) r := by
  have hsuffix : s <:+ .char c :: s := List.suffix_cons _ _
  cases r with
  | ok => exact h.trans hsuffix
  | error e =>
    cases e with
    | fault => trivial
    | tooManyDigits => exact HasLongNumber.of_suffix h (hsuffix.map _)
    | tooDeep =>
      show depth + 1 < (c :: looks s).countP isOpening
      rw [List.countP_cons_of_pos hc]
      exact Nat.succ_lt_succ h

/-- Within no container that is opened. -/
lemma tooDeep {c : Char} (hc : isOpening c = true) (container : Container) :
    Leads 0 (.char c :: s) (.error (.tooDeep container) : Result α) := by
  show 0 < (c :: looks s).countP isOpening
  rw [List.countP_cons_of_pos hc]
  exact Nat.succ_pos _

end Leads

lemma skipSpace_suffix (s : List CodePoint) : skipSpace s <:+ s := List.dropWhile_suffix _

/-- What stands behind the next mark is an end of the text. -/
lemma suffix_of_skipSpace {s t rest : List CodePoint} {p : CodePoint}
    (h : skipSpace rest = p :: t) (hrest : rest <:+ s) : t <:+ s := by
  have hskip := (skipSpace_suffix rest).trans hrest
  rw [h] at hskip
  exact (List.suffix_cons p t).trans hskip

/-! ### Strings -/

lemma readSecondHalf_error {high : Nat} {s : List CodePoint} {e : Stop}
    (h : readSecondHalf high s = .error e) : ∃ kind left, e = .fault kind left := by
  rw [readSecondHalf.eq_def] at h
  split at h
  · split at h
    · cases h
    · split at h
      · cases h
        exact ⟨_, _, rfl⟩
      · split at h <;> cases h
  · cases h

lemma readCodeEscape_error {s : List CodePoint} {e : Stop} (h : readCodeEscape s = .error e) :
    ∃ kind left, e = .fault kind left := by
  rw [readCodeEscape] at h
  split at h
  · cases h
    exact ⟨_, _, rfl⟩
  · split at h
    · cases hsecond : readSecondHalf _ (s.drop 4) with
      | error f =>
        rw [hsecond] at h
        cases h
        exact readSecondHalf_error hsecond
      | ok =>
        rw [hsecond] at h
        cases h
    · cases h

/-- Whatever is wrong with an escape is a fault. -/
lemma readEscape_error {opened : Nat} {s : List CodePoint} {e : Stop}
    (h : readEscape opened s = .error e) : ∃ kind left, e = .fault kind left := by
  rw [readEscape.eq_def] at h
  split at h
  · cases h
    exact ⟨_, _, rfl⟩
  · rename_i digits
    cases hcode : readCodeEscape digits with
    | error f =>
      rw [hcode] at h
      cases h
      exact readCodeEscape_error hcode
    | ok =>
      rw [hcode] at h
      cases h
  · split at h
    · cases h
      exact ⟨_, _, rfl⟩
    · cases h

lemma readStringFrom_leads (depth opened skip : Nat) (s : List CodePoint) :
    Leads depth s (readStringFrom opened skip s) := by
  induction s generalizing skip with
  | nil => cases skip <;> exact trivial
  | cons p rest ih =>
    have hrest : rest <:+ p :: rest := List.suffix_cons _ _
    cases skip with
    | succ skip => exact (ih skip).of_suffix hrest
    | zero =>
      rw [readStringFrom]
      split
      · exact hrest
      · split
        · split
          · rename_i e he
            obtain ⟨kind, left, rfl⟩ := readEscape_error he
            exact trivial
          · exact ((ih _).of_suffix hrest).map _
        · split
          · exact trivial
          · exact ((ih 0).of_suffix hrest).map _

/-! ### Numbers and words -/

lemma readWhole_append (s : List Char) : (readWhole s).1 ++ (readWhole s).2 = s := by
  rw [readWhole.eq_def]
  split
  · rfl
  · exact List.takeWhile_append_dropWhile

lemma isAsciiDigit_of_mem_readWhole {s : List Char} {c : Char} (h : c ∈ (readWhole s).1) :
    isAsciiDigit c = true := by
  rw [readWhole.eq_def] at h
  split at h
  · rw [List.mem_singleton.mp h]
    rfl
  · exact List.all_eq_true.mp List.all_takeWhile c h

lemma hasLongNumber_of_readUnsigned {negative : Bool} {s : List Char} {count : Nat}
    (h : readUnsigned negative s = .tooManyDigits count) : HasLongNumber s := by
  refine ⟨[], (readWhole s).1, (readWhole s).2, (readWhole_append s).symm, ?_,
    fun c => isAsciiDigit_of_mem_readWhole⟩
  simp only [readUnsigned] at h
  split at h
  · cases h
  · split at h
    · split at h
      · assumption
      · cases h
    · cases h

/-- A number with too many digits has them in a row. -/
lemma hasLongNumber_of_readNumber {s : List Char} {count : Nat}
    (h : readNumber s = .tooManyDigits count) : HasLongNumber s := by
  rw [readNumber.eq_def] at h
  split at h
  · exact (hasLongNumber_of_readUnsigned h).of_suffix (List.suffix_cons _ _)
  · exact hasLongNumber_of_readUnsigned h

lemma HasLongNumber.append {s : List Char} (h : HasLongNumber s) (t : List Char) :
    HasLongNumber (s ++ t) := by
  obtain ⟨a, ds, b, rfl, hmany, hds⟩ := h
  exact ⟨a, ds, b ++ t, by simp, hmany, hds⟩

lemma suffix_of_readNamed? {s : List CodePoint} {words : List (String × Json)} {v : Json}
    {rest : List CodePoint} (h : readNamed? s words = some (v, rest)) : rest <:+ s := by
  induction words with
  | nil => cases h
  | cons word words ih =>
    rw [readNamed?] at h
    split at h
    · rename_i hafter
      obtain ⟨-, rfl⟩ := Prod.mk.inj (Option.some.inj h)
      exact ⟨_, (afterLiteral?_eq_some_iff.mp hafter).symm⟩
    · exact ih h

lemma readScalar_leads (depth : Nat) (s : List CodePoint) : Leads depth s (readScalar s) := by
  rw [readScalar]
  split
  · rename_i r hr
    exact suffix_of_readNamed? hr
  · dsimp only
    split
    · exact Leads.fail _ _
    · exact List.drop_suffix _ _
    · rename_i hmany
      have hfront := (hasLongNumber_of_readNumber hmany).append (looks (s.dropWhile isNumeral))
      have hsplit : (s.takeWhile isNumeral).map CodePoint.look ++ looks (s.dropWhile isNumeral) =
          looks s := by
        rw [looks, ← List.map_append, List.takeWhile_append_dropWhile, looks]
      rw [hsplit] at hfront
      exact hfront

/-! ### Values -/

/-- Reading values, elements and members leads to an end of the text, or to a stop that the text warrants. -/
structure PartsLead (fuel : Nat) : Prop where
  value : ∀ depth s, Leads depth s (readValue fuel depth s)
  elements : ∀ depth s, Leads depth s (readElements fuel depth s)
  members : ∀ depth read s, Leads depth s (readMembers fuel depth read s)

namespace PartsLead

variable {fuel : Nat} (h : PartsLead fuel)

include h

lemma value_succ (depth : Nat) (s : List CodePoint) : Leads depth s (readValue (fuel + 1) depth s) := by
  cases s with
  | nil => exact Leads.fail .expectingValue []
  | cons p rest =>
    rw [readValue.eq_def]
    dsimp only
    split
    · exact ((readStringFrom_leads depth _ 0 rest).of_suffix (List.suffix_cons _ _)).map _
    · split
      · rename_i hp
        obtain rfl : p = .char '[' := by simpa using hp
        cases depth with
        | zero => exact Leads.tooDeep rfl _
        | succ depth =>
          refine Leads.within (c := '[') rfl ?_
          dsimp only
          split
          · exact suffix_of_skipSpace (by assumption) List.suffix_rfl
          · exact ((h.elements depth _).of_suffix (skipSpace_suffix rest)).map _
      · split
        · rename_i hp
          obtain rfl : p = .char '\x7b' := by simpa using hp
          cases depth with
          | zero => exact Leads.tooDeep rfl _
          | succ depth =>
            refine Leads.within (c := '\x7b') rfl ?_
            dsimp only
            split
            · exact suffix_of_skipSpace (by assumption) List.suffix_rfl
            · exact ((h.members depth [] _).of_suffix (skipSpace_suffix rest)).map _
        · exact readScalar_leads depth _

lemma elements_succ (depth : Nat) (s : List CodePoint) :
    Leads depth s (readElements (fuel + 1) depth s) := by
  have hvalue := h.value depth s
  rw [readElements]
  split
  · rename_i e he
    rw [he] at hvalue
    exact hvalue
  · rename_i v rest hv
    rw [hv] at hvalue
    split
    · exact suffix_of_skipSpace (by assumption) hvalue
    · refine ((h.elements depth _).of_suffix ?_).map _
      exact (skipSpace_suffix _).trans (suffix_of_skipSpace (by assumption) hvalue)
    · exact Leads.fail _ _

/-- The value of a member, and what comes behind it. -/
lemma member_value (depth : Nat) (name : List CodePoint) (read : List (List CodePoint × Json))
    {s start : List CodePoint} (hstart : start <:+ s) :
    Leads depth s
      (match readValue fuel depth start with
      | .error e => .error e
      | .ok (v, rest) =>
        match skipSpace rest with
        | .char '\x7d' :: rest => .ok (insertMember name v read, rest)
        | .char ',' :: rest => readMembers fuel depth (insertMember name v read) (skipSpace rest)
        | rest => failAt .expectingComma rest) := by
  have hvalue := (h.value depth start).of_suffix hstart
  split
  · rename_i e he
    rw [he] at hvalue
    exact hvalue
  · rename_i v rest hv
    rw [hv] at hvalue
    split
    · exact suffix_of_skipSpace (by assumption) hvalue
    · refine (h.members depth _ _).of_suffix ?_
      exact (skipSpace_suffix _).trans (suffix_of_skipSpace (by assumption) hvalue)
    · exact Leads.fail _ _

lemma members_succ (depth : Nat) (read : List (List CodePoint × Json)) (s : List CodePoint) :
    Leads depth s (readMembers (fuel + 1) depth read s) := by
  rw [readMembers.eq_def]
  dsimp only
  split
  · rename_i rest
    have hname := (readStringFrom_leads depth (rest.length + 1) 0 rest).of_suffix
      (List.suffix_cons (.char '"') rest)
    rw [← readString] at hname
    split
    · rename_i e he
      rw [he] at hname
      exact hname
    · rename_i name after hread
      rw [hread] at hname
      split
      · rename_i hcolon
        refine h.member_value depth name read ?_
        exact (skipSpace_suffix _).trans (suffix_of_skipSpace hcolon hname)
      · exact Leads.fail _ _
  · exact Leads.fail _ _

end PartsLead

/-- So it is with any number of steps: each part is read in fewer steps than the whole. -/
theorem partsLead (fuel : Nat) : PartsLead fuel := by
  induction fuel with
  | zero => exact ⟨fun _ _ => trivial, fun _ _ => trivial, fun _ _ _ => trivial⟩
  | succ fuel ih => exact ⟨ih.value_succ, ih.elements_succ, ih.members_succ⟩

/-! ### Whole texts -/

/-- What stops the reader of a whole text is warranted by the text. -/
lemma readDocument_error {depth : Nat} {text : List CodePoint} {e : Stop}
    (h : readDocument depth text = .error e) : e.IsWarranted depth text := by
  have hvalue := ((partsLead (2 * text.length + 2)).value depth (skipSpace text)).of_suffix
    (skipSpace_suffix text)
  rw [readDocument] at h
  split at h
  · rename_i f hf
    cases h
    rw [hf] at hvalue
    exact hvalue
  · split at h <;> cases h
    exact trivial

lemma looks_map_char (text : List Char) : looks (text.map .char) = text := by
  rw [looks, List.map_map]
  exact List.map_id text

/-- A text in which the reader finds too many digits has them, and one that is too deep opens at least as many
containers as may lie within one another. -/
theorem warrants_of_readChars {text : List Char} {fault : Fault}
    (h : readChars text = .error fault) :
    (∀ count, fault = .tooManyDigits count → HasLongNumber text) ∧
      ∀ container, fault = .tooDeep container → depthLimit < text.countP isOpening := by
  rw [readChars, read, readWithin] at h
  cases hread : readDocument depthLimit (text.map .char) with
  | ok v =>
    rw [hread] at h
    cases h
  | error e =>
    have hwarrant := readDocument_error hread
    rw [hread] at h
    obtain rfl : e.inText _ = fault := Except.error.inj h
    cases e with
    | fault kind left => exact ⟨fun _ hf => (by cases hf), fun _ hf => (by cases hf)⟩
    | tooManyDigits count =>
      rw [Stop.IsWarranted, looks_map_char] at hwarrant
      exact ⟨fun _ _ => hwarrant, fun _ hf => (by cases hf)⟩
    | tooDeep container =>
      rw [Stop.IsWarranted, looks_map_char] at hwarrant
      exact ⟨fun _ hf => (by cases hf), fun _ _ => hwarrant⟩

/-! ### Too many ones -/

/-- An object with a number of some ones. -/
def onesObject (n : Nat) : List Char :=
  ['\x7b', '"', 'p', 'a', 't', 'h', '"', ':'] ++ (List.replicate n '1' ++ ['\x7d'])

lemma readNumber_ones {n : Nat} (h : digitLimit < n) :
    readNumber (List.replicate n '1') = .tooManyDigits n := by
  obtain ⟨k, rfl⟩ : ∃ k, n = k + 1 := ⟨n - 1, by omega⟩
  have hwhole : readWhole (List.replicate (k + 1) '1') = (List.replicate (k + 1) '1', []) := by
    rw [List.replicate_succ, readWhole]
    · simp [isAsciiDigit]
    · simp
  rw [List.replicate_succ, readNumber, ← List.replicate_succ, readUnsigned, hwhole]
  · simp [readPlaces, readPower, h]
  · simp

/-- The reader stops at too many ones. -/
lemma readScalar_ones {n : Nat} (h : digitLimit < n) (rest : List CodePoint) :
    readScalar (List.replicate n (.char '1') ++ .char '\x7d' :: rest) = .error (.tooManyDigits n) := by
  have hbrace : isNumeral (.char '\x7d') = false := by decide
  have hnumeral : (List.replicate n (CodePoint.char '1') ++ .char '\x7d' :: rest).takeWhile isNumeral =
      List.replicate n (.char '1') := by
    rw [List.takeWhile_append_of_pos, List.takeWhile_cons_of_neg (by simp [hbrace]), List.append_nil]
    intro p hp
    rw [List.eq_of_mem_replicate hp]
    decide
  have hnamed : readNamed? (List.replicate n (.char '1') ++ .char '\x7d' :: rest) namedValues =
      none := by
    obtain ⟨k, rfl⟩ : ∃ k, n = k + 1 := ⟨n - 1, by omega⟩
    rw [List.replicate_succ]
    rfl
  rw [readScalar, hnamed]
  simp only [hnumeral, List.map_replicate, CodePoint.look, readNumber_ones h]

/-- An object with a number of too many ones is not read. -/
theorem readChars_onesObject {n : Nat} (h : digitLimit < n) :
    readChars (onesObject n) = .error (.tooManyDigits n) := by
  have hscalar := readScalar_ones h []
  have hsplit : (onesObject n).map CodePoint.char =
      ['\x7b', '"', 'p', 'a', 't', 'h', '"', ':'].map .char ++
        (List.replicate n (.char '1') ++ [.char '\x7d']) := by
    simp [onesObject]
  obtain ⟨k, rfl⟩ : ∃ k, n = k + 1 := ⟨n - 1, by omega⟩
  rw [List.replicate_succ, List.cons_append] at hscalar hsplit
  have hvalue (fuel : Nat) : readValue (fuel + 3) depthLimit ((onesObject (k + 1)).map .char) =
      .error (.tooManyDigits (k + 1)) := by
    rw [hsplit]
    simp [readValue, readMembers, readString, readStringFrom, skipSpace, isSpace, consPoint, depthLimit,
      Except.map, CodePoint.value, hscalar]
  have hdocument : readDocument depthLimit ((onesObject (k + 1)).map .char) =
      .error (.tooManyDigits (k + 1)) := by
    have hstart : skipSpace ((onesObject (k + 1)).map .char) = (onesObject (k + 1)).map .char := by
      rw [hsplit]
      rfl
    have hlength : 2 * ((onesObject (k + 1)).map CodePoint.char).length + 2 =
        (2 * (onesObject (k + 1)).length - 1) + 3 := by
      simp [onesObject]
      omega
    rw [readDocument, hstart, hlength, hvalue]
  rw [readChars, read, readWithin, hdocument]
  rfl

end BuildMend.Json
