import BuildMend.Json.Reader
import BuildMend.Json.Writer
import Mathlib

/-!
The ways to write an object of texts, and reading them.

* `Spells`, `SpellsText`: the ways to write a character within a string, and a text: as itself, by a short
  escape, by a code escape or by a pair of them.
* `WritesObject`: the ways to write an object whose members are texts, with blanks wherever they may stand.
* `readString_spelling`, `readMembers_writing`: the reader takes exactly what was written.
* `readChars_object`: an object is read from each of its writings.
* `writesObject_render`: what is rendered is one of them.
-/

namespace BuildMend.Json

open Number Text

/-! ### Writings -/

/-- A hexadecimal digit with a value, small or capital. -/
def IsHexDigit (v : Nat) (d : Char) : Prop :=
  v < 16 ∧ (d = Nat.digitChar v ∨ d = (Nat.digitChar v).toUpper)

/-- The four digits of a code unit. -/
inductive WritesUnit (n : Nat) : List Char → Prop where
  | digits {a b c d : Char} (ha : IsHexDigit (n / 4096) a) (hb : IsHexDigit (n / 256 % 16) b)
      (hc : IsHexDigit (n / 16 % 16) c) (hd : IsHexDigit (n % 16) d) : WritesUnit n [a, b, c, d]

/-- The short escapes: the character behind the backslash, and the one that it stands for. -/
def shortEscapes : List (Char × Char) :=
  [('"', '"'), ('\\', '\\'), ('/', '/'), ('b', '\x08'), ('f', '\x0c'), ('n', '\n'), ('r', '\r'),
    ('t', '\t')]

/-- The ways to write a character within a string: as itself, by a short escape, by its code, or by a pair of
codes if it lies beyond the first plane. -/
inductive Spells (c : Char) : List Char → Prop where
  | itself (hcontrol : 32 ≤ c.toNat) (hquote : c ≠ '"') (hescape : c ≠ '\\') : Spells c [c]
  | short {e : Char} (h : (e, c) ∈ shortEscapes) : Spells c ['\\', e]
  | code {ds : List Char} (h : WritesUnit c.toNat ds) : Spells c ('\\' :: 'u' :: ds)
  | pair {ds es : List Char} (hc : 0x10000 ≤ c.toNat)
      (hhigh : WritesUnit (0xD800 + (c.toNat - 0x10000) / 1024) ds)
      (hlow : WritesUnit (0xDC00 + (c.toNat - 0x10000) % 1024) es) :
      Spells c ('\\' :: 'u' :: ds ++ '\\' :: 'u' :: es)

/-- The ways to write a text within a string. -/
inductive SpellsText : List Char → List Char → Prop where
  | nil : SpellsText [] []
  | cons {c : Char} {s a b : List Char} (hc : Spells c a) (hs : SpellsText s b) :
      SpellsText (c :: s) (a ++ b)

/-- The ways to write a string. -/
inductive WritesString (s : String) : List Char → Prop where
  | quoted {t : List Char} (h : SpellsText s.toList t) : WritesString s ('"' :: t ++ ['"'])

/-- A text of blanks of the format. -/
def IsSpaces (s : List Char) : Prop := ∀ c ∈ s, c = ' ' ∨ c = '\t' ∨ c = '\n' ∨ c = '\r'

lemma isSpaces_nil : IsSpaces [] := by simp [IsSpaces]

lemma isSpaces_space : IsSpaces [' '] := by simp [IsSpaces]

/-- The ways to write a member that is a text. -/
inductive WritesMember (m : String × String) : List Char → Prop where
  | named {name before after value : List Char} (hname : WritesString m.1 name)
      (hbefore : IsSpaces before) (hafter : IsSpaces after) (hvalue : WritesString m.2 value) :
      WritesMember m (name ++ before ++ ':' :: after ++ value)

/-- The ways to write the members of an object, with the blanks behind them. -/
inductive WritesMembers : List (String × String) → List Char → Prop where
  | last {m : String × String} {t after : List Char} (hm : WritesMember m t)
      (hafter : IsSpaces after) : WritesMembers [m] (t ++ after)
  | more {m : String × String} {ms : List (String × String)} {t before after u : List Char}
      (hm : WritesMember m t) (hbefore : IsSpaces before) (hafter : IsSpaces after)
      (hms : WritesMembers ms u) : WritesMembers (m :: ms) (t ++ before ++ ',' :: after ++ u)

/-- The ways to write an object of texts. -/
inductive WritesObject (ms : List (String × String)) : List Char → Prop where
  | braced {blanks t : List Char} (hblanks : IsSpaces blanks) (h : WritesMembers ms t) :
      WritesObject ms ('\x7b' :: blanks ++ t ++ ['\x7d'])

/-! ### Reading code escapes -/

lemma hexValue?_of_isHexDigit {v : Nat} {d : Char} (h : IsHexDigit v d) : hexValue? d = some v := by
  have hdigits : ∀ v < 16, hexValue? (Nat.digitChar v) = some v ∧
      hexValue? (Nat.digitChar v).toUpper = some v := by decide
  obtain ⟨hv, rfl | rfl⟩ := h
  · exact (hdigits v hv).1
  · exact (hdigits v hv).2

/-- The four digits are read as the number that they write. -/
lemma codeUnit?_of_writesUnit {n : Nat} {ds : List Char} (h : WritesUnit n ds)
    {rest : List CodePoint} (hrest : rest ≠ []) :
    codeUnit? (ds.map .char ++ rest) = some n := by
  obtain ⟨p, rest, rfl⟩ := List.exists_cons_of_ne_nil hrest
  obtain ⟨ha, hb, hc, hd⟩ := h
  have hn : (n / 4096 * 16 + n / 256 % 16) * 256 + n / 16 % 16 * 16 + n % 16 = n := by omega
  simp only [List.map_cons, List.map_nil, List.cons_append, List.nil_append, codeUnit?, hexQuad?,
    CodePoint.look, hexValue?_of_isHexDigit ha, hexValue?_of_isHexDigit hb,
    hexValue?_of_isHexDigit hc, hexValue?_of_isHexDigit hd, Option.bind_eq_bind, Option.bind_some,
    Option.pure_def, hn]

lemma WritesUnit.length_eq {n : Nat} {ds : List Char} (h : WritesUnit n ds) : ds.length = 4 := by
  cases h
  rfl

/-- The code of a character is no half of a pair. -/
lemma ofValue_toNat (c : Char) :
    CodePoint.ofValue c.toNat = .char c ∧ CodePoint.isHighHalf c.toNat = false := by
  have hvalid : c.toNat < 0xD800 ∨ 0xDFFF < c.toNat ∧ c.toNat < 0x110000 := c.valid
  have hhigh : CodePoint.isHighHalf c.toNat = false := by
    rw [CodePoint.isHighHalf, CodePoint.firstHalf]
    simp only [Bool.and_eq_false_iff, decide_eq_false_iff_not]
    omega
  have hlow : CodePoint.isLowHalf c.toNat = false := by
    simp only [CodePoint.isLowHalf, Bool.and_eq_false_iff, decide_eq_false_iff_not]
    omega
  refine ⟨?_, hhigh⟩
  rw [CodePoint.ofValue, hhigh, hlow, Char.ofNat_toNat]
  rfl

/-- The two halves of a character beyond the first plane, and the character that they make. -/
lemma ofPair_toNat {c : Char} (h : 0x10000 ≤ c.toNat) :
    let high := 0xD800 + (c.toNat - 0x10000) / 1024
    let low := 0xDC00 + (c.toNat - 0x10000) % 1024
    CodePoint.isHighHalf high = true ∧ CodePoint.isLowHalf low = true ∧
      CodePoint.ofPair high low = .char c := by
  intro high low
  have hvalid : c.toNat < 0xD800 ∨ 0xDFFF < c.toNat ∧ c.toNat < 0x110000 := c.valid
  refine ⟨?_, ?_, ?_⟩
  · rw [CodePoint.isHighHalf, CodePoint.firstHalf]
    simp only [Bool.and_eq_true, decide_eq_true_eq, high]
    omega
  · simp only [CodePoint.isLowHalf, Bool.and_eq_true, decide_eq_true_eq, low]
    omega
  · have hnumber : 0x10000 + (high - CodePoint.firstHalf) * 1024 + (low - 0xDC00) = c.toNat := by
      simp only [CodePoint.firstHalf, high, low]
      omega
    rw [CodePoint.ofPair, hnumber, Char.ofNat_toNat]

lemma readCodeEscape_code {c : Char} {ds : List Char} (h : WritesUnit c.toNat ds)
    {rest : List CodePoint} (hrest : rest ≠ []) :
    readCodeEscape (ds.map .char ++ rest) = .ok (.char c, 4) := by
  obtain ⟨hvalue, hhalf⟩ := ofValue_toNat c
  simp only [readCodeEscape, codeUnit?_of_writesUnit h hrest, hhalf, hvalue]
  rfl

lemma readCodeEscape_pair {c : Char} {ds es : List Char} (hc : 0x10000 ≤ c.toNat)
    (hhigh : WritesUnit (0xD800 + (c.toNat - 0x10000) / 1024) ds)
    (hlow : WritesUnit (0xDC00 + (c.toNat - 0x10000) % 1024) es) {rest : List CodePoint}
    (hrest : rest ≠ []) :
    readCodeEscape (ds.map .char ++ .char '\\' :: .char 'u' :: (es.map .char ++ rest)) =
      .ok (.char c, 10) := by
  obtain ⟨hfirst, hsecond, hpair⟩ := ofPair_toNat hc
  have hdrop : (ds.map CodePoint.char ++
        (.char '\\' :: .char 'u' :: (es.map .char ++ rest) : List CodePoint)).drop 4 =
      .char '\\' :: .char 'u' :: (es.map .char ++ rest) :=
    List.drop_left' (by simpa using hhigh.length_eq)
  have hmore : ((es.map CodePoint.char ++ rest).drop 4).isEmpty = false := by
    rw [List.drop_left' (by simpa using hlow.length_eq)]
    simpa using hrest
  simp only [readCodeEscape, codeUnit?_of_writesUnit hhigh (List.cons_ne_nil _ _), hfirst, hdrop,
    readSecondHalf, hmore, codeUnit?_of_writesUnit hlow hrest, hsecond, hpair]
  rfl

/-! ### Reading strings -/

/-- What belongs to an escape is passed over. -/
lemma readStringFrom_skip (opened : Nat) (a s : List CodePoint) :
    readStringFrom opened a.length (a ++ s) = readStringFrom opened 0 s := by
  induction a with
  | nil => rfl
  | cons p a ih => exact ih

/-- An escape is read as what it stands for. -/
lemma readStringFrom_escape {opened : Nat} {a s : List CodePoint} {q : CodePoint}
    (h : readEscape opened (a ++ s) = .ok (q, a.length)) :
    readStringFrom opened 0 (.char '\\' :: (a ++ s)) = consPoint q (readStringFrom opened 0 s) := by
  have hquote : (CodePoint.char '\\' == .char '"') = false := by decide
  rw [readStringFrom, hquote, h]
  simp only [Bool.false_eq_true, if_false, beq_self_eq_true, if_true]
  rw [readStringFrom_skip]

/-- A character is read from each way to write it. -/
lemma readStringFrom_spelling {c : Char} {t : List Char} (h : Spells c t) (opened : Nat)
    {rest : List CodePoint} (hrest : rest ≠ []) :
    readStringFrom opened 0 (t.map .char ++ rest) =
      consPoint (.char c) (readStringFrom opened 0 rest) := by
  cases h with
  | itself hcontrol hquote hescape =>
    have hplain : ¬CodePoint.value (.char c) < 32 := Nat.not_lt.mpr hcontrol
    rw [List.map_singleton, List.singleton_append, readStringFrom, if_neg (by simpa using hquote),
      if_neg (by simpa using hescape), if_neg hplain]
  | @short e h =>
    refine readStringFrom_escape (a := [.char e]) ?_
    simp only [shortEscapes, List.mem_cons, Prod.mk.injEq, List.not_mem_nil, or_false] at h
    rcases h with ⟨rfl, rfl⟩ | ⟨rfl, rfl⟩ | ⟨rfl, rfl⟩ | ⟨rfl, rfl⟩ | ⟨rfl, rfl⟩ | ⟨rfl, rfl⟩ |
      ⟨rfl, rfl⟩ | ⟨rfl, rfl⟩ <;> rfl
  | @code ds h =>
    refine readStringFrom_escape (a := .char 'u' :: ds.map .char) ?_
    rw [List.cons_append, readEscape, readCodeEscape_code h hrest, List.length_cons, List.length_map,
      h.length_eq]
    rfl
  | @pair ds es hc hhigh hlow =>
    have hsplit : ('\\' :: 'u' :: ds ++ '\\' :: 'u' :: es).map CodePoint.char ++ rest =
        .char '\\' ::
          ((.char 'u' :: (ds ++ '\\' :: 'u' :: es).map CodePoint.char) ++ rest) := by simp
    rw [hsplit]
    refine readStringFrom_escape ?_
    rw [List.cons_append, List.map_append, List.map_cons, List.map_cons, List.append_assoc,
      List.cons_append, List.cons_append, readEscape, readCodeEscape_pair hc hhigh hlow hrest]
    simp [hhigh.length_eq, hlow.length_eq, Except.map]

/-- A text is read from each way to write it, up to the closing quote. -/
lemma readStringFrom_text {s t : List Char} (h : SpellsText s t) (opened : Nat)
    (rest : List CodePoint) :
    readStringFrom opened 0 (t.map .char ++ .char '"' :: rest) = .ok (s.map .char, rest) := by
  induction h with
  | nil => rfl
  | @cons c s a b hc hs ih =>
    rw [List.map_append, List.append_assoc, readStringFrom_spelling hc opened (by simp), ih]
    rfl

/-- A string is read from each way to write it. -/
lemma readString_spelling {s t : List Char} (h : SpellsText s t) (rest : List CodePoint) :
    readString (t.map .char ++ .char '"' :: rest) = .ok (s.map .char, rest) :=
  readStringFrom_text h _ rest

/-! ### Reading objects -/

/-- Blanks are passed over, up to what is none. -/
lemma skipSpace_append {blanks : List Char} (h : IsSpaces blanks) {s : List CodePoint}
    (hs : ∀ p ∈ s.head?, isSpace p = false) : skipSpace (blanks.map .char ++ s) = s := by
  have hspaces : ∀ p ∈ blanks.map CodePoint.char, isSpace p = true := by
    intro p hp
    obtain ⟨c, hc, rfl⟩ := List.mem_map.mp hp
    rcases h c hc with rfl | rfl | rfl | rfl <;> rfl
  rw [skipSpace, List.dropWhile_append_of_pos hspaces]
  cases s with
  | nil => rfl
  | cons p s => exact List.dropWhile_cons_of_neg (by simp [hs p rfl])

lemma readValue_string {s : String} {t : List Char} (h : WritesString s t) (fuel depth : Nat)
    (rest : List CodePoint) :
    readValue (fuel + 1) depth (t.map .char ++ rest) = .ok (.ofString s, rest) := by
  obtain ⟨hs⟩ := h
  have hread := readString_spelling hs rest
  simp only [List.map_append, List.map_cons, List.cons_append, List.append_assoc, List.map_nil,
    List.nil_append, readValue, beq_self_eq_true, if_true, hread]
  rfl

/-- What is written begins with a quote. -/
lemma WritesString.exists_cons {s : String} {t : List Char} (h : WritesString s t) :
    ∃ u, t = '"' :: u := by
  cases h
  exact ⟨_, rfl⟩

lemma WritesMember.exists_cons {m : String × String} {t : List Char} (h : WritesMember m t) :
    ∃ u, t = '"' :: u := by
  obtain ⟨hname, -, -, -⟩ := h
  obtain ⟨u, rfl⟩ := hname.exists_cons
  exact ⟨_, rfl⟩

lemma WritesMembers.exists_cons {ms : List (String × String)} {t : List Char}
    (h : WritesMembers ms t) : ∃ u, t = '"' :: u := by
  cases h with
  | last hm =>
    obtain ⟨u, rfl⟩ := hm.exists_cons
    exact ⟨_, rfl⟩
  | more hm =>
    obtain ⟨u, rfl⟩ := hm.exists_cons
    exact ⟨_, rfl⟩

/-- The member at the front is read from each way to write it; then the object ends or goes on. -/
lemma readMembers_member {m : String × String} {t : List Char} (h : WritesMember m t)
    (fuel depth : Nat) (read : List (List CodePoint × Json)) (rest : List CodePoint) :
    readMembers (fuel + 2) depth read (t.map .char ++ rest) =
      match skipSpace rest with
      | .char '\x7d' :: rest => .ok (insertMember (CodePoint.ofString m.1) (.ofString m.2) read, rest)
      | .char ',' :: rest =>
        readMembers (fuel + 1) depth (insertMember (CodePoint.ofString m.1) (.ofString m.2) read)
          (skipSpace rest)
      | rest => failAt .expectingComma rest := by
  obtain ⟨hname, hbefore, hafter, hvalue⟩ := h
  rename_i name before after value
  obtain ⟨hname⟩ := hname
  rename_i name
  obtain ⟨u, rfl⟩ := hvalue.exists_cons
  have hsplit : (('"' :: name ++ ['"']) ++ before ++ ':' :: after ++ '"' :: u).map CodePoint.char ++
        rest =
      .char '"' :: (name.map .char ++ .char '"' :: (before.map .char ++ .char ':' ::
        (after.map .char ++ (('"' :: u).map .char ++ rest)))) := by simp
  have hcolon : skipSpace (before.map .char ++ .char ':' ::
      (after.map .char ++ (('"' :: u).map .char ++ rest))) =
      .char ':' :: (after.map .char ++ (('"' :: u).map .char ++ rest)) :=
    skipSpace_append hbefore (by simp [isSpace])
  have hstart : skipSpace (after.map .char ++ (('"' :: u).map .char ++ rest)) =
      ('"' :: u).map .char ++ rest :=
    skipSpace_append hafter (by simp [isSpace])
  rw [hsplit, readMembers]
  simp only [readString_spelling hname, hcolon, hstart, readValue_string hvalue]
  rfl

/-- A member with a new name comes last. -/
lemma insertMember_of_new {name : List CodePoint} {read : List (List CodePoint × Json)}
    (h : name ∉ read.map (·.1)) (value : Json) :
    insertMember name value read = read ++ [(name, value)] := by
  induction read with
  | nil => rfl
  | cons m read ih =>
    obtain ⟨hne, hrest⟩ : name ≠ m.1 ∧ name ∉ read.map (·.1) := by simpa using h
    rw [insertMember, if_neg (by simpa using hne.symm), ih hrest, List.cons_append]

/-- The members of an object of texts. -/
def textMembers (ms : List (String × String)) : List (List CodePoint × Json) :=
  ms.map fun m => (CodePoint.ofString m.1, .ofString m.2)

/-- Members with different names are read from each way to write them. -/
lemma readMembers_writing {ms : List (String × String)} {t : List Char} (h : WritesMembers ms t)
    {fuel : Nat} (hfuel : ms.length < fuel) (depth : Nat) {read : List (List CodePoint × Json)}
    (hnames : ((read ++ textMembers ms).map (·.1)).Nodup) (rest : List CodePoint) :
    readMembers fuel depth read (t.map .char ++ .char '\x7d' :: rest) =
      .ok (read ++ textMembers ms, rest) := by
  have hnew {m : String × String} {ms : List (String × String)}
      {read : List (List CodePoint × Json)}
      (hnames : ((read ++ textMembers (m :: ms)).map (·.1)).Nodup) :
      insertMember (CodePoint.ofString m.1) (.ofString m.2) read = read ++ textMembers [m] := by
    refine insertMember_of_new (fun hmem => ?_) _
    rw [List.map_append] at hnames
    exact List.disjoint_of_nodup_append hnames hmem (by simp [textMembers])
  induction h generalizing fuel read with
  | @last m t after hm hafter =>
    obtain ⟨fuel, rfl⟩ : ∃ k, fuel = k + 2 := ⟨fuel - 2, by simp at hfuel; omega⟩
    have hend : skipSpace (after.map .char ++ .char '\x7d' :: rest) = .char '\x7d' :: rest :=
      skipSpace_append hafter (by simp [isSpace])
    rw [List.map_append, List.append_assoc, readMembers_member hm, hend, hnew hnames]
    rfl
  | @more m ms t before after u hm hbefore hafter hms ih =>
    obtain ⟨fuel, rfl⟩ : ∃ k, fuel = k + 2 := ⟨fuel - 2, by simp at hfuel; omega⟩
    obtain ⟨u, rfl⟩ := hms.exists_cons
    have hsplit : (t ++ before ++ ',' :: after ++ '"' :: u).map CodePoint.char ++
          .char '\x7d' :: rest =
        t.map .char ++ (before.map .char ++ .char ',' ::
          (after.map .char ++ (('"' :: u).map .char ++ .char '\x7d' :: rest))) := by simp
    have hcomma : skipSpace (before.map .char ++ .char ',' ::
        (after.map .char ++ (('"' :: u).map .char ++ .char '\x7d' :: rest))) =
        .char ',' :: (after.map .char ++ (('"' :: u).map .char ++ .char '\x7d' :: rest)) :=
      skipSpace_append hbefore (by simp [isSpace])
    have hstart : skipSpace (after.map .char ++ (('"' :: u).map .char ++ .char '\x7d' :: rest)) =
        ('"' :: u).map .char ++ .char '\x7d' :: rest :=
      skipSpace_append hafter (by simp [isSpace])
    have hmore : read ++ textMembers (m :: ms) = (read ++ textMembers [m]) ++ textMembers ms := by
      simp [textMembers]
    rw [hsplit, readMembers_member hm, hcomma]
    simp only [hnew hnames, hstart]
    rw [hmore] at hnames
    rw [hmore, ih (by simp at hfuel; omega) hnames]

lemma WritesMembers.length_le {ms : List (String × String)} {t : List Char}
    (h : WritesMembers ms t) : ms.length ≤ t.length := by
  induction h with
  | last hm =>
    obtain ⟨u, rfl⟩ := hm.exists_cons
    simp
  | more hm _ _ _ ih =>
    obtain ⟨u, rfl⟩ := hm.exists_cons
    simp only [List.length_cons, List.length_append]
    omega

lemma WritesObject.length_le {ms : List (String × String)} {t : List Char} (h : WritesObject ms t) :
    ms.length ≤ t.length := by
  obtain ⟨-, hms⟩ := h
  have hlength := hms.length_le
  simp only [List.length_append]
  omega

lemma ofString_injective : Function.Injective CodePoint.ofString := by
  intro s t h
  have hchar : Function.Injective CodePoint.char := fun _ _ h => CodePoint.char.inj h
  exact String.toList_inj.mp (List.map_injective_iff.mpr hchar h)

/-- An object at the front is read from each way to write it, if its members have different names. -/
lemma readValue_object {ms : List (String × String)} {t : List Char} (h : WritesObject ms t)
    (hnames : (ms.map (·.1)).Nodup) {fuel : Nat} (hfuel : ms.length < fuel) (depth : Nat)
    (rest : List CodePoint) :
    readValue (fuel + 1) (depth + 1) (t.map .char ++ rest) = .ok (.object (textMembers ms), rest) := by
  obtain ⟨hblanks, hms⟩ := h
  rename_i blanks t
  obtain ⟨u, rfl⟩ := hms.exists_cons
  have hmembers : ((textMembers ms).map (·.1)).Nodup := by
    have hmap : (textMembers ms).map (·.1) = (ms.map (·.1)).map CodePoint.ofString := by
      simp [textMembers]
    rw [hmap]
    exact hnames.map ofString_injective
  have hsplit : ('\x7b' :: blanks ++ '"' :: u ++ ['\x7d']).map CodePoint.char ++ rest =
      .char '\x7b' :: (blanks.map .char ++ (('"' :: u).map .char ++ .char '\x7d' :: rest)) := by simp
  have hstart : skipSpace (blanks.map .char ++ (('"' :: u).map .char ++ .char '\x7d' :: rest)) =
      ('"' :: u).map .char ++ .char '\x7d' :: rest :=
    skipSpace_append hblanks (by simp [isSpace])
  have hall : readMembers fuel depth [] (('"' :: u).map .char ++ .char '\x7d' :: rest) =
      .ok ([] ++ textMembers ms, rest) := readMembers_writing hms hfuel depth hmembers rest
  rw [List.map_cons, List.cons_append] at hstart hall
  rw [hsplit]
  simp [readValue, hstart, hall, Except.map]

/-- An object of texts is read from each way to write it, if its members have different names. -/
theorem readChars_object {ms : List (String × String)} {t : List Char} (h : WritesObject ms t)
    (hnames : (ms.map (·.1)).Nodup) : readChars t = .ok (.object (textMembers ms)) := by
  have hlength : ms.length < 2 * (t.map CodePoint.char).length + 1 := by
    rw [List.length_map]
    have hle := h.length_le
    omega
  have hstart : skipSpace (t.map .char) = t.map .char := by
    obtain ⟨-, -⟩ := h
    rfl
  have hvalue : readValue (2 * (t.map CodePoint.char).length + 2) depthLimit (t.map .char) =
      .ok (.object (textMembers ms), []) := by
    have hfront := readValue_object h hnames hlength (depthLimit - 1) []
    rwa [List.append_nil] at hfront
  have hdocument : readDocument depthLimit (t.map .char) = .ok (.object (textMembers ms)) := by
    rw [readDocument, hstart, hvalue]
    rfl
  rw [readChars, read, readWithin, hdocument]
  rfl

/-! ### What is rendered -/

/-- The last digit of a number in at least two digits. -/
lemma hexDigits_succ {width : Nat} (h : 0 < width) (n : Nat) :
    hexDigits (width + 1) n = hexDigits width (n / 16) ++ [Nat.digitChar (n % 16)] := by
  obtain ⟨width, rfl⟩ := Nat.exists_eq_add_of_lt h
  by_cases hn : n < 16
  · have hzero : Nat.toDigits 16 0 = ['0'] := rfl
    rw [hexDigits, hexDigits, Nat.toDigits_of_lt_base hn, Nat.div_eq_of_lt hn, Nat.mod_eq_of_lt hn,
      hzero]
    simp [List.replicate_succ']
  · rw [hexDigits, hexDigits, Nat.toDigits_of_base_le (by decide) (Nat.not_lt.mp hn)]
    simp

/-- Four digits of a number write it as a code unit. -/
lemma writesUnit_hexDigits {n : Nat} (h : n < 0x10000) : WritesUnit n (hexDigits 4 n) := by
  have hdigit (v : Nat) (hv : v < 16) : IsHexDigit v (Nat.digitChar v) := ⟨hv, .inl rfl⟩
  have hfirst : hexDigits 1 (n / 16 / 16 / 16) = [Nat.digitChar (n / 4096)] := by
    rw [Nat.div_div_eq_div_mul, Nat.div_div_eq_div_mul, hexDigits,
      Nat.toDigits_of_lt_base (by omega)]
    rfl
  rw [hexDigits_succ (by decide), hexDigits_succ (by decide), hexDigits_succ (by decide), hfirst,
    Nat.div_div_eq_div_mul]
  exact .digits (hdigit _ (by omega)) (hdigit _ (by omega)) (hdigit _ (by omega))
    (hdigit _ (by omega))

lemma spells_renderChar (c : Char) : Spells c (renderChar c) := by
  have hvalid : c.toNat < 0xD800 ∨ 0xDFFF < c.toNat ∧ c.toNat < 0x110000 := c.valid
  simp only [renderChar, beq_iff_eq]
  split
  · subst c
    exact .short (by decide)
  · split
    · subst c
      exact .short (by decide)
    · split
      · subst c
        exact .short (by decide)
      · split
        · subst c
          exact .short (by decide)
        · split
          · subst c
            exact .short (by decide)
          · split
            · rename_i hquote hescape _ _ _ hplain
              simp only [Bool.and_eq_true, decide_eq_true_eq] at hplain
              exact .itself hplain.1 hquote hescape
            · split
              · exact .code (writesUnit_hexDigits (by assumption))
              · exact .pair (by omega) (writesUnit_hexDigits (by omega))
                  (writesUnit_hexDigits (by omega))

lemma writesString_render (s : String) :
    WritesString s (renderString (CodePoint.ofString s)).toList := by
  have htext (s : List Char) : SpellsText s (s.flatMap renderChar) := by
    induction s with
    | nil => exact .nil
    | cons c s ih => exact .cons (spells_renderChar c) ih
  have hpoints : (CodePoint.ofString s).flatMap renderPoint = s.toList.flatMap renderChar := by
    rw [CodePoint.ofString, List.flatMap_map]
    rfl
  rw [renderString, String.toList_ofList, hpoints]
  exact .quoted (htext s.toList)

/-- What is rendered is a way to write the object. -/
theorem writesObject_render {ms : List (String × String)} (h : ms ≠ []) :
    WritesObject ms (render (.object (textMembers ms))).toList := by
  have hmember (m : String × String) : WritesMember m
      (renderString (CodePoint.ofString m.1) ++ ": " ++ render (.ofString m.2)).toList := by
    have hrender : render (.ofString m.2) = renderString (CodePoint.ofString m.2) := by
      rw [ofString, render]
    have hwritten := WritesMember.named (writesString_render m.1) isSpaces_nil isSpaces_space
      (writesString_render m.2)
    rw [hrender, String.toList_append, String.toList_append]
    simpa using hwritten
  have hmembers : WritesMembers ms (renderMembers (textMembers ms)).toList := by
    induction ms with
    | nil => exact absurd rfl h
    | cons m ms ih =>
      cases ms with
      | nil =>
        have hlast := WritesMembers.last (hmember m) isSpaces_nil
        rw [List.append_nil] at hlast
        rwa [textMembers, List.map_singleton, renderMembers]
      | cons m' ms =>
        have hmore := WritesMembers.more (hmember m) isSpaces_nil isSpaces_space
          (ih (List.cons_ne_nil _ _))
        rw [textMembers, List.map_cons, List.map_cons, renderMembers, String.toList_append,
          String.toList_append]
        · simpa [textMembers] using hmore
        · simp
  have hall := WritesObject.braced isSpaces_nil hmembers
  rw [render, String.toList_append, String.toList_append]
  simpa using hall

end BuildMend.Json
