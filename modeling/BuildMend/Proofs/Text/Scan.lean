import BuildMend.Text.Scan
import Mathlib

/-!
Where a form stands in a text.

* `Form.StandsAt`: a form stands behind one part of a text and before another.
* `Form.firstFrom?_eq_none_iff`: nothing is found exactly in a text in which the form stands nowhere.
* `Form.first?_eq_some_iff`: what is found first stands there, and the form stands nowhere before.
* `Form.standsAt_of_first?`, `Form.standsAt_of_mem_occurrences`: what is found stands there.
* `Form.IsSeparate`: a form does not stand again before the end of what it takes;
  `Form.getLast_occurrences`: what is found last then stands behind every other place.
* `replaceAllFrom_skip`: what is taken already is passed over.
-/

namespace BuildMend.Text

/-- The character before the rest of a text, behind a first part that follows some character. -/
def lastOr (before : Option Char) (a : List Char) : Option Char := a.getLast?.or before

@[simp] lemma lastOr_nil {before : Option Char} : lastOr before [] = before := rfl

@[simp] lemma lastOr_cons {before : Option Char} {c : Char} {a : List Char} :
    lastOr before (c :: a) = lastOr (some c) a := by
  cases h : a.getLast? <;> simp [lastOr, List.getLast?_cons, h]

lemma lastOr_append {before : Option Char} {a b : List Char} :
    lastOr before (a ++ b) = lastOr (lastOr before a) b := by
  cases h : b.getLast? <;> simp [lastOr, List.getLast?_append, h]

@[simp] lemma lastOr_none {a : List Char} : lastOr none a = a.getLast? := by simp [lastOr]

namespace Form

variable {α : Type} {form : Form α}

/-- A form stands between a first part of a text and the rest, reads a value there, and takes some
characters. -/
def StandsAt (form : Form α) (before : Option Char) (a b : List Char) (value : α)
    (length : Nat) : Prop :=
  form (lastOr before a) b = some (value, length) ∧ b ≠ [] ∧ 0 < length

/-- Nothing is found exactly in a text in which the form stands nowhere. -/
theorem firstFrom?_eq_none_iff {start : Nat} {before : Option Char} {text : List Char} :
    form.firstFrom? start before text = none ↔
      ∀ a b value length, text = a ++ b → ¬form.StandsAt before a b value length := by
  induction text generalizing start before with
  | nil =>
    simp only [firstFrom?, true_iff]
    rintro a b value length h ⟨-, hb, -⟩
    exact hb (List.append_eq_nil_iff.mp h.symm).2
  | cons c rest ih =>
    rw [firstFrom?]
    split
    · rename_i value length hform
      refine ⟨by simp, fun h => ?_⟩
      exact absurd ⟨hform, by simp, Nat.succ_pos _⟩ (h [] (c :: rest) value (length + 1) rfl)
    · rename_i hno
      rw [ih]
      constructor
      · intro h a b value length hab hstands
        cases a with
        | nil =>
          obtain rfl : c :: rest = b := hab
          obtain ⟨hform, -, hlen⟩ := hstands
          obtain ⟨n, rfl⟩ := Nat.exists_eq_succ_of_ne_zero (Nat.pos_iff_ne_zero.mp hlen)
          exact hno _ _ hform
        | cons d a =>
          obtain ⟨rfl, rfl⟩ := List.cons.inj hab
          refine h a b value length rfl ?_
          rwa [StandsAt, lastOr_cons] at hstands
      · intro h a b value length hab hstands
        refine h (c :: a) b value length (by rw [hab]; rfl) ?_
        rwa [StandsAt, lastOr_cons]

/-! ### The first place -/

section First

variable {start : Nat} {before : Option Char} {a b text : List Char}

/-- A form stands nowhere in a first part of a text that goes on. -/
def Misses (form : Form α) (before : Option Char) (a b : List Char) : Prop :=
  ∀ a' c value length, a = a' ++ c → c ≠ [] → ¬form.StandsAt before a' (c ++ b) value length

lemma misses_cons {c : Char} :
    form.Misses before (c :: a) b ↔
      (∀ value length, form before (c :: (a ++ b)) ≠ some (value, length + 1)) ∧
        form.Misses (some c) a b := by
  constructor
  · refine fun h => ⟨fun value length hform => ?_, fun a' d value length ha hd hstands => ?_⟩
    · exact h [] (c :: a) value (length + 1) rfl (by simp) ⟨hform, by simp, Nat.succ_pos _⟩
    · refine h (c :: a') d value length (by rw [ha]; rfl) hd ?_
      rwa [StandsAt, lastOr_cons]
  · rintro ⟨hhere, hlater⟩ a' d value length ha hd hstands
    cases a' with
    | nil =>
      obtain rfl : c :: a = d := ha
      obtain ⟨hform, -, hlen⟩ := hstands
      obtain ⟨n, rfl⟩ := Nat.exists_eq_succ_of_ne_zero (Nat.pos_iff_ne_zero.mp hlen)
      exact hhere _ _ hform
    | cons e a' =>
      obtain ⟨rfl, rfl⟩ := List.cons.inj ha
      rw [StandsAt, lastOr_cons] at hstands
      exact hlater a' d value length rfl hd hstands

/-- A part of a text in which the form stands nowhere is passed over. -/
lemma firstFrom?_append (h : form.Misses before a b) :
    form.firstFrom? start before (a ++ b) =
      form.firstFrom? (start + a.length) (lastOr before a) b := by
  induction a generalizing start before with
  | nil => rfl
  | cons c a ih =>
    obtain ⟨hhere, hlater⟩ := misses_cons.mp h
    rw [List.cons_append, firstFrom?, lastOr_cons, List.length_cons, Nat.add_comm a.length,
      ← Nat.add_assoc, ← ih hlater]
    split
    · exact absurd ‹_› (hhere _ _)
    · rfl

/-- What is found first stands there, and the form nowhere before. -/
lemma misses_of_firstFrom? {o : Occurrence α} (h : form.firstFrom? start before text = some o) :
    ∃ a b, text = a ++ b ∧ o.start = start + a.length ∧
      form.StandsAt before a b o.value o.length ∧ form.Misses before a b := by
  induction text generalizing start before with
  | nil => cases h
  | cons c rest ih =>
    rw [firstFrom?] at h
    split at h
    · rename_i value length hform
      obtain rfl := Option.some.inj h
      refine ⟨[], c :: rest, rfl, rfl, ⟨hform, by simp, Nat.succ_pos _⟩, ?_⟩
      intro a' d _ _ ha hd
      exact absurd (List.append_eq_nil_iff.mp ha.symm).2 hd
    · rename_i hno
      obtain ⟨a, b, rfl, hstart, hstands, hmiss⟩ := ih h
      refine ⟨c :: a, b, rfl, by rw [hstart, List.length_cons]; omega, ?_,
        misses_cons.mpr ⟨hno, hmiss⟩⟩
      rwa [StandsAt, lastOr_cons]

/-- What is found first stands there, and the form nowhere before. -/
theorem first?_eq_some_iff {o : Occurrence α} :
    form.first? text = some o ↔
      ∃ a b, text = a ++ b ∧ o.start = a.length ∧ form.StandsAt none a b o.value o.length ∧
        form.Misses none a b := by
  constructor
  · intro h
    simpa using misses_of_firstFrom? h
  · rintro ⟨a, b, rfl, hstart, ⟨hform, hb, hlen⟩, hmiss⟩
    obtain ⟨c, b, rfl⟩ := List.exists_cons_of_ne_nil hb
    obtain ⟨n, hn⟩ := Nat.exists_eq_succ_of_ne_zero (Nat.pos_iff_ne_zero.mp hlen)
    obtain ⟨s, l, v⟩ := o
    obtain rfl : l = n + 1 := hn
    obtain rfl : s = a.length := hstart
    rw [first?, firstFrom?_append hmiss, firstFrom?, hform, Nat.zero_add]

lemma standsAt_of_first? {o : Occurrence α} (h : form.first? text = some o) :
    ∃ a b, text = a ++ b ∧ o.start = a.length ∧ form.StandsAt none a b o.value o.length := by
  obtain ⟨a, b, hab, hstart, hstands, -⟩ := first?_eq_some_iff.mp h
  exact ⟨a, b, hab, hstart, hstands⟩

end First

/-! ### All places -/

section Occurrences

variable {start : Nat} {before : Option Char} {a b : List Char}

/-- What is taken already is passed over. -/
lemma occurrencesFrom_skip (a b : List Char) :
    form.occurrencesFrom start a.length before (a ++ b) =
      form.occurrencesFrom (start + a.length) 0 (lastOr before a) b := by
  induction a generalizing start before with
  | nil => rfl
  | cons c a ih =>
    rw [List.length_cons, List.cons_append, occurrencesFrom, ih, lastOr_cons, Nat.add_right_comm,
      Nat.add_assoc]

/-- Where a form stands, the search goes on behind what it takes. -/
lemma occurrencesFrom_match {v : α} (ha : a ≠ []) (h : form before (a ++ b) = some (v, a.length)) :
    form.occurrencesFrom start 0 before (a ++ b) =
      ⟨start, a.length, v⟩ :: form.occurrencesFrom (start + a.length) 0 (lastOr before a) b := by
  obtain ⟨c, a, rfl⟩ := List.exists_cons_of_ne_nil ha
  rw [List.cons_append] at h ⊢
  rw [occurrencesFrom, h]
  simp only [List.length_cons]
  rw [occurrencesFrom_skip, lastOr_cons, Nat.add_right_comm, Nat.add_assoc]

/-- Where a form does not stand, the search goes on behind the next character. -/
lemma occurrencesFrom_no_match {c : Char} {rest : List Char}
    (h : ∀ v n, form before (c :: rest) ≠ some (v, n + 1)) :
    form.occurrencesFrom start 0 before (c :: rest) =
      form.occurrencesFrom (start + 1) 0 (some c) rest := by
  rw [occurrencesFrom]
  split
  · rename_i heq
    exact absurd heq (h _ _)
  · rfl

end Occurrences

/-- Whatever is found stands there. -/
lemma standsAt_of_mem_occurrencesFrom {start skip : Nat} {before : Option Char} {text : List Char}
    {o : Occurrence α} (h : o ∈ form.occurrencesFrom start skip before text) :
    ∃ a b, text = a ++ b ∧ o.start = start + a.length ∧
      form.StandsAt before a b o.value o.length := by
  induction text generalizing start skip before with
  | nil => simp [occurrencesFrom] at h
  | cons c rest ih =>
    have later {start skip : Nat} (h : o ∈ form.occurrencesFrom (start + 1) skip (some c) rest) :
        ∃ a b, c :: rest = a ++ b ∧ o.start = start + a.length ∧
          form.StandsAt before a b o.value o.length := by
      obtain ⟨a, b, rfl, hstart, hstands⟩ := ih h
      refine ⟨c :: a, b, rfl, by rw [hstart, List.length_cons]; omega, ?_⟩
      rwa [StandsAt, lastOr_cons]
    cases skip with
    | succ skip => exact later h
    | zero =>
      rw [occurrencesFrom] at h
      split at h
      · rename_i value length hform
        rcases List.mem_cons.mp h with rfl | h
        · exact ⟨[], c :: rest, rfl, rfl, hform, by simp, Nat.succ_pos _⟩
        · exact later h
      · exact later h

lemma standsAt_of_mem_occurrences {text : List Char} {o : Occurrence α}
    (h : o ∈ form.occurrences text) :
    ∃ a b, text = a ++ b ∧ o.start = a.length ∧ form.StandsAt none a b o.value o.length := by
  simpa using standsAt_of_mem_occurrencesFrom h

/-! ### The last place -/

section Last

variable {start skip : Nat} {before : Option Char} {text : List Char} {o : Occurrence α}

/-- Where nothing is found, the form stands at most within what is taken already. -/
lemma length_lt_of_occurrencesFrom_eq_nil (h : form.occurrencesFrom start skip before text = [])
    {a b : List Char} {v : α} {n : Nat} (htext : text = a ++ b) (hv : form.StandsAt before a b v n) :
    a.length < skip := by
  induction text generalizing start skip before a with
  | nil => exact absurd (List.append_eq_nil_iff.mp htext.symm).2 hv.2.1
  | cons c rest ih =>
    cases a with
    | nil =>
      cases skip with
      | succ skip => exact Nat.succ_pos _
      | zero =>
        obtain rfl : c :: rest = b := htext
        obtain ⟨hform, -, hn⟩ := hv
        obtain ⟨n, rfl⟩ := Nat.exists_eq_succ_of_ne_zero (Nat.pos_iff_ne_zero.mp hn)
        rw [lastOr_nil] at hform
        rw [occurrencesFrom, hform] at h
        cases h
    | cons d a =>
      obtain ⟨rfl, hrest⟩ := List.cons.inj htext
      rw [StandsAt, lastOr_cons] at hv
      cases skip with
      | succ skip => exact Nat.succ_lt_succ (ih h hrest hv)
      | zero =>
        rw [occurrencesFrom] at h
        split at h
        · cases h
        · exact absurd (ih h hrest hv) (Nat.not_lt_zero _)

/-- Where a form stands, it does not stand again before the end of what it takes. -/
def IsSeparate (form : Form α) : Prop :=
  ∀ before a b v n v' n', form before (a ++ b) = some (v, n) → a ≠ [] →
    form.StandsAt before a b v' n' → n ≤ a.length

/-- An occurrence in a text is a place of the form, and behind every other place that is not taken
already. -/
def IsLast (form : Form α) (start skip : Nat) (before : Option Char) (text : List Char)
    (o : Occurrence α) : Prop :=
  ∃ a b, text = a ++ b ∧ o.start = start + a.length ∧ form.StandsAt before a b o.value o.length ∧
    ∀ a' b' v n, text = a' ++ b' → form.StandsAt before a' b' v n → skip ≤ a'.length →
      a'.length ≤ a.length

/-- The last place of the rest is the last one, if every place in the rest that is not taken here is not
taken there. -/
lemma IsLast.cons {c : Char} {skip' : Nat} (h : form.IsLast (start + 1) skip' (some c) text o)
    (hskip : ∀ a' b' v n, text = a' ++ b' → form.StandsAt before (c :: a') b' v n →
      skip ≤ a'.length + 1 → skip' ≤ a'.length) :
    form.IsLast start skip before (c :: text) o := by
  obtain ⟨a, b, rfl, hstart, hstands, hlast⟩ := h
  refine ⟨c :: a, b, rfl, by rw [hstart, List.length_cons]; omega, ?_, ?_⟩
  · rwa [StandsAt, lastOr_cons]
  · intro a' b' v n htext hv hle
    cases a' with
    | nil => exact Nat.zero_le _
    | cons d a' =>
      obtain ⟨rfl, hrest⟩ := List.cons.inj htext
      have hfrom := hskip a' b' v n hrest hv hle
      rw [StandsAt, lastOr_cons] at hv
      exact Nat.succ_le_succ (hlast a' b' v n hrest hv hfrom)

/-- A place behind which nothing is found is the last one, if no other starts within what it takes. -/
lemma isLast_here {c : Char} {v : α} {length : Nat} (hform : form before (c :: text) = some (v, length + 1))
    (hbehind : ∀ a' b' v n, text = a' ++ b' → form.StandsAt before (c :: a') b' v n → length ≤ a'.length)
    (hnone : form.occurrencesFrom (start + 1) length (some c) text = []) :
    form.IsLast start skip before (c :: text) ⟨start, length + 1, v⟩ := by
  refine ⟨[], c :: text, rfl, rfl, ⟨hform, by simp, Nat.succ_pos _⟩, ?_⟩
  intro a' b' v n htext hv _
  cases a' with
  | nil => exact Nat.le_refl _
  | cons d a' =>
    obtain ⟨rfl, hrest⟩ := List.cons.inj htext
    have hle := hbehind a' b' v n hrest hv
    rw [StandsAt, lastOr_cons] at hv
    have hlt := length_lt_of_occurrencesFrom_eq_nil hnone hrest hv
    omega

/-- What is found last stands behind every other place that is not taken already. -/
lemma getLast_occurrencesFrom (hs : form.IsSeparate)
    (h : o ∈ (form.occurrencesFrom start skip before text).getLast?) :
    form.IsLast start skip before text o := by
  induction text generalizing start skip before with
  | nil => simp [occurrencesFrom] at h
  | cons c rest ih =>
    cases skip with
    | succ skip => exact (ih h).cons fun _ _ _ _ _ _ hle => Nat.le_of_succ_le_succ hle
    | zero =>
      rw [occurrencesFrom] at h
      split at h
      · rename_i value length hform
        have hbehind : ∀ a' b' v n, rest = a' ++ b' → form.StandsAt before (c :: a') b' v n →
            length ≤ a'.length := by
          rintro a' b' v n rfl hv
          exact Nat.le_of_succ_le_succ (hs before (c :: a') b' _ _ v n hform (by simp) hv)
        rw [List.getLast?_cons, Option.mem_some_iff] at h
        cases htail : (form.occurrencesFrom (start + 1) length (some c) rest).getLast? with
        | some o' =>
          rw [htail, Option.getD_some] at h
          exact (ih (h ▸ htail)).cons fun a' b' v n hrest hv _ => hbehind a' b' v n hrest hv
        | none =>
          rw [htail, Option.getD_none] at h
          exact h ▸ isLast_here hform hbehind (List.getLast?_eq_none_iff.mp htail)
      · exact (ih h).cons fun _ _ _ _ _ _ _ => Nat.zero_le _

/-- What is found last stands behind every other place. -/
theorem getLast_occurrences (hs : form.IsSeparate) (h : o ∈ (form.occurrences text).getLast?) :
    ∃ a b, text = a ++ b ∧ o.start = a.length ∧ form.StandsAt none a b o.value o.length ∧
      ∀ a' b' v n, text = a' ++ b' → form.StandsAt none a' b' v n → a'.length ≤ a.length := by
  simpa [IsLast] using getLast_occurrencesFrom hs h

/-- A form stands nowhere in a text exactly when nothing is found. -/
lemma occurrences_eq_nil_iff :
    form.occurrences text = [] ↔ ∀ a b v n, text = a ++ b → ¬form.StandsAt none a b v n := by
  constructor
  · intro h a b v n htext hv
    exact absurd (length_lt_of_occurrencesFrom_eq_nil h htext hv) (Nat.not_lt_zero _)
  · intro h
    refine List.eq_nil_iff_forall_not_mem.mpr fun o ho => ?_
    obtain ⟨a, b, htext, -, hv⟩ := standsAt_of_mem_occurrences ho
    exact h a b _ _ htext hv

end Last

end Form

/-- The parts of a text before, within and behind an occurrence. -/
lemma Occurrence.parts {α : Type} {o : Occurrence α} {a p : List Char} (b : List Char)
    (ha : o.start = a.length) (hp : o.length = p.length) :
    (a ++ (p ++ b)).take o.start = a ∧ (a ++ (p ++ b)).take o.stop = a ++ p ∧
      (a ++ (p ++ b)).drop o.stop = b := by
  have hstop : o.stop = (a ++ p).length := by rw [Occurrence.stop, ha, hp, List.length_append]
  refine ⟨by rw [ha, List.take_left], ?_, ?_⟩
  · rw [hstop, ← List.append_assoc, List.take_left]
  · rw [hstop, ← List.append_assoc, List.drop_left]

/-- Another text takes the place of the first occurrence. -/
lemma spliceFirst_of_first? {α : Type} {form : Form α} {a p b : List Char} {v : α}
    (h : form.first? (a ++ (p ++ b)) = some ⟨a.length, p.length, v⟩) (new : List Char) :
    spliceFirst form new (a ++ (p ++ b)) = a ++ (new ++ b) := by
  obtain ⟨htake, -, hdrop⟩ :=
    Occurrence.parts (o := ⟨a.length, p.length, v⟩) (a := a) (p := p) b rfl rfl
  simp only [spliceFirst, CharLike.map_look, h]
  rw [htake, hdrop, List.append_assoc]

/-- What is taken already is passed over. -/
lemma replaceAllFrom_skip {form : Form (List Char)} {before : Option Char} (a b : List Char) :
    replaceAllFrom form a.length before (a ++ b) = replaceAllFrom form 0 (lastOr before a) b := by
  induction a generalizing before with
  | nil => rfl
  | cons c a ih =>
    rw [List.length_cons, List.cons_append, replaceAllFrom, ih, lastOr_cons]

/-- Where a form stands, the text it takes is replaced. -/
lemma replaceAllFrom_match {form : Form (List Char)} {before : Option Char} {a b new : List Char}
    (ha : a ≠ []) (h : form before (a ++ b) = some (new, a.length)) :
    replaceAllFrom form 0 before (a ++ b) = new ++ replaceAllFrom form 0 (lastOr before a) b := by
  obtain ⟨c, a, rfl⟩ := List.exists_cons_of_ne_nil ha
  rw [List.cons_append] at h ⊢
  rw [replaceAllFrom, h]
  simp only [List.length_cons]
  rw [replaceAllFrom_skip, lastOr_cons]

/-- Where a form does not stand, the next character stays. -/
lemma replaceAllFrom_no_match {form : Form (List Char)} {before : Option Char} {c : Char}
    {rest : List Char} (h : ∀ new n, form before (c :: rest) ≠ some (new, n + 1)) :
    replaceAllFrom form 0 before (c :: rest) = c :: replaceAllFrom form 0 (some c) rest := by
  rw [replaceAllFrom]
  split
  · rename_i heq
    exact absurd heq (h _ _)
  · rfl

/-- A part of a text in which the form stands nowhere stays. -/
lemma replaceAllFrom_append {form : Form (List Char)} {before : Option Char} {a b : List Char}
    (h : form.Misses before a b) :
    replaceAllFrom form 0 before (a ++ b) = a ++ replaceAllFrom form 0 (lastOr before a) b := by
  induction a generalizing before with
  | nil => rfl
  | cons c a ih =>
    obtain ⟨hhere, hlater⟩ := Form.misses_cons.mp h
    rw [List.cons_append, replaceAllFrom_no_match hhere, ih hlater, lastOr_cons]
    rfl

section Constant

variable {α : Type} {form : Form α} {before : Option Char} {new : List Char}

/-- Where a form stands, one text takes the place of what it takes. -/
lemma replaceAllFrom_const_match {a b : List Char} {v : α} (ha : a ≠ [])
    (h : form before (a ++ b) = some (v, a.length)) :
    replaceAllFrom (form.map fun _ => new) 0 before (a ++ b) =
      new ++ replaceAllFrom (form.map fun _ => new) 0 (lastOr before a) b :=
  replaceAllFrom_match ha (by rw [Form.map, h]; rfl)

/-- Where it does not, the next character stays. -/
lemma replaceAllFrom_const_no_match {c : Char} {rest : List Char}
    (h : ∀ v n, form before (c :: rest) ≠ some (v, n + 1)) :
    replaceAllFrom (form.map fun _ => new) 0 before (c :: rest) =
      c :: replaceAllFrom (form.map fun _ => new) 0 (some c) rest := by
  refine replaceAllFrom_no_match fun r n heq => ?_
  obtain ⟨⟨v, k⟩, hform, hv⟩ := Option.map_eq_some_iff.mp heq
  obtain ⟨-, rfl⟩ := Prod.mk.inj hv
  exact h v n hform

/-- The text stands in the place of what is found. -/
lemma exists_replaceAllFrom {start : Nat} {text : List Char} (new : List Char)
    (h : form.firstFrom? start before text ≠ none) :
    ∃ a b, replaceAllFrom (form.map fun _ => new) 0 before text = a ++ (new ++ b) := by
  induction text generalizing start before with
  | nil => exact absurd rfl h
  | cons c rest ih =>
    rw [Form.firstFrom?] at h
    split at h
    · rename_i value length hform
      rw [replaceAllFrom, Form.map, hform]
      exact ⟨[], _, rfl⟩
    · rename_i hno
      obtain ⟨a, b, hab⟩ := ih h
      exact ⟨c :: a, b, by rw [replaceAllFrom_const_no_match hno, hab]; rfl⟩

end Constant

/-- A form that reads nothing leaves no more than there was. -/
lemma length_replaceAllFrom_le {form : Form (List Char)}
    (h : ∀ before text new n, form before text = some (new, n) → new = []) {skip : Nat}
    {before : Option Char} (text : List Char) :
    (replaceAllFrom form skip before text).length ≤ text.length := by
  induction text generalizing skip before with
  | nil => cases skip <;> exact Nat.le_refl _
  | cons c rest ih =>
    cases skip with
    | succ skip => exact Nat.le_succ_of_le ih
    | zero =>
      rw [replaceAllFrom]
      split
      · rename_i new n hform
        rw [h _ _ _ _ hform]
        exact Nat.le_succ_of_le ih
      · exact Nat.succ_le_succ ih

lemma replaceAllFrom_eq_self_iff {form : Form (List Char)}
    (h : ∀ before text new n, form before text = some (new, n) → new = []) {start : Nat}
    {before : Option Char} {text : List Char} :
    replaceAllFrom form 0 before text = text ↔ form.firstFrom? start before text = none := by
  refine ⟨fun heq => ?_, replaceAllFrom_of_firstFrom?⟩
  induction text generalizing start before with
  | nil => rfl
  | cons c rest ih =>
    rw [replaceAllFrom] at heq
    rw [Form.firstFrom?]
    split at heq
    · rename_i new n hform
      -- what is left is shorter
      have hle : (replaceAllFrom form n (some c) rest).length ≤ rest.length :=
        length_replaceAllFrom_le h rest
      rw [h _ _ _ _ hform, List.nil_append] at heq
      rw [heq, List.length_cons] at hle
      omega
    · rename_i hno
      split
      · rename_i heq'
        exact absurd heq' (hno _ _)
      · exact ih (List.cons.inj heq).2

/-- A form that reads nothing leaves a text as it is exactly when it stands nowhere in it. -/
theorem replaceAll_eq_self_iff {form : Form (List Char)}
    (h : ∀ before text new n, form before text = some (new, n) → new = []) {text : List Char} :
    replaceAll form text = text ↔ form.first? text = none :=
  replaceAllFrom_eq_self_iff h

end BuildMend.Text
