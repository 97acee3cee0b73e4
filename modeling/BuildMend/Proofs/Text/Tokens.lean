import BuildMend.Text.Blank
import BuildMend.Text.Word
import Mathlib

/-!
The tokens of a text: its words, and every other character by itself.

* `tokens`: the tokens; put together they are the text.
* `IsWord`: a whole word; `IsApart`: two texts whose meeting ends do not belong to one word.
* `tokens_append`: texts that are apart have their tokens one after the other.
* `tokens_induction`: a text is empty, begins with a mark, or begins with a whole word.
* `IsCut`, `tokens_eq_iff`: the tokens are the only way to cut a text into marks and words that nothing
  extends.
* `HasToken`: a text has a token of some kind.
-/

namespace BuildMend.Text

/-! ### Words -/

/-- Whether two neighbouring characters belong to one word. -/
def isJoined (a b : Char) : Bool := isWordChar a && isWordChar b

/-- Some word characters, with nothing between them. -/
def IsWord (w : List Char) : Prop := w ≠ [] ∧ ∀ c ∈ w, isWordChar c = true

instance (w : List Char) : Decidable (IsWord w) :=
  @instDecidableAnd _ _ inferInstance (List.decidableBAll (fun c => isWordChar c = true) w)

/-- The end of one text and the start of another do not belong to one word. -/
def IsApart (a b : List Char) : Prop := ∀ x ∈ a.getLast?, ∀ y ∈ b.head?, isJoined x y = false

lemma isWordNeighbour_some {c : Char} : isWordNeighbour (some c) = isWordChar c := rfl

/-- A character outside all intervals of a table does not belong to it. -/
lemma Ranges.contains_eq_false {r : Ranges} {c : Char}
    (h : ∀ i ∈ r.intervals.toList, c.toNat < i.1 ∨ i.2 < c.toNat) : r.contains c = false := by
  rw [contains, ← Array.any_toList, List.any_eq_false]
  intro i hi
  have hout := h i hi
  simp only [Bool.and_eq_true, decide_eq_true_eq]
  omega

/-- The blanks from code point 128 on. -/
def wideBlanks : List Nat :=
  [0x85, 0xA0, 0x1680] ++ List.range' 0x2000 11 ++ [0x2028, 0x2029, 0x202F, 0x205F, 0x3000]

lemma wordTable_wideBlanks :
    (wordTable.intervals.toList.all fun i => wideBlanks.all fun n => n < i.1 || i.2 < n) = true := by
  decide +kernel

/-- A blank is no word character. -/
lemma isWordChar_of_isBlank {c : Char} (h : isBlank c = true) : isWordChar c = false := by
  have hmem : c.toNat ∈ List.range' 9 5 ++ List.range' 28 5 ∨ c.toNat ∈ wideBlanks := by
    simp only [isBlank, Bool.or_eq_true, Bool.and_eq_true, decide_eq_true_eq, beq_iff_eq] at h
    simp only [wideBlanks, List.mem_append, List.mem_range'_1, List.mem_cons, List.not_mem_nil]
    omega
  rcases hmem with hlow | hwide
  · have hall : ∀ n ∈ List.range' 9 5 ++ List.range' 28 5, isWordChar (Char.ofNat n) = false := by
      decide
    rw [← Char.ofNat_toNat c]
    exact hall _ hlow
  · have hascii : ∀ n ∈ wideBlanks,
        ((Char.ofNat n).isAlphanum || Char.ofNat n == '_') = false := by decide
    have htable : wordTable.contains c = false := Ranges.contains_eq_false fun i hi => by
      have hall := List.all_eq_true.mp wordTable_wideBlanks i hi
      simpa using List.all_eq_true.mp hall _ hwide
    have hone := hascii _ hwide
    rw [Char.ofNat_toNat] at hone
    rw [isWordChar, hone, htable, Bool.and_false]
    rfl

section Apart

variable {a b c : List Char}

lemma isApart_iff :
    IsApart a b ↔ isWordNeighbour a.getLast? = false ∨ isWordNeighbour b.head? = false := by
  unfold IsApart isWordNeighbour
  cases a.getLast? with
  | none => simp
  | some x =>
    cases b.head? with
    | none => simp
    | some y => cases hx : isWordChar x <;> simp [isJoined, hx]

lemma isApart_of_left (h : isWordNeighbour a.getLast? = false) : IsApart a b :=
  isApart_iff.mpr (Or.inl h)

lemma isApart_of_right (h : isWordNeighbour b.head? = false) : IsApart a b :=
  isApart_iff.mpr (Or.inr h)

end Apart

namespace IsWord

variable {w : List Char}

lemma head (h : IsWord w) : isWordNeighbour w.head? = true := by
  obtain ⟨c, w, rfl⟩ := List.exists_cons_of_ne_nil h.1
  exact h.2 c (by simp)

lemma getLast (h : IsWord w) : isWordNeighbour w.getLast? = true := by
  rw [List.getLast?_eq_some_getLast h.1]
  exact h.2 _ (List.getLast_mem h.1)

lemma isChain (h : IsWord w) : w.IsChain fun x y => isJoined x y = true := by
  rw [List.isChain_iff_getElem]
  intro i hi
  simp [isJoined, h.2]

end IsWord

/-! ### Tokens -/

/-- The words of a text, and every other character by itself. -/
def tokens (text : List Char) : List (List Char) := text.splitBy isJoined

@[simp] lemma tokens_nil : tokens [] = [] := rfl

@[simp] lemma flatten_tokens (text : List Char) : (tokens text).flatten = text :=
  List.flatten_splitBy _ _

lemma tokens_inj {a b : List Char} (h : tokens a = tokens b) : a = b := by
  rw [← flatten_tokens a, h, flatten_tokens]

lemma tokens_append {a b : List Char} (h : IsApart a b) : tokens (a ++ b) = tokens a ++ tokens b :=
  List.splitBy_append h

lemma tokens_word {w : List Char} (h : IsWord w) : tokens w = [w] :=
  List.splitBy_of_isChain h.1 h.isChain

lemma tokens_mark {c : Char} (h : isWordChar c = false) (rest : List Char) :
    tokens (c :: rest) = [c] :: tokens rest := by
  have hone : tokens [c] = [[c]] := List.splitBy_of_isChain (List.cons_ne_nil c []) (.singleton c)
  have hall := tokens_append (isApart_of_left (a := [c]) (b := rest) h)
  rwa [hone] at hall

lemma tokens_word_append {w rest : List Char} (h : IsWord w) (ha : IsApart w rest) :
    tokens (w ++ rest) = w :: tokens rest := by
  rw [tokens_append ha, tokens_word h]
  rfl

/-- A text is empty, begins with a mark, or begins with a whole word. -/
theorem tokens_induction {P : List Char → Prop} (nil : P [])
    (mark : ∀ c rest, isWordChar c = false → P rest → P (c :: rest))
    (word : ∀ w rest, IsWord w → IsApart w rest → P rest → P (w ++ rest)) (text : List Char) :
    P text := by
  induction hn : text.length using Nat.strong_induction_on generalizing text with
  | _ n ih =>
    cases text with
    | nil => exact nil
    | cons c rest =>
      subst hn
      by_cases hc : isWordChar c = true
      · have hsplit := List.takeWhile_append_dropWhile (p := isWordChar) (l := c :: rest)
        have hword : IsWord ((c :: rest).takeWhile isWordChar) :=
          ⟨by simp [hc], List.all_eq_true.mp List.all_takeWhile⟩
        have hrest : ((c :: rest).dropWhile isWordChar).length < (c :: rest).length := by
          have hpos := List.length_pos_iff.mpr hword.1
          have hlen := congrArg List.length hsplit
          rw [List.length_append] at hlen
          omega
        have happart : IsApart ((c :: rest).takeWhile isWordChar)
            ((c :: rest).dropWhile isWordChar) := by
          refine isApart_of_right ?_
          have hnot := List.head?_dropWhile_not isWordChar (c :: rest)
          rw [isWordNeighbour]
          cases h : ((c :: rest).dropWhile isWordChar).head? with
          | none => rfl
          | some d =>
            rw [h] at hnot
            simpa using hnot
        rw [← hsplit]
        exact word _ _ hword happart (ih _ hrest _ rfl)
      · exact mark c rest (by simpa using hc) (ih _ (by simp) rest rfl)

/-! ### The only cut -/

/-- Parts that are marks or words, no two words of them side by side. -/
structure IsCut (ts : List (List Char)) : Prop where
  part : ∀ t ∈ ts, IsWord t ∨ ∃ c, isWordChar c = false ∧ t = [c]
  maximal : ts.IsChain fun s t => ¬(IsWord s ∧ IsWord t)

lemma not_isWord_mark {c : Char} (h : isWordChar c = false) : ¬IsWord [c] := by
  intro hword
  have hc := hword.2 c (by simp)
  rw [h] at hc
  cases hc

/-- The first token of a text is a word only if the text begins with a word character. -/
lemma isWordNeighbour_of_tokens {text t : List Char} (ht : t ∈ (tokens text).head?)
    (hword : IsWord t) : isWordNeighbour text.head? = true := by
  obtain ⟨ts, hts⟩ := List.head?_eq_some_iff.mp ht
  rw [← flatten_tokens text, hts, List.flatten_cons, List.head?_append_of_ne_nil _ hword.1,
    hword.head]

theorem isCut_tokens (text : List Char) : IsCut (tokens text) := by
  induction text using tokens_induction with
  | nil => exact ⟨by simp, .nil⟩
  | mark c rest hc ih =>
    rw [tokens_mark hc]
    refine ⟨List.forall_mem_cons.mpr ⟨Or.inr ⟨c, hc, rfl⟩, ih.part⟩, ?_⟩
    exact ih.maximal.cons fun t _ hwords => not_isWord_mark hc hwords.1
  | word w rest hw ha ih =>
    rw [tokens_word_append hw ha]
    refine ⟨List.forall_mem_cons.mpr ⟨Or.inl hw, ih.part⟩, ?_⟩
    refine ih.maximal.cons fun t ht hwords => ?_
    have hrest := (isApart_iff.mp ha).resolve_left (by rw [hw.getLast]; simp)
    rw [isWordNeighbour_of_tokens ht hwords.2] at hrest
    cases hrest

/-- A text that is cut has no other tokens. -/
lemma IsCut.tokens_flatten {ts : List (List Char)} (h : IsCut ts) : tokens ts.flatten = ts := by
  induction ts with
  | nil => rfl
  | cons t ts ih =>
    have hts := ih ⟨fun s hs => h.part s (List.mem_cons_of_mem t hs), h.maximal.tail⟩
    rw [List.flatten_cons]
    rcases h.part t List.mem_cons_self with hw | ⟨c, hc, rfl⟩
    · have ha : IsApart t ts.flatten := by
        cases ts with
        | nil => exact isApart_of_right rfl
        | cons s ts =>
          -- what follows a word is no word, so it is a mark
          rcases h.part s (by simp) with hs | ⟨c, hc, rfl⟩
          · exact absurd ⟨hw, hs⟩ (List.isChain_cons_cons.mp h.maximal).1
          · exact isApart_of_right hc
      rw [tokens_word_append hw ha, hts]
    · rw [List.singleton_append, tokens_mark hc, hts]

/-- The tokens of a text are the only parts into which it is cut. -/
theorem tokens_eq_iff {text : List Char} {ts : List (List Char)} :
    tokens text = ts ↔ IsCut ts ∧ ts.flatten = text := by
  constructor
  · rintro rfl
    exact ⟨isCut_tokens text, flatten_tokens text⟩
  · rintro ⟨hcut, rfl⟩
    exact hcut.tokens_flatten

/-! ### Texts with some token -/

/-- A text has a token of a kind. -/
def HasToken (p : List Char → Bool) (text : List Char) : Prop := ∃ t ∈ tokens text, p t = true

section HasToken

variable {p : List Char → Bool}

@[simp] lemma not_hasToken_nil : ¬HasToken p [] := by simp [HasToken]

lemma hasToken_append {a b : List Char} (h : IsApart a b) :
    HasToken p (a ++ b) ↔ HasToken p a ∨ HasToken p b := by
  simp only [HasToken, tokens_append h, List.mem_append, or_and_right, exists_or]

lemma hasToken_mark {c : Char} (h : isWordChar c = false) (rest : List Char) :
    HasToken p (c :: rest) ↔ p [c] = true ∨ HasToken p rest := by
  simp only [HasToken, tokens_mark h, List.mem_cons, or_and_right, exists_or, exists_eq_left]

end HasToken

end BuildMend.Text
