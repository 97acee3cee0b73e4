import BuildMend.Migration.CodeEdit
import BuildMend.Proofs.Text.Scan
import BuildMend.Proofs.Text.Tokens

/-!
What the renaming of words does to the tokens of a text.

* `IsRenaming`: the names and their replacements are whole words.
* `renameToken`: what becomes of a token; `IsRenamed`: whether it is one of the names.
* `tokens_renameWords`: each token of a text is renamed, and nothing else happens.
* `renameWords_ne_iff`: a text changes exactly when one of its tokens is renamed.
* `renameWords_twice`, `renameWords_comm`: a renaming whose replacements are none of its names is done
  once and for all, and two that keep to their own words can change places.
-/

namespace BuildMend.Migration

open Text

variable {names : List (String × String)}

/-- The names and their replacements are whole words, and no name is its own replacement. -/
def IsRenaming (names : List (String × String)) : Prop :=
  ∀ n ∈ names, IsWord n.1.toList ∧ IsWord n.2.toList ∧ n.1 ≠ n.2

instance : Decidable (IsRenaming names) := inferInstanceAs (Decidable (∀ n ∈ names, _))

/-- Whether a token is one of the names. -/
def isRenamed (names : List (String × String)) (t : List Char) : Bool :=
  names.any fun n => n.1.toList == t

/-- What becomes of a token: the first name that it is counts. -/
def renameToken (names : List (String × String)) (t : List Char) : List Char :=
  ((names.find? fun n => n.1.toList == t).map (·.2.toList)).getD t

lemma renameToken_eq_or (names : List (String × String)) (t : List Char) :
    (isRenamed names t = false ∧ renameToken names t = t) ∨
      ∃ n ∈ names, n.1.toList = t ∧ renameToken names t = n.2.toList := by
  rw [renameToken]
  cases h : names.find? fun n => n.1.toList == t with
  | none =>
    refine Or.inl ⟨?_, rfl⟩
    simpa [isRenamed] using h
  | some n =>
    have hn : n.1.toList = t := by simpa using List.find?_some h
    exact Or.inr ⟨n, List.mem_of_find?_eq_some h, hn, rfl⟩

lemma renameToken_of_not_isRenamed {t : List Char} (h : isRenamed names t = false) :
    renameToken names t = t := by
  rcases renameToken_eq_or names t with ⟨-, h'⟩ | ⟨n, hn, rfl, -⟩
  · exact h'
  · simp [isRenamed] at h
    exact absurd rfl (h _ _ hn)

section Renaming

variable (hn : IsRenaming names)

include hn

/-- A mark stays what it is. -/
lemma renameToken_mark {c : Char} (hc : isWordChar c = false) : renameToken names [c] = [c] := by
  rcases renameToken_eq_or names [c] with ⟨-, h⟩ | ⟨n, hmem, hname, -⟩
  · exact h
  · have hword := (hn n hmem).1.2 c (by simp [hname])
    rw [hc] at hword
    cases hword

/-- A word becomes a word. -/
lemma isWord_renameToken {w : List Char} (hw : IsWord w) : IsWord (renameToken names w) := by
  rcases renameToken_eq_or names w with ⟨-, h⟩ | ⟨n, hmem, -, h⟩
  · rwa [h]
  · rw [h]
    exact (hn n hmem).2.1

lemma renameToken_ne_iff {t : List Char} : renameToken names t ≠ t ↔ isRenamed names t = true := by
  rcases renameToken_eq_or names t with ⟨h, h'⟩ | ⟨n, hmem, rfl, h⟩
  · simp [h, h']
  · have hne : n.2.toList ≠ n.1.toList := fun h => (hn n hmem).2.2 (String.toList_inj.mp h.symm)
    have hren : isRenamed names n.1.toList = true := by
      rw [isRenamed, List.any_eq_true]
      exact ⟨n, hmem, by simp⟩
    simp [h, hren, hne]

/-! ### The form of the names -/

/-- What one name of the form reads at a place. -/
def nameAt (n : String × String) (text : List Char) : Option (List Char × Nat) := do
  let rest ← afterLiteral? n.1.toList text
  if isBoundary n.1.toList.getLast? rest.head? then return (n.2.toList, n.1.length) else none

omit hn in
/-- Behind a word character there is a boundary exactly before something apart. -/
lemma isBoundary_getLast {w : List Char} (hw : IsWord w) (rest : List Char) :
    isBoundary w.getLast? rest.head? = true ↔ IsApart w rest := by
  rw [isApart_iff, isBoundary, hw.getLast]
  simp

omit hn in
/-- A name stands at the start of a whole word exactly when it is that word. -/
lemma nameAt_word {n : String × String} (hname : IsWord n.1.toList) {w rest : List Char}
    (hw : IsWord w) (ha : IsApart w rest) :
    nameAt n (w ++ rest) = if n.1.toList == w then some (n.2.toList, w.length) else none := by
  rw [nameAt]
  cases h : afterLiteral? n.1.toList (w ++ rest) with
  | none =>
    have hne : n.1.toList ≠ w := fun heq => by
      have hsome : afterLiteral? n.1.toList (w ++ rest) = some rest :=
        afterLiteral?_eq_some_iff.mpr (by rw [heq])
      rw [h] at hsome
      cases hsome
    simp [hne]
  | some r =>
    have hsplit : w ++ rest = n.1.toList ++ r := afterLiteral?_eq_some_iff.mp h
    by_cases hb : IsApart n.1.toList r
    · have htokens := congrArg tokens hsplit
      rw [tokens_word_append hw ha, tokens_word_append hname hb] at htokens
      obtain ⟨heq, -⟩ := List.cons.inj htokens
      have hbound := (isBoundary_getLast hname r).mpr hb
      simp only [Option.bind_eq_bind, Option.bind_some, hbound, if_true, heq, beq_self_eq_true]
      simp [← String.length_toList]
    · have hne : n.1.toList ≠ w := fun heq => by
        rw [heq] at hsplit hb
        rw [← List.append_cancel_left hsplit] at hb
        exact hb ha
      have hbound : isBoundary n.1.toList.getLast? r.head? = false := by
        rw [← Bool.not_eq_true, isBoundary_getLast hname]
        exact hb
      simp [hbound, hne]

/-- At the start of a whole word the form reads what the word becomes. -/
lemma wordForm_word {before : Option Char} (hb : isWordNeighbour before = false)
    {w rest : List Char} (hw : IsWord w) (ha : IsApart w rest) :
    wordForm names before (w ++ rest) =
      if isRenamed names w then some (renameToken names w, w.length) else none := by
  have hbound : isBoundary before (w ++ rest).head? = true := by
    rw [List.head?_append_of_ne_nil _ hw.1, isBoundary, hb, hw.head]
    rfl
  rw [wordForm, hbound]
  show names.findSome? (nameAt · (w ++ rest)) = _
  unfold renameToken isRenamed
  induction names with
  | nil => rfl
  | cons n names ih =>
    have hname := nameAt_word (hn n (by simp)).1 hw ha
    rw [List.findSome?_cons, hname, List.any_cons, List.find?_cons]
    by_cases heq : n.1.toList == w
    · simp [heq]
    · rw [Bool.not_eq_true] at heq
      rw [heq]
      exact ih fun k hk => hn k (by simp [hk])

/-- The form does not stand before a mark. -/
lemma wordForm_mark {before : Option Char} {c : Char} (hc : isWordChar c = false)
    (rest : List Char) : wordForm names before (c :: rest) = none := by
  rw [wordForm]
  split
  · rfl
  · rw [List.findSome?_eq_none_iff]
    intro n hmem
    obtain ⟨d, w, hd⟩ := List.exists_cons_of_ne_nil (hn n hmem).1.1
    have hword := (hn n hmem).1.2 d (by simp [hd])
    have hne : d ≠ c := by
      rintro rfl
      rw [hc] at hword
      cases hword
    simp [hd, afterLiteral?, hne]

omit hn in
/-- The form does not stand within a word. -/
lemma wordForm_inside {before : Option Char} {c : Char} (hb : isWordNeighbour before = true)
    (hc : isWordChar c = true) (rest : List Char) : wordForm names before (c :: rest) = none := by
  have hbound : isBoundary before (c :: rest).head? = false := by
    rw [isBoundary, hb]
    simp [isWordNeighbour, hc]
  rw [wordForm, hbound]
  rfl

/-! ### The renamed text -/

omit hn in
/-- The rest of a word that is not renamed stays. -/
lemma replaceAllFrom_inside {w rest : List Char} (hw : ∀ c ∈ w, isWordChar c = true)
    {before : Option Char} (hb : isWordNeighbour before = true) :
    replaceAllFrom (wordForm names) 0 before (w ++ rest) =
      w ++ replaceAllFrom (wordForm names) 0 (lastOr before w) rest := by
  induction w generalizing before with
  | nil => rfl
  | cons c w ih =>
    have hc := hw c (by simp)
    rw [List.cons_append, replaceAllFrom_no_match fun _ _ => by
      rw [wordForm_inside hb hc]
      simp, ih (fun d hd => hw d (by simp [hd])) (isWordNeighbour_some.trans hc), lastOr_cons]
    rfl

/-- The text in which the tokens are renamed one by one. -/
lemma replaceAllFrom_wordForm (text : List Char) {before : Option Char}
    (hb : isWordNeighbour before = false ∨ isWordNeighbour text.head? = false) :
    replaceAllFrom (wordForm names) 0 before text =
      ((tokens text).map (renameToken names)).flatten := by
  induction text using tokens_induction generalizing before with
  | nil => rfl
  | mark c rest hc ih =>
    rw [replaceAllFrom_no_match fun _ _ => by
      rw [wordForm_mark hn hc]
      simp, ih (Or.inl (isWordNeighbour_some.trans hc)), tokens_mark hc, List.map_cons,
      renameToken_mark hn hc]
    rfl
  | word w rest hw ha ih =>
    have hb' : isWordNeighbour before = false := by
      rcases hb with hb | hb
      · exact hb
      · rw [List.head?_append_of_ne_nil _ hw.1, hw.head] at hb
        cases hb
    have hrest : isWordNeighbour rest.head? = false :=
      (isApart_iff.mp ha).resolve_left (by rw [hw.getLast]; simp)
    have hform := wordForm_word hn hb' hw ha
    rw [tokens_word_append hw ha, List.map_cons, List.flatten_cons]
    cases hren : isRenamed names w with
    | true =>
      rw [hren] at hform
      rw [replaceAllFrom_match hw.1 hform, ih (Or.inr hrest)]
    | false =>
      rw [hren] at hform
      obtain ⟨c, w, rfl⟩ := List.exists_cons_of_ne_nil hw.1
      have hc := hw.2 c (by simp)
      rw [renameToken_of_not_isRenamed hren, List.cons_append, replaceAllFrom_no_match fun _ _ => by
        rw [← List.cons_append, hform]
        simp, replaceAllFrom_inside (fun d hd => hw.2 d (List.mem_cons_of_mem c hd))
          (isWordNeighbour_some.trans hc), ih (Or.inr hrest)]
      rfl

lemma renameWords_eq (text : List Char) :
    renameWords names text = ((tokens text).map (renameToken names)).flatten :=
  replaceAllFrom_wordForm hn text (Or.inl rfl)

lemma renameWords_mark {c : Char} (hc : isWordChar c = false) (rest : List Char) :
    renameWords names (c :: rest) = c :: renameWords names rest := by
  rw [renameWords_eq hn, renameWords_eq hn, tokens_mark hc, List.map_cons, renameToken_mark hn hc]
  rfl

lemma renameWords_word {w rest : List Char} (hw : IsWord w) (ha : IsApart w rest) :
    renameWords names (w ++ rest) = renameToken names w ++ renameWords names rest := by
  rw [renameWords_eq hn, renameWords_eq hn, tokens_word_append hw ha, List.map_cons,
    List.flatten_cons]

/-- A text that begins with a word still does, and one that does not still does not. -/
lemma isWordNeighbour_head_renameWords (text : List Char) :
    isWordNeighbour (renameWords names text).head? = isWordNeighbour text.head? := by
  cases text using tokens_induction with
  | nil => rfl
  | mark c rest hc => rw [renameWords_mark hn hc]; rfl
  | word w rest hw ha =>
    have hw' := isWord_renameToken hn hw
    rw [renameWords_word hn hw ha, List.head?_append_of_ne_nil _ hw'.1,
      List.head?_append_of_ne_nil _ hw.1, hw'.head, hw.head]

/-- Each token of a text is renamed, and nothing else happens. -/
theorem tokens_renameWords (text : List Char) :
    tokens (renameWords names text) = (tokens text).map (renameToken names) := by
  induction text using tokens_induction with
  | nil => rfl
  | mark c rest hc ih =>
    rw [renameWords_mark hn hc, tokens_mark hc, tokens_mark hc, ih, List.map_cons,
      renameToken_mark hn hc]
  | word w rest hw ha ih =>
    have hrest : isWordNeighbour rest.head? = false :=
      (isApart_iff.mp ha).resolve_left (by rw [hw.getLast]; simp)
    have ha' : IsApart (renameToken names w) (renameWords names rest) :=
      isApart_of_right (by rw [isWordNeighbour_head_renameWords hn, hrest])
    rw [renameWords_word hn hw ha, tokens_word_append (isWord_renameToken hn hw) ha', ih,
      tokens_word_append hw ha, List.map_cons]

/-- A text changes exactly when one of its tokens is renamed. -/
theorem renameWords_ne_iff (text : List Char) :
    renameWords names text ≠ text ↔ ∃ t ∈ tokens text, isRenamed names t = true := by
  have hsame : renameWords names text = text ↔ ∀ t ∈ tokens text, renameToken names t = t := by
    have hmap := List.map_inj_left (l := tokens text) (f := renameToken names) (g := id)
    rw [List.map_id, ← tokens_renameWords hn] at hmap
    exact ⟨fun h => hmap.mp (by rw [h]), fun h => tokens_inj (hmap.mpr h)⟩
  rw [Ne, hsame]
  simp only [← renameToken_ne_iff hn, not_forall, exists_prop]

/-! ### Renamings in a row -/

omit hn in
/-- No token that is renamed is left, if no replacement is a name. -/
lemma isRenamed_renameToken (hs : ∀ n ∈ names, isRenamed names n.2.toList = false) (t : List Char) :
    isRenamed names (renameToken names t) = false := by
  rcases renameToken_eq_or names t with ⟨h, h'⟩ | ⟨n, hmem, -, h⟩
  · rwa [h']
  · rw [h, hs n hmem]

/-- A renamed text has no token that is renamed, if no replacement is a name. -/
theorem isRenamed_of_mem_tokens (hs : ∀ n ∈ names, isRenamed names n.2.toList = false)
    {text t : List Char} (ht : t ∈ tokens (renameWords names text)) : isRenamed names t = false := by
  rw [tokens_renameWords hn, List.mem_map] at ht
  obtain ⟨u, -, rfl⟩ := ht
  exact isRenamed_renameToken hs u

/-- A second renaming finds nothing to do, if no replacement is a name. -/
theorem renameWords_twice (hs : ∀ n ∈ names, isRenamed names n.2.toList = false)
    (text : List Char) : renameWords names (renameWords names text) = renameWords names text := by
  by_contra h
  obtain ⟨t, ht, hren⟩ := (renameWords_ne_iff hn _).mp h
  rw [isRenamed_of_mem_tokens hn hs ht] at hren
  cases hren

/-- A renaming keeps to its own words: it does not rename what another one renames or puts in its place. -/
def SparesNames (names others : List (String × String)) : Prop :=
  ∀ n ∈ others, isRenamed names n.1.toList = false ∧ isRenamed names n.2.toList = false

instance (names others : List (String × String)) : Decidable (SparesNames names others) :=
  inferInstanceAs (Decidable (∀ n ∈ others, _))

omit hn in
/-- What is renamed by one of two such renamings is not touched by the other. -/
lemma renameToken_comm {others : List (String × String)} (hs : SparesNames names others)
    (hs' : SparesNames others names) (t : List Char) :
    renameToken names (renameToken others t) = renameToken others (renameToken names t) := by
  rcases renameToken_eq_or others t with ⟨hno, hsame⟩ | ⟨n, hmem, rfl, hn⟩
  · rw [hsame]
    rcases renameToken_eq_or names t with ⟨-, hsame'⟩ | ⟨n, hmem, -, hn⟩
    · rw [hsame', hsame]
    · rw [hn, renameToken_of_not_isRenamed (hs' n hmem).2]
  · rw [renameToken_of_not_isRenamed (hs n hmem).1, hn,
      renameToken_of_not_isRenamed (hs n hmem).2]

/-- Two renamings that keep to their own words can change places. -/
theorem renameWords_comm {others : List (String × String)} (ho : IsRenaming others)
    (hs : SparesNames names others) (hs' : SparesNames others names) (text : List Char) :
    renameWords names (renameWords others text) = renameWords others (renameWords names text) := by
  refine tokens_inj ?_
  rw [tokens_renameWords hn, tokens_renameWords ho, tokens_renameWords ho, tokens_renameWords hn,
    List.map_map, List.map_map]
  exact List.map_congr_left fun t _ => renameToken_comm hs hs' t

end Renaming

end BuildMend.Migration
