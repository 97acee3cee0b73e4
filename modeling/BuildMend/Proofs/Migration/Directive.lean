import BuildMend.Migration.CodeEdit
import BuildMend.Proofs.Text.Scan
import BuildMend.Proofs.Text.Tokens
import BuildMend.Proofs.Text.Trim

/-!
The directive of the old generator's namespace in a text.

* `IsDirective`: the directive with the blanks that may stand in it.
* `HasDirective`: a text has it at the start of a line.
* `removeAutorestUsing_ne_iff`: a text changes exactly when it has the directive.
* `hasDirective_append`: of two texts that meet behind a line with a semicolon one has the directive
  exactly when the two together have it.
-/

namespace BuildMend.Migration

open Text

/-! ### The directive -/

/-- A text that holds blanks only. -/
def AreBlank (s : List Char) : Prop := ∀ c ∈ s, isBlank c = true

/-- The directive of the old generator's namespace: blanks before it, between its parts and before its
end. -/
inductive IsDirective : List Char → Prop
  | intro {s t u : List Char} (hs : AreBlank s) (ht : AreBlank t) (hne : t ≠ []) (hu : AreBlank u) :
      IsDirective (s ++ ("using".toList ++ (t ++ ("Autorest.CSharp.Core".toList ++ (u ++ [';'])))))

/-- A line of a text starts with the directive. -/
def HasDirective (text : List Char) : Prop :=
  ∃ a d b, text = a ++ (d ++ b) ∧ atLineStart a.getLast? = true ∧ IsDirective d

lemma AreBlank.dropWhile {s : List Char} (h : AreBlank s) (rest : List Char) :
    (s ++ rest).dropWhile isBlank = rest.dropWhile isBlank :=
  List.dropWhile_append_of_pos h

lemma areBlank_takeWhile (s : List Char) : AreBlank (s.takeWhile isBlank) :=
  List.all_eq_true.mp List.all_takeWhile

/-! ### The form of the directive -/

lemma someOf?_eq_some {p : Char → Bool} {s rest : List Char} (h : someOf? p s = some rest) :
    ∃ t, s = t ++ rest ∧ t ≠ [] ∧ ∀ c ∈ t, p c = true := by
  rw [someOf?] at h
  split at h
  · cases h
  · rename_i hne
    obtain rfl := Option.some.inj h
    exact ⟨_, List.takeWhile_append_dropWhile.symm, by simpa using hne,
      List.all_eq_true.mp List.all_takeWhile⟩

/-- Where the form stands, there is the directive, and blanks behind it. -/
lemma isDirective_of_form {before : Option Char} {text new : List Char} {n : Nat}
    (h : autorestForm before text = some (new, n)) :
    new = [] ∧ atLineStart before = true ∧
      ∃ d s rest, text = d ++ (s ++ rest) ∧ n = (d ++ s).length ∧ IsDirective d ∧ AreBlank s := by
  rw [autorestForm] at h
  cases hb : atLineStart before with
  | false => simp [hb] at h
  | true =>
    simp only [Option.bind_eq_bind, hb, Bool.not_true, Bool.false_eq_true, if_false,
      Option.bind_eq_some_iff] at h
    obtain ⟨r₁, h₁, r₂, h₂, r₃, h₃, r₄, h₄, h⟩ := h
    obtain ⟨t, rfl, hne, ht⟩ := someOf?_eq_some h₂
    rw [afterLiteral?_eq_some_iff] at h₁ h₃ h₄
    obtain ⟨rfl, rfl⟩ := Prod.mk.inj (Option.some.inj h)
    have htext : text = text.takeWhile isBlank ++ ("using".toList ++ (t ++
        ("Autorest.CSharp.Core".toList ++ (r₃.takeWhile isBlank ++ [';'])))) ++
        (r₄.takeWhile isBlank ++ r₄.dropWhile isBlank) := by
      conv_lhs => rw [← List.takeWhile_append_dropWhile (p := isBlank) (l := text), h₁, h₃,
        ← List.takeWhile_append_dropWhile (p := isBlank) (l := r₃), h₄]
      simp [List.takeWhile_append_dropWhile]
    refine ⟨rfl, rfl, _, r₄.takeWhile isBlank, r₄.dropWhile isBlank, htext, ?_,
      .intro (areBlank_takeWhile _) ht hne (areBlank_takeWhile _), areBlank_takeWhile _⟩
    have hlen := congrArg List.length htext
    rw [← List.append_assoc, List.length_append] at hlen
    omega

lemma afterLiteral?_append (literal rest : List Char) :
    afterLiteral? literal (literal ++ rest) = some rest :=
  afterLiteral?_eq_some_iff.mpr rfl

lemma someOf?_append {p : Char → Bool} {t : List Char} (ht : ∀ c ∈ t, p c = true) (hne : t ≠ [])
    (rest : List Char) (hrest : ∀ c ∈ rest.head?, p c = false) :
    someOf? p (t ++ rest) = some rest := by
  obtain ⟨c, t, rfl⟩ := List.exists_cons_of_ne_nil hne
  rw [someOf?, List.dropWhile_append_of_pos ht, dropWhile_eq_self hrest]
  simp [ht c (by simp)]

/-- The form stands where the directive is at the start of a line, and takes the blanks behind it. -/
lemma autorestForm_isDirective {before : Option Char} (hb : atLineStart before = true)
    {d : List Char} (hd : IsDirective d) (b : List Char) :
    autorestForm before (d ++ b) = some ([], (d ++ b.takeWhile isBlank).length) := by
  have hlength : (d ++ b.takeWhile isBlank).length =
      (d ++ b).length - (b.dropWhile isBlank).length := by
    have hlen := congrArg List.length (List.takeWhile_append_dropWhile (p := isBlank) (l := b))
    simp only [List.length_append] at hlen ⊢
    omega
  rw [hlength]
  obtain @⟨s, t, u, hs, ht, hne, hu⟩ := hd
  have hstart : (s ++ ("using".toList ++ (t ++ ("Autorest.CSharp.Core".toList ++ (u ++ [';'])))) ++
      b).dropWhile isBlank =
        "using".toList ++ (t ++ ("Autorest.CSharp.Core".toList ++ (u ++ ';' :: b))) := by
    rw [List.append_assoc, hs.dropWhile]
    simp [List.append_assoc]
    rfl
  have hname := someOf?_append ht hne ("Autorest.CSharp.Core".toList ++ (u ++ ';' :: b))
    (by rintro c ⟨⟩; decide)
  have hend : (u ++ ';' :: b).dropWhile isBlank = ';' :: b := by
    rw [hu.dropWhile]
    rfl
  rw [autorestForm]
  simp only [Option.bind_eq_bind, hb, Bool.not_true, Bool.false_eq_true, if_false]
  rw [hstart, afterLiteral?_append, Option.bind_some, hname, Option.bind_some,
    afterLiteral?_append, Option.bind_some, hend]
  rfl

lemma IsDirective.ne_nil {d : List Char} (h : IsDirective d) : d ≠ [] := by
  obtain @⟨s, t, u, -, -, -, -⟩ := h
  simp

/-- A text changes exactly when it has the directive. -/
theorem removeAutorestUsing_ne_iff (text : List Char) :
    removeAutorestUsing text ≠ text ↔ HasDirective text := by
  have hempty : ∀ before text new n, autorestForm before text = some (new, n) → new = [] :=
    fun _ _ _ _ h => (isDirective_of_form h).1
  rw [Ne, removeAutorestUsing, replaceAll_eq_self_iff hempty, Form.first?,
    Form.firstFrom?_eq_none_iff]
  constructor
  · intro h
    simp only [not_forall, not_not] at h
    obtain ⟨a, b, new, n, rfl, hform, -, -⟩ := h
    obtain ⟨-, hb, d, s, rest, rfl, -, hd, -⟩ := isDirective_of_form hform
    exact ⟨a, d, s ++ rest, rfl, by simpa using hb, hd⟩
  · rintro ⟨a, d, b, rfl, ha, hd⟩ h
    have hform := autorestForm_isDirective ha hd b
    have hpos : 0 < (d ++ b.takeWhile isBlank).length :=
      List.length_pos_iff.mpr (List.append_ne_nil_of_left_ne_nil hd.ne_nil _)
    refine h a (d ++ b) [] _ rfl ⟨by simpa using hform, ?_, hpos⟩
    exact List.append_ne_nil_of_left_ne_nil hd.ne_nil b

/-! ### Texts that meet -/

/-- The directive ends with its only semicolon. -/
lemma IsDirective.semicolon {d : List Char} (h : IsDirective d) :
    ∃ e, d = e ++ [';'] ∧ ';' ∉ e := by
  obtain @⟨s, t, u, hs, ht, -, hu⟩ := h
  have hblank (l : List Char) (hl : AreBlank l) : ';' ∉ l := fun hmem => by
    have h := hl _ hmem
    exact absurd h (by decide)
  refine ⟨s ++ ("using".toList ++ (t ++ ("Autorest.CSharp.Core".toList ++ u))), by simp, ?_⟩
  simp only [List.mem_append, not_or]
  exact ⟨hblank s hs, by decide, hblank t ht, by decide, hblank u hu⟩

lemma HasDirective.append_right {a : List Char} (h : HasDirective a) (b : List Char) :
    HasDirective (a ++ b) := by
  obtain ⟨a, d, c, rfl, ha, hd⟩ := h
  exact ⟨a, d, c ++ b, by simp, ha, hd⟩

lemma HasDirective.append_left {b : List Char} (h : HasDirective b) {a : List Char}
    (ha : atLineStart a.getLast? = true) : HasDirective (a ++ b) := by
  obtain ⟨c, d, e, rfl, hc, hd⟩ := h
  refine ⟨a ++ c, d, e, by simp, ?_, hd⟩
  cases c with
  | nil => simpa using ha
  | cons x c => rwa [List.getLast?_append_of_ne_nil _ (List.cons_ne_nil x c)]

/-- What stands at the start of a line and reaches the end of a line with a semicolon holds that
semicolon. -/
lemma semicolon_mem {a m x c : List Char} (hm : '\n' ∉ m)
    (h : a ++ ';' :: (m ++ ['\n']) = x ++ c) (hx : atLineStart x.getLast? = true) (hc : c ≠ []) :
    ';' ∈ c := by
  rcases List.append_eq_append_iff.mp h with ⟨g, rfl, hg⟩ | ⟨g, rfl, hg⟩
  · cases g with
    | nil =>
      rw [List.nil_append] at hg
      rw [← hg]
      simp
    | cons v g =>
      obtain ⟨rfl, hline⟩ := List.cons.inj hg
      obtain ⟨c, w, rfl⟩ := (List.eq_nil_or_concat' c).resolve_left hc
      have hmg : m = g ++ c := by
        rw [List.append_eq, ← List.append_assoc] at hline
        exact (List.append_inj' hline rfl).1
      -- the character before it is the semicolon or lies in the line behind it
      exfalso
      rcases List.eq_nil_or_concat' g with rfl | ⟨g, v, rfl⟩
      · simp [atLineStart] at hx
      · have hv : v = '\n' := by simpa [atLineStart, List.getLast?_cons] using hx
        exact hm (by rw [hmg, hv]; simp)
  · rw [hg]
    simp

/-- Behind a line with a semicolon the directive cannot have begun: of two texts that meet there one has
it exactly when the two together have it. -/
theorem hasDirective_append {a m : List Char} (hm : '\n' ∉ m) (b : List Char) :
    HasDirective (a ++ ';' :: (m ++ ['\n']) ++ b) ↔
      HasDirective (a ++ ';' :: (m ++ ['\n'])) ∨ HasDirective b := by
  have hstart : atLineStart (a ++ ';' :: (m ++ ['\n'])).getLast? = true := by
    rw [← List.cons_append, ← List.append_assoc, List.getLast?_concat]
    rfl
  refine ⟨?_, fun h => h.elim (fun h => h.append_right b) fun h => h.append_left hstart⟩
  rintro ⟨x, d, y, hxy, hx, hd⟩
  rcases List.append_eq_append_iff.mp hxy with ⟨c, rfl, hb⟩ | ⟨c, hA, hdy⟩
  · -- the directive begins in the second text
    refine Or.inr ⟨c, d, y, hb, ?_, hd⟩
    cases c with
    | nil => rfl
    | cons z c => rwa [List.getLast?_append_of_ne_nil _ (List.cons_ne_nil z c)] at hx
  rcases List.append_eq_append_iff.mp hdy with ⟨f, rfl, rfl⟩ | ⟨f, rfl, rfl⟩
  · -- the directive ends in the first text
    exact Or.inl ⟨x, d, f, hA, hx, hd⟩
  rcases List.eq_nil_or_concat' c with rfl | ⟨c, w, rfl⟩
  · exact Or.inr ⟨[], f, y, rfl, rfl, hd⟩
  rcases List.eq_nil_or_concat' f with rfl | ⟨f, z, rfl⟩
  · exact Or.inl ⟨x, c ++ [w], [], by simpa using hA, hx, by simpa using hd⟩
  · -- it would reach from one into the other, and hold two semicolons
    obtain ⟨e, hde, hsemi⟩ := hd.semicolon
    rw [← List.append_assoc] at hde
    obtain ⟨rfl, -⟩ := List.append_inj' hde rfl
    have hmem := semicolon_mem hm hA hx (by simp)
    exact absurd (List.mem_append_left f hmem) hsemi

/-! ### The tokens of the directive -/

lemma not_neighbour_of_atLineStart {a : List Char} (h : atLineStart a.getLast? = true) :
    isWordNeighbour a.getLast? = false := by
  cases hlast : a.getLast? with
  | none => rfl
  | some c =>
    rw [hlast] at h
    obtain rfl : c = '\n' := by simpa [atLineStart] using h
    decide

/-- The tokens of a text with the directive: before those of the directive there is nothing or a line
feed. -/
lemma hasDirective_iff_tokens (text : List Char) :
    HasDirective text ↔ ∃ ts d us, tokens text = ts ++ (tokens d ++ us) ∧
      (∀ t ∈ ts.getLast?, t = ['\n']) ∧ IsDirective d := by
  constructor
  · rintro ⟨a, d, b, rfl, ha, hd⟩
    obtain ⟨e, hde, -⟩ := hd.semicolon
    have hend : isWordNeighbour d.getLast? = false := by
      rw [hde, List.getLast?_concat]
      decide
    refine ⟨tokens a, d, tokens b, ?_, ?_, hd⟩
    · rw [tokens_append (isApart_of_left (not_neighbour_of_atLineStart ha)),
        tokens_append (isApart_of_left hend)]
    · rcases List.eq_nil_or_concat' a with rfl | ⟨a, c, rfl⟩
      · simp
      · rw [List.getLast?_concat] at ha
        obtain rfl : c = '\n' := by simpa [atLineStart] using ha
        rw [tokens_append (isApart_of_right (by decide)), tokens_mark (by decide)]
        simp
  · rintro ⟨ts, d, us, htokens, hts, hd⟩
    refine ⟨ts.flatten, d, us.flatten, ?_, ?_, hd⟩
    · rw [← flatten_tokens text, htokens, List.flatten_append, List.flatten_append, flatten_tokens]
    · rcases List.eq_nil_or_concat' ts with rfl | ⟨ts, t, rfl⟩
      · rfl
      · rw [List.getLast?_concat] at hts
        rw [hts t rfl, List.flatten_concat, List.getLast?_concat]
        rfl

/-- The words of the directive. -/
def directiveWords : List String := ["using", "Autorest", "CSharp", "Core"]

/-- A kind of tokens to which neither a mark nor a word of the directive belongs. -/
structure IsForeign (p : List Char → Bool) : Prop where
  mark : ∀ c, isWordChar c = false → p [c] = false
  word : ∀ w ∈ directiveWords, p w.toList = false

section Foreign

variable {p : List Char → Bool} (hp : IsForeign p)

lemma AreBlank.not_neighbour_head {s : List Char} (h : AreBlank s) :
    isWordNeighbour s.head? = false := by
  cases s with
  | nil => rfl
  | cons c s => exact isWordChar_of_isBlank (h c (by simp))

lemma AreBlank.not_neighbour_getLast {s : List Char} (h : AreBlank s) :
    isWordNeighbour s.getLast? = false := by
  rcases List.eq_nil_or_concat' s with rfl | ⟨s, c, rfl⟩
  · rfl
  · rw [List.getLast?_concat]
    exact isWordChar_of_isBlank (h c (by simp))

include hp

lemma AreBlank.not_hasToken {s : List Char} (h : AreBlank s) : ¬HasToken p s := by
  induction s with
  | nil => simp
  | cons c s ih =>
    have hc := isWordChar_of_isBlank (h c (by simp))
    rw [hasToken_mark hc, hp.mark c hc]
    simpa using ih fun d hd => h d (by simp [hd])

/-- The directive holds no foreign token. -/
lemma IsDirective.not_hasToken {d : List Char} (h : IsDirective d) : ¬HasToken p d := by
  obtain @⟨s, t, u, hs, ht, hne, hu⟩ := h
  have huse : ¬HasToken p "using".toList := by
    rw [HasToken, show tokens "using".toList = ["using".toList] by decide]
    simp only [List.mem_singleton, exists_eq_left, hp.word "using" (by decide)]
    simp
  have hname : ¬HasToken p "Autorest.CSharp.Core".toList := by
    rw [HasToken, show tokens "Autorest.CSharp.Core".toList =
      ["Autorest".toList, ['.'], "CSharp".toList, ['.'], "Core".toList] by decide]
    simp only [List.mem_cons, List.not_mem_nil, or_false, exists_eq_or_imp, exists_eq_left,
      hp.mark '.' (by decide), hp.word "Autorest" (by decide), hp.word "CSharp" (by decide),
      hp.word "Core" (by decide)]
    simp
  have htail : isWordNeighbour (t ++ ("Autorest.CSharp.Core".toList ++ (u ++ [';']))).head?
      = false := by
    rw [List.head?_append_of_ne_nil _ hne]
    exact ht.not_neighbour_head
  have hend : isWordNeighbour (u ++ [';']).head? = false := by
    cases u with
    | nil => rfl
    | cons c u => exact isWordChar_of_isBlank (hu c (by simp))
  rw [hasToken_append (isApart_of_left hs.not_neighbour_getLast),
    hasToken_append (isApart_of_right htail),
    hasToken_append (isApart_of_left ht.not_neighbour_getLast),
    hasToken_append (isApart_of_right hend),
    hasToken_append (isApart_of_left hu.not_neighbour_getLast), hasToken_mark (by decide)]
  rintro (h | h | h | h | h | h | h)
  · exact hs.not_hasToken hp h
  · exact huse h
  · exact ht.not_hasToken hp h
  · exact hname h
  · exact hu.not_hasToken hp h
  · rw [hp.mark ';' (by decide)] at h
    cases h
  · exact not_hasToken_nil h

/-- Without the directive a text has the same foreign tokens, also behind another text that ends with
no word where a line starts. -/
lemma hasToken_replaceAllFrom (text : List Char) (before : Option Char) (u : List Char)
    (hu : atLineStart before = true → isWordNeighbour u.getLast? = false) :
    HasToken p (u ++ replaceAllFrom autorestForm 0 before text) ↔ HasToken p (u ++ text) := by
  induction hn : text.length using Nat.strong_induction_on generalizing text before u with
  | _ n ih =>
    subst hn
    cases text with
    | nil => rfl
    | cons c rest =>
      by_cases hform : ∃ new k, autorestForm before (c :: rest) = some (new, k + 1)
      · obtain ⟨new, k, hform⟩ := hform
        obtain ⟨rfl, hb, d, s, r, htext, hk, hd, hs⟩ := isDirective_of_form hform
        rw [← List.append_assoc] at htext
        have hne : d ++ s ≠ [] := fun h => by
          rw [h] at hk
          cases hk
        have hlast : isWordNeighbour (d ++ s).getLast? = false := by
          obtain ⟨e, rfl, -⟩ := hd.semicolon
          rcases List.eq_nil_or_concat' s with rfl | ⟨s, v, rfl⟩
          · simp [isWordNeighbour_some, show isWordChar ';' = false by decide]
          · rw [← List.append_assoc, List.getLast?_concat]
            exact isWordChar_of_isBlank (hs v (by simp))
        rw [htext] at hform ⊢
        rw [hk] at hform
        rw [replaceAllFrom_match hne hform, List.nil_append,
          ih _ ?_ r _ u (fun _ => hu hb) rfl, hasToken_append (isApart_of_left (hu hb)),
          hasToken_append (isApart_of_left (hu hb)), hasToken_append (isApart_of_left hlast),
          hasToken_append (isApart_of_right ?_)]
        · simp [hd.not_hasToken hp, hs.not_hasToken hp]
        · exact hs.not_neighbour_head
        · rw [htext, List.length_append]
          have := List.length_pos_iff.mpr hne
          omega
      · have hstep := ih rest.length (by simp) rest (some c) (u ++ [c]) ?_ rfl
        · rw [replaceAllFrom_no_match fun new k h => hform ⟨new, k, h⟩]
          simpa using hstep
        · intro hc
          obtain rfl : c = '\n' := by simpa [atLineStart] using hc
          simp [isWordNeighbour_some, show isWordChar '\n' = false by decide]

/-- Without the directive a text has the same foreign tokens. -/
theorem hasToken_removeAutorestUsing (text : List Char) :
    HasToken p (removeAutorestUsing text) ↔ HasToken p text :=
  hasToken_replaceAllFrom hp text none [] fun _ => rfl

end Foreign

end BuildMend.Migration
