import BuildMend.Proofs.Migration.Directive

/-!
The directives of a text, and the one for the attributes' new namespace that is put behind them.

* `IsCoreLine`, `IsUsing`: the line of the directive for the core namespace, and of any directive.
* `coreForm_eq_some_iff`, `usingForm_eq_some_iff`: the forms stand where such a line starts.
* `ImportsInto`: the directive is put behind a line with a semicolon, as a line of its own.
* `importCustomizations_cases`: the directive is put into a text in this way, or the text stays.
-/

namespace BuildMend.Migration

open Text

/-- A line break: a line feed, or a carriage return before it. -/
def IsLineBreak (s : List Char) : Prop := s = ['\r', '\n'] ∨ s = ['\n']

/-- One text is another with the new directive behind a line with a semicolon. -/
inductive ImportsInto : List Char → List Char → Prop
  | intro {a m s : List Char} (hm : '\n' ∉ m) (hs : IsLineBreak s) (b : List Char) :
      ImportsInto (a ++ ';' :: (m ++ ['\n']) ++ b)
        (a ++ ';' :: (m ++ ['\n']) ++ (customizationsImport.toList ++ s ++ b))

lemma lineBreak?_eq_some {text s : List Char} (h : lineBreak? text = some s) :
    IsLineBreak s ∧ ∃ b, text = s ++ b := by
  unfold lineBreak? at h
  split at h
  · obtain rfl := Option.some.inj h
    exact ⟨Or.inl rfl, _, rfl⟩
  · obtain rfl := Option.some.inj h
    exact ⟨Or.inr rfl, _, rfl⟩
  · cases h

/-- A line break ends a line. -/
lemma IsLineBreak.exists_eq {s : List Char} (h : IsLineBreak s) :
    ∃ m, s = m ++ ['\n'] ∧ '\n' ∉ m := by
  rcases h with rfl | rfl
  · exact ⟨['\r'], rfl, by decide⟩
  · exact ⟨[], rfl, by simp⟩

lemma lineBreak?_append {s : List Char} (h : IsLineBreak s) (b : List Char) :
    lineBreak? (s ++ b) = some s := by
  rcases h with rfl | rfl <;> rfl

/-! ### The lines of directives -/

/-- The line of the directive for the core namespace, with its line break. -/
def IsCoreLine (d : List Char) : Prop := ∃ s, IsLineBreak s ∧ d = coreUsing.toList ++ s

/-- A character of a namespace's name. -/
def isNameChar (c : Char) : Bool := isWordChar c || c == '.'

/-- A directive, with the rest of the line in which it closes: blanks and line feeds may stand between
its parts. -/
inductive IsUsing : List Char → Prop
  | intro {t name u m : List Char} (ht : AreBlank t) (hne : t ≠ [])
      (hname : ∀ c ∈ name, isNameChar c = true) (hname' : name ≠ []) (hu : AreBlank u)
      (hm : '\n' ∉ m) :
      IsUsing ("using".toList ++ (t ++ (name ++ (u ++ ';' :: (m ++ ['\n'])))))

/-- The line break at the end of a text that ends a line. -/
def lineEnd (a : List Char) : List Char :=
  if ['\r', '\n'].isSuffixOf a then ['\r', '\n'] else ['\n']

/-- A directive closes in a line with a semicolon. -/
lemma IsUsing.exists_line {d : List Char} (h : IsUsing d) :
    ∃ x m, '\n' ∉ m ∧ d = x ++ ';' :: (m ++ ['\n']) := by
  obtain @⟨t, name, u, m, -, -, -, -, -, hm⟩ := h
  exact ⟨"using".toList ++ (t ++ (name ++ u)), m, hm, by simp⟩

lemma lineEnd_line (x m : List Char) :
    lineEnd (x ++ ';' :: (m ++ ['\n'])) =
      if m.getLast? == some '\r' then ['\r', '\n'] else ['\n'] := by
  have hsuffix : ['\r', '\n'].isSuffixOf (x ++ ';' :: (m ++ ['\n'])) =
      (m.getLast? == some '\r') := by
    rw [List.isSuffixOf, List.getLast?_eq_head?_reverse]
    simp only [List.reverse_append, List.reverse_cons, List.reverse_nil, List.nil_append,
      List.append_assoc, List.cons_append, List.isPrefixOf]
    cases m.reverse with
    | nil => rfl
    | cons c m => simp [List.isPrefixOf, eq_comm]
  rw [lineEnd, hsuffix]

/-- The line break of a line does not depend on what stands before its semicolon. -/
lemma IsUsing.lineEnd_append {d : List Char} (h : IsUsing d) (a : List Char) :
    lineEnd (a ++ d) = lineEnd d := by
  obtain ⟨x, m, -, rfl⟩ := h.exists_line
  rw [← List.append_assoc, lineEnd_line, lineEnd_line]

lemma IsUsing.lineEnd_suffix {d : List Char} (h : IsUsing d) : lineEnd d <:+ d := by
  obtain ⟨x, m, -, rfl⟩ := h.exists_line
  rw [lineEnd_line]
  split
  · rename_i hm
    obtain ⟨k, rfl⟩ := List.getLast?_eq_some_iff.mp (eq_of_beq hm)
    exact ⟨x ++ ';' :: k, by simp⟩
  · exact ⟨x ++ ';' :: m, by simp⟩

lemma isLineBreak_lineEnd (a : List Char) : IsLineBreak (lineEnd a) := by
  rw [lineEnd]
  split
  · exact Or.inl rfl
  · exact Or.inr rfl

/-- The directive for the core namespace is a directive, and the line break of its line is that at its
end. -/
lemma isUsing_core {s : List Char} (hs : IsLineBreak s) :
    IsUsing (coreUsing.toList ++ s) ∧ lineEnd (coreUsing.toList ++ s) = s := by
  have hname : "Azure.Core".toList.all isNameChar = true := by decide
  obtain ⟨m, rfl, hm⟩ := hs.exists_eq
  refine ⟨?_, ?_⟩
  · exact @IsUsing.intro [' '] "Azure.Core".toList [] m (by simp [AreBlank, isBlank]) (by simp)
      (List.all_eq_true.mp hname) (by decide) (by simp [AreBlank]) hm
  · rcases hs with hs | hs <;> rw [hs] <;> decide

/-! ### The forms of the directives -/

/-- The form for the core namespace stands where its directive is a line. -/
lemma coreForm_eq_some_iff {before : Option Char} {text new : List Char} {n : Nat} :
    coreForm before text = some (new, n) ↔ atLineStart before = true ∧
      ∃ s b, IsLineBreak s ∧ text = coreUsing.toList ++ s ++ b ∧
        new = coreUsing.toList ++ s ++ customizationsImport.toList ++ s ∧
        n = (coreUsing.toList ++ s).length := by
  rw [coreForm]
  cases hb : atLineStart before with
  | false => simp
  | true =>
    simp only [Option.bind_eq_bind, Bool.not_true, Bool.false_eq_true, if_false,
      Option.bind_eq_some_iff, true_and, afterLiteral?_eq_some_iff]
    constructor
    · rintro ⟨rest, rfl, s, h₂, h⟩
      obtain ⟨hs, b, rfl⟩ := lineBreak?_eq_some h₂
      obtain ⟨rfl, rfl⟩ := Prod.mk.inj (Option.some.inj h)
      exact ⟨s, b, hs, by rw [List.append_assoc], rfl, by simp [← String.length_toList]⟩
    · rintro ⟨s, b, hs, rfl, rfl, rfl⟩
      refine ⟨s ++ b, by rw [List.append_assoc], s, lineBreak?_append hs b, ?_⟩
      simp [← String.length_toList]

lemma isBlank_of_isNameChar {c : Char} (h : isNameChar c = true) : isBlank c = false := by
  by_contra hblank
  rw [Bool.not_eq_false] at hblank
  rw [isNameChar, isWordChar_of_isBlank hblank, Bool.false_or, beq_iff_eq] at h
  subst h
  exact absurd hblank (by decide)

lemma isNameChar_of_isBlank {c : Char} (h : isBlank c = true) : isNameChar c = false := by
  by_contra hname
  rw [Bool.not_eq_false] at hname
  rw [isBlank_of_isNameChar hname] at h
  cases h

/-- Where the form for any namespace stands, a line starts with a directive. -/
lemma isUsing_of_form {before : Option Char} {text new : List Char} {n : Nat}
    (h : usingForm before text = some (new, n)) :
    atLineStart before = true ∧
      ∃ d b, IsUsing d ∧ text = d ++ b ∧ new = lineEnd d ∧ n = d.length := by
  rw [usingForm] at h
  cases hb : atLineStart before with
  | false => simp [hb] at h
  | true =>
    simp only [Option.bind_eq_bind, hb, Bool.not_true, Bool.false_eq_true, if_false,
      Option.bind_eq_some_iff] at h
    obtain ⟨r₁, h₁, r₂, h₂, r₃, h₃, r₄, h₄, b, h₅, h⟩ := h
    obtain ⟨t, rfl, hne, ht⟩ := someOf?_eq_some h₂
    obtain ⟨name, rfl, hname', hname⟩ := someOf?_eq_some h₃
    rw [afterLiteral?_eq_some_iff] at h₁ h₄ h₅
    obtain ⟨rfl, rfl⟩ := Prod.mk.inj (Option.some.inj h)
    generalize hline : r₄.takeWhile (· != '\n') = line at h₅ ⊢
    have hm : '\n' ∉ line := fun hmem => by
      rw [← hline] at hmem
      simpa using List.all_eq_true.mp List.all_takeWhile _ hmem
    have hr₄ : r₄ = line ++ '\n' :: b := by
      have hsplit := List.prefix_iff_eq_append.mp (hline ▸ List.takeWhile_prefix (l := r₄) _)
      rw [h₅] at hsplit
      exact hsplit.symm
    have hr₃ : r₃ = r₃.takeWhile isBlank ++ ';' :: (line ++ '\n' :: b) := by
      rw [← hr₄]
      conv_lhs => rw [← List.takeWhile_append_dropWhile (p := isBlank) (l := r₃), h₄]
      rfl
    have hd : IsUsing ("using".toList ++
        (t ++ (name ++ (r₃.takeWhile isBlank ++ ';' :: (line ++ ['\n']))))) :=
      .intro ht hne hname hname' (areBlank_takeWhile _) hm
    have htext : text = "using".toList ++
        (t ++ (name ++ (r₃.takeWhile isBlank ++ ';' :: (line ++ ['\n'])))) ++ b := by
      rw [h₁]
      conv_lhs => rw [hr₃]
      simp
    refine ⟨rfl, _, b, hd, htext, ?_, ?_⟩
    · rw [← lineEnd_line ("using".toList ++ (t ++ (name ++ r₃.takeWhile isBlank)))]
      simp only [List.append_assoc]
    · have hlen := congrArg List.length htext
      rw [List.length_append] at hlen
      omega

/-- Where a line starts with a directive, the form for any namespace stands. -/
lemma usingForm_isUsing {before : Option Char} (hb : atLineStart before = true) {d : List Char}
    (hd : IsUsing d) (b : List Char) :
    usingForm before (d ++ b) = some (lineEnd d, d.length) := by
  have hend : d.length = (d ++ b).length - b.length := by simp
  rw [hend]
  obtain @⟨t, name, u, m, ht, hne, hname, hname', hu, hm⟩ := hd
  have hblanks := someOf?_append ht hne (name ++ (u ++ ';' :: (m ++ '\n' :: b))) (by
    rw [List.head?_append_of_ne_nil _ hname']
    exact fun c hc => isBlank_of_isNameChar (hname c (List.mem_of_mem_head? hc)))
  have hnames := someOf?_append hname hname' (u ++ ';' :: (m ++ '\n' :: b)) (by
    intro c hc
    cases u with
    | nil =>
      obtain rfl := Option.some.inj hc
      decide
    | cons d u =>
      obtain rfl := Option.some.inj hc
      exact isNameChar_of_isBlank (hu d (by simp)))
  have hsemi : (u ++ ';' :: (m ++ '\n' :: b)).dropWhile isBlank = ';' :: (m ++ '\n' :: b) := by
    rw [hu.dropWhile]
    rfl
  have hline : (m ++ '\n' :: b).takeWhile (· != '\n') = m :=
    takeWhile_append (fun c hc => bne_iff_ne.mpr (ne_of_mem_of_not_mem hc hm)) (by simp)
  have hbreak : lineEnd ("using".toList ++ (t ++ (name ++ (u ++ ';' :: (m ++ ['\n']))))) =
      if m.getLast? == some '\r' then ['\r', '\n'] else ['\n'] := by
    rw [← lineEnd_line ("using".toList ++ (t ++ (name ++ u)))]
    simp only [List.append_assoc]
  have htext : "using".toList ++ (t ++ (name ++ (u ++ ';' :: (m ++ ['\n'])))) ++ b =
      "using".toList ++ (t ++ (name ++ (u ++ ';' :: (m ++ '\n' :: b)))) := by simp
  rw [hbreak, htext, usingForm]
  simp only [Option.bind_eq_bind, hb, Bool.not_true, Bool.false_eq_true, if_false]
  rw [afterLiteral?_append, Option.bind_some, hblanks, Option.bind_some]
  rw [show someOf? (fun c => isWordChar c || c == '.') = someOf? isNameChar from rfl, hnames,
    Option.bind_some, hsemi]
  simp only [hline, List.drop_left, afterLiteral?, beq_self_eq_true, if_true, Option.bind_some]
  rfl

/-- The form for any namespace stands where a line starts with a directive. -/
lemma usingForm_eq_some_iff {before : Option Char} {text new : List Char} {n : Nat} :
    usingForm before text = some (new, n) ↔ atLineStart before = true ∧
      ∃ d b, IsUsing d ∧ text = d ++ b ∧ new = lineEnd d ∧ n = d.length := by
  refine ⟨isUsing_of_form, ?_⟩
  rintro ⟨hb, d, b, hd, rfl, rfl, rfl⟩
  exact usingForm_isUsing hb hd b

/-! ### The new directive -/

/-- The new directive is put into a text behind a line with a semicolon, or the text stays. -/
theorem importCustomizations_cases (text : List Char) :
    importCustomizations text = text ∨ ImportsInto text (importCustomizations text) := by
  rw [importCustomizations]
  split
  · exact Or.inl rfl
  split
  · rename_i o ho
    rw [replaceFirst, ho]
    obtain ⟨a, b, rfl, hstart, hform, -, -⟩ := Form.standsAt_of_first? ho
    obtain ⟨-, s, b, hs, rfl, hvalue, hlen⟩ := coreForm_eq_some_iff.mp hform
    obtain ⟨htake, -, hdrop⟩ := o.parts b hstart hlen
    obtain ⟨m, hsm, hm⟩ := hs.exists_eq
    have hcore : coreUsing.toList = "using Azure.Core".toList ++ [';'] := rfl
    simp only [htake, hdrop, hvalue]
    have himport := ImportsInto.intro (a := a ++ "using Azure.Core".toList) hm hs b
    rw [hcore]
    simpa [hsm] using Or.inr himport
  · split
    · rw [addAfterLastUsing]
      split
      · exact Or.inl rfl
      · rename_i o ho
        obtain ⟨a, b, rfl, hstart, hform, -, -⟩ :=
          Form.standsAt_of_mem_occurrences (List.mem_of_getLast? ho)
        obtain ⟨-, d, b, hd, rfl, hvalue, hlen⟩ := isUsing_of_form hform
        obtain ⟨-, htake, hdrop⟩ := o.parts b hstart hlen
        obtain ⟨x, m, hm, rfl⟩ := hd.exists_line
        have hs := isLineBreak_lineEnd (x ++ ';' :: (m ++ ['\n']))
        rw [htake, hdrop, hvalue]
        have himport := ImportsInto.intro (a := a ++ x) hm hs b
        simpa using Or.inr himport
    · exact Or.inl rfl

end BuildMend.Migration
