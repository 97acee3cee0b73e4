import BuildMend.Proofs.Migration.Import

/-!
The place of the directive for the attributes' new namespace.

* `BeginsLine`: a part of a kind stands in a text where a line starts.
* `usingForm_isSeparate`: within a directive no other one begins a line.
* `ImportPlace`: the place behind the first line of the core namespace, or else behind the last directive.
* `importCustomizations_place`: a text stays exactly if it has the new directive or no place for it; else
  that is put there as one line, with the line break of the line before it.
-/

namespace BuildMend.Migration

open Text

/-- A part of a kind stands in a text where a line starts, behind a first part and before the rest. -/
structure BeginsLine (kind : List Char → Prop) (text a d b : List Char) : Prop where
  split : text = a ++ (d ++ b)
  start : atLineStart a.getLast? = true
  kind : kind d

/-- Somewhere in a text a line starts with a part of a kind. -/
def HasLine (kind : List Char → Prop) (text : List Char) : Prop :=
  ∃ a d b, BeginsLine kind text a d b

/-! ### Within a directive -/

/-- A part without a line feed lies before the place where a line starts. -/
lemma exists_behind {p r x y : List Char} (hp : '\n' ∉ p) (h : p ++ r = x ++ y)
    (hx : x.getLast? = some '\n') :
    ∃ x', x = p ++ x' ∧ r = x' ++ y ∧ x'.getLast? = some '\n' := by
  rcases List.append_eq_append_iff.mp h with ⟨x', rfl, hr⟩ | ⟨c, rfl, -⟩
  · refine ⟨x', rfl, hr, ?_⟩
    cases x' with
    | nil =>
      rw [List.append_nil] at hx
      exact absurd (List.mem_of_getLast? hx) hp
    | cons c x' => rwa [List.getLast?_append_of_ne_nil _ (List.cons_ne_nil c x')] at hx
  · exact absurd (List.mem_append_left c (List.mem_of_getLast? hx)) hp

lemma IsUsing.head {d : List Char} (h : IsUsing d) : d.head? = some 'u' := by
  obtain @⟨t, name, u, m, -, -, -, -, -, -⟩ := h
  rfl

/-- A name that is closed by a semicolon does not begin a directive. -/
lemma IsUsing.not_closed {name u r d b : List Char} (hname : ∀ c ∈ name, isNameChar c = true)
    (hu : AreBlank u) (hd : IsUsing d) : name ++ (u ++ ';' :: r) ≠ d ++ b := by
  obtain @⟨t, name', u', m, ht, hne, hname', hne', -, -⟩ := hd
  intro h
  simp only [List.append_assoc] at h
  have huse : ∀ c ∈ "using".toList, isNameChar c = true :=
    List.all_eq_true.mp (show "using".toList.all isNameChar = true by decide)
  have hclosed : ∀ c ∈ (u ++ ';' :: r).head?, isNameChar c = false := by
    intro c hc
    cases u with
    | nil =>
      obtain rfl := Option.some.inj hc
      decide
    | cons d u =>
      obtain rfl := Option.some.inj hc
      exact isNameChar_of_isBlank (hu d (by simp))
  have hopen : ∀ rest : List Char, ∀ c ∈ (t ++ rest).head?, isNameChar c = false := by
    intro rest c hc
    rw [List.head?_append_of_ne_nil _ hne] at hc
    exact isNameChar_of_isBlank (ht c (List.mem_of_mem_head? hc))
  -- the name is the first word, and the blanks behind it are those behind the word
  have hword := congrArg (List.takeWhile isNameChar) h
  rw [takeWhile_append hname hclosed, takeWhile_append huse (hopen _)] at hword
  subst hword
  replace h := List.append_cancel_left h
  have hstart : ∀ rest : List Char, ∀ c ∈ (name' ++ rest).head?, isNameChar c = true := by
    intro rest c hc
    rw [List.head?_append_of_ne_nil _ hne'] at hc
    exact hname' c (List.mem_of_mem_head? hc)
  have hblanks := congrArg (List.takeWhile isBlank) h
  rw [takeWhile_append hu (by rintro c ⟨⟩; decide),
    takeWhile_append ht fun c hc => isBlank_of_isNameChar (hstart _ c hc)] at hblanks
  subst hblanks
  replace h := List.append_cancel_left h
  -- the semicolon would belong to the name
  have hsemi := hstart _ ';' (by rw [← h]; rfl)
  exact absurd hsemi (by decide)

/-- Within a directive no other one begins a line. -/
lemma IsUsing.not_within {x y d b r : List Char} (h : IsUsing (x ++ y))
    (hx : x.getLast? = some '\n') (hy : y ≠ []) (hd : IsUsing d) : y ++ r ≠ d ++ b := by
  intro heq
  have hhead : y.head? = some 'u' := by
    have hd' : d ≠ [] := by
      rintro rfl
      exact absurd hd.head (by simp)
    have hheads := congrArg List.head? heq
    rwa [List.head?_append_of_ne_nil _ hy, List.head?_append_of_ne_nil _ hd', hd.head] at hheads
  -- neither a blank nor a semicolon begins the other directive
  have hsolid {c z : List Char} (hc : AreBlank c) (hne : c ≠ [] ∨ z.head? = some ';') :
      y ≠ c ++ z := by
    rintro rfl
    cases c with
    | nil =>
      rw [List.nil_append, hne.resolve_left (by simp)] at hhead
      exact absurd hhead (by decide)
    | cons e c =>
      obtain rfl := Option.some.inj hhead
      exact absurd (hc 'u' (by simp)) (by decide)
  generalize hxy : x ++ y = whole at h
  obtain @⟨t, name, u, m, ht, -, hname, -, hu, hm⟩ := h
  have hline : '\n' ∉ name := fun hmem => absurd (hname _ hmem) (by decide)
  have hclosed : y ≠ name ++ (u ++ ';' :: (m ++ ['\n'])) := by
    rintro rfl
    refine hd.not_closed (r := m ++ ['\n'] ++ r) (b := b) hname hu ?_
    rw [← heq]
    simp
  obtain ⟨x, rfl, htail, hx⟩ := exists_behind (by decide) hxy.symm hx
  rcases List.append_eq_append_iff.mp htail with ⟨x', rfl, hrest⟩ | ⟨c, rfl, hy'⟩
  · rcases List.eq_nil_or_concat' x' with rfl | ⟨x', e, rfl⟩
    · exact hclosed hrest.symm
    rw [List.getLast?_append_of_ne_nil _ (by simp)] at hx
    -- the line starts behind the name, among the blanks before the semicolon or behind that
    obtain ⟨x'', -, htail, hx⟩ := exists_behind hline hrest hx
    rcases List.append_eq_append_iff.mp htail with ⟨z, rfl, hz⟩ | ⟨c, rfl, hy'⟩
    · rcases List.eq_nil_or_concat' z with rfl | ⟨z, e, rfl⟩
      · exact hsolid (c := []) (by simp [AreBlank]) (Or.inr rfl) hz.symm
      rw [List.getLast?_append_of_ne_nil _ (by simp)] at hx
      rw [← List.cons_append] at hz
      obtain ⟨z', -, hlast, hx⟩ := exists_behind (by simpa using hm) hz hx
      have hlen := congrArg List.length hlast
      have hpos := List.length_pos_iff.mpr hy
      have hpos' := List.length_pos_iff.mpr (List.ne_nil_of_mem (List.mem_of_getLast? hx))
      simp only [List.length_singleton, List.length_append] at hlen
      omega
    · exact hsolid (fun e he => hu e (by simp [he])) (Or.inr rfl) hy'
  · rcases List.eq_nil_or_concat' c with rfl | ⟨c, e, rfl⟩
    · exact hclosed hy'
    · exact hsolid (fun f hf => ht f (by simp only [List.mem_append] at hf ⊢; exact Or.inr hf))
        (Or.inl (by simp)) hy'

/-! ### The places where the forms stand -/

/-- Where a form stands, its line begins. -/
lemma standsAt_coreForm_iff {a b : List Char} {v : List Char} {n : Nat} :
    coreForm.StandsAt none a b v n ↔ ∃ s r, IsLineBreak s ∧ atLineStart a.getLast? = true ∧
      b = coreUsing.toList ++ s ++ r ∧ v = coreUsing.toList ++ s ++ customizationsImport.toList ++ s ∧
        n = (coreUsing.toList ++ s).length := by
  rw [Form.StandsAt, lastOr_none, coreForm_eq_some_iff]
  constructor
  · rintro ⟨⟨ha, s, r, hs, hb, hv, hn⟩, -, -⟩
    exact ⟨s, r, hs, ha, hb, hv, hn⟩
  · rintro ⟨s, r, hs, ha, rfl, rfl, rfl⟩
    exact ⟨⟨ha, s, r, hs, rfl, rfl, rfl⟩, by simp [coreUsing], by simp [coreUsing]⟩

lemma standsAt_usingForm_iff {a b : List Char} {v : List Char} {n : Nat} :
    usingForm.StandsAt none a b v n ↔ ∃ d r, IsUsing d ∧ atLineStart a.getLast? = true ∧
      b = d ++ r ∧ v = lineEnd d ∧ n = d.length := by
  rw [Form.StandsAt, lastOr_none, usingForm_eq_some_iff]
  constructor
  · rintro ⟨⟨ha, d, r, hd, hb, hv, hn⟩, -, -⟩
    exact ⟨d, r, hd, ha, hb, hv, hn⟩
  · rintro ⟨d, r, hd, ha, rfl, rfl, rfl⟩
    have hne : d ≠ [] := by
      rintro rfl
      exact absurd hd.head (by simp)
    exact ⟨⟨ha, d, r, hd, rfl, rfl, rfl⟩, by simp [hne], List.length_pos_iff.mpr hne⟩

/-- Within a directive that the form finds it does not stand again. -/
lemma usingForm_isSeparate : usingForm.IsSeparate := by
  intro before a b v n v' n' hform ha hstands
  obtain ⟨-, d, r, hd, hsplit, -, rfl⟩ := usingForm_eq_some_iff.mp hform
  obtain ⟨hstart, d', r', hd', rfl, -, -⟩ := usingForm_eq_some_iff.mp hstands.1
  by_contra hlt
  rw [Nat.not_le] at hlt
  have hprefix : a <+: d ++ r := ⟨d' ++ r', hsplit⟩
  obtain ⟨y, rfl⟩ : a <+: d := List.prefix_of_prefix_length_le hprefix (List.prefix_append d r) hlt.le
  obtain ⟨c, hc⟩ : ∃ c, a.getLast? = some c := ⟨_, List.getLast?_eq_some_getLast ha⟩
  have hx : a.getLast? = some '\n' := by
    rw [lastOr, hc] at hstart
    rw [hc]
    simpa [atLineStart] using hstart
  have hy : y ≠ [] := by
    rintro rfl
    simp at hlt
  refine hd.not_within hx hy hd' (r := r) (b := r') ?_
  rw [List.append_assoc] at hsplit
  exact (List.append_cancel_left hsplit).symm

/-- The first line of the core namespace in a text begins where its form is found first. -/
lemma first_coreLine {a b : List Char} (hmiss : coreForm.Misses none a b) {x d r : List Char}
    (h : BeginsLine IsCoreLine (a ++ b) x d r) : a.length ≤ x.length := by
  obtain ⟨hsplit, hstart, s, hs, rfl⟩ := h
  by_contra hlt
  rw [Nat.not_le] at hlt
  have hprefix : x <+: a ++ b := ⟨_, hsplit.symm⟩
  obtain ⟨c, rfl⟩ : x <+: a := List.prefix_of_prefix_length_le hprefix (List.prefix_append a b) hlt.le
  have hc : c ≠ [] := by
    rintro rfl
    simp at hlt
  rw [List.append_assoc] at hsplit
  refine hmiss x c _ _ rfl hc (standsAt_coreForm_iff.mpr ⟨s, r, hs, hstart, ?_, rfl, rfl⟩)
  exact List.append_cancel_left hsplit

/-! ### The place of the new directive -/

/-- The place of the new directive: behind the first line of the core namespace, or behind the last
directive of a text without that line. -/
inductive ImportPlace (text : List Char) : (a b : List Char) → Prop
  | core {x d b : List Char} (line : BeginsLine IsCoreLine text x d b)
      (first : ∀ x' d' b', BeginsLine IsCoreLine text x' d' b' → x.length ≤ x'.length) :
      ImportPlace text (x ++ d) b
  | last {x d b : List Char} (none : ¬HasLine IsCoreLine text)
      (line : BeginsLine IsUsing text x d b)
      (last : ∀ x' d' b', BeginsLine IsUsing text x' d' b' → x'.length ≤ x.length) :
      ImportPlace text (x ++ d) b

/-- A text calls for the new directive: it has not got it, but a line of the core namespace, or else
attributes of the generator and a directive behind which to put it. -/
structure WantsImport (text : List Char) : Prop where
  missing : containsText customizationsImport.toList text = false
  place : HasLine IsCoreLine text ∨ containsText attributeStart text = true ∧ HasLine IsUsing text

variable {text : List Char}

lemma hasLine_core_iff : HasLine IsCoreLine text ↔ coreForm.first? text ≠ none := by
  rw [Ne, Form.first?, Form.firstFrom?_eq_none_iff]
  simp only [not_forall, not_not]
  constructor
  · rintro ⟨a, d, b, hsplit, hstart, s, hs, rfl⟩
    exact ⟨a, _, _, _, hsplit, standsAt_coreForm_iff.mpr ⟨s, b, hs, hstart, rfl, rfl, rfl⟩⟩
  · rintro ⟨a, b, v, n, hsplit, hstands⟩
    obtain ⟨s, r, hs, hstart, rfl, -, -⟩ := standsAt_coreForm_iff.mp hstands
    exact ⟨a, _, r, hsplit, hstart, s, hs, rfl⟩

lemma hasLine_using_iff : HasLine IsUsing text ↔ usingForm.occurrences text ≠ [] := by
  rw [Ne, Form.occurrences_eq_nil_iff]
  simp only [not_forall, not_not]
  constructor
  · rintro ⟨a, d, b, hsplit, hstart, hd⟩
    exact ⟨a, _, _, _, hsplit, standsAt_usingForm_iff.mpr ⟨d, b, hd, hstart, rfl, rfl, rfl⟩⟩
  · rintro ⟨a, b, v, n, hsplit, hstands⟩
    obtain ⟨d, r, hd, hstart, rfl, -, -⟩ := standsAt_usingForm_iff.mp hstands
    exact ⟨a, d, r, hsplit, hstart, hd⟩

/-- At its place a directive closes, and the place is behind the line break of that line. -/
lemma ImportPlace.behind {a b : List Char} (h : ImportPlace text a b) :
    text = a ++ b ∧ ∃ x d, a = x ++ d ∧ atLineStart x.getLast? = true ∧ IsUsing d := by
  cases h with
  | core line first =>
    obtain ⟨hsplit, hstart, s, hs, rfl⟩ := line
    exact ⟨by rw [hsplit, ← List.append_assoc], _, _, rfl, hstart, (isUsing_core hs).1⟩
  | last none line last =>
    exact ⟨by rw [line.split, ← List.append_assoc], _, _, rfl, line.start, line.kind⟩

/-- Behind the first line of the core namespace the new directive ends as that line does. -/
lemma replaceFirst_coreForm (h : HasLine IsCoreLine text) :
    ∃ a b, ImportPlace text a b ∧
      replaceFirst coreForm text = a ++ (customizationsImport.toList ++ lineEnd a ++ b) := by
  obtain ⟨o, ho⟩ := Option.ne_none_iff_exists'.mp (hasLine_core_iff.mp h)
  obtain ⟨a, b, rfl, hstart, hstands, hmiss⟩ := Form.first?_eq_some_iff.mp ho
  obtain ⟨s, r, hs, hline, rfl, hvalue, hlen⟩ := standsAt_coreForm_iff.mp hstands
  obtain ⟨hcore, hbreak⟩ := isUsing_core hs
  obtain ⟨htake, -, hdrop⟩ := o.parts r hstart hlen
  have hplace : BeginsLine IsCoreLine (a ++ (coreUsing.toList ++ s ++ r)) a
      (coreUsing.toList ++ s) r := ⟨rfl, hline, s, hs, rfl⟩
  refine ⟨_, r, .core hplace fun x' d' b' h => first_coreLine hmiss h, ?_⟩
  rw [hcore.lineEnd_append, hbreak, replaceFirst, ho]
  simp only [htake, hdrop, hvalue]
  simp only [List.append_assoc]

/-- Behind the last directive the new one ends as the line before it does. -/
lemma addAfterLastUsing_eq (hnone : ¬HasLine IsCoreLine text) (h : HasLine IsUsing text) :
    ∃ a b, ImportPlace text a b ∧
      addAfterLastUsing text = a ++ (customizationsImport.toList ++ lineEnd a ++ b) := by
  have hsome := hasLine_using_iff.mp h
  obtain ⟨o, ho⟩ : ∃ o, (usingForm.occurrences text).getLast? = some o :=
    ⟨_, List.getLast?_eq_some_getLast hsome⟩
  obtain ⟨a, b, hsplit, hstart, hstands, hlast⟩ :=
    Form.getLast_occurrences usingForm_isSeparate ho
  obtain ⟨d, r, hd, hline, rfl, hvalue, hlen⟩ := standsAt_usingForm_iff.mp hstands
  obtain ⟨-, htake, hdrop⟩ := o.parts r hstart hlen
  have hplace : BeginsLine IsUsing text a d r := ⟨hsplit, hline, hd⟩
  refine ⟨_, r, .last hnone hplace fun x' d' b' h => ?_, ?_⟩
  · exact hlast x' _ _ _ h.split (standsAt_usingForm_iff.mpr ⟨d', b', h.kind, h.start, rfl, rfl, rfl⟩)
  · rw [hd.lineEnd_append, addAfterLastUsing, ho, hsplit]
    simp only [htake, hdrop, hvalue, List.append_assoc]

/-- A text that calls for the new directive gets it at its place. -/
lemma importCustomizations_of_wants (h : WantsImport text) :
    ∃ a b, ImportPlace text a b ∧
      importCustomizations text = a ++ (customizationsImport.toList ++ lineEnd a ++ b) := by
  rw [importCustomizations, if_neg (by simp [h.missing])]
  by_cases hcore : HasLine IsCoreLine text
  · obtain ⟨o, ho⟩ := Option.ne_none_iff_exists'.mp (hasLine_core_iff.mp hcore)
    simp only [ho]
    exact replaceFirst_coreForm hcore
  · have hfirst : coreForm.first? text = none := by
      by_contra hne
      exact hcore (hasLine_core_iff.mpr hne)
    obtain ⟨hattr, husing⟩ := h.place.resolve_left hcore
    simp only [hfirst, hattr, if_true]
    exact addAfterLastUsing_eq hcore husing

/-- Any other text stays. -/
lemma importCustomizations_of_not_wants (h : ¬WantsImport text) :
    importCustomizations text = text := by
  rw [importCustomizations]
  split
  · rfl
  · rename_i hmissing
    have hplace := fun hplace => h ⟨by simpa using hmissing, hplace⟩
    have hfirst : coreForm.first? text = none := by
      by_contra hne
      exact hplace (Or.inl (hasLine_core_iff.mpr hne))
    simp only [hfirst]
    split
    · rename_i hattr
      have hlast : usingForm.occurrences text = [] := by
        by_contra hne
        exact hplace (Or.inr ⟨hattr, hasLine_using_iff.mpr hne⟩)
      rw [addAfterLastUsing, hlast]
      rfl
    · rfl

/-- A text with the new directive stays. -/
lemma importCustomizations_of_contains (h : containsText customizationsImport.toList text = true) :
    importCustomizations text = text :=
  importCustomizations_of_not_wants fun hwants => by
    rw [hwants.missing] at h
    cases h

/-- A text stays exactly if it has the new directive, or neither a line of the core namespace nor both an
attribute of the generator and a directive.  Any other text gets it as one line behind its place, with
the line break of the line before it.  Afterwards there is nothing left to do. -/
theorem importCustomizations_place (text : List Char) :
    (importCustomizations text = text ↔
      containsText customizationsImport.toList text = true ∨
        ¬HasLine IsCoreLine text ∧
          (containsText attributeStart text = false ∨ ¬HasLine IsUsing text)) ∧
      (importCustomizations text = text ∨
        ∃ a b, text = a ++ b ∧
          importCustomizations text = a ++ (customizationsImport.toList ++ lineEnd a ++ b) ∧
          lineEnd a <:+ a ∧ (∃ x d, a = x ++ d ∧ atLineStart x.getLast? = true ∧ IsUsing d) ∧
          ImportPlace text a b) ∧
      importCustomizations (importCustomizations text) = importCustomizations text := by
  have hstays : containsText customizationsImport.toList text = true ∨
      ¬HasLine IsCoreLine text ∧
        (containsText attributeStart text = false ∨ ¬HasLine IsUsing text) ↔ ¬WantsImport text := by
    have hwants : WantsImport text ↔ containsText customizationsImport.toList text = false ∧
        (HasLine IsCoreLine text ∨ containsText attributeStart text = true ∧ HasLine IsUsing text) :=
      ⟨fun h => ⟨h.missing, h.place⟩, fun h => ⟨h.1, h.2⟩⟩
    rw [hwants, not_and_or, not_or, not_and_or, Bool.not_eq_false, Bool.not_eq_true]
  rw [hstays]
  by_cases h : WantsImport text
  · obtain ⟨a, b, hplace, heq⟩ := importCustomizations_of_wants h
    obtain ⟨hsplit, x, d, ha, hx, hd⟩ := hplace.behind
    have hchange : importCustomizations text ≠ text := fun hsame => by
      rw [heq, hsplit] at hsame
      have hlen := congrArg List.length hsame
      have hline : 0 < customizationsImport.toList.length := by decide
      simp only [List.length_append] at hlen
      omega
    have hcontains : containsText customizationsImport.toList (importCustomizations text) = true :=
      containsText_iff.mpr ⟨a, lineEnd a ++ b, by rw [heq]; simp only [List.append_assoc]⟩
    have hend : lineEnd a <:+ a := by
      rw [ha, hd.lineEnd_append]
      exact hd.lineEnd_suffix.trans (List.suffix_append x d)
    exact ⟨iff_of_false hchange (not_not.mpr h),
      Or.inr ⟨a, b, hsplit, heq, hend, ⟨x, d, ha, hx, hd⟩, hplace⟩,
      importCustomizations_of_contains hcontains⟩
  · have hsame := importCustomizations_of_not_wants h
    exact ⟨iff_of_true hsame h, Or.inl hsame, by rw [hsame, hsame]⟩

end BuildMend.Migration
