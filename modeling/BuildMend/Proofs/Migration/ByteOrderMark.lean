import BuildMend.Proofs.Migration.DirectiveLines
import BuildMend.Proofs.Migration.Identifiers
import BuildMend.Proofs.Migration.ImportPlace

/-!
Custom code behind a byte order mark.

* `byteOrderMark`: the mark is no word character, no blank and no line feed, so behind it no line starts.
* `ImportPlace.unique`: a text has at most one place for the new directive.
* `ImportsAtStart`: that place is behind a directive with which the text begins.
* `importCustomizations_marked_iff`: exactly then the directive is not put there behind the mark.
* `BeginsDirective`: a text begins with the directive of the old generator's namespace.
* `removeAutorestUsing_marked`, `exists_kept`: that directive, and no other, stays behind the mark.
* `CodeEdit.apply_marked`: which edits do to a text behind the mark what they do to the text.
-/

namespace BuildMend.Migration

open Text

/-- The mark at the front of a file that says how its text is encoded. -/
def byteOrderMark : Char := '\uFEFF'

lemma wordTable_byteOrderMark :
    (wordTable.intervals.toList.all fun i => 0xFEFF < i.1 || i.2 < 0xFEFF) = true := by
  decide +kernel

/-- The mark is no word character. -/
lemma isWordChar_byteOrderMark : isWordChar byteOrderMark = false := by
  have htable : wordTable.contains byteOrderMark = false := Ranges.contains_eq_false fun i hi => by
    have hout := List.all_eq_true.mp wordTable_byteOrderMark i hi
    simpa [byteOrderMark] using hout
  rw [isWordChar, htable, Bool.and_false]
  rfl

/-! ### Lines behind the mark -/

section Lines

variable {kind : List Char → Prop} {text a d b : List Char}

/-- Behind the mark lines start where they did, but for the first one. -/
lemma atLineStart_marked {x : List Char} :
    atLineStart (byteOrderMark :: x).getLast? = true ↔ x ≠ [] ∧ atLineStart x.getLast? = true := by
  rcases List.eq_nil_or_concat' x with rfl | ⟨x, c, rfl⟩
  · exact iff_of_false (by decide) (by simp)
  · rw [← List.cons_append, List.getLast?_concat, List.getLast?_concat]
    simp

/-- A part that begins with a letter begins a line behind the mark where it does without the mark, but not
at the front. -/
lemma beginsLine_marked_iff (hkind : ∀ d, kind d → d.head? = some 'u') :
    BeginsLine kind (byteOrderMark :: text) a d b ↔
      ∃ x, a = byteOrderMark :: x ∧ x ≠ [] ∧ BeginsLine kind text x d b := by
  constructor
  · rintro ⟨hsplit, hstart, hd⟩
    cases a with
    | nil =>
      obtain ⟨rest, rfl⟩ := List.head?_eq_some_iff.mp (hkind d hd)
      exact absurd (List.cons.inj hsplit).1 (by decide)
    | cons c x =>
      obtain ⟨rfl, hrest⟩ := List.cons.inj hsplit
      obtain ⟨hx, hstart⟩ := atLineStart_marked.mp hstart
      exact ⟨x, rfl, hx, hrest, hstart, hd⟩
  · rintro ⟨x, rfl, hx, hsplit, hstart, hd⟩
    exact ⟨by rw [hsplit]; rfl, atLineStart_marked.mpr ⟨hx, hstart⟩, hd⟩

lemma HasLine.of_marked (hkind : ∀ d, kind d → d.head? = some 'u')
    (h : HasLine kind (byteOrderMark :: text)) : HasLine kind text := by
  obtain ⟨a, d, b, hline⟩ := h
  obtain ⟨x, -, -, hline⟩ := (beginsLine_marked_iff hkind).mp hline
  exact ⟨x, d, b, hline⟩

lemma IsCoreLine.isUsing {d : List Char} (h : IsCoreLine d) : IsUsing d := by
  obtain ⟨s, hs, rfl⟩ := h
  exact (isUsing_core hs).1

lemma head_isCoreLine (d : List Char) (h : IsCoreLine d) : d.head? = some 'u' := h.isUsing.head

lemma head_isUsing (d : List Char) (h : IsUsing d) : d.head? = some 'u' := h.head

end Lines

/-! ### The place of the new directive -/

variable {text a b a' b' : List Char}

/-- A directive at a place is the only one that begins there. -/
lemma IsUsing.unique {d d' : List Char} (hd : IsUsing d) (hd' : IsUsing d') (h : d ++ b = d' ++ b') :
    d = d' := by
  have hstart : atLineStart none = true := rfl
  have hform := usingForm_isUsing hstart hd b
  rw [h, usingForm_isUsing hstart hd' b'] at hform
  obtain ⟨-, hlen⟩ := Prod.mk.inj (Option.some.inj hform)
  exact (List.append_inj h hlen.symm).1

/-- A text has at most one place for the new directive. -/
lemma ImportPlace.unique (h : ImportPlace text a b) (h' : ImportPlace text a' b') : a = a' ∧ b = b' := by
  have hsame {x d y d' : List Char} (hd : IsUsing d) (hd' : IsUsing d') (hle : x.length ≤ y.length)
      (hge : y.length ≤ x.length) (hsplit : text = x ++ (d ++ b)) (hsplit' : text = y ++ (d' ++ b')) :
      x ++ d = y ++ d' ∧ b = b' := by
    obtain ⟨rfl, hrest⟩ := List.append_inj (hsplit.symm.trans hsplit') (le_antisymm hle hge)
    obtain rfl := hd.unique hd' hrest
    exact ⟨rfl, List.append_cancel_left hrest⟩
  cases h with
  | core line first =>
    cases h' with
    | core line' first' =>
      exact hsame line.kind.isUsing line'.kind.isUsing (first _ _ _ line') (first' _ _ _ line) line.split
        line'.split
    | last none' => exact absurd ⟨_, _, _, line⟩ none'
  | last none line last =>
    cases h' with
    | core line' => exact absurd ⟨_, _, _, line'⟩ none
    | last _ line' last' =>
      exact hsame line.kind line'.kind (last' _ _ _ line) (last _ _ _ line') line.split line'.split

/-- The place behind the mark is behind a directive that does not begin the text. -/
lemma ImportPlace.of_marked (h : ImportPlace (byteOrderMark :: text) a b) :
    ∃ x d, a = byteOrderMark :: (x ++ d) ∧ x ≠ [] ∧ BeginsLine IsUsing text x d b := by
  cases h with
  | core line first =>
    obtain ⟨x, rfl, hx, hline⟩ := (beginsLine_marked_iff head_isCoreLine).mp line
    exact ⟨x, _, rfl, hx, hline.split, hline.start, hline.kind.isUsing⟩
  | last none line last =>
    obtain ⟨x, rfl, hx, hline⟩ := (beginsLine_marked_iff head_isUsing).mp line
    exact ⟨x, _, rfl, hx, hline⟩

/-- A place behind a directive that does not begin the text is the place behind the mark, and a line of
the core namespace is left there too. -/
lemma ImportPlace.marked (h : ImportPlace text a b) (hno : ¬IsUsing a) :
    ImportPlace (byteOrderMark :: text) (byteOrderMark :: a) b ∧
      (HasLine IsCoreLine text → HasLine IsCoreLine (byteOrderMark :: text)) := by
  cases h with
  | @core x d _ line first =>
    have hx : x ≠ [] := by
      rintro rfl
      exact hno line.kind.isUsing
    have hmarked := (beginsLine_marked_iff head_isCoreLine).mpr ⟨x, rfl, hx, line⟩
    refine ⟨.core hmarked fun x' d' b' hline => ?_, fun _ => ⟨_, _, _, hmarked⟩⟩
    obtain ⟨y, rfl, -, hline⟩ := (beginsLine_marked_iff head_isCoreLine).mp hline
    exact Nat.succ_le_succ (first y d' b' hline)
  | @last x d _ none line last =>
    have hx : x ≠ [] := by
      rintro rfl
      exact hno line.kind
    refine ⟨.last (fun h => none (h.of_marked head_isCoreLine))
      ((beginsLine_marked_iff head_isUsing).mpr ⟨x, rfl, hx, line⟩) fun x' d' b' hline => ?_,
      fun hcore => absurd hcore none⟩
    obtain ⟨y, rfl, -, hline⟩ := (beginsLine_marked_iff head_isUsing).mp hline
    exact Nat.succ_le_succ (last y d' b' hline)

/-! ### The new directive -/

lemma WantsImport.of_marked (h : WantsImport (byteOrderMark :: text)) : WantsImport text where
  missing := h.missing
  place := h.place.imp (·.of_marked head_isCoreLine) fun ⟨hattr, hline⟩ =>
    ⟨hattr, hline.of_marked head_isUsing⟩

/-- Behind the mark the new directive is still wanted, unless its place is behind a directive that
begins the text. -/
lemma WantsImport.marked (h : WantsImport text) (hplace : ImportPlace text a b) (hno : ¬IsUsing a) :
    WantsImport (byteOrderMark :: text) := by
  obtain ⟨hmarked, hcore⟩ := hplace.marked hno
  obtain ⟨hsplit, x, d, ha, hstart, hd⟩ := hmarked.behind
  have hline : HasLine IsUsing (byteOrderMark :: text) :=
    ⟨x, d, b, by rw [hsplit, ha, List.append_assoc], hstart, hd⟩
  exact ⟨h.missing, h.place.imp hcore fun ⟨hattr, _⟩ => ⟨hattr, hline⟩⟩

/-- The new directive is wanted behind a directive with which the text begins. -/
def ImportsAtStart (text : List Char) : Prop :=
  WantsImport text ∧ ∃ d b, IsUsing d ∧ ImportPlace text d b

/-- A line that is put before another part of a text is not the one that is put behind it. -/
lemma line_before_ne_behind {z s s' r : List Char} (hs : IsLineBreak s) (hz : '\n' ∈ z)
    (hno : containsText customizationsImport.toList z = false) :
    customizationsImport.toList ++ s ++ (z ++ r) ≠ z ++ (customizationsImport.toList ++ s' ++ r) := by
  intro h
  have hne {y : List Char} (hy : z = customizationsImport.toList ++ s ++ y) : False := by
    rw [containsText_iff.mpr ⟨[], s ++ y, by rw [hy, List.append_assoc]; rfl⟩] at hno
    cases hno
  rcases List.append_eq_append_iff.mp h with ⟨y, hy, -⟩ | ⟨y, hy, -⟩
  · exact hne hy
  · rcases List.eq_nil_or_concat' y with rfl | ⟨y, c, rfl⟩
    · exact hne (y := []) (by simpa using hy.symm)
    · -- the only line feed of the line is its last character
      obtain ⟨m, rfl, hm⟩ := hs.exists_eq
      rw [← List.append_assoc, ← List.append_assoc] at hy
      obtain ⟨hline, -⟩ := List.append_inj' hy rfl
      have hfeed : '\n' ∈ customizationsImport.toList ++ m := by
        rw [hline]
        exact List.mem_append_left y hz
      exact (List.mem_append.mp hfeed).elim (by decide) hm

/-- Within a directive with which a text begins no other one begins a line. -/
lemma IsUsing.exists_behind {d x d' : List Char} (hd : IsUsing d) (hsplit : text = d ++ b)
    (hline : BeginsLine IsUsing text x d' b') (hx : x ≠ []) : ∃ y, x = d ++ y := by
  have hsame : d ++ b = x ++ (d' ++ b') := hsplit.symm.trans hline.split
  rcases List.append_eq_append_iff.mp hsame with ⟨y, hy, -⟩ | ⟨y, rfl, hrest⟩
  · exact ⟨y, hy⟩
  · cases y with
    | nil => exact ⟨[], by simp⟩
    | cons c y =>
      have hlast : x.getLast? = some '\n' := by
        have hstart := hline.start
        rw [List.getLast?_eq_some_getLast hx] at hstart ⊢
        simpa [atLineStart] using hstart
      exact absurd hrest.symm (hd.not_within hlast (by simp) hline.kind)

/-- A directive behind which the new one is put is not found behind the mark. -/
lemma importCustomizations_marked_ne (hwants : WantsImport text) (hplace : ImportPlace text a b)
    (hstart : IsUsing a) :
    importCustomizations (byteOrderMark :: text) ≠ byteOrderMark :: importCustomizations text := by
  obtain ⟨a₀, b₀, hplace₀, heq⟩ := importCustomizations_of_wants hwants
  obtain ⟨rfl, rfl⟩ := hplace₀.unique hplace
  obtain ⟨hsplit, -⟩ := hplace.behind
  rw [heq]
  by_cases hmarked : WantsImport (byteOrderMark :: text)
  · obtain ⟨a', b', hplace', heq'⟩ := importCustomizations_of_wants hmarked
    obtain ⟨x, d, rfl, hx, hline⟩ := hplace'.of_marked
    obtain ⟨y, rfl⟩ := hstart.exists_behind hsplit hline hx
    obtain ⟨e, m, -, hd⟩ := hline.kind.exists_line
    have hrest : b₀ = y ++ d ++ b' := by
      have hwhole := hsplit.symm.trans hline.split
      rw [List.append_assoc] at hwhole
      rw [List.append_cancel_left hwhole, List.append_assoc]
    have hno : containsText customizationsImport.toList (y ++ d) = false := by
      refine Bool.eq_false_iff.mpr fun hcontains => ?_
      obtain ⟨p, q, hpq⟩ := containsText_iff.mp hcontains
      have hmissing := hwants.missing
      rw [containsText_iff.mpr ⟨a₀ ++ p, q ++ b', by rw [hsplit, hrest, hpq]; simp⟩] at hmissing
      cases hmissing
    intro hsame
    rw [heq', List.cons_append, List.append_assoc a₀, List.append_assoc a₀, hrest] at hsame
    exact line_before_ne_behind (isLineBreak_lineEnd a₀) (by simp [hd]) hno
      (List.append_cancel_left (List.cons.inj hsame).2).symm
  · intro hsame
    rw [importCustomizations_of_not_wants hmarked, hsplit] at hsame
    have hlen := congrArg List.length (List.append_cancel_left (List.cons.inj hsame).2)
    have hline : 0 < customizationsImport.toList.length := by decide
    simp only [List.length_append] at hlen
    omega

/-- Behind the mark a text gets the new directive where it does without the mark, exactly unless the
text begins with the directive behind which it is put. -/
theorem importCustomizations_marked_iff (text : List Char) :
    importCustomizations (byteOrderMark :: text) = byteOrderMark :: importCustomizations text ↔
      ¬ImportsAtStart text := by
  by_cases hwants : WantsImport text
  swap
  · rw [importCustomizations_of_not_wants hwants,
      importCustomizations_of_not_wants fun h => hwants h.of_marked]
    exact iff_of_true rfl fun h => hwants h.1
  obtain ⟨a, b, hplace, heq⟩ := importCustomizations_of_wants hwants
  obtain ⟨hsplit, x, d, ha, -, hd⟩ := hplace.behind
  by_cases hstart : IsUsing a
  · exact iff_of_false (importCustomizations_marked_ne hwants hplace hstart)
      (not_not.mpr ⟨hwants, a, b, hstart, hplace⟩)
  · refine iff_of_true ?_ fun ⟨_, d', b', hd', hplace'⟩ => hstart ?_
    · obtain ⟨a', b', hplace', heq'⟩ := importCustomizations_of_wants (hwants.marked hplace hstart)
      obtain ⟨rfl, rfl⟩ := hplace'.unique (hplace.marked hstart).1
      rw [heq', heq, ha, ← List.cons_append, hd.lineEnd_append, hd.lineEnd_append]
      rfl
    · obtain ⟨rfl, -⟩ := hplace'.unique hplace
      exact hd'

/-! ### The old directive -/

/-- A text begins with the directive of the old generator's namespace. -/
def BeginsDirective (text : List Char) : Prop := ∃ d b, text = d ++ b ∧ IsDirective d

/-- Blanks before a directive belong to it. -/
lemma IsDirective.blanks_append {z d : List Char} (hz : AreBlank z) (h : IsDirective d) :
    IsDirective (z ++ d) := by
  obtain @⟨s, t, u, hs, ht, hne, hu⟩ := h
  rw [← List.append_assoc]
  exact .intro (fun c hc => (List.mem_append.mp hc).elim (hz c) (hs c)) ht hne hu

/-- A directive has one letter of its first word. -/
lemma IsDirective.count_g {d : List Char} (h : IsDirective d) : d.count 'g' = 1 := by
  have hblank {l : List Char} (hl : AreBlank l) : l.count 'g' = 0 :=
    List.count_eq_zero.mpr fun hmem => absurd (hl _ hmem) (by decide)
  obtain @⟨s, t, u, hs, ht, -, hu⟩ := h
  simp only [List.count_append, hblank hs, hblank ht, hblank hu]
  decide

/-- What begins at a place within a directive and closes there is that directive's end. -/
lemma IsDirective.eq_of_append {d y b z : List Char} (h : ∃ x, IsDirective (x ++ y)) (hy : y ≠ [])
    (hd : IsDirective d) (hsame : y ++ b = d ++ z) : y = d := by
  obtain ⟨x, hx⟩ := h
  obtain ⟨e, he, hsemi⟩ := hx.semicolon
  obtain ⟨e', rfl, hsemi'⟩ := hd.semicolon
  obtain ⟨y, c, rfl⟩ := (List.eq_nil_or_concat' y).resolve_left hy
  rw [← List.append_assoc] at he
  obtain ⟨rfl, hc⟩ := List.append_inj' he rfl
  obtain rfl := List.singleton_inj.mp hc
  have hsolid {l r : List Char} (hl : ';' ∉ l) : (l ++ ([';'] ++ r)).takeWhile (· != ';') = l :=
    takeWhile_append (fun c hc => bne_iff_ne.mpr (ne_of_mem_of_not_mem hc hl)) (by simp)
  rw [List.append_assoc, List.append_assoc] at hsame
  have hparts := congrArg (List.takeWhile (· != ';')) hsame
  rw [hsolid fun hmem => hsemi (List.mem_append_right x hmem), hsolid hsemi'] at hparts
  rw [hparts]

/-- Behind the first word of a directive no other one begins in it. -/
lemma IsDirective.not_behind {s r x y : List Char} (hs : '\n' ∉ s)
    (h : s ++ ("using".toList ++ r) = x ++ y) (hd : IsDirective (x ++ y))
    (hx : x.getLast? = some '\n') : ¬IsDirective y := by
  intro hy
  have hno : 'g' ∉ x := by
    have hcount := hd.count_g
    rw [List.count_append, hy.count_g] at hcount
    exact List.count_eq_zero.mp (by omega)
  rw [← List.append_assoc] at h
  rcases List.append_eq_append_iff.mp h with ⟨z, rfl, -⟩ | ⟨z, hz, -⟩
  · exact hno (by simp)
  · have hfeed : '\n' ∈ s ++ "using".toList := by
      rw [hz]
      exact List.mem_append_left z (List.mem_of_getLast? hx)
    exact (List.mem_append.mp hfeed).elim hs (by decide)

lemma not_beginsDirective_marked (text : List Char) : ¬BeginsDirective (byteOrderMark :: text) := by
  rintro ⟨d, b, hsplit, hd⟩
  obtain ⟨t, u, -, -, -, htext⟩ := hd.takeWhile b
  rw [← hsplit] at htext
  exact absurd (List.cons.inj htext).1 (by decide)

/-- Where no line starts, or the text does not begin with a directive, nothing goes at the front. -/
lemma autorestForm_ne {before : Option Char} {text : List Char}
    (h : atLineStart before = false ∨ ¬BeginsDirective text) (new : List Char) (n : Nat) :
    autorestForm before text ≠ some (new, n) := by
  intro hform
  obtain ⟨-, hb, d, s, rest, hsplit, -, hd, -⟩ := isDirective_of_form hform
  rcases h with h | h
  · rw [h] at hb
    cases hb
  · exact h ⟨d, s ++ rest, hsplit, hd⟩

/-- Where no line starts, a text that does not begin with a directive is treated as it is at the front
of a file. -/
lemma replaceAllFrom_autorest {before : Option Char} {text : List Char} (h : ¬BeginsDirective text) :
    replaceAllFrom autorestForm 0 before text = removeAutorestUsing text := by
  cases text with
  | nil => rfl
  | cons c rest =>
    rw [removeAutorestUsing, replaceAll, replaceAllFrom_no_match fun _ _ => autorestForm_ne (Or.inr h) _ _,
      replaceAllFrom_no_match fun _ _ => autorestForm_ne (Or.inr h) _ _]

/-- The mark stays, and no line starts behind it. -/
lemma removeAutorestUsing_marked (text : List Char) :
    removeAutorestUsing (byteOrderMark :: text) =
      byteOrderMark :: replaceAllFrom autorestForm 0 (some byteOrderMark) text := by
  rw [removeAutorestUsing, replaceAll, replaceAllFrom_no_match fun _ _ =>
    autorestForm_ne (Or.inr (not_beginsDirective_marked text)) _ _]

/-- In a line that has started no directive begins. -/
lemma misses_line {before : Option Char} (hbefore : atLineStart before = false) {l : List Char}
    (hl : '\n' ∉ l) (b : List Char) : autorestForm.Misses before (l ++ ['\n']) b := by
  intro a c v n hsplit hc hstands
  obtain ⟨c, e, rfl⟩ := (List.eq_nil_or_concat' c).resolve_left hc
  rw [← List.append_assoc] at hsplit
  obtain ⟨rfl, -⟩ := List.append_inj' hsplit rfl
  refine autorestForm_ne (Or.inl ?_) v n hstands.1
  cases a with
  | nil => exact hbefore
  | cons d a => exact atLineStart_lastOr (by simp) (fun hmem => hl (List.mem_append_left c hmem)) before

/-- Within a directive that starts in such a line, and in the blanks behind it, none begins. -/
lemma misses_directive {before : Option Char} (hbefore : atLineStart before = false)
    {s r d b : List Char} (hs : '\n' ∉ s) (hwhole : d = s ++ ("using".toList ++ r))
    (hd : IsDirective d) (hb : ¬BeginsDirective b) :
    autorestForm.Misses before (d ++ b.takeWhile isBlank) (b.dropWhile isBlank) := by
  intro a c v n hsplit hc hstands
  obtain ⟨-, hstart, d', r', rest, hrest, -, hd', -⟩ := isDirective_of_form hstands.1
  have hne : a ≠ [] := by
    rintro rfl
    rw [lastOr_nil, hbefore] at hstart
    cases hstart
  have hlast : a.getLast? = some '\n' := by
    rw [lastOr, List.getLast?_eq_some_getLast hne] at hstart
    rw [List.getLast?_eq_some_getLast hne]
    simpa [atLineStart] using hstart
  rcases List.append_eq_append_iff.mp hsplit with ⟨y, rfl, hblanks⟩ | ⟨y, rfl, rfl⟩
  · -- it begins behind the directive
    have hy : AreBlank y := fun e he => areBlank_takeWhile b e (by rw [hblanks]; simp [he])
    refine hb ⟨y ++ d', r' ++ rest, ?_, hd'.blanks_append hy⟩
    rw [List.append_assoc, ← hrest, ← List.append_assoc, ← hblanks, List.takeWhile_append_dropWhile]
  · rw [List.append_assoc, List.takeWhile_append_dropWhile] at hrest
    cases y with
    | nil => exact hb ⟨d', r' ++ rest, hrest, hd'⟩
    | cons e y =>
      have hsame := IsDirective.eq_of_append ⟨a, hd⟩ (List.cons_ne_nil e y) hd' hrest
      exact IsDirective.not_behind hs hwhole.symm hd hlast (hsame ▸ hd')

/-- Where no line starts, what stands at the front of a directive stays, if no other one follows. -/
lemma exists_kept {before : Option Char} (hbefore : atLineStart before = false) {d b : List Char}
    (hd : IsDirective d) (hb : ¬BeginsDirective b) :
    ∃ kept, kept ≠ [] ∧
      replaceAllFrom autorestForm 0 before (d ++ b) = kept ++ removeAutorestUsing (d ++ b) := by
  have hgone : removeAutorestUsing (d ++ b) = dropped (some ';') b :=
    replaceAllFrom_directive rfl hd b
  obtain ⟨s, t, u, hs, ht, hne, hu, hwhole⟩ : ∃ s t u,
      AreBlank s ∧ AreBlank t ∧ t ≠ [] ∧ AreBlank u ∧
        d = s ++ ("using".toList ++ (t ++ ("Autorest.CSharp.Core".toList ++ (u ++ [';'])))) := by
    obtain @⟨s, t, u, hs, ht, hne, hu⟩ := hd
    exact ⟨s, t, u, hs, ht, hne, hu, rfl⟩
  rw [hgone]
  by_cases hfeed : '\n' ∈ s
  · -- the directive begins again in the line behind the first line feed
    obtain ⟨s₁, s₂, rfl, hs₁⟩ := List.eq_append_cons_of_mem hfeed
    have hrest := IsDirective.intro (s := s₂) (fun c hc => hs c (by simp [hc])) ht hne hu
    refine ⟨s₁ ++ ['\n'], by simp, ?_⟩
    have hlast : atLineStart (some '\n') = true := rfl
    rw [← replaceAllFrom_directive hlast hrest b, hwhole]
    have hline := replaceAllFrom_append (misses_line hbefore hs₁ (s₂ ++
      ("using".toList ++ (t ++ ("Autorest.CSharp.Core".toList ++ (u ++ [';'])))) ++ b))
    rw [lastOr_append] at hline
    simpa using hline
  · have hlast : lastOr before d = some ';' := by
      obtain ⟨e, rfl, -⟩ := hd.semicolon
      simp [lastOr]
    have hkept := replaceAllFrom_append (misses_directive hbefore hfeed hwhole hd hb)
    rw [lastOr_append, hlast, List.append_assoc, List.takeWhile_append_dropWhile] at hkept
    exact ⟨d ++ b.takeWhile isBlank, by simp [hd.ne_nil], hkept⟩

/-! ### All edits -/

namespace CodeEdit

/-- Which edits do to a text behind the mark what they do to the text: the renamings always; the new
directive is put into it exactly unless its place is behind a directive with which the text begins; the
old one is removed from it if the text does not begin with that, and else, if no other one follows,
something of the text stays. -/
theorem apply_marked (text : List Char) :
    (∀ e ∈ renamings, e.apply (byteOrderMark :: text) = byteOrderMark :: e.apply text) ∧
      (addNamespace.apply (byteOrderMark :: text) = byteOrderMark :: addNamespace.apply text ↔
        ¬ImportsAtStart text) ∧
      (¬BeginsDirective text →
        removeUsing.apply (byteOrderMark :: text) = byteOrderMark :: removeUsing.apply text) ∧
      ∀ d b, text = d ++ b → IsDirective d → ¬BeginsDirective b →
        ∃ kept, kept ≠ [] ∧
          removeUsing.apply (byteOrderMark :: text) =
            byteOrderMark :: (kept ++ removeUsing.apply text) := by
  refine ⟨fun e he => ?_, importCustomizations_marked_iff text, fun hno => ?_, ?_⟩
  · rw [apply_renaming e he, apply_renaming e he, renameWords_mark e.isRenaming_names
      isWordChar_byteOrderMark]
  · exact (removeAutorestUsing_marked text).trans (congrArg _ (replaceAllFrom_autorest hno))
  · rintro d b rfl hd hb
    have hstart : atLineStart (some byteOrderMark) = false := rfl
    obtain ⟨kept, hne, hkept⟩ := exists_kept hstart hd hb
    exact ⟨kept, hne, (removeAutorestUsing_marked (d ++ b)).trans (congrArg _ hkept)⟩

/-- Behind the mark a directive at the front is not found. -/
theorem apply_marked_ne :
    addNamespace.apply (byteOrderMark :: "using Azure.Core;\n".toList) ≠
        byteOrderMark :: addNamespace.apply "using Azure.Core;\n".toList ∧
      removeUsing.apply (byteOrderMark :: "using Autorest.CSharp.Core;\n".toList) ≠
        byteOrderMark :: removeUsing.apply "using Autorest.CSharp.Core;\n".toList := by
  decide +kernel

end CodeEdit

end BuildMend.Migration
