import BuildMend.Proofs.Text.Lines
import BuildMend.Proofs.Text.Trim
import BuildMend.Text.Field

/-!
Where keys with values stand in a text.

* `IsSolid`: some characters without a blank, which a value up to the next blank is made of.
* `wordValue?_eq_some_iff`, `exists_of_lineValue?`: what is read as a value, and what stands around it.
* `keyed`, `IsKey`: the form of a key, and the keys whose first place is the first one with a value.
* `Precedes`: a text in which a key begins nowhere, even with the key behind it.
* `IsKey.first?_eq_some_iff`, `IsKey.first?_eq_none_iff`: where the first value of a key stands, and when
  there is none.
-/

namespace BuildMend.Text

/-! ### Values -/

/-- Some characters, none of which is a blank. -/
def IsSolid (s : List Char) : Prop := s ≠ [] ∧ ∀ c ∈ s, isBlank c = false

instance (s : List Char) : Decidable (IsSolid s) :=
  @instDecidableAnd _ _ inferInstance (List.decidableBAll (fun c => isBlank c = false) s)

/-- A text is over, or goes on with a blank. -/
def EndsWord (rest : List Char) : Prop := ∀ c ∈ rest.head?, isBlank c = true

variable {gap rest s v : List Char} {n : Nat}

/-- A text is a gap of blanks and what stands behind it. -/
lemma exists_gap (s : List Char) :
    ∃ gap rest, s = gap ++ rest ∧ (∀ c ∈ gap, isBlank c = true) ∧
      ∀ c ∈ rest.head?, isBlank c = false := by
  refine ⟨s.takeWhile isBlank, s.dropWhile isBlank, List.takeWhile_append_dropWhile.symm,
    List.all_eq_true.mp List.all_takeWhile, head?_dropWhile⟩

/-- The value up to the next blank is read behind a gap of blanks. -/
lemma wordValue?_gap (hgap : ∀ c ∈ gap, isBlank c = true) (hv : IsSolid v)
    (hrest : EndsWord rest) : wordValue? (gap ++ (v ++ rest)) = some (v, gap.length + v.length) := by
  obtain ⟨c, w, rfl⟩ := List.exists_cons_of_ne_nil hv.1
  have hhead : ∀ d ∈ (c :: w ++ rest).head?, isBlank d = false := by
    simpa using hv.2 c (by simp)
  have hvalue : (c :: w ++ rest).takeWhile (!isBlank ·) = c :: w :=
    takeWhile_append (fun d hd => by rw [hv.2 d hd]; rfl) fun d hd => by rw [hrest d hd]; rfl
  rw [wordValue?, takeWhile_append hgap hhead, dropWhile_append hgap hhead, hvalue]

/-- The value up to the next blank stands behind a gap of blanks. -/
theorem wordValue?_eq_some_iff :
    wordValue? s = some (v, n) ↔
      ∃ gap rest, s = gap ++ (v ++ rest) ∧ (∀ c ∈ gap, isBlank c = true) ∧ IsSolid v ∧
        EndsWord rest ∧ n = gap.length + v.length := by
  constructor
  · intro h
    obtain ⟨gap, text, rfl, hgap, hhead⟩ := exists_gap s
    rw [wordValue?, takeWhile_append hgap hhead, dropWhile_append hgap hhead] at h
    split at h
    · cases h
    · rename_i hne
      obtain ⟨rfl, rfl⟩ := Prod.mk.inj (Option.some.inj h)
      refine ⟨gap, text.dropWhile (!isBlank ·), ?_, hgap, ⟨hne, fun c hc => ?_⟩, fun c hc => ?_, rfl⟩
      · rw [List.takeWhile_append_dropWhile]
      · simpa using List.all_eq_true.mp List.all_takeWhile c hc
      · simpa using head?_dropWhile c hc
  · rintro ⟨gap, rest, rfl, hgap, hv, hrest, rfl⟩
    exact wordValue?_gap hgap hv hrest

/-- Some value stands wherever not all is blank. -/
lemma wordValue?_eq_none_iff : wordValue? s = none ↔ ∀ c ∈ s, isBlank c = true := by
  obtain ⟨gap, text, rfl, hgap, hhead⟩ := exists_gap s
  rw [wordValue?, takeWhile_append hgap hhead, dropWhile_append hgap hhead]
  cases text with
  | nil => simpa using hgap
  | cons c text =>
    have hc : isBlank c = false := hhead c rfl
    rw [List.takeWhile_cons_of_pos (by rw [hc]; rfl)]
    simp only [reduceCtorEq, false_iff, not_forall]
    exact ⟨c, by simp, by simp [hc]⟩

/-- The value up to the end of a line is read behind a gap of blanks. -/
lemma lineValue?_gap (hgap : ∀ c ∈ gap, isBlank c = true) (hne : v ≠ [])
    (hhead : ∀ c ∈ v.head?, isBlank c = false) (hline : '\n' ∉ v) (hrest : EndsLine rest) :
    lineValue? (gap ++ (v ++ rest)) = some (v, gap.length + v.length) := by
  obtain ⟨c, w, rfl⟩ := List.exists_cons_of_ne_nil hne
  have hvalue : (c :: w ++ rest).takeWhile (· != '\n') = c :: w :=
    takeWhile_append (fun d hd => bne_iff_ne.mpr fun h => hline (h ▸ hd))
      fun d hd => by simpa using hrest d hd
  have hhead : ∀ d ∈ (c :: w ++ rest).head?, isBlank d = false := hhead
  rw [lineValue?, takeWhile_append hgap hhead, dropWhile_append hgap hhead]
  simp only [List.cons_append] at hvalue ⊢
  rw [hvalue]

/-- Some value stands wherever not all is blank. -/
lemma lineValue?_isSome (h : ∃ c ∈ s, isBlank c = false) : (lineValue? s).isSome = true := by
  rw [lineValue?]
  cases hrest : s.dropWhile isBlank with
  | nil =>
    obtain ⟨c, hc, hblank⟩ := h
    rw [List.dropWhile_eq_nil_iff.mp hrest c hc] at hblank
    cases hblank
  | cons c rest => rfl

/-- What stands behind a key as its value up to the end of a line: a text that begins behind a gap of
blanks, or the last blank of a text of blanks that is no line feed. -/
theorem exists_of_lineValue? (h : lineValue? s = some (v, n)) :
    ∃ gap rest, s = gap ++ (v ++ rest) ∧ n = gap.length + v.length ∧ v ≠ [] ∧ '\n' ∉ v ∧
      EndsLine rest ∧
      ((∀ c ∈ gap, isBlank c = true) ∧ (∀ c ∈ v.head?, isBlank c = false) ∨
        (∀ c ∈ s, isBlank c = true) ∧ ∀ c ∈ rest, c = '\n') := by
  obtain ⟨gap, text, rfl, hgap, hhead⟩ := exists_gap s
  rw [lineValue?, takeWhile_append hgap hhead, dropWhile_append hgap hhead] at h
  cases text with
  | nil =>
    obtain ⟨c, hc, hv⟩ := Option.map_eq_some_iff.mp h
    obtain ⟨rfl, rfl⟩ := Prod.mk.inj hv
    obtain ⟨feeds, hfeeds, hsplit⟩ := exists_eq_dropWhileEnd (· == '\n') gap
    have hne : c ≠ '\n' := by simpa using getLast_dropWhileEnd c hc
    obtain ⟨kept, hkept⟩ := List.getLast?_eq_some_iff.mp hc
    rw [hkept] at hsplit ⊢
    refine ⟨kept, feeds, by simp [hsplit], by simp, by simp, by simpa using hne.symm,
      fun d hd => ?_, Or.inr ⟨by simpa using hgap, fun d hd => by simpa using hfeeds d hd⟩⟩
    simpa using hfeeds d (List.mem_of_mem_head? hd)
  | cons c text =>
    obtain ⟨rfl, rfl⟩ := Prod.mk.inj (Option.some.inj h)
    have hc : isBlank c = false := hhead c rfl
    have hfeed : c ≠ '\n' := by
      rintro rfl
      cases hc
    have hvalue : (c :: text).takeWhile (· != '\n') = c :: text.takeWhile (· != '\n') :=
      List.takeWhile_cons_of_pos (by simpa using hfeed)
    refine ⟨gap, (c :: text).dropWhile (· != '\n'), ?_, rfl, by simp [hvalue], fun hmem => ?_,
      fun d hd => ?_, Or.inl ⟨hgap, by simpa [hvalue] using hc⟩⟩
    · rw [List.takeWhile_append_dropWhile]
    · simpa using List.all_eq_true.mp List.all_takeWhile _ hmem
    · simpa using head?_dropWhile d hd

/-! ### Keys -/

section Keys

variable {read? : List Char → Option (List Char × Nat)} {key : String}

/-- A key, anywhere in a text, with a value that is read behind it: `keyedWord` and `keyedLine` with any
reading. -/
def keyed (read? : List Char → Option (List Char × Nat)) (key : String) : Form (List Char) :=
  fun _ text => do
    let rest ← afterLiteral? key.toList text
    let (value, length) ← read? rest
    return (value, key.length + length)

/-- A key, and the reading of the values behind it: a key ends in no blank, and some value is read
wherever not all is blank. -/
structure IsKey (read? : List Char → Option (List Char × Nat)) (key : String) : Prop where
  last : ∃ c ∈ key.toList.getLast?, isBlank c = false
  reads : ∀ s, (∃ c ∈ s, isBlank c = false) → (read? s).isSome = true

/-- A text in which a key begins nowhere when the key stands behind it. -/
def Precedes (key : String) (a : List Char) : Prop :=
  ∀ a' c, a = a' ++ c → c ≠ [] → ¬key.toList <+: c ++ key.toList

/-- The line behind a text without a key: the key does not begin before it. -/
lemma precedes_line {a : List Char} (hkey : '\n' ∉ key.toList)
    (ha : ¬containsText key.toList a = true) : Precedes key (a ++ ['\n']) := by
  rintro a' c hac hc ⟨r, hr⟩
  have hlast := congrArg List.getLast? hac
  rw [List.getLast?_concat, List.getLast?_append_of_ne_nil _ hc] at hlast
  obtain ⟨x, rfl⟩ := List.getLast?_eq_some_iff.mp hlast.symm
  rw [← List.append_assoc] at hac
  obtain rfl := List.append_cancel_right hac
  rw [List.append_assoc, List.singleton_append, List.append_eq_append_iff] at hr
  rcases hr with ⟨y, rfl, -⟩ | ⟨y, hy, hfeed⟩
  · exact ha (containsText_iff.mpr ⟨a', y, by simp⟩)
  · cases y with
    | nil => exact ha (containsText_iff.mpr ⟨a', [], by simp [hy]⟩)
    | cons e y =>
      obtain ⟨rfl, -⟩ := List.cons.inj hfeed
      exact hkey (by simp [hy])

lemma keyed_eq_some_iff {before : Option Char} {b v : List Char} {n : Nat} :
    keyed read? key before b = some (v, n) ↔
      ∃ s k, b = key.toList ++ s ∧ read? s = some (v, k) ∧ n = key.length + k := by
  simp only [keyed, Option.bind_eq_bind, Option.bind_eq_some_iff, afterLiteral?_eq_some_iff,
    Option.pure_def, Option.some.injEq, Prod.mk.injEq, Prod.exists]
  constructor
  · rintro ⟨s, hb, w, k, hread, rfl, rfl⟩
    exact ⟨s, k, hb, hread, rfl⟩
  · rintro ⟨s, k, hb, hread, rfl⟩
    exact ⟨s, hb, v, k, hread, rfl, rfl⟩

lemma standsAt_keyed {before : Option Char} {a b v : List Char} {n : Nat} (hkey : key ≠ "") :
    (keyed read? key).StandsAt before a b v n ↔
      ∃ s k, b = key.toList ++ s ∧ read? s = some (v, k) ∧ n = key.length + k := by
  rw [Form.StandsAt, keyed_eq_some_iff]
  refine ⟨fun h => h.1, fun h => ⟨h, ?_⟩⟩
  obtain ⟨s, k, rfl, -, rfl⟩ := h
  have hne : key.toList ≠ [] := by simpa using hkey
  have hpos : 0 < key.length := List.length_pos_iff.mpr hne
  exact ⟨by simp [hne], by omega⟩

/-- Another text takes the place of a key and its value. -/
lemma spliceFirst_keyed {a value rest : List Char} {o : Occurrence (List Char)}
    (hfirst : (keyed read? key).first? (a ++ (key.toList ++ (value ++ rest))) = some o)
    (hstart : o.start = a.length) (hlength : o.length = key.length + value.length)
    (new : List Char) :
    spliceFirst (keyed read? key) new (a ++ (key.toList ++ (value ++ rest))) =
      a ++ (new ++ rest) := by
  have ho : o = ⟨a.length, (key.toList ++ value).length, o.value⟩ := by
    rw [List.length_append, String.length_toList, ← hstart, ← hlength]
  rw [← List.append_assoc key.toList, ho] at hfirst
  rw [← List.append_assoc key.toList]
  exact spliceFirst_of_first? hfirst new

namespace IsKey

lemma ne (h : IsKey read? key) : key ≠ "" := by
  rintro rfl
  obtain ⟨c, hc, -⟩ := h.last
  simp at hc

/-- Whatever stands before a key: another place of the key before it has a value too. -/
lemma misses_iff (h : IsKey read? key) {a s : List Char} :
    (keyed read? key).Misses none a (key.toList ++ s) ↔ Precedes key a := by
  constructor
  · rintro hmiss a' c ha hc ⟨r, hr⟩
    -- what stands behind the earlier place ends as the key does
    obtain ⟨d, hd, hsolid⟩ := h.last
    have hmem : d ∈ r := by
      have hlast := congrArg List.getLast? hr
      have hr' : r ≠ [] := by
        rintro rfl
        have hlength := congrArg List.length hr
        simp only [List.append_nil, List.length_append] at hlength
        exact hc (List.eq_nil_of_length_eq_zero (by omega))
      have hkey : key.toList ≠ [] := by simpa using h.ne
      rw [List.getLast?_append_of_ne_nil _ hr', List.getLast?_append_of_ne_nil _ hkey] at hlast
      exact List.mem_of_getLast? (hlast.trans hd)
    obtain ⟨⟨v, n⟩, hread⟩ := Option.isSome_iff_exists.mp (h.reads (r ++ s) ⟨d, by simp [hmem], hsolid⟩)
    refine hmiss a' c v _ ha hc ((standsAt_keyed h.ne).mpr ⟨r ++ s, n, ?_, hread, rfl⟩)
    rw [← List.append_assoc, ← hr, List.append_assoc]
  · intro hpre a' c v n ha hc hstands
    obtain ⟨r, k, hr, -, -⟩ := (standsAt_keyed h.ne).mp hstands
    refine hpre a' c ha hc (List.prefix_of_prefix_length_le ⟨r, hr.symm⟩ ⟨s, by simp⟩ (by simp))

/-- The first place with a value is the first place of the key. -/
theorem first?_eq_some_iff (h : IsKey read? key) {text : List Char} {o : Occurrence (List Char)} :
    (keyed read? key).first? text = some o ↔
      ∃ a s k, text = a ++ (key.toList ++ s) ∧ Precedes key a ∧ read? s = some (o.value, k) ∧
        o.start = a.length ∧ o.length = key.length + k := by
  rw [Form.first?_eq_some_iff]
  constructor
  · rintro ⟨a, b, rfl, hstart, hstands, hmiss⟩
    obtain ⟨s, k, rfl, hread, hlen⟩ := (standsAt_keyed h.ne).mp hstands
    exact ⟨a, s, k, rfl, h.misses_iff.mp hmiss, hread, hstart, hlen⟩
  · rintro ⟨a, s, k, rfl, hpre, hread, hstart, hlen⟩
    exact ⟨a, _, rfl, hstart, (standsAt_keyed h.ne).mpr ⟨s, k, rfl, hread, hlen⟩,
      h.misses_iff.mpr hpre⟩

/-- The value behind a key that begins nowhere before is the first one. -/
lemma first?_of_precedes (h : IsKey read? key) {a s v : List Char} {k : Nat}
    (ha : Precedes key a) (hs : read? s = some (v, k)) :
    (keyed read? key).first? (a ++ (key.toList ++ s)) = some ⟨a.length, key.length + k, v⟩ :=
  h.first?_eq_some_iff.mpr ⟨a, s, k, rfl, ha, hs, rfl, rfl⟩

/-- A key whose places all lack a value has no other place before any of them. -/
lemma precedes_of_first? (h : IsKey read? key) {a s : List Char}
    (hnone : (keyed read? key).first? (a ++ (key.toList ++ s)) = none) : Precedes key a := by
  refine (h.misses_iff (s := s)).mp fun a' c v n ha hc hstands => ?_
  rw [Form.first?, Form.firstFrom?_eq_none_iff] at hnone
  exact hnone a' _ v n (by rw [ha, List.append_assoc]) hstands

/-- A key has no value exactly where none is read behind it. -/
theorem first?_eq_none_iff (h : IsKey read? key) {text : List Char} :
    (keyed read? key).first? text = none ↔
      ∀ a s, text = a ++ (key.toList ++ s) → read? s = none := by
  rw [Form.first?, Form.firstFrom?_eq_none_iff]
  constructor
  · intro hnone a s htext
    by_contra hread
    obtain ⟨⟨v, k⟩, hread⟩ := Option.ne_none_iff_exists'.mp hread
    exact hnone a _ v _ htext ((standsAt_keyed h.ne).mpr ⟨s, k, rfl, hread, rfl⟩)
  · intro hnone a b v n htext hstands
    obtain ⟨s, k, rfl, hread, -⟩ := (standsAt_keyed h.ne).mp hstands
    rw [hnone a s htext] at hread
    cases hread

end IsKey

lemma isKey_word (h : ∃ c ∈ key.toList.getLast?, isBlank c = false) : IsKey wordValue? key where
  last := h
  reads s := by
    rintro ⟨c, hc, hsolid⟩
    rw [Option.isSome_iff_ne_none]
    intro hnone
    rw [wordValue?_eq_none_iff.mp hnone c hc] at hsolid
    cases hsolid

end Keys

end BuildMend.Text
