import BuildMend.Proofs.Text.Trim
import BuildMend.Text.Url

/-!
The path of an address, whatever stands behind it.

* `IsPlain`, `IsRoute`: texts of letters, digits, hyphens, underscores and dots, which mean nothing in an
  address, and of such names between slashes.
* `IsScheme`, `address`: an address is a scheme, a plain host behind two slashes, and a rest.
* `splitScheme_append`, `splitScheme_slash`: a scheme ends at the first colon, and a text with a slash
  before its first colon has none.
* `EndsHost`, `EndsName`: what a host, or a name of a path, is over at.
* `resource`: the path within what stands behind a host.
* `path_address`, `path_relative`: the path of an address, and that of a text that begins with a plain name.
* `exists_resource_route`: a route before a slash, a query or a fragment is kept, whatever these hold.
-/

namespace BuildMend.Text

variable {a b s : List Char} {P : Char → Prop} {p : Char → Bool}

/-- A text begins as before when units of another kind are left out. -/
lemma forall_head?_filter (hp : ∀ c, P c → p c = true) (hs : ∀ c ∈ s.head?, P c) :
    ∀ c ∈ (s.filter p).head?, P c := by
  cases s with
  | nil => simp
  | cons d s =>
    rw [List.filter_cons_of_pos (hp d (hs d rfl))]
    exact hs

/-- If a text is cut at a mark, a beginning without marks is kept. -/
lemma exists_front_of_cut {kept rest : List Char} (hcut : a ++ b = kept ++ rest)
    (hrest : ∀ c ∈ rest.head?, P c) (ha : ∀ c ∈ a, ¬P c) : ∃ b', b' <+: b ∧ kept = a ++ b' := by
  obtain ⟨b', hkept, hb⟩ | ⟨cut, hsplit, hcut⟩ := List.append_eq_append_iff.mp hcut
  · exact ⟨b', ⟨rest, hb.symm⟩, hkept⟩
  · cases cut with
    | nil => exact ⟨[], List.nil_prefix, by simpa using hsplit.symm⟩
    | cons c cut =>
      refine absurd (hrest c ?_) (ha c ?_)
      · rw [hcut]
        rfl
      · rw [hsplit]
        simp

namespace Url

variable {scheme host rest : List Char}

/-! ### Plain characters -/

/-- The letters and digits of ASCII, hyphens, underscores and dots. -/
def isPlain (c : Char) : Bool := c.isAlphanum || c == '-' || c == '_' || c == '.'

/-- A text of plain characters. -/
def IsPlain (s : List Char) : Prop := ∀ c ∈ s, isPlain c = true

instance (s : List Char) : Decidable (IsPlain s) :=
  decidable_of_iff (s.all isPlain = true) List.all_eq_true

lemma isPlain_range {c : Char} (h : isPlain c = true) : 45 ≤ c.toNat ∧ c.toNat ≤ 122 := by
  simp only [isPlain, Char.isAlphanum, Char.isAlpha, Char.isUpper, Char.isLower, Char.isDigit,
    Bool.or_eq_true, Bool.and_eq_true, decide_eq_true_eq, beq_iff_eq, ge_iff_le,
    UInt32.le_iff_toNat_le] at h
  change (((((65 ≤ c.toNat ∧ c.toNat ≤ 90) ∨ (97 ≤ c.toNat ∧ c.toNat ≤ 122)) ∨
    (48 ≤ c.toNat ∧ c.toNat ≤ 57)) ∨ c = '-') ∨ c = '_') ∨ c = '.' at h
  obtain (((hletter | hdigit) | rfl) | rfl) | rfl := h
  · omega
  · omega
  all_goals decide

lemma visible_of_isPlain {c : Char} (h : isPlain c = true) : 32 < c.toNat := by
  have hrange := isPlain_range h
  omega

lemma isBlank_of_isPlain {c : Char} (h : isPlain c = true) : isBlank c = false := by
  have hrange := isPlain_range h
  simp only [isBlank, Bool.or_eq_false_iff, Bool.and_eq_false_iff, decide_eq_false_iff_not,
    beq_eq_false_iff_ne]
  omega

lemma ne_of_isPlain {c mark : Char} (h : isPlain c = true) (hmark : isPlain mark = false) : c ≠ mark := by
  rintro rfl
  rw [h] at hmark
  cases hmark

/-- A mark that is not plain is missing in a plain text. -/
lemma IsPlain.not_mem (hs : IsPlain s) {mark : Char} (hmark : isPlain mark = false) : mark ∉ s :=
  fun hmem => ne_of_isPlain (hs mark hmem) hmark rfl

/-- A text of plain names and slashes. -/
def IsRoute (s : List Char) : Prop := ∀ c ∈ s, isPlain c = true ∨ c = '/'

lemma IsPlain.isRoute (hs : IsPlain s) : IsRoute s := fun c hc => .inl (hs c hc)

lemma IsRoute.append (ha : IsRoute a) (hb : IsRoute b) : IsRoute (a ++ b) :=
  List.forall_mem_append.mpr ⟨ha, hb⟩

lemma IsRoute.cons_slash (hs : IsRoute s) : IsRoute ('/' :: s) := List.forall_mem_cons.mpr ⟨.inr rfl, hs⟩

lemma IsRoute.forall (hs : IsRoute s) (hplain : ∀ {c}, isPlain c = true → P c) (hslash : P '/') :
    ∀ c ∈ s, P c := by
  intro c hc
  obtain hc | rfl := hs c hc
  · exact hplain hc
  · exact hslash

lemma IsRoute.visible (hs : IsRoute s) : ∀ c ∈ s, 32 < c.toNat :=
  hs.forall visible_of_isPlain (by decide)

lemma IsRoute.not_blank (hs : IsRoute s) : ∀ c ∈ s, isBlank c = false :=
  hs.forall isBlank_of_isPlain (by decide)

lemma IsRoute.no_marks (hs : IsRoute s) : ∀ c ∈ s, c ≠ '#' ∧ c ≠ '?' ∧ c ≠ ';' :=
  hs.forall (fun hc => ⟨ne_of_isPlain hc (by decide), ne_of_isPlain hc (by decide),
    ne_of_isPlain hc (by decide)⟩) (by decide)

/-! ### Cleaning -/

/-- Whether a character stays when tabs and line breaks are left out. -/
def isKept (c : Char) : Bool := c != '\t' && c != '\r' && c != '\n'

lemma filter_isKept (hs : ∀ c ∈ s, 32 < c.toNat) : s.filter isKept = s := by
  rw [List.filter_eq_self]
  intro c hc
  have hvisible := hs c hc
  simp only [isKept, Bool.and_eq_true, bne_iff_ne]
  refine ⟨⟨?_, ?_⟩, ?_⟩ <;> rintro rfl <;> revert hvisible <;> decide

/-- A visible beginning is kept, and what stands behind it loses tabs and line breaks only. -/
lemma cleaned_append (hne : a ≠ []) (ha : ∀ c ∈ a, 32 < c.toNat) (b : List Char) :
    cleaned (a ++ b) = a ++ b.filter isKept := by
  have hfront : ((a ++ b).dropWhile fun c => decide (c.toNat ≤ 32)) = a ++ b := by
    refine dropWhile_eq_self fun c hc => ?_
    rw [List.head?_append_of_ne_nil _ hne] at hc
    simpa using ha c (List.mem_of_mem_head? hc)
  calc cleaned (a ++ b)
      = (a ++ b).filter isKept := by
        rw [cleaned, hfront]
        rfl
    _ = a ++ b.filter isKept := by rw [List.filter_append, filter_isKept ha]

/-! ### Schemes -/

/-- A scheme begins with a letter and has letters, digits, plus signs, hyphens and dots. -/
structure IsScheme (scheme : List Char) : Prop where
  first : scheme.head?.any Char.isAlpha = true
  all : scheme.all isSchemeChar = true

/-- The characters of a scheme are visible. -/
lemma IsScheme.visible (hscheme : IsScheme scheme) : ∀ c ∈ scheme, 32 < c.toNat := by
  intro c hc
  have hchar := List.all_eq_true.mp hscheme.all c hc
  by_cases hplus : c = '+'
  · rw [hplus]
    decide
  · have hplain : isPlain c = true := by
      simp only [isSchemeChar, isPlain, Bool.or_eq_true, beq_iff_eq, hplus, or_false] at hchar ⊢
      tauto
    exact visible_of_isPlain hplain

/-- A scheme ends at its colon. -/
theorem splitScheme_append (hscheme : IsScheme scheme) (rest : List Char) :
    splitScheme (scheme ++ ':' :: rest) = (scheme.map Char.toLower, rest) := by
  have hcolon : ∀ c ∈ scheme, (c != ':') = true := by
    intro c hc
    rw [bne_iff_ne]
    rintro rfl
    exact absurd (List.all_eq_true.mp hscheme.all _ hc) (by decide)
  have htake : (scheme ++ ':' :: rest).takeWhile (· != ':') = scheme :=
    takeWhile_append hcolon (by simp)
  have hdrop : (scheme ++ ':' :: rest).dropWhile (· != ':') = ':' :: rest :=
    dropWhile_append hcolon (by simp)
  simp only [splitScheme, htake, hdrop, hscheme.first, hscheme.all, Bool.and_self, if_true]

/-- With a slash before the first colon there is no scheme. -/
theorem splitScheme_slash (ha : ':' ∉ a) (b : List Char) :
    splitScheme (a ++ '/' :: b) = ([], a ++ '/' :: b) := by
  have hcolon : ∀ c ∈ a, (c != ':') = true := by
    intro c hc
    rw [bne_iff_ne]
    rintro rfl
    exact ha hc
  have hslash : ((a ++ '/' :: b).takeWhile (· != ':')).all isSchemeChar = false := by
    rw [List.takeWhile_append_of_pos hcolon, List.takeWhile_cons_of_pos (by decide), List.all_append,
      List.all_cons]
    simp [isSchemeChar]
  simp only [splitScheme, hslash, Bool.and_false, Bool.false_eq_true, if_false]
  split <;> rfl

/-! ### Hosts -/

/-- A host is over where the text is, or at a slash, a query or a fragment. -/
def EndsHost (rest : List Char) : Prop := ∀ c ∈ rest.head?, endsHost c = true

/-- A name of a path is over where the text is, or at a slash. -/
def EndsName (rest : List Char) : Prop := ∀ c ∈ rest.head?, c = '/'

lemma EndsName.endsHost (h : EndsName rest) : EndsHost rest := by
  intro c hc
  rw [h c hc]
  decide

lemma endsHost_slash (rest : List Char) : EndsHost ('/' :: rest) := by simp [EndsHost, Url.endsHost]

/-- A host goes up to what ends it. -/
lemma splitHost_append (hhost : IsPlain host) (hrest : EndsHost rest) :
    splitHost ('/' :: '/' :: (host ++ rest)) = (some host, rest) := by
  have hinside : ∀ c ∈ host, (!endsHost c) = true := by
    intro c hc
    have hslash : c ≠ '/' := ne_of_isPlain (hhost c hc) (by decide)
    have hquery : c ≠ '?' := ne_of_isPlain (hhost c hc) (by decide)
    have hfragment : c ≠ '#' := ne_of_isPlain (hhost c hc) (by decide)
    simp [endsHost, hslash, hquery, hfragment]
  have houtside : ∀ c ∈ rest.head?, (!endsHost c) = false := fun c hc => by rw [hrest c hc]; rfl
  rw [splitHost, takeWhile_append hinside houtside, dropWhile_append hinside houtside]

/-- What ends a host still ends it without tabs and line breaks. -/
lemma EndsHost.filter_isKept (h : EndsHost rest) : EndsHost (rest.filter isKept) := by
  refine forall_head?_filter (fun c hc => ?_) h
  simp only [endsHost, Bool.or_eq_true, beq_iff_eq] at hc
  obtain (rfl | rfl) | rfl := hc <;> decide

/-- Without a slash in front there is no host. -/
lemma splitHost_of_head (hs : ∀ c ∈ s.head?, c ≠ '/') : splitHost s = (none, s) := by
  unfold splitHost
  split
  · exact absurd rfl (hs '/' rfl)
  · rfl

lemma checkHost_of_isPlain (hhost : IsPlain host) : checkHost host = .ok () := by
  have hopen : host.contains '[' = false := by simpa using hhost.not_mem (by decide)
  have hclose : host.contains ']' = false := by simpa using hhost.not_mem (by decide)
  rw [checkHost, hopen, hclose]
  rfl

lemma checkDisguises_of_isPlain (hhost : IsPlain host) : checkDisguises host = .ok () := by
  have hnone : (host.any fun c => disguises.contains c.toNat) = false := by
    rw [List.any_eq_false]
    intro c hc
    have hrange := isPlain_range (hhost c hc)
    have hmarks : ∀ n ∈ disguises, 122 < n := by decide
    intro hmem
    have hmark := hmarks c.toNat (by simpa using hmem)
    omega
  rw [checkDisguises, hnone]
  rfl

/-! ### Paths -/

/-- The text up to a fragment or a query. -/
def beforeQuery (s : List Char) : List Char := (s.takeWhile (· != '#')).takeWhile (· != '?')

lemma beforeQuery_append (ha : ∀ c ∈ a, c ≠ '#' ∧ c ≠ '?') (b : List Char) :
    beforeQuery (a ++ b) = a ++ beforeQuery b := by
  rw [beforeQuery, List.takeWhile_append_of_pos fun c hc => by simpa using (ha c hc).1,
    List.takeWhile_append_of_pos fun c hc => by simpa using (ha c hc).2, beforeQuery]

lemma beforeQuery_front (s : List Char) : beforeQuery s <+: s :=
  (List.takeWhile_prefix _).trans (List.takeWhile_prefix _)

lemma ne_of_mem_beforeQuery {c : Char} (h : c ∈ beforeQuery s) : c ≠ '#' ∧ c ≠ '?' := by
  have hfragment : c ∈ s.takeWhile (· != '#') := List.IsPrefix.mem h (List.takeWhile_prefix _)
  exact ⟨by simpa using List.mem_takeWhile_imp hfragment, by simpa using List.mem_takeWhile_imp h⟩

/-- The path within what stands behind a host: no fragment, no query and, if the scheme has them, no
parameters. -/
def resource (scheme rest : List Char) : List Char :=
  if parameterSchemes.contains (String.ofList scheme) then withoutParameters (beforeQuery rest)
  else beforeQuery rest

lemma path_of_split {host? : Option (List Char)} {whole : List Char}
    (hscheme : splitScheme (cleaned s) = (scheme, whole)) (hhost : splitHost whole = (host?, rest))
    (hplain : IsPlain (host?.getD [])) : path s = .ok (resource scheme rest) := by
  simp only [path, hscheme, hhost, checkHost_of_isPlain hplain, checkDisguises_of_isPlain hplain, resource,
    beforeQuery]
  split <;> rfl

/-- The address of what stands on a host. -/
def address (scheme host rest : List Char) : List Char := scheme ++ ':' :: '/' :: '/' :: (host ++ rest)

lemma address_append (scheme host a b : List Char) :
    address scheme host (a ++ b) = address scheme host a ++ b := by
  simp [address]

lemma address_ne_nil : address scheme host rest ≠ [] := by simp [address]

/-- The path of an address on a plain host is the one within what stands behind the host. -/
theorem path_address (hscheme : IsScheme scheme) (hhost : IsPlain host) (hrest : EndsHost rest) :
    path (address scheme host rest) =
      .ok (resource (scheme.map Char.toLower) (rest.filter isKept)) := by
  have hsplit (rest : List Char) : address scheme host rest = address scheme host [] ++ rest :=
    address_append scheme host [] rest
  have hvisible : ∀ c ∈ address scheme host [], 32 < c.toNat := by
    simp only [address, List.append_nil, List.forall_mem_append, List.forall_mem_cons]
    exact ⟨hscheme.visible, by decide, by decide, by decide, hhost.isRoute.visible⟩
  refine path_of_split ?_ (splitHost_append hhost hrest.filter_isKept) hhost
  rw [hsplit, cleaned_append address_ne_nil hvisible, ← hsplit, address, splitScheme_append hscheme]

/-- A text that begins with a plain name and a slash is all path. -/
theorem path_relative (hne : a ≠ []) (ha : IsPlain a) (b : List Char) :
    path (a ++ '/' :: b) = .ok (resource [] ((a ++ '/' :: b).filter isKept)) := by
  have hkept : (a ++ '/' :: b).filter isKept = a ++ '/' :: b.filter isKept := by
    rw [List.filter_append, filter_isKept ha.isRoute.visible, List.filter_cons_of_pos (by decide)]
  have hslash : ∀ c ∈ (a ++ '/' :: b.filter isKept).head?, c ≠ '/' := by
    rw [List.head?_append_of_ne_nil _ hne]
    exact fun c hc => ne_of_isPlain (ha c (List.mem_of_mem_head? hc)) (by decide)
  rw [hkept]
  refine path_of_split ?_ (splitHost_of_head hslash) (by simp [IsPlain])
  rw [cleaned_append hne ha.isRoute.visible, List.filter_cons_of_pos (by decide),
    splitScheme_slash (ha.not_mem (by decide))]

/-! ### What is kept of a path -/

lemma exists_withoutParameters (ha : ∀ c ∈ a, c ≠ ';') (b : List Char) :
    ∃ b', b' <+: b ∧ withoutParameters (a ++ b) = a ++ b' := by
  have hcut : a ++ b =
      withoutParameters (a ++ b) ++ (splitLastSlash (a ++ b)).2.dropWhile (· != ';') := by
    rw [withoutParameters, List.append_assoc, List.takeWhile_append_dropWhile, splitLastSlash,
      ← List.reverse_append, List.takeWhile_append_dropWhile, List.reverse_reverse]
  exact exists_front_of_cut hcut (fun c hc => by simpa using head?_dropWhile c hc) ha

/-- A beginning without marks of a fragment, a query or parameters is kept, with a front of what stands
behind it in which no fragment and no query begins. -/
lemma exists_resource (scheme : List Char) (ha : ∀ c ∈ a, c ≠ '#' ∧ c ≠ '?' ∧ c ≠ ';') (b : List Char) :
    ∃ b', b' <+: beforeQuery b ∧ resource scheme (a ++ b) = a ++ b' := by
  rw [resource, beforeQuery_append fun c hc => ⟨(ha c hc).1, (ha c hc).2.1⟩]
  split
  · exact exists_withoutParameters (fun c hc => (ha c hc).2.2) (beforeQuery b)
  · exact ⟨beforeQuery b, List.prefix_rfl, rfl⟩

/-- A route is kept, and more than it only from a slash on. -/
theorem exists_resource_route (scheme : List Char) (ha : IsRoute a) (hb : EndsHost b) :
    ∃ b', EndsName b' ∧ resource scheme ((a ++ b).filter isKept) = a ++ b' := by
  obtain ⟨b', hfront, hpath⟩ := exists_resource scheme ha.no_marks (b.filter isKept)
  have hstops : EndsHost b' :=
    forall_head?_of_front (hfront.trans (beforeQuery_front _)) hb.filter_isKept
  refine ⟨b', fun c hc => ?_, ?_⟩
  · obtain ⟨hfragment, hquery⟩ := ne_of_mem_beforeQuery (hfront.mem (List.mem_of_mem_head? hc))
    simpa [endsHost, hfragment, hquery] using hstops c hc
  · rw [List.filter_append, filter_isKept ha.visible, hpath]

/-- A route is a path as it stands. -/
lemma resource_route (scheme : List Char) (ha : IsRoute a) : resource scheme (a.filter isKept) = a := by
  obtain ⟨b', hb', hpath⟩ := exists_resource scheme ha.no_marks []
  have hnil : b' = [] := List.prefix_nil.mp (hb'.trans (beforeQuery_front []))
  rw [List.append_nil, hnil, List.append_nil] at hpath
  rw [filter_isKept ha.visible, hpath]

end Url

end BuildMend.Text
