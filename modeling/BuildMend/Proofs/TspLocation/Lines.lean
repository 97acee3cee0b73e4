import BuildMend.Proofs.Text.LineByLine
import BuildMend.Proofs.TspLocation.Commit

/-!
What setting the value of a key does to the lines of other keys.

* `otherLines`: the lines of a text in which none of some keys stands.
* `otherLines_splice`: those do not change when one piece of a line with a key takes the place of another.
* `StandsInLine`: a value stands in the line of its key, if there is anything but blanks behind the key.
* `otherLines_spliceFirst`, `otherLines_replaceAllFrom`, `otherLines_newLine`: another value in the first
  place of a key, in all of them, or in a line at the end.
* `otherLines_withCommit`, `otherLines_withDirectory`, `otherLines_withEmitterPath`: setting a value keeps
  the other lines where the values whose places are taken stand in the lines of their keys.
* `exists_emitterLine`: the new emitter path is given in some line.
-/

namespace BuildMend.TspLocation

open Text

variable {a b m m' s text x y : List Char} {key : String} {keys : List String}

/-! ### Lines without a key -/

/-- Whether one of some keys stands in a line. -/
def hasKey (keys : List String) (line : List Char) : Bool :=
  keys.any fun k => containsText k.toList line

/-- The lines of a text in which none of some keys stands; the blanks at the end of the text are no lines. -/
def otherLines (keys : List String) (text : List Char) : List (List Char) :=
  ((trimEnd text).splitOn '\n').filter fun line => !hasKey keys line

lemma hasKey_append (hkey : key ∈ keys) (x y : List Char) :
    hasKey keys (x ++ (key.toList ++ y)) = true :=
  List.any_eq_true.mpr ⟨key, hkey, containsText_iff.mpr ⟨x, y, by rw [List.append_assoc]⟩⟩

/-- The other lines are those around a piece with a key. -/
lemma filter_splice (hkey : key ∈ keys) (hm : '\n' ∉ key.toList ++ m)
    (hm' : '\n' ∉ key.toList ++ m') (a b : List Char) :
    ((a ++ (key.toList ++ m ++ b)).splitOn '\n').filter (fun line => !hasKey keys line) =
      ((a ++ (key.toList ++ m' ++ b)).splitOn '\n').filter fun line => !hasKey keys line := by
  obtain ⟨before, x, y, after, hsplit⟩ := exists_splitOn_piece a b
  have hdrop (m : List Char) :
      (before ++ (x ++ (key.toList ++ m ++ y)) :: after).filter (fun line => !hasKey keys line) =
        before.filter (fun line => !hasKey keys line) ++
          after.filter fun line => !hasKey keys line := by
    rw [List.filter_append, List.filter_cons_of_neg]
    rw [List.append_assoc, hasKey_append hkey]
    simp
  rw [hsplit _ hm, hsplit _ hm', hdrop, hdrop]

/-! ### Blanks at the end -/

/-- A key that stands within a line and does not end in a blank. -/
structure IsPlainKey (key : String) : Prop where
  last : ∃ c ∈ key.toList.getLast?, isBlank c = false
  line : '\n' ∉ key.toList

lemma IsPlainKey.ne (h : IsPlainKey key) : key ≠ "" := by
  rintro rfl
  obtain ⟨c, hc, -⟩ := h.last
  cases hc

lemma trimEnd_blanks (hs : ∀ c ∈ s, isBlank c = true) (x : List Char) :
    trimEnd (x ++ s) = trimEnd x := by
  rw [trimEnd, trimEnd, dropWhileEnd, List.reverse_append,
    List.dropWhile_append_of_pos (by simpa using hs)]
  rfl

lemma trimEnd_of_last (hs : ∀ c ∈ s.getLast?, isBlank c = false) : trimEnd s = s := by
  have h := dropWhileEnd_append hs (a := []) (by simp)
  rwa [List.append_nil] at h

/-- Blanks are dropped behind the last other character only. -/
lemma trimEnd_append (hs : ∃ c ∈ s, isBlank c = false) (x : List Char) :
    trimEnd (x ++ s) = x ++ trimEnd s := by
  obtain ⟨blanks, hblanks, hsplit⟩ := exists_eq_dropWhileEnd isBlank s
  have hlast := getLast_dropWhileEnd (p := isBlank) (s := s)
  rw [trimEnd, trimEnd]
  generalize dropWhileEnd isBlank s = kept at hsplit hlast
  obtain ⟨c, hc, hsolid⟩ := hs
  have hne : kept ≠ [] := by
    rintro rfl
    rw [hblanks c (by simpa [hsplit] using hc)] at hsolid
    cases hsolid
  rw [hsplit, ← List.append_assoc, dropWhileEnd_append _ hblanks]
  rwa [List.getLast?_append_of_ne_nil _ hne]

lemma otherLines_blanks (hs : ∀ c ∈ s, isBlank c = true) (x : List Char) :
    otherLines keys (x ++ s) = otherLines keys x := by
  rw [otherLines, otherLines, trimEnd_blanks hs]

lemma IsPlainKey.not_mem_append (h : IsPlainKey key) (hm : '\n' ∉ m) : '\n' ∉ key.toList ++ m := by
  simp [h.line, hm]

/-- Behind a key without blanks at its end only what stands behind it loses its blanks. -/
lemma exists_trimEnd_key (h : IsPlainKey key) (hm : '\n' ∉ m) :
    ∃ n, '\n' ∉ n ∧ trimEnd (a ++ (key.toList ++ m)) = a ++ (key.toList ++ n) := by
  obtain ⟨c, hc, hsolid⟩ := h.last
  have hmem : c ∈ key.toList := List.mem_of_getLast? hc
  by_cases hblank : ∀ d ∈ m, isBlank d = true
  · refine ⟨[], by simp, ?_⟩
    rw [← List.append_assoc, trimEnd_blanks hblank, List.append_nil, trimEnd_of_last]
    intro d hd
    rw [List.getLast?_append_of_ne_nil _ (List.ne_nil_of_mem hmem), hc] at hd
    obtain rfl := Option.some.inj hd
    exact hsolid
  · have hm' : ∃ d ∈ m, isBlank d = false := by simpa using hblank
    obtain ⟨blanks, -, hsplit⟩ := exists_eq_dropWhileEnd isBlank m
    refine ⟨trimEnd m, fun hfeed => hm ?_, ?_⟩
    · rw [hsplit]
      exact List.mem_append_left _ hfeed
    · rw [← List.append_assoc, trimEnd_append hm', List.append_assoc]

/-- A piece of a line behind a key can be replaced without the other lines being changed. -/
theorem otherLines_splice (hkey : key ∈ keys) (h : IsPlainKey key) (hm : '\n' ∉ m) (hm' : '\n' ∉ m')
    (a b : List Char) :
    otherLines keys (a ++ (key.toList ++ (m ++ b))) =
      otherLines keys (a ++ (key.toList ++ (m' ++ b))) := by
  by_cases hb : ∀ c ∈ b, isBlank c = true
  · have hends (m : List Char) : otherLines keys (a ++ (key.toList ++ (m ++ b))) =
        otherLines keys (a ++ (key.toList ++ m)) := by
      rw [← List.append_assoc key.toList, ← List.append_assoc, otherLines_blanks hb]
    obtain ⟨n, hn, htrim⟩ := exists_trimEnd_key (a := a) h hm
    obtain ⟨n', hn', htrim'⟩ := exists_trimEnd_key (a := a) h hm'
    have hsame := filter_splice hkey (h.not_mem_append hn) (h.not_mem_append hn') a []
    rw [List.append_nil, List.append_nil] at hsame
    rw [hends, hends, otherLines, otherLines, htrim, htrim', hsame]
  · have hb' : ∃ c ∈ b, isBlank c = false := by simpa using hb
    have hends (m : List Char) : trimEnd (a ++ (key.toList ++ (m ++ b))) =
        a ++ (key.toList ++ m ++ trimEnd b) := by
      have h := trimEnd_append hb' (a ++ (key.toList ++ m))
      simpa only [List.append_assoc] using h
    rw [otherLines, otherLines, hends, hends]
    exact filter_splice hkey (h.not_mem_append hm) (h.not_mem_append hm') a (trimEnd b)

/-! ### Keys whose values stand in their lines -/

/-- Of what stands behind a key, either all is blank, or something else stands before the first line feed. -/
def KeepsLine (s : List Char) : Prop :=
  (∀ c ∈ s, isBlank c = true) ∨ '\n' ∉ s.takeWhile isBlank

instance (s : List Char) : Decidable (KeepsLine s) :=
  @instDecidableOr _ _ (List.decidableBAll (fun c => isBlank c = true) s) inferInstance

/-- A value stands in the line of its key, unless nothing but blanks stands behind the key. -/
def StandsInLine (key : String) (text : List Char) (o : Occurrence (List Char)) : Prop :=
  KeepsLine (text.drop (o.start + key.length))

instance (key : String) (text : List Char) (o : Occurrence (List Char)) :
    Decidable (StandsInLine key text o) :=
  inferInstanceAs (Decidable (KeepsLine (text.drop (o.start + key.length))))

lemma standsInLine_iff {o : Occurrence (List Char)} (hstart : o.start = a.length) :
    StandsInLine key (a ++ (key.toList ++ s)) o ↔ KeepsLine s := by
  rw [StandsInLine, hstart, ← List.append_assoc, ← String.length_toList, ← List.length_append,
    List.drop_left]

/-- What is read as a value stands behind a gap of blanks and within a line, or else all is blank. -/
def ReadsWithinLine (read? : List Char → Option (List Char × Nat)) : Prop :=
  ∀ s v n, read? s = some (v, n) → ∃ gap rest, s = gap ++ (v ++ rest) ∧
    n = gap.length + v.length ∧ '\n' ∉ v ∧
      ((∀ c ∈ gap, isBlank c = true) ∧ (∀ c ∈ (v ++ rest).head?, isBlank c = false) ∨
        ∀ c ∈ gap ++ (v ++ rest), isBlank c = true)

lemma readsWithinLine_word : ReadsWithinLine wordValue? := by
  intro s v n h
  obtain ⟨gap, rest, rfl, hgap, ⟨hne, hv⟩, -, rfl⟩ := wordValue?_eq_some_iff.mp h
  obtain ⟨c, v, rfl⟩ := List.exists_cons_of_ne_nil hne
  refine ⟨gap, rest, rfl, rfl, fun hfeed => ?_, Or.inl ⟨hgap, by simpa using hv c (by simp)⟩⟩
  have hfeed := hv _ hfeed
  cases hfeed

lemma readsWithinLine_line : ReadsWithinLine lineValue? := by
  intro s v n h
  obtain ⟨gap, rest, rfl, rfl, hne, hv, -, hgap⟩ := exists_of_lineValue? h
  refine ⟨gap, rest, rfl, rfl, hv, hgap.imp (fun ⟨hgap, hhead⟩ => ⟨hgap, ?_⟩) (·.1)⟩
  rwa [List.head?_append_of_ne_nil _ hne]

/-- Another value takes the place of one that stands in the line of its key. -/
lemma otherLines_value {gap v rest : List Char} (hkey : key ∈ keys) (h : IsPlainKey key)
    (hline : KeepsLine (gap ++ (v ++ rest))) (hv : '\n' ∉ v) (hm : '\n' ∉ m)
    (hgap : (∀ c ∈ gap, isBlank c = true) ∧ (∀ c ∈ (v ++ rest).head?, isBlank c = false) ∨
      ∀ c ∈ gap ++ (v ++ rest), isBlank c = true) (a : List Char) :
    otherLines keys (a ++ (key.toList ++ (m ++ rest))) =
      otherLines keys (a ++ (key.toList ++ (gap ++ (v ++ rest)))) := by
  have hblank (hall : ∀ c ∈ gap ++ (v ++ rest), isBlank c = true) :
      otherLines keys (a ++ (key.toList ++ (m ++ rest))) =
        otherLines keys (a ++ (key.toList ++ (gap ++ (v ++ rest)))) := by
    calc otherLines keys (a ++ (key.toList ++ (m ++ rest)))
        = otherLines keys (a ++ (key.toList ++ ([] ++ rest))) :=
          otherLines_splice hkey h hm (by simp) a rest
      _ = otherLines keys (a ++ key.toList ++ rest) := by simp
      _ = otherLines keys (a ++ key.toList) :=
        otherLines_blanks (fun c hc => hall c (by simp [hc])) _
      _ = otherLines keys (a ++ (key.toList ++ (gap ++ (v ++ rest)))) := by
        rw [← List.append_assoc a, otherLines_blanks hall]
  rcases hgap with ⟨hgap, hhead⟩ | hall
  · rcases hline with hall | hnone
    · exact hblank hall
    · rw [takeWhile_append hgap hhead] at hnone
      rw [← List.append_assoc gap]
      exact otherLines_splice hkey h hm (by simp [hnone, hv]) a rest
  · exact hblank hall

/-! ### Setting values -/

/-- A line of its own with a key, at the end of a text, changes no other line. -/
lemma otherLines_newLine (hkey : key ∈ keys) (h : IsPlainKey key) (hm : '\n' ∉ m)
    (text : List Char) :
    otherLines keys (trimEnd text ++ ['\n'] ++ (key.toList ++ (m ++ ['\n']))) =
      otherLines keys text := by
  obtain ⟨n, hn, htrim⟩ := exists_trimEnd_key (a := trimEnd text ++ ['\n']) h hm
  have hdrop : otherLines keys (trimEnd text ++ ['\n'] ++ (key.toList ++ (m ++ ['\n']))) =
      otherLines keys (trimEnd text ++ ['\n'] ++ (key.toList ++ m)) := by
    rw [← List.append_assoc key.toList, ← List.append_assoc (trimEnd text ++ ['\n']),
      otherLines_blanks (by simp [isBlank])]
  have hkeyed : hasKey keys (key.toList ++ n) = true := hasKey_append hkey [] n
  rw [hdrop, otherLines, otherLines, htrim, List.append_assoc, List.singleton_append,
    List.splitOn_append_cons_self, List.splitOn_eq_singleton (h.not_mem_append hn),
    List.filter_append, List.filter_cons_of_neg (by simp [hkeyed]), List.filter_nil,
    List.append_nil]

section Setting

variable {read? : List Char → Option (List Char × Nat)} (hreads : ReadsWithinLine read?)

include hreads

/-- What a key takes with its value, and what stands behind that. -/
lemma exists_taken {before : Option Char} {t v : List Char} {n : Nat}
    (hform : keyed read? key before t = some (v, n)) :
    ∃ gap rest, t = key.toList ++ (gap ++ v) ++ rest ∧
      n = (key.toList ++ (gap ++ v)).length ∧ '\n' ∉ v ∧
      ((∀ c ∈ gap, isBlank c = true) ∧ (∀ c ∈ (v ++ rest).head?, isBlank c = false) ∨
        ∀ c ∈ gap ++ (v ++ rest), isBlank c = true) := by
  obtain ⟨s, k, rfl, hread, rfl⟩ := keyed_eq_some_iff.mp hform
  obtain ⟨gap, rest, rfl, rfl, hv, hgap⟩ := hreads _ _ _ hread
  refine ⟨gap, rest, by simp only [List.append_assoc], ?_, hv, hgap⟩
  rw [List.length_append, List.length_append, String.length_toList]

variable (h : IsPlainKey key) (hkey : key ∈ keys) (hm : '\n' ∉ m)

include h hkey hm

/-- Another value in the first place of a key changes no line without a key. -/
lemma otherLines_spliceFirst
    (hline : ∀ o ∈ (keyed read? key).first? text, StandsInLine key text o) :
    otherLines keys (spliceFirst (keyed read? key) (key.toList ++ m) text) =
      otherLines keys text := by
  cases hfirst : (keyed read? key).first? text with
  | none => rw [spliceFirst, CharLike.map_look, hfirst]
  | some o =>
    obtain ⟨a, b, rfl, hstart, hform, -⟩ := Form.standsAt_of_first? hfirst
    obtain ⟨gap, rest, rfl, hlength, hv, hgap⟩ := exists_taken hreads hform
    have ho : o = ⟨a.length, (key.toList ++ (gap ++ o.value)).length, o.value⟩ := by
      rw [← hstart, ← hlength]
    have hvalue := hline o hfirst
    rw [ho] at hfirst
    rw [List.append_assoc key.toList, List.append_assoc gap] at hvalue
    rw [spliceFirst_of_first? hfirst]
    simp only [List.append_assoc]
    exact otherLines_value hkey h ((standsInLine_iff hstart).mp hvalue) hv hm hgap a

/-- Another value in all places of a key changes no line without a key: the first part of the text may be
done already. -/
lemma otherLines_replaceAllFrom {p x t : List Char} {before : Option Char}
    (hline : ∀ o ∈ (keyed read? key).occurrencesFrom p.length 0 before t,
      StandsInLine key (p ++ t) o) :
    otherLines keys
        (x ++ replaceAllFrom ((keyed read? key).map fun _ => key.toList ++ m) 0 before t) =
      otherLines keys (x ++ t) := by
  induction hn : t.length using Nat.strongRecOn generalizing p x t before with
  | ind n ih =>
    cases t with
    | nil => rfl
    | cons c rest =>
      by_cases hform : ∃ v k, keyed read? key before (c :: rest) = some (v, k + 1)
      · obtain ⟨v, k, hform⟩ := hform
        obtain ⟨gap, tail, htext, htaken, hv, hgap⟩ := exists_taken hreads hform
        have hne : key.toList ++ (gap ++ v) ≠ [] := by simpa using fun hkey => absurd hkey h.ne
        rw [htext, htaken] at hform
        rw [htext, Form.occurrencesFrom_match hne hform] at hline
        obtain ⟨hhere, hlater⟩ := List.forall_mem_cons.mp hline
        have hshort : tail.length < n := by
          rw [← hn, htext, List.length_append, ← htaken]
          omega
        have hrest := ih _ hshort (x := x ++ (key.toList ++ m))
          (p := p ++ (key.toList ++ (gap ++ v))) (t := tail)
          (by rwa [List.length_append, List.append_assoc]) rfl
        rw [htext, replaceAllFrom_const_match hne hform, ← List.append_assoc, hrest]
        rw [List.append_assoc key.toList, List.append_assoc gap] at hhere
        simp only [List.append_assoc]
        exact otherLines_value hkey h ((standsInLine_iff rfl).mp hhere) hv hm hgap x
      · have hno : ∀ v k, keyed read? key before (c :: rest) ≠ some (v, k + 1) := by
          simpa using hform
        rw [Form.occurrencesFrom_no_match hno] at hline
        have hline : ∀ o ∈ (keyed read? key).occurrencesFrom (p ++ [c]).length 0 (some c) rest,
            StandsInLine key ((p ++ [c]) ++ rest) o := by simpa using hline
        have hrest := ih _ (by rw [← hn, List.length_cons]; omega) (x := x ++ [c]) hline rfl
        rw [replaceAllFrom_const_no_match hno]
        simpa using hrest

end Setting

/-! ### Keys of the file -/

/-- Setting a commit changes no line without a key, if the value whose place it takes stands in the line of
its key. -/
theorem otherLines_withCommit (hkey : commitKey ∈ keys)
    (hline : ∀ o ∈ commitForm.first? text, StandsInLine commitKey text o) (hs : '\n' ∉ s) :
    otherLines keys (withCommit s text) = otherLines keys text := by
  have hplain : IsPlainKey commitKey := ⟨isKey_commit.last, by decide⟩
  have hvalue : '\n' ∉ [' '] ++ s := by simpa using hs
  cases hfirst : commitForm.first? text with
  | some o =>
    have hset : withCommit s text = spliceFirst commitForm (entry commitKey s) text := by
      rw [withCommit, CharLike.map_look, hfirst]
      rfl
    rw [hset, entry_commit]
    exact otherLines_spliceFirst readsWithinLine_word hplain hkey hvalue hline
  | none =>
    rw [withCommit_of_none hfirst, entry_commit, List.append_assoc commitKey.toList]
    exact otherLines_newLine hkey hplain hvalue text

/-- The key of a directory. -/
def directoryKey : String := "directory:"

/-- Setting a directory changes no line without a key, if the value whose place it takes stands in the line
of its key. -/
theorem otherLines_withDirectory (hkey : directoryKey ∈ keys)
    (hline : ∀ o ∈ directoryForm.first? text, StandsInLine directoryKey text o) (hs : '\n' ∉ s) :
    otherLines keys (withDirectory s text) = otherLines keys text := by
  have hplain : IsPlainKey directoryKey := ⟨⟨':', by decide, by decide⟩, by decide⟩
  have hentry : (entry "directory:" s : List Char) = directoryKey.toList ++ ([' '] ++ s) := by
    rw [entry, ← List.append_assoc]
    rfl
  rw [withDirectory, hentry]
  exact otherLines_spliceFirst readsWithinLine_line hplain hkey (by simpa using hs) hline

/-- The key of the emitter path. -/
def emitterKey : String := "emitterPackageJsonPath:"

lemma emitterEntry_eq :
    emitterEntry.toList = emitterKey.toList ++ ([' '] ++ emitterPath.toList) := by
  decide

/-- Setting the emitter path changes no line without a key, if the values whose places it takes stand in the
lines of their keys. -/
theorem otherLines_withEmitterPath (hkey : emitterKey ∈ keys)
    (hline : ∀ o ∈ emitterForm.occurrences text, StandsInLine emitterKey text o) :
    otherLines keys (withEmitterPath text) = otherLines keys text := by
  have hplain : IsPlainKey emitterKey := ⟨⟨':', by decide, by decide⟩, by decide⟩
  have hvalue : '\n' ∉ [' '] ++ emitterPath.toList := by decide
  rw [withEmitterPath, emitterEntry_eq]
  cases emitterForm.first? text with
  | some o =>
    exact otherLines_replaceAllFrom readsWithinLine_line hplain hkey hvalue (p := []) (x := [])
      hline
  | none =>
    have hnew := otherLines_newLine hkey hplain hvalue text
    simp only [appendEntry, List.append_assoc] at hnew ⊢
    exact hnew

/-- The new emitter path is given in some line. -/
theorem exists_emitterLine (text : List Char) :
    ∃ line ∈ (withEmitterPath text).splitOn '\n', containsText emitterEntry.toList line = true := by
  have hentry : ∃ a b, withEmitterPath text = a ++ (emitterEntry.toList ++ b) := by
    rw [withEmitterPath]
    cases hfirst : emitterForm.first? text with
    | some o =>
      have hne : emitterForm.firstFrom? 0 none text ≠ none := by
        rw [← Form.first?, hfirst]
        exact Option.some_ne_none o
      exact exists_replaceAllFrom _ hne
    | none =>
      exact ⟨trimEnd text ++ ['\n'], ['\n'], by simp only [appendEntry, List.append_assoc]; rfl⟩
  obtain ⟨a, b, hab⟩ := hentry
  obtain ⟨before, x, y, after, hsplit⟩ := exists_splitOn_piece a b
  rw [hab, hsplit _ (by decide)]
  exact ⟨x ++ (emitterEntry.toList ++ y), by simp,
    containsText_iff.mpr ⟨x, y, by rw [List.append_assoc]⟩⟩

end BuildMend.TspLocation
