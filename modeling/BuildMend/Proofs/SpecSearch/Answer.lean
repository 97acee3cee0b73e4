import BuildMend.Proofs.Json.Spelling
import BuildMend.Proofs.Text.Scan
import BuildMend.Proofs.Text.Trim
import BuildMend.SpecSearch

/-!
The location in an answer that holds it in the form that is asked for.

* `IsBraceless`: the texts without braces; `Json.WritesObject.exists_inner` says that an object of such texts
  has none between its own.
* `SpecLocation.objectForm_eq_some_iff`: where an object without inner braces stands.
* `SpecLocation.ofAnswer_written`: a location is found in each way to write it as an object, whatever
  surrounds the object but an opening brace before it.
-/

namespace BuildMend

open Text

/-! ### Texts without braces -/

/-- The two braces. -/
def IsBrace (c : Char) : Prop := c = '\x7b' ∨ c = '\x7d'

instance (c : Char) : Decidable (IsBrace c) := inferInstanceAs (Decidable (_ ∨ _))

/-- A text without braces. -/
def IsBraceless (s : List Char) : Prop := ∀ c ∈ s, ¬IsBrace c

instance (s : List Char) : Decidable (IsBraceless s) := inferInstanceAs (Decidable (∀ _ ∈ s, _))

@[simp] lemma isBraceless_nil : IsBraceless [] := by simp [IsBraceless]

@[simp] lemma isBraceless_cons {c : Char} {s : List Char} :
    IsBraceless (c :: s) ↔ ¬IsBrace c ∧ IsBraceless s := by simp [IsBraceless]

@[simp] lemma isBraceless_append {a b : List Char} :
    IsBraceless (a ++ b) ↔ IsBraceless a ∧ IsBraceless b := List.forall_mem_append

namespace Json

/-- No way to write a text without braces needs one. -/
lemma WritesUnit.isBraceless {n : Nat} {ds : List Char} (h : WritesUnit n ds) : IsBraceless ds := by
  have hdigits : ∀ v < 16, ¬IsBrace (Nat.digitChar v) ∧ ¬IsBrace (Nat.digitChar v).toUpper := by
    decide
  have hdigit {v : Nat} {d : Char} (hd : IsHexDigit v d) : ¬IsBrace d := by
    obtain ⟨hv, rfl | rfl⟩ := hd
    · exact (hdigits v hv).1
    · exact (hdigits v hv).2
  obtain ⟨ha, hb, hc, hd⟩ := h
  simp [hdigit ha, hdigit hb, hdigit hc, hdigit hd]

lemma Spells.isBraceless {c : Char} {t : List Char} (h : Spells c t) (hc : ¬IsBrace c) :
    IsBraceless t := by
  have hbackslash : ¬IsBrace '\\' := by decide
  have hcode : ¬IsBrace 'u' := by decide
  cases h with
  | itself => simpa using hc
  | @short e h =>
    have hescapes : ∀ x ∈ shortEscapes, ¬IsBrace x.1 := by decide
    simpa [hbackslash] using hescapes _ h
  | code h => simp [hbackslash, hcode, h.isBraceless]
  | pair _ hhigh hlow => simp [hbackslash, hcode, hhigh.isBraceless, hlow.isBraceless]

lemma SpellsText.isBraceless {s t : List Char} (h : SpellsText s t) (hs : IsBraceless s) :
    IsBraceless t := by
  induction h with
  | nil => simp
  | cons hc _ ih =>
    rw [isBraceless_cons] at hs
    exact isBraceless_append.mpr ⟨hc.isBraceless hs.1, ih hs.2⟩

lemma WritesString.isBraceless {s : String} {t : List Char} (h : WritesString s t)
    (hs : IsBraceless s.toList) : IsBraceless t := by
  have hquote : ¬IsBrace '"' := by decide
  cases h with
  | quoted h => simp [hquote, h.isBraceless hs]

lemma IsSpaces.isBraceless {s : List Char} (h : IsSpaces s) : IsBraceless s := by
  intro c hc
  rcases h c hc with rfl | rfl | rfl | rfl <;> decide

lemma WritesMember.isBraceless {m : String × String} {t : List Char} (h : WritesMember m t)
    (hname : IsBraceless m.1.toList) (hvalue : IsBraceless m.2.toList) : IsBraceless t := by
  have hcolon : ¬IsBrace ':' := by decide
  cases h with
  | named hn hbefore hafter hv =>
    simp [hcolon, hn.isBraceless hname, hv.isBraceless hvalue, hbefore.isBraceless,
      hafter.isBraceless]

lemma WritesMembers.isBraceless {ms : List (String × String)} {t : List Char}
    (h : WritesMembers ms t)
    (hms : ∀ m ∈ ms, IsBraceless m.1.toList ∧ IsBraceless m.2.toList) : IsBraceless t := by
  have hcomma : ¬IsBrace ',' := by decide
  induction h with
  | last hm hafter =>
    obtain ⟨hname, hvalue⟩ := hms _ List.mem_cons_self
    simp [hm.isBraceless hname hvalue, hafter.isBraceless]
  | more hm hbefore hafter _ ih =>
    obtain ⟨hname, hvalue⟩ := hms _ List.mem_cons_self
    have hrest := ih fun m hm => hms m (List.mem_cons_of_mem _ hm)
    simp [hcomma, hm.isBraceless hname hvalue, hbefore.isBraceless, hafter.isBraceless, hrest]

/-- An object of texts without braces has none between its own. -/
lemma WritesObject.exists_inner {ms : List (String × String)} {t : List Char}
    (h : WritesObject ms t) (hms : ∀ m ∈ ms, IsBraceless m.1.toList ∧ IsBraceless m.2.toList) :
    ∃ inner, t = '\x7b' :: inner ++ ['\x7d'] ∧ inner ≠ [] ∧ IsBraceless inner := by
  cases h with
  | @braced blanks t hblanks h =>
    obtain ⟨u, hu⟩ := h.exists_cons
    refine ⟨blanks ++ t, by simp, by simp [hu], ?_⟩
    exact isBraceless_append.mpr ⟨hblanks.isBraceless, h.isBraceless hms⟩

end Json

/-! ### The object in an answer -/

namespace SpecLocation

/-- An object without inner braces stands where an opening brace, a text without braces and a closing brace
do. -/
theorem objectForm_eq_some_iff {before : Option Char} {text value : List Char} {length : Nat} :
    objectForm before text = some (value, length) ↔
      ∃ inner after, text = '\x7b' :: (inner ++ '\x7d' :: after) ∧ inner ≠ [] ∧ IsBraceless inner ∧
        value = '\x7b' :: inner ++ ['\x7d'] ∧ length = inner.length + 2 := by
  have hbrace (c : Char) : (c != '\x7b' && c != '\x7d') = true ↔ ¬IsBrace c := by simp [IsBrace]
  constructor
  · intro h
    rw [objectForm.eq_def] at h
    split at h
    · rename_i rest
      dsimp only at h
      split at h
      · rename_i after hafter
        split at h
        · cases h
        · rename_i hne
          obtain ⟨rfl, rfl⟩ := Prod.mk.inj (Option.some.inj h)
          refine ⟨_, after, ?_, by simpa using hne, fun c hc => ?_, rfl, rfl⟩
          · rw [← hafter, List.prefix_iff_eq_append.mp (List.takeWhile_prefix _)]
          · exact (hbrace c).mp (List.all_eq_true.mp List.all_takeWhile c hc)
      · cases h
    · cases h
  · rintro ⟨inner, after, rfl, hne, hinner, rfl, rfl⟩
    have htake : (inner ++ '\x7d' :: after).takeWhile (fun c => c != '\x7b' && c != '\x7d') = inner :=
      takeWhile_append (fun c hc => (hbrace c).mpr (hinner c hc)) (by simp)
    have hdrop : (inner ++ '\x7d' :: after).drop inner.length = '\x7d' :: after := List.drop_left
    simp only [objectForm, htake, hdrop]
    rw [if_neg (by simpa using hne)]

/-- The first object without inner braces, behind a text without an opening one. -/
lemma first?_objectForm {before inner after : List Char} (hbefore : '\x7b' ∉ before)
    (hne : inner ≠ []) (hinner : IsBraceless inner) :
    objectForm.first? (before ++ ('\x7b' :: inner ++ ['\x7d']) ++ after) =
      some ⟨before.length, inner.length + 2, '\x7b' :: inner ++ ['\x7d']⟩ := by
  rw [Form.first?_eq_some_iff]
  refine ⟨before, '\x7b' :: (inner ++ '\x7d' :: after), by simp, rfl, ⟨?_, by simp, by simp⟩, ?_⟩
  · exact objectForm_eq_some_iff.mpr ⟨inner, after, rfl, hne, hinner, rfl, rfl⟩
  · rintro a c value length rfl hc ⟨hform, -, -⟩
    obtain ⟨_, _, htext, -⟩ := objectForm_eq_some_iff.mp hform
    obtain ⟨d, c, rfl⟩ := List.exists_cons_of_ne_nil hc
    obtain rfl : d = '\x7b' := (List.cons.inj htext).1
    exact hbefore (by simp)

/-- The location in an object that can be read. -/
lemma ofAnswer_of_object {answer : String} {o : Occurrence (List Char)} {v : Json}
    (hfirst : objectForm.first? answer.toList = some o) (hread : Json.readChars o.value = .ok v) :
    ofAnswer answer = .ok (ofObject v) := by
  simp only [ofAnswer, read, hfirst, hread]

/-- The object that is asked for, in one of the two orders of its members. -/
def members (path commit : String) : Bool → List (String × String)
  | true => [("path", path), ("commit", commit)]
  | false => [("commit", commit), ("path", path)]

lemma ofObject_members {path commit : String} (hpath : path ≠ "") (hcommit : commit ≠ "")
    (pathFirst : Bool) :
    ofObject (.object (Json.textMembers (members path commit pathFirst))) =
      ⟨.ofString path, .ofString commit⟩ := by
  have hgiven {s : String} (hs : s ≠ "") : orNull (.ofString s) = .ofString s := by
    have hne : (Json.ofString s).isEmptyValue = false := by
      simpa [Json.ofString, Json.isEmptyValue, CodePoint.ofString] using hs
    rw [orNull, hne]
    rfl
  have hdiffer : (CodePoint.ofString "path" == CodePoint.ofString "commit") = false ∧
      (CodePoint.ofString "commit" == CodePoint.ofString "path") = false := by decide
  cases pathFirst <;>
    simp [ofObject, member, members, Json.textMembers, Json.get?, Json.lookup, hdiffer, hgiven hpath,
      hgiven hcommit]

/-- A location is found in each answer that holds it as an object, in any way to write it: with its members
in either order, behind any text without an opening brace, and before any text. -/
theorem ofAnswer_written {path commit : String} (hpath : path ≠ "") (hcommit : commit ≠ "")
    (hpathBraces : IsBraceless path.toList) (hcommitBraces : IsBraceless commit.toList)
    (pathFirst : Bool) {object : String}
    (hobject : Json.WritesObject (members path commit pathFirst) object.toList) {before : String}
    (hbefore : '\x7b' ∉ before.toList) (after : String) :
    ofAnswer (before ++ object ++ after) = .ok ⟨.ofString path, .ofString commit⟩ := by
  have hbraces : ∀ m ∈ members path commit pathFirst,
      IsBraceless m.1.toList ∧ IsBraceless m.2.toList := by
    cases pathFirst <;> simp [members, IsBrace, hpathBraces, hcommitBraces]
  have hnames : ((members path commit pathFirst).map (·.1)).Nodup := by
    cases pathFirst <;> simp [members]
  obtain ⟨inner, htext, hne, hinner⟩ := hobject.exists_inner hbraces
  have hfirst : objectForm.first? (before ++ object ++ after).toList =
      some ⟨before.toList.length, inner.length + 2, object.toList⟩ := by
    rw [String.toList_append, String.toList_append, htext]
    exact first?_objectForm hbefore hne hinner
  have hread : Json.readChars object.toList =
      .ok (.object (Json.textMembers (members path commit pathFirst))) :=
    Json.readChars_object hobject hnames
  rw [ofAnswer_of_object hfirst hread, ofObject_members hpath hcommit]

/-- A path with quotes, a backslash and a character beyond the first plane, and a commit with a line feed, in an
object as it is rendered: behind a closing brace, and before another object. -/
theorem ofAnswer_rendered :
    ofAnswer ("It has moved \x7d to\n" ++
        Json.render (.object (Json.textMembers
          (members "spec/\"new\\place\"/😀" "abc\n123" false))) ++
        ", not to \x7b\"path\": 1\x7d") =
      .ok ⟨.ofString "spec/\"new\\place\"/😀", .ofString "abc\n123"⟩ :=
  ofAnswer_written (by simp) (by simp) (by simp [IsBrace]) (by simp [IsBrace]) false
    (Json.writesObject_render (by simp [members])) (by simp) _

end SpecLocation

end BuildMend
