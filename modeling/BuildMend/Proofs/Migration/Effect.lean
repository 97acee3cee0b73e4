import BuildMend.Proofs.Migration.DryRun
import BuildMend.Proofs.Text.Decoding

/-!
What the steps that rewrite files leave behind.

* `FileTree.HoldsText`, `FileTree.Edited`: some files have been edited, and every other octet stays.
* `Library.IsCustomCode`, `Library.IsProjectFile`: the places that are edited, by their paths.
* `Library.editFiles_edited`, `Library.runStep_edited`: files are edited, and those that change are
  counted.
* `Done`, `Library.runSteps_done`: what some steps have done to a tree.
* `Library.rewriting_effect`: the files after all the steps, and the count of each step.
-/

namespace BuildMend

open Act Text

namespace FileTree

variable {t v u : FileTree} {edit : List Char → List Char} {places : List Path} {p : Path}

/-! ### Files that hold a text -/

/-- The file at a path holds the octets of a text. -/
def HoldsText (t : FileTree) (p : Path) (text : List Char) : Prop :=
  t.content? p = some (Utf8.encode text)

lemma HoldsText.inj {text text' : List Char} (h : t.HoldsText p text) (h' : t.HoldsText p text') :
    text = text' := by
  have hencode : Utf8.encode text = Utf8.encode text' := Option.some.inj (h.symm.trans h')
  have hread := congrArg Utf8.decode hencode
  rw [Utf8.decode_encode, Utf8.decode_encode] at hread
  exact Except.ok.inj hread

lemma holdsText_congr {text : List Char} (h : v.content? p = t.content? p) :
    v.HoldsText p text ↔ t.HoldsText p text := by
  rw [HoldsText, HoldsText, h]

/-- A file holds the text that is read in it. -/
lemma textAt_eq_ok_iff {text : List Char} : t.textAt p = .ok text ↔ t.HoldsText p text := by
  rw [textAt, HoldsText]
  cases t.content? p with
  | none => simp
  | some content =>
    constructor
    · intro h
      cases hd : Utf8.decode content with
      | error e =>
        simp only [hd] at h
        cases h
      | ok found =>
        simp only [hd] at h
        obtain rfl : found = text := Except.ok.inj h
        rw [Utf8.encode_of_decode hd]
    · intro h
      obtain rfl : content = Utf8.encode text := Option.some.inj h
      simp only [Utf8.decode_encode]
      rfl

/-! ### Edits -/

/-- One tree is another in which some files have been edited, and every other octet stays. -/
structure Edited (edit : List Char → List Char) (places : List Path) (t v : FileTree) : Prop where
  same : t.SamePlaces v
  edits : ∀ p ∈ places, ∀ text, t.HoldsText p text → v.HoldsText p (edit text)
  keeps : ∀ p, p ∉ places → v.content? p = t.content? p

/-- The places, among some, whose content differs between two trees. -/
def changedPlaces (places : List Path) (t v : FileTree) : List Path :=
  places.filter fun p => v.content? p != t.content? p

namespace Edited

lemma nil (edit : List Char → List Char) (t : FileTree) : Edited edit [] t t :=
  ⟨.refl t, by simp, fun _ _ => rfl⟩

lemma unchanged {text : List Char} (h : t.HoldsText p text) (hedit : edit text = text) :
    Edited edit [p] t t where
  same := .refl t
  edits q hq text' h' := by
    obtain rfl := List.mem_singleton.mp hq
    obtain rfl := h.inj h'
    rwa [hedit]
  keeps _ _ := rfl

lemma write {text : List Char} (h : t.HoldsText p text) :
    Edited edit [p] t (t.write p (Utf8.encode (edit text))) where
  same := samePlaces_write (isFile_of_textAt (textAt_eq_ok_iff.mpr h)) _
  edits q hq text' h' := by
    obtain rfl := List.mem_singleton.mp hq
    obtain rfl := h.inj h'
    rw [HoldsText, content?_write, if_pos rfl]
  keeps q hq := by rw [content?_write, if_neg (by simpa using hq)]

/-- One file is edited, and then others. -/
lemma cons (h : Edited edit [p] t v) (hp : p ∉ places) (h' : Edited edit places v u) :
    Edited edit (p :: places) t u where
  same := h.same.trans h'.same
  edits q hq text ht := by
    rcases List.mem_cons.mp hq with rfl | hq
    · exact (holdsText_congr (h'.keeps q hp)).mpr (h.edits q (by simp) text ht)
    · have hne : q ∉ [p] := fun hmem => hp (List.mem_singleton.mp hmem ▸ hq)
      exact h'.edits q hq text ((holdsText_congr (h.keeps q hne)).mpr ht)
  keeps q hq := by
    obtain ⟨hne, hq⟩ := not_or.mp fun h => hq (List.mem_cons.mpr h)
    rw [h'.keeps q hq, h.keeps q (by simpa using hne)]

/-- What changes lies at the places of an edit. -/
lemma mem_changedPlaces_iff (h : Edited edit places t v) :
    p ∈ changedPlaces places t v ↔ v.content? p ≠ t.content? p := by
  rw [changedPlaces, List.mem_filter, bne_iff_ne, and_iff_right_iff_imp]
  intro hchange
  by_contra hp
  exact hchange (h.keeps p hp)

end Edited

/-! ### Places by their paths -/

/-- A path lies below a directory, behind some names, with a last name that has an ending. -/
def LiesBelow (directory between : Path) (ending : String) (p : Path) : Prop :=
  ∃ name, p = directory ++ between ++ [name] ∧ ending.toList <:+ name.toList

lemma nameEndsWith_concat {ending name : String} {above : Path} :
    nameEndsWith ending (above ++ [name]) = true ↔ ending.toList <:+ name.toList := by
  rw [nameEndsWith, List.getLast?_concat]
  exact List.isSuffixOf_iff_suffix

/-- The places below a directory whose name has an ending. -/
lemma mem_below_iff {directory : Path} {ending : String} :
    p ∈ t.below directory ending ↔
      p ∈ t.places ∧ ∃ between, LiesBelow directory between ending p := by
  rw [below, List.mem_mergeSort, List.mem_filter]
  refine and_congr_right fun _ => ?_
  simp only [Bool.and_eq_true, bne_iff_ne, List.isPrefixOf_iff_prefix]
  constructor
  · rintro ⟨⟨⟨rest, rfl⟩, hne⟩, hname⟩
    have hrest : rest ≠ [] := by
      rintro rfl
      exact hne (List.append_nil directory).symm
    obtain ⟨between, name, rfl⟩ : ∃ between name, rest = between ++ [name] :=
      ⟨rest.dropLast, rest.getLast hrest, (List.dropLast_concat_getLast hrest).symm⟩
    rw [← List.append_assoc, nameEndsWith_concat] at hname
    exact ⟨between, name, by simp, hname⟩
  · rintro ⟨between, name, rfl, hname⟩
    refine ⟨⟨⟨between ++ [name], by simp⟩, fun h => ?_⟩, nameEndsWith_concat.mpr hname⟩
    have hlength := congrArg List.length h
    simp at hlength

lemma self_mem_withParents (hp : p ≠ []) : p ∈ withParents p := by
  induction p with
  | nil => exact absurd rfl hp
  | cons n rest ih =>
    cases rest with
    | nil => simp [withParents]
    | cons m rest =>
      have hrest : m :: rest ∈ withParents (m :: rest) := ih (List.cons_ne_nil m rest)
      rw [withParents, List.mem_cons, List.mem_map]
      exact Or.inr ⟨m :: rest, hrest, rfl⟩

/-- Every file is a place of its tree. -/
lemma mem_places_of_holdsText {text : List Char} (hp : p ≠ []) (h : t.HoldsText p text) :
    p ∈ t.places := by
  rw [HoldsText, content?, Option.map_eq_some_iff] at h
  obtain ⟨⟨q, content⟩, hfind, -⟩ := h
  have hq : q = p := by simpa using List.find?_some hfind
  have hfile : p ∈ t.files.map (·.1) :=
    List.mem_map.mpr ⟨(q, content), List.mem_of_find?_eq_some hfind, hq⟩
  rw [places, List.mem_eraseDups, List.mem_flatMap]
  exact ⟨p, List.mem_append_left _ hfile, self_mem_withParents hp⟩

end FileTree

namespace Migration

open FileTree

/-- The log record of a file that is saved. -/
def savedRecord (p : Path) : Event := .log .debug .migrationSteps s!"Updated {p.fullText}"

namespace Library

variable {l : Library} {w : World}

/-! ### Editing files -/

lemma save_real (hreal : l.dryRun = false) (p : Path) (text : List Char) (w : World) :
    ∃ v, l.save p text w = (.ok (), v) ∧ v.tree = w.tree.write p (Utf8.encode text) := by
  obtain ⟨v, hv, -, -, htree⟩ := l.save_apply p text w
  exact ⟨v, hv, by rwa [hreal] at htree⟩

/-- A file is saved, and told to be. -/
lemma save_told (hreal : l.dryRun = false) (p : Path) (text : List Char) (w : World) :
    l.save p text w =
      (.ok (), { w.told [savedRecord p] with tree := w.tree.write p (Utf8.encode text) }) := by
  have hoctets : Utf8.encodeString (String.ofList text) = Utf8.encode text := by
    rw [Utf8.encodeString, String.toList_ofList]
  rw [save, if_neg (by simp [hreal]), ← hoctets]
  rfl

/-- Editing files that hold texts edits all of them and counts those that change. -/
theorem editFiles_edited (hreal : l.dryRun = false) (edit : List Char → List Char)
    {places : List Path} (hn : places.Nodup)
    (hreads : ∀ p ∈ places, ∃ text, w.tree.HoldsText p text) :
    ∃ v, l.editFiles edit places w = (.ok (changedPlaces places w.tree v.tree).length, v) ∧
      Edited edit places w.tree v.tree := by
  induction places generalizing w with
  | nil => exact ⟨w, rfl, .nil edit w.tree⟩
  | cons p rest ih =>
    obtain ⟨hp, hrest⟩ := List.nodup_cons.mp hn
    obtain ⟨text, htext⟩ := hreads p List.mem_cons_self
    have hload : load p w = (.ok text, w) := by
      rw [load_apply, textAt_eq_ok_iff.mpr htext]
    -- the other files are edited in a world in which this one is done
    have hlater {u : World} (hu : Edited edit [p] w.tree u.tree) :
        ∃ v, l.editFiles edit rest u = (.ok (changedPlaces rest w.tree v.tree).length, v) ∧
          Edited edit (p :: rest) w.tree v.tree ∧ v.tree.content? p = u.tree.content? p := by
      have hkeeps : ∀ q ∈ rest, u.tree.content? q = w.tree.content? q := fun q hq =>
        hu.keeps q fun hmem => hp (List.mem_singleton.mp hmem ▸ hq)
      obtain ⟨v, hv, hedited⟩ := ih hrest (w := u) fun q hq => by
        obtain ⟨text, ht⟩ := hreads q (List.mem_cons_of_mem p hq)
        exact ⟨text, (holdsText_congr (hkeeps q hq)).mpr ht⟩
      have hsame : changedPlaces rest u.tree v.tree = changedPlaces rest w.tree v.tree :=
        List.filter_congr fun q hq => by rw [hkeeps q hq]
      exact ⟨v, by rw [hv, hsame], hu.cons hp hedited, hedited.keeps p hp⟩
    rw [editFiles, bind_apply, hload]
    by_cases hchange : edit text = text
    · obtain ⟨v, hv, hedited, hcontent⟩ := hlater (.unchanged htext hchange)
      have hfalse : (edit text != text) = false := by simpa using hchange
      have hcount : changedPlaces (p :: rest) w.tree v.tree = changedPlaces rest w.tree v.tree := by
        rw [changedPlaces, List.filter_cons_of_neg (by simp [hcontent])]
        rfl
      refine ⟨v, ?_, hedited⟩
      simp only [hfalse, Bool.false_eq_true, if_false, hcount]
      exact hv
    · obtain ⟨u, hu, htree⟩ := save_real hreal p (edit text) w
      have hone : Edited edit [p] w.tree u.tree := htree ▸ .write htext
      obtain ⟨v, hv, hedited, hcontent⟩ := hlater hone
      have htrue : (edit text != text) = true := by simpa using hchange
      have hdiffers : v.tree.content? p ≠ w.tree.content? p := by
        intro h
        have hnew := hone.edits p (by simp) text htext
        exact hchange (((holdsText_congr (hcontent.symm.trans h)).mp hnew).inj htext)
      have hcount : changedPlaces (p :: rest) w.tree v.tree =
          p :: changedPlaces rest w.tree v.tree := by
        rw [changedPlaces, List.filter_cons_of_pos (by simpa using hdiffers)]
        rfl
      refine ⟨v, ?_, hedited⟩
      simp only [htrue, if_true, hcount, List.length_cons]
      refine (bind_of_ok hu).trans ((bind_of_ok hv).trans ?_)
      rw [Nat.add_comm]
      rfl

/-! ### One step -/

/-- A step that has files to edit and can read them succeeds, with the count of those that change. -/
theorem runStep_edited {r : Rewrite} (hreal : l.dryRun = false)
    (hlong : w.tree.isTooLong l.sources = false) (hfiles : l.projectFiles w.tree ≠ [])
    (hreads : ∀ p ∈ r.files l w.tree, ∃ text, w.tree.HoldsText p text) :
    ∃ outcome v, l.runStep r.step w = (.ok outcome, v) ∧
      Edited r.edit (r.files l w.tree) w.tree v.tree ∧ outcome.success = true ∧
      outcome.filesChanged = (changedPlaces (r.files l w.tree) w.tree v.tree).length := by
  obtain ⟨v, hv, hedited⟩ := editFiles_edited hreal r.edit r.nodup_files hreads
  have hresult (n : Nat) (nothing : String) :
      (editResult n nothing).success = true ∧ (editResult n nothing).filesChanged = n := by
    rw [editResult]
    split
    · rename_i hn
      exact ⟨rfl, hn.symm⟩
    · exact ⟨rfl, rfl⟩
  generalize hn : (changedPlaces (r.files l w.tree) w.tree v.tree).length = n at hv
  have hconclude : (r.conclude (r.files l w.tree) n).success = true ∧
      (r.conclude (r.files l w.tree) n).filesChanged = n := by
    cases r with
    | projectFiles =>
      obtain ⟨p, rest, hp⟩ := List.exists_cons_of_ne_nil hfiles
      rw [Rewrite.files, hp]
      exact hresult n _
    | code edit => exact hresult n _
  exact ⟨_, v, by rw [runStep_apply r hlong, hv]; rfl, hedited, hconclude.1,
    hconclude.2.trans hn.symm⟩

/-- A step that comes to a result has read all its files. -/
lemma reads_of_outcome {r : Rewrite} {t : FileTree} {result : StepOutcome}
    (h : l.outcome t r = .ok result) :
    t.isTooLong l.sources = false ∧ (∀ p ∈ r.files l t, ∃ text, t.HoldsText p text) ∧
      ∃ n, result = r.conclude (r.files l t) n := by
  rw [outcome] at h
  split at h
  · cases h
  · rename_i hlong
    cases hcount : changedOf ((r.files l t).map (t.verdict r.edit)) with
    | error f =>
      rw [hcount] at h
      cases h
    | ok n =>
      rw [hcount] at h
      refine ⟨by simpa using hlong, fun p hp => ?_, n, (Except.ok.inj h).symm⟩
      obtain ⟨changed, hverdict⟩ := exists_of_changedOf hcount _ (List.mem_map_of_mem hp)
      cases htext : t.textAt p with
      | error f =>
        rw [verdict, htext] at hverdict
        cases hverdict
      | ok text => exact ⟨text, textAt_eq_ok_iff.mp htext⟩

end Library

/-! ### Steps in a row -/

namespace Rewrite

/-- What some steps make of the text of a file: those that edit it do so one after the other. -/
def textAfter (l : Library) (t : FileTree) (rs : List Rewrite) (p : Path) (text : List Char) :
    List Char :=
  rs.foldl (fun text r => if p ∈ r.files l t then r.edit text else text) text

lemma textAfter_concat (l : Library) (t : FileTree) (rs : List Rewrite) (r : Rewrite) (p : Path)
    (text : List Char) :
    textAfter l t (rs ++ [r]) p text =
      if p ∈ r.files l t then r.edit (textAfter l t rs p text) else textAfter l t rs p text := by
  rw [textAfter, List.foldl_append]
  rfl

end Rewrite

/-- What some steps have done to a tree. -/
structure Done (l : Library) (rs : List Rewrite) (t v : FileTree) : Prop where
  same : t.SamePlaces v
  edits : ∀ p text, t.HoldsText p text → v.HoldsText p (Rewrite.textAfter l t rs p text)
  keeps : ∀ p, (∀ r ∈ rs, p ∉ r.files l t) → v.content? p = t.content? p

namespace Done

variable {l : Library} {rs : List Rewrite} {t v u : FileTree}

lemma nil (l : Library) (t : FileTree) : Done l [] t t :=
  ⟨.refl t, fun _ _ h => h, fun _ _ => rfl⟩

/-- One more step is done. -/
lemma concat (h : Done l rs t v) {r : Rewrite} (hr : Edited r.edit (r.files l v) v u) :
    Done l (rs ++ [r]) t u := by
  rw [Rewrite.files_eq h.same] at hr
  refine ⟨h.same.trans hr.same, fun p text ht => ?_, fun p hp => ?_⟩
  · rw [Rewrite.textAfter_concat]
    by_cases hp : p ∈ r.files l t
    · rw [if_pos hp]
      exact hr.edits p hp _ (h.edits p text ht)
    · rw [if_neg hp]
      exact (holdsText_congr (hr.keeps p hp)).mpr (h.edits p text ht)
  · rw [hr.keeps p (hp r (by simp)), h.keeps p fun r' hr' => hp r' (by simp [hr'])]

/-- Files that hold texts still do. -/
lemma exists_holdsText (h : Done l rs t v) {p : Path} (ht : ∃ text, t.HoldsText p text) :
    ∃ text, v.HoldsText p text := by
  obtain ⟨text, ht⟩ := ht
  exact ⟨_, h.edits p text ht⟩

end Done

namespace Library

variable {l : Library} {w : World}

/-- The steps that rewrite files find what they need in a tree. -/
structure Rewritable (l : Library) (t : FileTree) : Prop where
  found : t.isTooLong l.sources = false
  project : l.projectFiles t ≠ []
  reads : ∀ r : Rewrite, ∀ p ∈ r.files l t, ∃ text, t.HoldsText p text

lemma Rewritable.of_done {rs : List Rewrite} {t v : FileTree} (h : l.Rewritable t)
    (hdone : Done l rs t v) : l.Rewritable v where
  found := by rw [hdone.same.isTooLong_eq, h.found]
  project := by
    have hfiles := Rewrite.files_eq (l := l) hdone.same .projectFiles
    rw [Rewrite.files, Rewrite.files] at hfiles
    rw [hfiles]
    exact h.project
  reads r p hp := by
    rw [Rewrite.files_eq hdone.same] at hp
    exact hdone.exists_holdsText (h.reads r p hp)

lemma runSteps_append (l : Library) (a b : List Step) (w : World) :
    (l.runSteps (a ++ b) w).2 = (l.runSteps b (l.runSteps a w).2).2 := by
  induction a generalizing w with
  | nil => rfl
  | cons s a ih => exact ih _

/-- Steps one after the other do what each of them does. -/
theorem runSteps_done (hreal : l.dryRun = false) (h : l.Rewritable w.tree) (rs : List Rewrite) :
    Done l rs w.tree (l.runSteps (rs.map Rewrite.step) w).2.tree := by
  induction rs using List.reverseRecOn with
  | nil => exact .nil l w.tree
  | append_singleton rs r ih =>
    have hbefore := h.of_done ih
    obtain ⟨outcome, v, hv, hedited, -, -⟩ :=
      runStep_edited hreal hbefore.found hbefore.project (hbefore.reads r)
    have hstep : (l.runSteps [r.step] (l.runSteps (rs.map Rewrite.step) w).2).2 = v := by
      rw [runSteps, hv]
      rfl
    rw [List.map_append, runSteps_append, List.map_singleton, hstep]
    exact ih.concat hedited

/-! ### All steps -/

/-- A path of custom code: no directory between the root of the code and the file is generated. -/
def IsCustomCode (root p : Path) : Prop :=
  ∃ between, generatedName ∉ between ∧ LiesBelow root between ".cs" p

/-- A path of a project file. -/
def IsProjectFile (root p : Path) : Prop := ∃ between, LiesBelow root between ".csproj" p

variable {t : FileTree} {p : Path}

lemma mem_projectFiles_iff :
    p ∈ l.projectFiles t ↔ p ∈ t.places ∧ IsProjectFile (l.codeDirectory t) p :=
  mem_below_iff

lemma isCustom_of_liesBelow {root between : Path} {ending : String}
    (h : LiesBelow root between ending p) :
    isCustom root p = true ↔ generatedName ∉ between := by
  obtain ⟨name, rfl, -⟩ := h
  rw [isCustom, List.append_assoc, List.drop_left, List.dropLast_concat]
  simp

lemma mem_customFiles_iff :
    p ∈ l.customFiles t ↔ p ∈ t.places ∧ IsCustomCode (l.codeDirectory t) p := by
  rw [customFiles, List.mem_filter, mem_below_iff, and_assoc]
  refine and_congr_right fun _ => ?_
  constructor
  · rintro ⟨⟨between, hlies⟩, hcustom⟩
    exact ⟨between, (isCustom_of_liesBelow hlies).mp hcustom, hlies⟩
  · rintro ⟨between, hgenerated, hlies⟩
    exact ⟨⟨between, hlies⟩, (isCustom_of_liesBelow hlies).mpr hgenerated⟩

/-- What the edits of custom code make of a text, one after the other. -/
def rewriteCode (text : List Char) : List Char :=
  CodeEdit.inOrder.foldl (fun text edit => edit.apply text) text

lemma IsCustomCode.nameEndsWith {root : Path} (h : IsCustomCode root p) :
    nameEndsWith ".cs" p = true := by
  obtain ⟨between, -, name, rfl, hname⟩ := h
  exact nameEndsWith_concat.mpr hname

lemma IsProjectFile.nameEndsWith {root : Path} (h : IsProjectFile root p) :
    nameEndsWith ".csproj" p = true := by
  obtain ⟨between, name, rfl, hname⟩ := h
  exact nameEndsWith_concat.mpr hname

lemma IsProjectFile.not_isCustomCode {root : Path} (h : IsProjectFile root p) :
    ¬IsCustomCode root p := by
  intro hcode
  have hother := Rewrite.nameEndsWith_code_of_project h.nameEndsWith
  rw [hcode.nameEndsWith] at hother
  cases hother

/-- The steps find what they need: a project file, and text in every file that is edited. -/
lemma rewritable_of (hfound : t.isTooLong l.sources = false)
    (hproject : ∃ p ∈ t.places, IsProjectFile (l.codeDirectory t) p)
    (hreads : ∀ p ∈ t.places,
      IsCustomCode (l.codeDirectory t) p ∨ IsProjectFile (l.codeDirectory t) p →
        ∃ text, t.HoldsText p text) : l.Rewritable t where
  found := hfound
  project := by
    obtain ⟨p, hp, hkind⟩ := hproject
    exact List.ne_nil_of_mem (mem_projectFiles_iff.mpr ⟨hp, hkind⟩)
  reads r p hp := by
    cases r with
    | projectFiles =>
      obtain ⟨hplace, hkind⟩ := mem_projectFiles_iff.mp hp
      exact hreads p hplace (Or.inr hkind)
    | code edit =>
      obtain ⟨hplace, hkind⟩ := mem_customFiles_iff.mp hp
      exact hreads p hplace (Or.inl hkind)

/-- Custom code goes through the edits of custom code, one after the other. -/
lemma textAfter_customCode {text : List Char} (hp : p ∈ l.customFiles t)
    (hother : p ∉ l.projectFiles t) :
    Rewrite.textAfter l t Rewrite.inOrder p text = rewriteCode text := by
  simp [Rewrite.textAfter, Rewrite.inOrder, Rewrite.files, Rewrite.edit, rewriteCode,
    CodeEdit.inOrder, hp, hother]

/-- A project file goes through the edit of project files. -/
lemma textAfter_projectFile {text : List Char} (hp : p ∈ l.projectFiles t)
    (hother : p ∉ l.customFiles t) :
    Rewrite.textAfter l t Rewrite.inOrder p text = editProjectText text := by
  simp [Rewrite.textAfter, Rewrite.inOrder, Rewrite.files, Rewrite.edit, CodeEdit.inOrder, hp,
    hother]

/-- The steps that rewrite files leave custom code and project files with their edited texts, and every
other octet as it was; they make no place and take none away.  Each of them succeeds, and counts the
files that it changes. -/
theorem rewriting_effect (l : Library) (w : World)
    (hfound : w.tree.isTooLong l.sources = false)
    (hproject : ∃ p ∈ w.tree.places, IsProjectFile (l.codeDirectory w.tree) p)
    (hreads : ∀ p ∈ w.tree.places,
      IsCustomCode (l.codeDirectory w.tree) p ∨ IsProjectFile (l.codeDirectory w.tree) p →
        ∃ text, w.tree.HoldsText p text) :
    let root := l.codeDirectory w.tree
    let v := (l.real.runSteps Step.rewriting w).2
    w.tree.SamePlaces v.tree ∧
      (∀ p text, IsCustomCode root p → w.tree.HoldsText p text →
        v.tree.HoldsText p (rewriteCode text)) ∧
      (∀ p text, IsProjectFile root p → w.tree.HoldsText p text →
        v.tree.HoldsText p (editProjectText text)) ∧
      (∀ p, ¬IsCustomCode root p → ¬IsProjectFile root p →
        v.tree.content? p = w.tree.content? p) ∧
      ∀ before s after, Step.rewriting = before ++ s :: after →
        ∃ outcome v u, (l.real.runSteps before w).2 = v ∧ l.real.runStep s v = (.ok outcome, u) ∧
          outcome.success = true ∧
          ∃ changed : List Path, changed.Nodup ∧
            (∀ p, p ∈ changed ↔ u.tree.content? p ≠ v.tree.content? p) ∧
            outcome.filesChanged = changed.length := by
  intro root v
  have hready : l.real.Rewritable w.tree := rewritable_of hfound hproject hreads
  have hdone : Done l.real Rewrite.inOrder w.tree v.tree := runSteps_done rfl hready Rewrite.inOrder
  have hplace {p : Path} {text : List Char} (ht : w.tree.HoldsText p text)
      (hp : IsCustomCode root p ∨ IsProjectFile root p) : p ∈ w.tree.places := by
    refine mem_places_of_holdsText ?_ ht
    rintro rfl
    rcases hp with ⟨_, _, _, h, _⟩ | ⟨_, _, h, _⟩
    · simp at h
    · simp at h
  refine ⟨hdone.same, fun p text hp ht => ?_, fun p text hp ht => ?_, fun p hcode hproj => ?_, ?_⟩
  · have hmem : p ∈ l.real.customFiles w.tree :=
      mem_customFiles_iff.mpr ⟨hplace ht (Or.inl hp), hp⟩
    have hother : p ∉ l.real.projectFiles w.tree := fun h =>
      (mem_projectFiles_iff.mp h).2.not_isCustomCode hp
    rw [← textAfter_customCode hmem hother]
    exact hdone.edits p text ht
  · have hmem : p ∈ l.real.projectFiles w.tree :=
      mem_projectFiles_iff.mpr ⟨hplace ht (Or.inr hp), hp⟩
    have hother : p ∉ l.real.customFiles w.tree := fun h =>
      hp.not_isCustomCode (mem_customFiles_iff.mp h).2
    rw [← textAfter_projectFile hmem hother]
    exact hdone.edits p text ht
  · refine hdone.keeps p fun r _ hmem => ?_
    cases r with
    | projectFiles => exact hproj (mem_projectFiles_iff.mp hmem).2
    | code edit => exact hcode (mem_customFiles_iff.mp hmem).2
  · intro before s after hsteps
    rw [← Rewrite.map_step_inOrder, List.map_eq_append_iff] at hsteps
    obtain ⟨rs, rest, -, rfl, hrest⟩ := hsteps
    obtain ⟨r, rest, -, rfl, -⟩ := List.map_eq_cons_iff.mp hrest
    have hbefore := hready.of_done (runSteps_done rfl hready rs)
    obtain ⟨outcome, u, hu, hedited, hsuccess, hcount⟩ :=
      runStep_edited rfl hbefore.found hbefore.project (hbefore.reads r)
    refine ⟨outcome, _, u, rfl, hu, hsuccess, _, r.nodup_files.filter _, fun p => ?_, hcount⟩
    exact hedited.mem_changedPlaces_iff

/-- A project file, a file of custom code and one of generated code that reads the same. -/
def plainTree : FileTree :=
  { files :=
      [(["lib", "lib.csproj"], Utf8.encode "<Project />".toList),
        (["lib", "Client.cs"], Utf8.encode "_pipeline".toList),
        (["lib", "Generated", "Client.cs"], Utf8.encode "_pipeline".toList)]
    directories := [] }

/-- A library whose source code lies in its project directory. -/
def plainLibrary : Library where
  project := ["lib"]
  dryRun := false
  commits := ⟨CommitService.usualAddress, none⟩
  search := ⟨"/lib", ⟨"model", "model", none, "acceptEdits", none⟩⟩

theorem plain_rewriting_effect :
    let v := (plainLibrary.real.runSteps Step.rewriting { tree := plainTree }).2
    v.tree.HoldsText ["lib", "Client.cs"] "Pipeline".toList ∧
      v.tree.HoldsText ["lib", "lib.csproj"] "<Project />".toList ∧
      v.tree.HoldsText ["lib", "Generated", "Client.cs"] "_pipeline".toList := by
  have hroot : plainLibrary.codeDirectory plainTree = ["lib"] := by decide +kernel
  have hplaces : plainTree.places = [["lib"], ["lib", "lib.csproj"], ["lib", "Client.cs"],
    ["lib", "Generated"], ["lib", "Generated", "Client.cs"]] := by decide +kernel
  have hfound : plainTree.isTooLong plainLibrary.sources = false := by decide +kernel
  have hproject : IsProjectFile ["lib"] ["lib", "lib.csproj"] :=
    ⟨[], "lib.csproj", rfl, by decide⟩
  have hcode : IsCustomCode ["lib"] ["lib", "Client.cs"] :=
    ⟨[], by simp, "Client.cs", rfl, by decide⟩
  have hreads : ∀ p ∈ plainTree.places, IsCustomCode ["lib"] p ∨ IsProjectFile ["lib"] p →
      ∃ text, plainTree.HoldsText p text := by
    intro p hp hkind
    have hname : nameEndsWith ".cs" p = true ∨ nameEndsWith ".csproj" p = true :=
      hkind.imp IsCustomCode.nameEndsWith IsProjectFile.nameEndsWith
    rw [hplaces] at hp
    simp only [List.mem_cons, List.not_mem_nil, or_false] at hp
    rcases hp with rfl | rfl | rfl | rfl | rfl
    · exact absurd hname (by decide)
    · exact ⟨_, rfl⟩
    · exact ⟨_, rfl⟩
    · exact absurd hname (by decide)
    · exact ⟨_, rfl⟩
  have heffect := rewriting_effect plainLibrary { tree := plainTree } hfound
    ⟨_, by rw [hplaces]; simp, hroot ▸ hproject⟩ (hroot ▸ hreads)
  obtain ⟨-, hcustom, hprojects, hkeeps, -⟩ := heffect
  refine ⟨?_, ?_, ?_⟩
  · have hrewritten : rewriteCode "_pipeline".toList = "Pipeline".toList := by decide +kernel
    rw [← hrewritten]
    exact hcustom _ _ (hroot ▸ hcode) rfl
  · have hedited : editProjectText "<Project />".toList = "<Project />".toList := by decide +kernel
    rw [← hedited]
    exact hprojects _ _ (hroot ▸ hproject) rfl
  · have hgenerated : ¬IsCustomCode ["lib"] ["lib", "Generated", "Client.cs"] := by
      rintro ⟨between, hgenerated, name, hp, -⟩
      have hbetween : ["Generated"] = between := by
        have hrest : ["Generated", "Client.cs"] = between ++ [name] := (List.cons.inj hp).2
        exact (List.append_inj' (show ["Generated"] ++ ["Client.cs"] = _ from hrest) rfl).1
      exact hgenerated (by simp [← hbetween, generatedName])
    have hother : ¬IsProjectFile ["lib"] ["lib", "Generated", "Client.cs"] := fun h =>
      absurd h.nameEndsWith (by decide)
    exact (holdsText_congr (hkeeps _ (hroot ▸ hgenerated) (hroot ▸ hother))).mpr rfl

end Library

end Migration

end BuildMend
