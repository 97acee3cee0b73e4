import BuildMend.Migration.Steps
import BuildMend.Proofs.Ends
import BuildMend.Proofs.FileTree
import BuildMend.Proofs.Migration.Edits
import BuildMend.Text.Utf8.Lemmas

/-!
The steps that rewrite files, and what they end in.

* `FileTree.verdict`: whether an edit changes a file, or why that cannot be read.
* `Library.editFiles_eq`: editing files ends as the verdicts before it say.
* `Rewrite`: the steps that edit files; `Library.outcome`: what such a step ends in.
* `Library.runSteps_eq`: steps that leave to each other what they have to do end as each of them would
  on the files that there were before all of them.
-/

namespace BuildMend

open Act Text

/-! ### The texts of files -/

namespace FileTree

variable {t v u : FileTree}

/-- The text of the file at a path, or why there is none. -/
def textAt (t : FileTree) (p : Path) : Except Failure (List Char) :=
  match t.content? p with
  | none => .error (.isDirectory p.fullText)
  | some content => (Utf8.decode content).mapError fun e => .undecodable (.octets e)

lemma isFile_of_textAt {p : Path} {text : List Char} (h : t.textAt p = .ok text) :
    t.isFile p = true := by
  rw [textAt] at h
  split at h
  · cases h
  · rename_i hc
    rw [isFile, hc]
    rfl

/-- What is written is read. -/
lemma textAt_write (t : FileTree) (p q : Path) (text : List Char) :
    (t.write p (Utf8.encode text)).textAt q = if q = p then .ok text else t.textAt q := by
  rw [textAt, content?_write]
  by_cases hq : q = p
  · rw [if_pos hq, if_pos hq]
    dsimp only
    rw [Utf8.decode_encode]
    rfl
  · rw [if_neg hq, if_neg hq]
    rfl

/-- Whether an edit changes the file at a path, or why that cannot be read. -/
def verdict (edit : List Char → List Char) (t : FileTree) (p : Path) : Except Failure Bool :=
  (t.textAt p).map fun text => edit text != text

lemma verdict_congr {edit : List Char → List Char} {p : Path} (h : v.textAt p = t.textAt p) :
    v.verdict edit p = t.verdict edit p := by
  rw [verdict, verdict, h]

/-- One tree is another in which some files may have been edited. -/
structure Rewritten (edit : List Char → List Char) (places : List Path) (t v : FileTree) : Prop where
  same : t.SamePlaces v
  each : ∀ p, v.textAt p = t.textAt p ∨
    p ∈ places ∧ ∃ text, t.textAt p = .ok text ∧ v.textAt p = .ok (edit text)

namespace Rewritten

variable {edit : List Char → List Char} {places : List Path} {p : Path}

lemma refl (edit : List Char → List Char) (places : List Path) (t : FileTree) :
    Rewritten edit places t t :=
  ⟨.refl t, fun _ => Or.inl rfl⟩

/-- Any other file stays. -/
lemma textAt_eq (h : Rewritten edit places t v) (hp : p ∉ places) : v.textAt p = t.textAt p :=
  (h.each p).resolve_right fun hmem => hp hmem.1

lemma mono {places' : List Path} (h : Rewritten edit places t v) (hsub : places ⊆ places') :
    Rewritten edit places' t v :=
  ⟨h.same, fun q => (h.each q).imp_right fun ⟨hq, hedit⟩ => ⟨hsub hq, hedit⟩⟩

/-- One file gets its edited text. -/
lemma write {text : List Char} (h : t.textAt p = .ok text) :
    Rewritten edit [p] t (t.write p (Utf8.encode (edit text))) where
  same := samePlaces_write (isFile_of_textAt h) _
  each q := by
    rw [textAt_write]
    by_cases hq : q = p
    · rw [if_pos hq, hq]
      exact Or.inr ⟨by simp, text, h, rfl⟩
    · rw [if_neg hq]
      exact Or.inl rfl

/-- One file is edited, and then others. -/
lemma cons (h : Rewritten edit [p] t v) (hp : p ∉ places) (h' : Rewritten edit places v u) :
    Rewritten edit (p :: places) t u where
  same := h.same.trans h'.same
  each q := by
    rcases h'.each q with hu | ⟨hq, text, hv, hu⟩
    · rw [hu]
      exact (h.each q).imp_right fun ⟨hq, hedit⟩ => ⟨by simp_all, hedit⟩
    · have hne : q ∉ [p] := by
        rintro hmem
        rw [List.mem_singleton.mp hmem] at hq
        exact hp hq
      exact Or.inr ⟨List.mem_cons_of_mem p hq, text, by rw [← h.textAt_eq hne, hv], hu⟩

end Rewritten

end FileTree

namespace Migration

open FileTree

/-- How many files are changed, up to the first that cannot be read. -/
def changedOf : List (Except Failure Bool) → Except Failure Nat
  | [] => .ok 0
  | .error f :: _ => .error f
  | .ok changed :: rest => (changedOf rest).map fun n => if changed then 1 + n else n

/-- Files are counted only if all of them can be read. -/
lemma exists_of_changedOf {verdicts : List (Except Failure Bool)} {n : ℕ}
    (h : changedOf verdicts = .ok n) : ∀ x ∈ verdicts, ∃ changed, x = .ok changed := by
  induction verdicts generalizing n with
  | nil => simp
  | cons x rest ih =>
    cases x with
    | error f => cases h
    | ok changed =>
      rw [changedOf] at h
      cases hrest : changedOf rest with
      | error f =>
        rw [hrest] at h
        cases h
      | ok k => exact List.forall_mem_cons.mpr ⟨⟨changed, rfl⟩, ih hrest⟩

namespace Library

/-! ### Editing files -/

lemma load_apply (p : Path) (w : World) : load p w = (w.tree.textAt p, w) := by
  rw [load, bind_apply, Action.readFile, bind_apply, get_apply, textAt]
  dsimp only
  cases w.tree.content? p with
  | none => rfl
  | some content =>
    dsimp only
    cases Utf8.decode content with
    | error e => rfl
    | ok text => simp [Except.mapError]

/-- A file gets the text, unless changes are only reported; nobody is asked. -/
lemma save_apply (l : Library) (p : Path) (text : List Char) (w : World) :
    ∃ v, l.save p text w = (.ok (), v) ∧ v.clients = w.clients ∧ v.replies = w.replies ∧
      v.tree = if l.dryRun then w.tree else w.tree.write p (Utf8.encode text) := by
  have hoctets : Utf8.encodeString (String.ofList text) = Utf8.encode text := by
    rw [Utf8.encodeString, String.toList_ofList]
  rw [save, ← hoctets]
  split
  · exact ⟨_, rfl, rfl, rfl, rfl⟩
  · exact ⟨_, rfl, rfl, rfl, rfl⟩

/-- Editing files ends as the verdicts before it say, and edits no others. -/
theorem editFiles_eq (l : Library) (edit : List Char → List Char) {places : List Path}
    (hn : places.Nodup) (w : World) :
    ∃ v, l.editFiles edit places w = (changedOf (places.map (w.tree.verdict edit)), v) ∧
      Rewritten edit places w.tree v.tree := by
  induction places generalizing w with
  | nil => exact ⟨w, rfl, .refl _ _ _⟩
  | cons p rest ih =>
    obtain ⟨hp, hrest⟩ := List.nodup_cons.mp hn
    rw [List.map_cons, editFiles, bind_apply, load_apply, verdict]
    cases hread : w.tree.textAt p with
    | error f => exact ⟨w, rfl, .refl _ _ _⟩
    | ok text =>
      by_cases hchange : edit text = text
      · obtain ⟨v, hv, hrw⟩ := ih hrest w
        refine ⟨v, ?_, hrw.mono (List.subset_cons_self p rest)⟩
        have hfalse : (edit text != text) = false := by simpa using hchange
        simp only [hfalse, Bool.false_eq_true, if_false, hv, Except.map, changedOf]
        cases changedOf (rest.map (w.tree.verdict edit)) <;> rfl
      · obtain ⟨v, hv, -, -, htree⟩ := l.save_apply p (edit text) w
        obtain ⟨u, hu, hrw⟩ := ih hrest v
        have htrue : (edit text != text) = true := by simpa using hchange
        have hone : Rewritten edit [p] w.tree v.tree := by
          rw [htree]
          split
          · exact .refl _ _ _
          · exact .write hread
        -- the files still to come are as before
        have hlater : rest.map (v.tree.verdict edit) = rest.map (w.tree.verdict edit) := by
          refine List.map_congr_left fun q hq => verdict_congr (hone.textAt_eq ?_)
          rintro hmem
          rw [List.mem_singleton.mp hmem] at hq
          exact hp hq
        refine ⟨u, ?_, hone.cons hp hrw⟩
        simp only [htrue, if_true, bind_apply, hv, hu, hlater, Except.map, changedOf]
        cases changedOf (rest.map (w.tree.verdict edit)) <;> rfl

end Library

/-! ### The steps -/

/-- The steps that edit files. -/
inductive Rewrite where
  | projectFiles
  | code (edit : CodeEdit)

namespace Rewrite

/-- The step itself. -/
def step : Rewrite → Step
  | .projectFiles => .projectFiles
  | .code edit => .code edit

/-- What a step does to a text. -/
def edit : Rewrite → List Char → List Char
  | .projectFiles => Library.editProjectText
  | .code edit => edit.apply

/-- The ending of the files that a step edits. -/
def ending : Rewrite → String
  | .projectFiles => ".csproj"
  | .code _ => ".cs"

/-- The files that a step edits. -/
def files (l : Library) (t : FileTree) : Rewrite → List Path
  | .projectFiles => l.projectFiles t
  | .code _ => l.customFiles t

/-- The result of a step that has changed some of its files. -/
def conclude : Rewrite → List Path → (changed : Nat) → StepOutcome
  | .projectFiles, [], _ => .failed "No .csproj files found"
  | .projectFiles, _ :: _, changed =>
    Library.editResult changed "No IncludeAutorestDependency found in .csproj files"
  | .code edit, _, changed => Library.editResult changed edit.nothingFound

variable {l : Library} {t v : FileTree}

lemma nodup_files (r : Rewrite) : (r.files l t).Nodup := by
  cases r with
  | projectFiles => exact nodup_below _ _ _
  | code edit => exact (nodup_below _ _ _).filter _

lemma nameEndsWith_of_mem_files {r : Rewrite} {p : Path} (h : p ∈ r.files l t) :
    nameEndsWith r.ending p = true := by
  cases r with
  | projectFiles => exact nameEndsWith_of_mem_below h
  | code edit => exact nameEndsWith_of_mem_below (List.mem_of_mem_filter h)

lemma files_eq (h : t.SamePlaces v) (r : Rewrite) : r.files l v = r.files l t := by
  have hroot : l.codeDirectory v = l.codeDirectory t := by
    rw [Library.codeDirectory, Library.codeDirectory, h.isDirectory_eq]
  cases r with
  | projectFiles =>
    rw [files, files, Library.projectFiles, Library.projectFiles, hroot, h.below_eq]
  | code edit =>
    rw [files, files, Library.customFiles, Library.customFiles, hroot, h.below_eq]

end Rewrite

namespace Library

/-- What a step ends in on some files. -/
def outcome (l : Library) (t : FileTree) (r : Rewrite) : Except Failure StepOutcome :=
  if t.isTooLong l.sources then .error (.pathTooLong l.sources.fullText)
  else (changedOf ((r.files l t).map (t.verdict r.edit))).map (r.conclude (r.files l t))

lemma lookFor_apply (p : Path) (w : World) :
    Action.lookFor p w =
      (if w.tree.isTooLong p then .error (.pathTooLong p.fullText) else .ok (), w) := by
  rw [Action.lookFor, bind_apply, get_apply]
  dsimp only
  split <;> rfl

/-- A step edits its files and concludes from the count of those that change. -/
lemma runStep_apply {l : Library} {w : World} (r : Rewrite)
    (hlong : w.tree.isTooLong l.sources = false) :
    l.runStep r.step w =
      ((l.editFiles r.edit (r.files l w.tree) w).1.map (r.conclude (r.files l w.tree)),
        (l.editFiles r.edit (r.files l w.tree) w).2) := by
  have hfound : Action.lookFor l.sources w = (.ok (), w) := by
    rw [lookFor_apply, hlong]
    rfl
  cases r with
  | projectFiles =>
    rw [Rewrite.step, runStep, editProjects]
    refine (bind_of_ok hfound).trans ((bind_of_ok (get_apply w)).trans ?_)
    rw [Rewrite.files]
    cases l.projectFiles w.tree with
    | nil => rfl
    | cons p rest =>
      simp only
      rw [bind_apply, Rewrite.edit]
      obtain ⟨result, v⟩ := l.editFiles editProjectText (p :: rest) w
      cases result <;> rfl
  | code edit =>
    rw [Rewrite.step, runStep, editCode]
    refine (bind_of_ok hfound).trans ((bind_of_ok (get_apply w)).trans ?_)
    rw [Rewrite.files, Rewrite.edit, bind_apply]
    obtain ⟨result, v⟩ := l.editFiles edit.apply (l.customFiles w.tree) w
    cases result <;> rfl

/-- A step ends as its verdicts say, whether files are written or not. -/
theorem runStep_eq (l : Library) (r : Rewrite) (w : World) :
    ∃ v, l.runStep r.step w = (l.outcome w.tree r, v) ∧
      Rewritten r.edit (r.files l w.tree) w.tree v.tree := by
  obtain ⟨v, hv, hrw⟩ := l.editFiles_eq r.edit (r.nodup_files (l := l) (t := w.tree)) w
  by_cases hlong : w.tree.isTooLong l.sources = true
  · refine ⟨w, ?_, .refl _ _ _⟩
    rw [outcome, if_pos hlong]
    cases r with
    | projectFiles => rw [Rewrite.step, runStep, editProjects, bind_apply, lookFor_apply, if_pos hlong]
    | code edit => rw [Rewrite.step, runStep, editCode, bind_apply, lookFor_apply, if_pos hlong]
  · refine ⟨v, ?_, hrw⟩
    rw [outcome, if_neg hlong, runStep_apply r (by simpa using hlong), hv]

end Library

/-! ### Steps in a row -/

namespace Rewrite

/-- A step leaves to another one what that has to do: they edit different files, or whether the second
one changes a text does not depend on the first one. -/
def Spares (r r' : Rewrite) : Prop :=
  (∀ p, nameEndsWith r.ending p = true → nameEndsWith r'.ending p = false) ∨
    ∀ text, r'.edit (r.edit text) ≠ r.edit text ↔ r'.edit text ≠ text

/-- The verdicts of a step stay what they were before another one that leaves them to it. -/
lemma Spares.verdict_eq {r r' : Rewrite} (h : r.Spares r') {l : Library} {t v : FileTree}
    (hrw : Rewritten r.edit (r.files l t) t v) {p : Path} (hp : nameEndsWith r'.ending p = true) :
    v.verdict r'.edit p = t.verdict r'.edit p := by
  rcases hrw.each p with heq | ⟨hmem, text, ht, hv⟩
  · exact verdict_congr heq
  · rcases h with hends | hedit
    · have hother := hends p (nameEndsWith_of_mem_files hmem)
      rw [hp] at hother
      cases hother
    · have hsame : (r'.edit (r.edit text) != r.edit text) = (r'.edit text != text) := by
        rw [Bool.eq_iff_iff, bne_iff_ne, bne_iff_ne]
        exact hedit text
      rw [verdict, verdict, hv, ht]
      exact congrArg Except.ok hsame

end Rewrite

/-- Two trees have the same places, and some steps have the same verdicts on them. -/
structure Agree (rs : List Rewrite) (t v : FileTree) : Prop where
  same : t.SamePlaces v
  verdict : ∀ r ∈ rs, ∀ p, nameEndsWith r.ending p = true →
    v.verdict r.edit p = t.verdict r.edit p

lemma Agree.outcome_eq {rs : List Rewrite} {t v : FileTree} (h : Agree rs t v) (l : Library)
    {r : Rewrite} (hr : r ∈ rs) : l.outcome v r = l.outcome t r := by
  have hverdicts : (r.files l t).map (v.verdict r.edit) = (r.files l t).map (t.verdict r.edit) :=
    List.map_congr_left fun p hp => h.verdict r hr p (Rewrite.nameEndsWith_of_mem_files hp)
  rw [Library.outcome, Library.outcome, h.same.isTooLong_eq, Rewrite.files_eq h.same, hverdicts]

namespace Library

/-- What some steps end in, one after the other, each of them also after a failure of one before, and
the world behind them. -/
def runSteps (l : Library) : List Step → World → List (Except Failure StepOutcome) × World
  | [], w => ([], w)
  | s :: rest, w =>
    let (r, w) := l.runStep s w
    let (rs, w) := l.runSteps rest w
    (r :: rs, w)

/-- Steps that leave to each other what they have to do end as each of them would on the files that
there were before all of them, whether files are written or not. -/
theorem runSteps_eq (l : Library) {rs : List Rewrite} (hrs : rs.Pairwise Rewrite.Spares)
    {t : FileTree} {w : World} (h : Agree rs t w.tree) :
    (l.runSteps (rs.map Rewrite.step) w).1 = rs.map (l.outcome t) := by
  induction rs generalizing w with
  | nil => rfl
  | cons r rs ih =>
    obtain ⟨hr, hrest⟩ := List.pairwise_cons.mp hrs
    obtain ⟨v, hv, hrw⟩ := l.runStep_eq r w
    have hagree : Agree rs t v.tree := {
      same := h.same.trans hrw.same
      verdict := fun r' hmem p hp =>
        ((hr r' hmem).verdict_eq hrw hp).trans (h.verdict r' (List.mem_cons_of_mem r hmem) p hp) }
    rw [List.map_cons, List.map_cons, runSteps, hv]
    dsimp only
    rw [ih hrest hagree, h.outcome_eq l (by simp)]

end Library

end Migration

end BuildMend
