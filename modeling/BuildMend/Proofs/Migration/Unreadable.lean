import BuildMend.Proofs.Migration.Effect
import BuildMend.Proofs.Migration.Sequence

/-!
Custom code that cannot be read.

* `FileTree.pairwise_below`: the places below a directory are sorted.
* `Library.FirstUnreadable`: the first file of custom code that cannot be read.
* `StoppedAt`: an edit of custom code has stopped at a file: those before it are edited, nothing else is.
* `Library.editFiles_stops`: editing files stops at the first of them that cannot be read.
* `openingSteps`, `codeSteps`: the steps up to the first edit of custom code, and those edits.
* `unreadable_code_stops`: an edit of custom code, and a whole migration, stop at that file.
-/

namespace BuildMend

open Act FileTree Text

/-! ### The order of files -/

namespace FileTree

/-- The places below a directory are sorted by their names. -/
lemma pairwise_below (t : FileTree) (directory : Path) (ending : String) :
    (t.below directory ending).Pairwise (· < ·) := by
  have hlex {a b : Path} : (!b.lex a fun x y => decide (x < y)) = true ↔ a ≤ b := by
    rw [Bool.not_eq_true', ← Bool.not_eq_true, List.lex_eq_true_iff_lt]
    exact not_lt
  have hle : (t.below directory ending).Pairwise (· ≤ ·) := by
    refine (List.pairwise_mergeSort ?_ ?_ _).imp hlex.mp
    · intro a b c hab hbc
      exact hlex.mpr ((hlex.mp hab).trans (hlex.mp hbc))
    · intro a b
      rw [Bool.or_eq_true, hlex, hlex]
      exact le_total a b
  exact (hle.and (nodup_below t directory ending)).imp fun h => lt_of_le_of_ne h.1 h.2

end FileTree

/-- What stands before a place in a sorted list is what is less. -/
lemma exists_sorted_split {α : Type} [Preorder α] {l : List α} {a : α}
    (h : l.Pairwise (· < ·)) (ha : a ∈ l) :
    ∃ before after, l = before ++ a :: after ∧ ∀ b ∈ l, b ∈ before ↔ b < a := by
  obtain ⟨before, after, rfl⟩ := List.append_of_mem ha
  refine ⟨before, after, rfl, fun b hb => ⟨fun hmem => ?_, fun hlt => ?_⟩⟩
  · exact (List.pairwise_append.mp h).2.2 b hmem a (by simp)
  · have hafter : ∀ c ∈ after, a < c := (List.pairwise_cons.mp (List.pairwise_append.mp h).2.1).1
    rcases List.mem_append.mp hb with hmem | hmem
    · exact hmem
    · rcases List.mem_cons.mp hmem with rfl | hmem
      · exact absurd hlt (lt_irrefl _)
      · exact absurd (hlt.trans (hafter b hmem)) (lt_irrefl _)

namespace Migration

/-! ### Editing files up to one that cannot be read -/

/-- An edit of custom code has stopped at a file: the files of custom code before it are edited, and every
other octet stays as it was; nothing is done but telling which files are saved. -/
structure StoppedAt (root p : Path) (edit : CodeEdit) (w v : World) : Prop where
  same : w.tree.SamePlaces v.tree
  edited : ∀ q text, Library.IsCustomCode root q → q < p → w.tree.HoldsText q text →
    v.tree.HoldsText q (edit.apply text)
  kept : ∀ q, ¬(Library.IsCustomCode root q ∧ q < p) → v.tree.content? q = w.tree.content? q
  told : ∃ es, v.trace = w.trace ++ es ∧
    ∀ e ∈ es, ∃ q, Library.IsCustomCode root q ∧ q < p ∧ e = savedRecord q

namespace Library

variable {l : Library} {w : World} {edit : List Char → List Char} {places : List Path} {p : Path}
  {f : Failure}

/-- The first file of custom code that cannot be read, and why it cannot. -/
structure FirstUnreadable (l : Library) (t : FileTree) (p : Path) (f : Failure) : Prop where
  place : p ∈ t.places
  custom : IsCustomCode (l.codeDirectory t) p
  failure : t.textAt p = .error f
  first : ∀ q ∈ t.places, IsCustomCode (l.codeDirectory t) q → q < p → ∃ text, t.HoldsText q text

/-- Editing files stops at the first of them that cannot be read. -/
theorem editFiles_stops (hreal : l.dryRun = false) (edit : List Char → List Char)
    {before : List Path} (rest : List Path) (hn : (before ++ [p]).Nodup)
    (hreads : ∀ q ∈ before, ∃ text, w.tree.HoldsText q text) (hp : w.tree.textAt p = .error f) :
    ∃ v, l.editFiles edit (before ++ p :: rest) w = (.error f, v) ∧
      Edited edit before w.tree v.tree ∧
      ∃ es, v.trace = w.trace ++ es ∧ ∀ e ∈ es, ∃ q ∈ before, e = savedRecord q := by
  induction before generalizing w with
  | nil =>
    refine ⟨w, ?_, .nil edit w.tree, [], by simp, by simp⟩
    rw [List.nil_append, editFiles, bind_apply, load_apply, hp]
  | cons q before ih =>
    obtain ⟨hq, hbefore⟩ := List.nodup_cons.mp hn
    obtain ⟨text, htext⟩ := hreads q List.mem_cons_self
    have hload : load q w = (.ok text, w) := by
      rw [load_apply, textAt_eq_ok_iff.mpr htext]
    -- the other files are edited in a world in which this one is done
    have hlater {u : World} (es : List Event) (hu : Edited edit [q] w.tree u.tree)
        (htrace : u.trace = w.trace ++ es) (hes : ∀ e ∈ es, e = savedRecord q) :
        ∃ v, l.editFiles edit (before ++ p :: rest) u = (.error f, v) ∧
          Edited edit (q :: before) w.tree v.tree ∧
          ∃ es, v.trace = w.trace ++ es ∧ ∀ e ∈ es, ∃ r ∈ q :: before, e = savedRecord r := by
      have hkeeps : ∀ r ∈ before ++ [p], u.tree.content? r = w.tree.content? r := fun r hr =>
        hu.keeps r fun hmem => hq (List.mem_singleton.mp hmem ▸ hr)
      obtain ⟨v, hv, hedited, fs, hfs, hall⟩ := ih hbefore (w := u)
        (fun r hr => by
          obtain ⟨text, ht⟩ := hreads r (List.mem_cons_of_mem q hr)
          exact ⟨text, (holdsText_congr (hkeeps r (by simp [hr]))).mpr ht⟩)
        (by rw [textAt, hkeeps p (by simp), ← textAt, hp])
      refine ⟨v, hv, hu.cons (fun hmem => hq (by simp [hmem])) hedited, es ++ fs,
        by rw [hfs, htrace, List.append_assoc], fun e he => ?_⟩
      rcases List.mem_append.mp he with he | he
      · exact ⟨q, by simp, hes e he⟩
      · obtain ⟨r, hr, rfl⟩ := hall e he
        exact ⟨r, List.mem_cons_of_mem q hr, rfl⟩
    rw [List.cons_append, editFiles, bind_of_ok hload]
    by_cases hchange : edit text = text
    · have hfalse : (edit text != text) = false := by simpa using hchange
      simp only [hfalse, Bool.false_eq_true, if_false]
      exact hlater [] (.unchanged htext hchange) (by simp) (by simp)
    · have htrue : (edit text != text) = true := by simpa using hchange
      simp only [htrue, if_true]
      rw [bind_of_ok (save_told hreal q (edit text) w), bind_apply]
      obtain ⟨v, hv, hrest⟩ := hlater [savedRecord q]
        (u := { w.told [savedRecord q] with tree := w.tree.write q (Utf8.encode (edit text)) })
        (.write htext) (by simp [World.told, World.trace]) (by simp)
      exact ⟨v, by rw [hv], hrest⟩

/-- An edit of custom code stops at the first file that it cannot read. -/
theorem editCode_stops (hreal : l.dryRun = false) (hfound : w.tree.isTooLong l.sources = false)
    (h : l.FirstUnreadable w.tree p f) (edit : CodeEdit) :
    ∃ v, l.runStep (.code edit) w = (.error f, v) ∧
      StoppedAt (l.codeDirectory w.tree) p edit w v := by
  set root := l.codeDirectory w.tree
  have hsorted : (l.customFiles w.tree).Pairwise (· < ·) := (pairwise_below _ _ _).filter _
  obtain ⟨before, rest, hfiles, hbefore⟩ :=
    exists_sorted_split hsorted (mem_customFiles_iff.mpr ⟨h.place, h.custom⟩)
  have hmem (q : Path) : q ∈ before ↔ q ∈ w.tree.places ∧ IsCustomCode root q ∧ q < p := by
    constructor
    · intro hq
      have hcustom : q ∈ l.customFiles w.tree := by rw [hfiles]; simp [hq]
      obtain ⟨hplace, hkind⟩ := mem_customFiles_iff.mp hcustom
      exact ⟨hplace, hkind, (hbefore q hcustom).mp hq⟩
    · rintro ⟨hplace, hkind, hlt⟩
      exact (hbefore q (mem_customFiles_iff.mpr ⟨hplace, hkind⟩)).mpr hlt
  have hn : (before ++ [p]).Nodup := by
    have hall := (Rewrite.nodup_files (l := l) (t := w.tree) (.code edit))
    rw [Rewrite.files, hfiles, List.append_cons] at hall
    exact hall.of_append_left
  obtain ⟨v, hv, hedited, es, hes, htold⟩ := editFiles_stops hreal edit.apply rest hn
    (fun q hq => h.first q ((hmem q).mp hq).1 ((hmem q).mp hq).2.1 ((hmem q).mp hq).2.2) h.failure
  refine ⟨v, ?_, hedited.same, fun q text hkind hlt ht => ?_, fun q hq => ?_, es, hes, fun e he => ?_⟩
  · have hrun := runStep_apply (.code edit) hfound
    rw [Rewrite.files, hfiles, Rewrite.edit, hv] at hrun
    exact hrun
  · refine hedited.edits q ((hmem q).mpr ⟨mem_places_of_holdsText ?_ ht, hkind, hlt⟩) text ht
    rintro rfl
    obtain ⟨_, _, _, h, _⟩ := hkind
    simp at h
  · exact hedited.keeps q fun hmem' => hq ((hmem q).mp hmem').2
  · obtain ⟨q, hq, rfl⟩ := htold e he
    exact ⟨q, ((hmem q).mp hq).2.1, ((hmem q).mp hq).2.2, rfl⟩

end Library

/-! ### A whole migration -/

/-- The steps before the first edit of custom code. -/
def openingSteps : List Step := [.emitterPath, .commit, .projectFiles]

/-- The edits of custom code, in the order of their steps. -/
def codeSteps : List Step := CodeEdit.inOrder.map .code

lemma openingSteps_append_codeSteps : openingSteps ++ codeSteps = Step.all := rfl

/-- A migration before its first step. -/
def begun (m : Migration) (w : World) : MigrationBench where
  world := w.told [.log .info .migration s!"Migrating library at: {m.library.project.fullText}"]

/-- The world in which a step is performed. -/
def announced (index : Nat) (s : Step) (w : World) : World :=
  w.told [.log .info .migration s!"Step {index}: {s.title}..."]

variable {m : Migration} {w v : World} {b : MigrationBench} {f : Failure}

lemma steps_append (m : Migration) (index : Nat) (ss rest : List Step) :
    m.steps index (ss ++ rest) = do
      if ← m.steps index ss then m.steps (index + ss.length) rest else return false := by
  induction ss generalizing index with
  | nil => rfl
  | cons s ss ih =>
    funext b
    rw [List.cons_append, steps, steps, bind_apply, bind_apply, bind_apply]
    rcases m.step index s b with ⟨f | goesOn, c⟩
    · rfl
    · cases goesOn with
      | false => rfl
      | true =>
        dsimp only
        rw [if_pos rfl, if_pos rfl, ih, bind_apply, List.length_cons, Nat.add_right_comm,
          Nat.add_assoc]

/-- What a step raises ends the steps. -/
lemma steps_raise {index : Nat} {s : Step} {rest : List Step}
    (h : m.library.runStep s (announced index s b.world) = (.error f, v)) :
    m.steps index (s :: rest) b = (.error f, { b with world := v }) := by
  have hnote : note .info s!"Step {index}: {s.title}..." b =
      (.ok (), { b with world := announced index s b.world }) := rfl
  rw [steps, bind_apply, step, bind_of_ok hnote, bind_apply, inWorld, zoom_apply, h]

/-- What is raised behind the first steps ends the migration, and is told. -/
lemma run_of_raised (hopening : m.steps 1 openingSteps (m.begun w) = (.ok true, b))
    (hcode : m.steps 4 codeSteps b = (.error f, { b with world := v }))
    (hf : f.isInterruption = false) :
    m.run w =
      (.ok { b.result with error := some f.message },
        v.told [.log .error .migration s!"Migration failed: {f.message}"]) := by
  have hsteps : m.steps 1 Step.all (m.begun w) = (.error f, { b with world := v }) := by
    rw [← openingSteps_append_codeSteps, steps_append, bind_of_ok hopening, if_pos rfl]
    exact hcode
  have hparts : Act.attempt m.parts (m.begun w) = (.ok (.error f), { b with world := v }) := by
    rw [attempt_apply, parts, bind_apply, hsteps]
  have hnote : note .info s!"Migrating library at: {m.library.project.fullText}"
      ⟨w, { success := false }⟩ = (.ok (), m.begun w) := rfl
  rw [run, runOnBench, bind_of_ok hnote, bind_of_ok hparts]
  dsimp only
  rw [hf]
  rfl

/-- A step that edits project files and came to a result has looked for the source code. -/
lemma sources_found {l : Library} {u : World} {o : StepOutcome}
    (h : l.runStep .projectFiles v = (.ok o, u)) : u.tree.isTooLong l.sources = false := by
  obtain ⟨x, hx, hrewritten⟩ := l.runStep_eq .projectFiles v
  obtain ⟨houtcome, rfl⟩ := Prod.mk.inj (hx.symm.trans h)
  rw [hrewritten.same.isTooLong_eq]
  exact (Library.reads_of_outcome houtcome).1

/-- The first steps leave no verdict, and have looked for the source code. -/
lemma opening_passed (h : m.steps 1 openingSteps (m.begun w) = (.ok true, b)) :
    b.result.success = false ∧ b.result.fixRun = none ∧
      b.world.tree.isTooLong m.library.sources = false := by
  rw [← service_steps] at h
  have hends := Service.steps_ends (c := m.service) (b := m.begun w) 1 openingSteps
  rw [Ends, h] at hends
  obtain ⟨os, stop, v, hperforms, hv, ⟨-, rfl, hresult⟩ | ⟨hfalse, -⟩⟩ := hends
  · refine ⟨by rw [hresult]; rfl, by rw [hresult]; rfl, ?_⟩
    cases hperforms with | passed _ _ _ hperforms =>
    cases hperforms with | passed _ _ _ hperforms =>
    cases hperforms with | passed _ hs _ hperforms =>
    cases hperforms with | done hx =>
    rw [hv.tree_eq, hx.tree_eq]
    exact sources_found hs
  · cases hfalse

/-- A file that cannot be read is a directory, or no text. -/
lemma isInterruption_of_textAt {t : FileTree} {p : Path} (h : t.textAt p = .error f) :
    f.isInterruption = false := by
  rw [textAt] at h
  cases hc : t.content? p with
  | none =>
    rw [hc] at h
    obtain rfl := Except.error.inj h
    rfl
  | some content =>
    rw [hc] at h
    dsimp only at h
    cases hd : Utf8.decode content with
    | error e =>
      rw [hd] at h
      obtain rfl := Except.error.inj h
      rfl
    | ok text =>
      rw [hd] at h
      cases h

/-- An edit of custom code stops at the first file that it cannot read: those before it are edited, and
nothing else is.  A migration whose first steps passed stops there too: it tells that failure, and behind
those steps does nothing but edit those files. -/
theorem unreadable_code_stops :
    (∀ (l : Library) (edit : CodeEdit) (w : World) (p : Path) (f : Failure), l.dryRun = false →
      w.tree.isTooLong l.sources = false → l.FirstUnreadable w.tree p f →
      ∃ v, l.runStep (.code edit) w = (.error f, v) ∧
        StoppedAt (l.codeDirectory w.tree) p edit w v) ∧
    ∀ (m : Migration) (w : World) (b : MigrationBench) (p : Path) (f : Failure),
      m.library.dryRun = false → m.steps 1 openingSteps (m.begun w) = (.ok true, b) →
      m.library.FirstUnreadable b.world.tree p f →
      ∃ v, StoppedAt (m.library.codeDirectory b.world.tree) p .addNamespace
          (announced 4 (.code .addNamespace) b.world) v ∧
        m.run w = (.ok { b.result with error := some f.message },
          v.told [.log .error .migration s!"Migration failed: {f.message}"]) ∧
        b.result.success = false ∧ b.result.fixRun = none := by
  refine ⟨fun l edit w p f hreal hfound h => Library.editCode_stops hreal hfound h edit,
    fun m w b p f hreal hopening h => ?_⟩
  obtain ⟨hsuccess, hrun, hfound⟩ := opening_passed hopening
  obtain ⟨v, hv, hstopped⟩ := Library.editCode_stops (l := m.library)
    (w := announced 4 (.code .addNamespace) b.world) hreal hfound h .addNamespace
  exact ⟨v, hstopped, run_of_raised hopening (steps_raise hv) (isInterruption_of_textAt h.failure),
    hsuccess, hrun⟩

/-- A library with three files of custom code, the second of which is no text. -/
def brokenTree (location : String) : FileTree :=
  { files :=
      [(["lib", "tsp-location.yaml"], Utf8.encode location.toList),
        (["lib", "lib.csproj"], Utf8.encode "<Project />".toList),
        (["lib", "C.cs"], Utf8.encode "using Azure.Core;\n".toList),
        (["lib", "B.cs"], [0xff]),
        (["lib", "A.cs"], Utf8.encode "using Azure.Core;\n".toList)]
    directories := [] }

/-- The migration of that library. -/
def plainMigration : Migration :=
  ⟨Library.plainLibrary, Library.plainLibrary.search.profile, false⟩

/-- Its first steps pass, and change the location file. -/
lemma brokenTree_opens :
    ∃ b, plainMigration.steps 1 openingSteps
        (plainMigration.begun { tree := brokenTree "repo: Azure/widget\n" }) = (.ok true, b) ∧
      b.world.tree = brokenTree ("repo: Azure/widget\nemitterPackageJsonPath: " ++
        "eng/azure-typespec-http-client-csharp-emitter-package.json\n") := by
  have hrun (r : Except Failure Bool × MigrationBench) (t : FileTree)
      (h : r.1.toOption = some true ∧ r.2.world.tree.files = t.files ∧
        r.2.world.tree.directories = t.directories) :
      ∃ b, r = (.ok true, b) ∧ b.world.tree = t := by
    obtain ⟨f | goesOn, ⟨⟨⟨files, directories⟩, _⟩, _⟩⟩ := r
    · exact absurd h.1 nofun
    · obtain ⟨hpassed, rfl, rfl⟩ := h
      exact ⟨_, congrArg (fun goesOn => (Except.ok goesOn, _)) (Option.some.inj hpassed), rfl⟩
  exact hrun _ _ (by decide +kernel)

/-- The file of custom code that is no text is the second one. -/
lemma brokenTree_unreadable (location : String) :
    plainMigration.library.FirstUnreadable (brokenTree location) ["lib", "B.cs"]
      (.undecodable (.octets ⟨.invalidStart, 0, 1, 0xff⟩)) where
  place := by
    have hplaces : (brokenTree location).places = [["lib"], ["lib", "tsp-location.yaml"],
        ["lib", "lib.csproj"], ["lib", "C.cs"], ["lib", "B.cs"], ["lib", "A.cs"]] := rfl
    rw [hplaces]
    simp
  custom := ⟨[], by simp, "B.cs", rfl, by decide⟩
  failure := rfl
  first := fun q hq hkind hlt => by
    have hplaces : (brokenTree location).places = [["lib"], ["lib", "tsp-location.yaml"],
        ["lib", "lib.csproj"], ["lib", "C.cs"], ["lib", "B.cs"], ["lib", "A.cs"]] := rfl
    have hname := hkind.nameEndsWith
    rw [hplaces] at hq
    simp only [List.mem_cons, List.not_mem_nil, or_false] at hq
    rcases hq with rfl | rfl | rfl | rfl | rfl | rfl
    · exact absurd hname (by decide)
    · exact absurd hname (by decide)
    · exact absurd hname (by decide)
    · exact absurd hlt (by decide)
    · exact absurd hlt (by decide)
    · exact ⟨_, rfl⟩

/-- The migration edits the file before the one that is no text, tells why that cannot be read, and leaves
the file behind it. -/
theorem broken_code_stops :
    ∃ o v, plainMigration.run { tree := brokenTree "repo: Azure/widget\n" } = (.ok o, v) ∧
      o.success = false ∧
      o.error = some "'utf-8' codec can't decode byte 0xff in position 0: invalid start byte" ∧
      v.tree.HoldsText ["lib", "A.cs"]
        "using Azure.Core;\nusing Microsoft.TypeSpec.Generator.Customizations;\n".toList ∧
      v.tree.HoldsText ["lib", "C.cs"] "using Azure.Core;\n".toList := by
  obtain ⟨b, hopening, htree⟩ := brokenTree_opens
  obtain ⟨v, hstopped, hrun, hsuccess, -⟩ := unreadable_code_stops.2 plainMigration _ b _ _ rfl
    hopening (htree ▸ brokenTree_unreadable _)
  have hedit : CodeEdit.addNamespace.apply "using Azure.Core;\n".toList =
      "using Azure.Core;\nusing Microsoft.TypeSpec.Generator.Customizations;\n".toList := by
    decide +kernel
  have hkept : ¬["lib", "C.cs"] < ["lib", "B.cs"] := by decide
  refine ⟨_, _, hrun, hsuccess, congrArg some (by decide +kernel), ?_, ?_⟩
  · rw [← hedit]
    refine hstopped.edited _ _ ?_ (by decide) ?_
    · exact htree ▸ ⟨[], by simp, "A.cs", rfl, by decide⟩
    · show b.world.tree.HoldsText _ _
      rw [htree]
      rfl
  · refine (hstopped.kept _ fun h => hkept h.2).trans ?_
    show b.world.tree.content? _ = _
    rw [htree]
    rfl

end Migration

end BuildMend
