import BuildMend.Proofs.Migration.CommitUpdate
import BuildMend.Proofs.TspLocation.Lines

/-!
What the first two steps make of the file that says where the specification is.

* `Json.IsToken`: a value that stands for nothing, or a text without a blank.
* `Library.updateEmitterPath_apply`: what the first step makes of the file.
* `UpdateEffect.Keeps`: an update that keeps the lines without some keys.
* `Library.NamesTokens`: the commits and the path that the second step finds are such values.
* `Library.ValuesInLines`: the values whose places the two steps take stand in the lines of their keys.
* `Library.locationSteps_lines`: with both, each step changes only the lines of its own keys, and the file
  gets a line with the new emitter path.
-/

namespace BuildMend

open Act FileTree Text TspLocation

/-! ### Values without blanks -/

/-- A value that stands for nothing, or is a text without a blank. -/
def Json.IsToken (v : Json) : Prop :=
  v.isEmptyValue = true ∨ ∃ s : List Char, IsSolid s ∧ v = .string (s.map .char)

lemma Json.IsToken.exists_text {v : Json} (h : v.IsToken) (hne : v.isEmptyValue = false) :
    ∃ s : List Char, v.text = s.map .char ∧ '\n' ∉ s := by
  rcases h with h | ⟨s, hs, rfl⟩
  · rw [h] at hne
    cases hne
  · refine ⟨s, rfl, fun hfeed => ?_⟩
    have hblank := hs.2 _ hfeed
    cases hblank

/-- A string with a text without a blank is one. -/
lemma Json.isToken_of_text {v : Json} {s : List Char} (hkind : v.kind = "str")
    (htext : v.text = s.map .char) (hs : IsSolid s) : v.IsToken := by
  cases v with
  | string points => exact Or.inr ⟨s, hs, congrArg Json.string htext⟩
  | number n => cases n <;> simp [kind] at hkind
  | _ => simp [kind] at hkind

namespace Migration

/-! ### Updates that keep lines -/

namespace UpdateEffect

variable {keys : List String} {text : List Char}

/-- An update that writes changes no line without some keys. -/
def Keeps (keys : List String) (text : List Char) (e : UpdateEffect) : Prop :=
  ∀ t, e.text = some t → otherLines keys t = otherLines keys text

lemma keeps_of_none {e : UpdateEffect} (he : e.text = none) : e.Keeps keys text := by
  intro t ht
  rw [he] at ht
  cases ht

lemma keeps_failing (f : Failure) : (failing f).Keeps keys text := keeps_of_none rfl

lemma keeps_warning (s : String) : (warning s).Keeps keys text := keeps_of_none rfl

lemma Keeps.forgiven {e : UpdateEffect} (h : e.Keeps keys text) : e.forgiven.Keeps keys text := by
  rwa [Keeps, forgiven_text]

/-- A commit is set in a text, and the lines without some keys stay. -/
lemma keeps_commit {dryRun : Bool} {base : List Char} {commit : Json}
    {result : String → StepOutcome} (hcommit : commit.IsToken)
    (hne : commit.isEmptyValue = false) (hkey : commitKey ∈ keys)
    (hbase : dryRun = false → otherLines keys base = otherLines keys text ∧
      ∀ o ∈ commitForm.first? base, StandsInLine commitKey base o) :
    (putEffect dryRun (withCommit commit.text (base.map .char)) commit result).Keeps keys text := by
  intro t ht
  obtain ⟨s, hs, hfeed⟩ := hcommit.exists_text hne
  rw [hs, ← withCommit_map_char] at ht
  cases hdry : dryRun with
  | true =>
    rw [hdry] at ht
    cases ht
  | false =>
    rw [hdry] at ht
    simp only [putEffect, writing, CodePoint.toChars?_map_char, Bool.false_eq_true,
      if_false] at ht
    obtain rfl := Option.some.inj ht
    obtain ⟨hkeeps, hline⟩ := hbase hdry
    rw [otherLines_withCommit hkey hline hfeed, hkeeps]

end UpdateEffect

namespace Library

variable {l : Library} {w : World} {u : CommitUpdate} {text : List Char}

/-! ### The first step -/

/-- The text of the file behind the first step of a run that writes. -/
def emitterText (text : List Char) : List Char :=
  if hasEmitterPath text then text else withEmitterPath text

/-- The first step sets the emitter path, unless the file has it already. -/
theorem updateEmitterPath_apply (hlong : w.tree.isTooLong l.locationFile = false)
    (hfile : w.tree.HoldsText l.locationFile text) :
    ∃ outcome v, l.updateEmitterPath w = (.ok outcome, v) ∧ outcome.success = true ∧
      v.clients = w.clients ∧ v.replies = w.replies ∧ w.tree.SamePlaces v.tree ∧
      v.tree.HoldsText l.locationFile (if l.dryRun then text else emitterText text) := by
  rw [updateEmitterPath, read_apply hlong hfile, emitterText]
  by_cases hgiven : hasEmitterPath text = true
  · rw [if_pos hgiven, if_pos hgiven, ite_self]
    exact ⟨_, _, rfl, rfl, rfl, rfl, .refl w.tree, hfile⟩
  · obtain ⟨v, hv, hclients, hreplies, htree⟩ := l.save_apply l.locationFile (withEmitterPath text) w
    have hset : (do
        l.save l.locationFile (withEmitterPath text)
        return StepOutcome.changed 1 : Action StepOutcome) w = (.ok (.changed 1), v) :=
      bind_of_ok hv
    rw [if_neg hgiven, if_neg hgiven]
    refine ⟨_, v, hset, rfl, hclients, hreplies, ?_⟩
    rw [htree]
    cases l.dryRun with
    | true => exact ⟨.refl w.tree, hfile⟩
    | false =>
      refine ⟨samePlaces_write (isFile_of_textAt (textAt_eq_ok_iff.mpr hfile)) _, ?_⟩
      simp only [Bool.false_eq_true, if_false]
      rw [HoldsText, content?_write, if_pos rfl]

/-! ### The second step -/

/-- The keys of the second step. -/
abbrev commitKeys : List String := [commitKey, directoryKey]

/-- The values whose places the second step takes in a text stand in the lines of their keys; that of a
commit does so as well behind a new directory. -/
structure CommitInLine (location : Except Failure SpecLocation) (text : List Char) : Prop where
  commit : ∀ o ∈ commitForm.first? text, StandsInLine commitKey text o
  directory : ∀ o ∈ directoryForm.first? text, StandsInLine directoryKey text o
  moved : ∀ found path, location = .ok found → found.path.text = path.map CodePoint.char →
    ∀ o ∈ commitForm.first? (withDirectory path text),
      StandsInLine commitKey (withDirectory path text) o

lemma keeps_settled {dryRun : Bool} {newest : Json} (hnewest : newest.IsToken)
    (hline : dryRun = false → ∀ o ∈ commitForm.first? u.text, StandsInLine commitKey u.text o) :
    (u.settled dryRun newest).Keeps commitKeys u.text := by
  rw [CommitUpdate.settled]
  split
  · exact UpdateEffect.keeps_warning _
  · split
    · exact UpdateEffect.keeps_warning _
    · rename_i hne _
      exact UpdateEffect.keeps_commit hnewest (by simpa using hne) (by simp)
        fun hdry => ⟨rfl, hline hdry⟩

lemma keeps_moved {dryRun : Bool} {location : Except Failure SpecLocation}
    {newest : Except Failure Json} (hnewest : ∀ c, newest = .ok c → c.IsToken)
    (hlocation : ∀ found, location = .ok found → found.path.IsToken ∧ found.commit.IsToken)
    (hline : dryRun = false → CommitInLine location u.text) :
    (u.moved dryRun location newest).Keeps commitKeys u.text := by
  rw [CommitUpdate.moved.eq_def]
  split
  · exact UpdateEffect.keeps_warning _
  · rename_i hreal
    have hline := hline (by simpa using hreal)
    cases hloc : location with
    | error f => exact UpdateEffect.keeps_failing f
    | ok found =>
      dsimp only
      split
      · rename_i hfound
        obtain ⟨hpne, hne⟩ : found.path.isEmptyValue = false ∧ found.commit.isEmptyValue = false := by
          simpa using hfound
        obtain ⟨hpath, hcommit⟩ := hlocation found hloc
        obtain ⟨p, hp, hfeed⟩ := hpath.exists_text hpne
        rw [hp, CommitUpdate.points, ← withDirectory_map_char]
        exact UpdateEffect.keeps_commit hcommit hne (by simp) fun _ =>
          ⟨otherLines_withDirectory (by simp) hline.directory hfeed, hline.moved found p hloc hp⟩
      · cases hvalue : newest with
        | error f => exact UpdateEffect.keeps_failing f
        | ok newest =>
          dsimp only
          split
          · exact UpdateEffect.keeps_warning _
          · rename_i hne
            exact UpdateEffect.keeps_commit (hnewest newest hvalue) (by simpa using hne) (by simp)
              fun _ => ⟨rfl, hline.commit⟩

lemma keeps_effect {dryRun : Bool} {reply : Nat → Reply} {location : Except Failure SpecLocation}
    (hcommits : ∀ i, (if u.directory.isEmpty then 0 else 1) ≤ i →
      ∀ c, (reply i).commit = .ok c → c.IsToken)
    (hlocation : ∀ found, location = .ok found → found.path.IsToken ∧ found.commit.IsToken)
    (hline : dryRun = false → CommitInLine location u.text) :
    (u.effect dryRun reply location).Keeps commitKeys u.text := by
  rw [CommitUpdate.effect]
  cases u.isThere reply with
  | error f => exact (UpdateEffect.keeps_failing f).forgiven
  | ok there =>
    cases there with
    | false => exact (keeps_moved (hcommits 1 (by split <;> omega)) hlocation hline).forgiven
    | true =>
      dsimp only
      cases hvalue : u.newest reply with
      | error f => exact (UpdateEffect.keeps_failing f).forgiven
      | ok newest =>
        obtain ⟨i, hi, heq⟩ := u.exists_newest reply
        exact keeps_settled (hcommits i hi newest (heq.symm.trans hvalue))
          fun hdry => (hline hdry).commit

/-- The commits and the path that the second step finds for a text are texts without blanks, where there are
any. -/
structure NamesTokens (l : Library) (w : World) (text : List Char) : Prop where
  commits : ∀ r ∈ w.replies.drop (if (givenDirectory text).isEmpty then 0 else 1),
    ∀ c, r.commit = .ok c → c.IsToken
  location : ∀ found, (w.client 0).location l.search.profile.limit = .ok found →
    found.path.IsToken ∧ found.commit.IsToken

/-- The second step changes no line without a key of it. -/
theorem updateCommit_lines (hlong : w.tree.isTooLong l.locationFile = false)
    (hfile : w.tree.HoldsText l.locationFile text)
    (hspares : (w.client 0).firstTurn.ending.leavings.Spares l.locationFile)
    (hnames : l.NamesTokens w text)
    (hline : l.dryRun = false →
      CommitInLine ((w.client 0).location l.search.profile.limit) text) :
    ∃ ending v after, l.updateCommit w = (ending, v) ∧ v.tree.HoldsText l.locationFile after ∧
      otherLines commitKeys after = otherLines commitKeys text := by
  obtain ⟨v, hv, hon⟩ := updateCommit_apply hlong hfile hspares
  have hkeeps : (l.commitEffect w text).Keeps commitKeys text := by
    rw [commitEffect]
    cases repositoryValue? text with
    | none => exact UpdateEffect.keeps_warning _
    | some repository =>
      dsimp only
      cases ownerAndName repository with
      | error f => exact UpdateEffect.keeps_failing _
      | ok names =>
        cases names with
        | none => exact UpdateEffect.keeps_warning _
        | some names =>
          refine keeps_effect (u := ⟨text, names.1, names.2, givenDirectory text⟩)
            (fun i hi c hc => ?_) hnames.location hline
          rcases w.replyAt_mem_drop hi with hmem | hmissing
          · exact hnames.commits _ hmem c hc
          · -- nothing is found behind the end of the script
            rw [hmissing] at hc
            obtain rfl : Json.null = c := Except.ok.inj hc
            exact Or.inl rfl
  rw [UpdateEffect.On] at hon
  cases htext : (l.commitEffect w text).text with
  | none =>
    rw [htext] at hon
    exact ⟨_, v, text, hv, hon.trans hfile, rfl⟩
  | some after =>
    rw [htext] at hon
    exact ⟨_, v, after, hv, hon, hkeeps after htext⟩

/-! ### Both steps -/

/-- The values whose places the two steps take stand in the lines of their keys. -/
structure ValuesInLines (l : Library) (w : World) (text : List Char) : Prop where
  emitter : hasEmitterPath text = false →
    ∀ o ∈ emitterForm.occurrences text, StandsInLine emitterKey text o
  commit : CommitInLine ((w.client 0).location l.search.profile.limit) (emitterText text)

/-- Each of the two steps changes only the lines of its own keys, and the first one gives the new emitter path
in a line. -/
theorem locationSteps_lines (hlong : w.tree.isTooLong l.locationFile = false)
    (hfile : w.tree.HoldsText l.locationFile text)
    (hspares : (w.client 0).firstTurn.ending.leavings.Spares l.locationFile)
    (hnames : l.NamesTokens w (if l.dryRun then text else emitterText text))
    (hlines : l.dryRun = false → l.ValuesInLines w text) :
    ∃ outcome x between ending y after,
      l.updateEmitterPath w = (.ok outcome, x) ∧ x.tree.HoldsText l.locationFile between ∧
      l.updateCommit x = (ending, y) ∧ y.tree.HoldsText l.locationFile after ∧
      otherLines [emitterKey] between = otherLines [emitterKey] text ∧
      (l.dryRun = false → hasEmitterPath text = false →
        ∃ line ∈ between.splitOn '\n', containsText emitterEntry.toList line = true) ∧
      otherLines commitKeys after = otherLines commitKeys between := by
  obtain ⟨outcome, x, hx, -, hclients, hreplies, hsame, hbetween⟩ :=
    updateEmitterPath_apply hlong hfile
  have hclient (i : Nat) : x.client i = w.client i := by rw [World.client, World.client, hclients]
  have hsecond : l.NamesTokens x (if l.dryRun then text else emitterText text) := by
    refine ⟨fun r hr => hnames.commits r ?_, fun found hfound => hnames.location found ?_⟩
    · rwa [hreplies] at hr
    · rwa [hclient] at hfound
  obtain ⟨ending, y, after, hy, hafter, hkept⟩ := updateCommit_lines
    (by rwa [hsame.isTooLong_eq]) hbetween (by rwa [hclient]) hsecond fun hdry => by
      rw [hdry, hclient]
      exact (hlines hdry).commit
  refine ⟨outcome, x, _, ending, y, after, hx, hbetween, hy, hafter, ?_, fun hdry hgiven => ?_, hkept⟩
  · cases hdry : l.dryRun with
    | true => rfl
    | false =>
      rw [emitterText]
      cases hgiven : hasEmitterPath text with
      | true => rfl
      | false => exact otherLines_withEmitterPath (by simp) ((hlines hdry).emitter hgiven)
  · rw [hdry, emitterText, hgiven]
    exact exists_emitterLine text

/-- A file with a repository and a commit. -/
def newerText : List Char := "repo: Azure/widget\ncommit: 000\n".toList

/-- A library with that file, and a web service that knows a newer one. -/
def newerWorld : World :=
  serviceWorld (String.ofList newerText)
    [.answer 200 (Utf8.encode "[\x7b\"sha\": \"abc\"\x7d]".toList)]

/-- The file gets the emitter path and the newer commit, and keeps the line of the repository. -/
theorem locationSteps_newer :
    ∃ outcome x between ending y after,
      plainLibrary.updateEmitterPath newerWorld = (.ok outcome, x) ∧
      x.tree.HoldsText plainLibrary.locationFile between ∧
      plainLibrary.updateCommit x = (ending, y) ∧
      y.tree.HoldsText plainLibrary.locationFile after ∧
      otherLines [emitterKey] between = ["repo: Azure/widget".toList, "commit: 000".toList] ∧
      otherLines commitKeys after = otherLines commitKeys between := by
  have hreply : ∀ r ∈ newerWorld.replies,
      r.commit.toOption.map (fun c => (c.kind, c.text)) = some ("str", "abc".toList.map .char) := by
    decide +kernel
  have hlocation : (newerWorld.client 0).location plainLibrary.search.profile.limit =
      .ok SpecLocation.none := rfl
  have hnames : plainLibrary.NamesTokens newerWorld (emitterText newerText) :=
    { commits := fun r hr c hc => by
        have hnewer := hreply r (List.mem_of_mem_drop hr)
        rw [hc] at hnewer
        obtain ⟨hkind, htext⟩ := Prod.mk.inj (Option.some.inj hnewer)
        exact Json.isToken_of_text hkind htext (by decide)
      location := fun found hfound => by
        rw [hlocation] at hfound
        obtain rfl := Except.ok.inj hfound
        exact ⟨Or.inl rfl, Or.inl rfl⟩ }
  have hlines : plainLibrary.ValuesInLines newerWorld newerText :=
    { emitter := fun _ => by decide +kernel
      commit :=
        { commit := by decide +kernel
          directory := by decide +kernel
          moved := fun _ path _ _ => by
            have hnone : directoryForm.first? (emitterText newerText) = none := by decide +kernel
            have hsame : withDirectory path (emitterText newerText) = emitterText newerText := by
              rw [withDirectory, spliceFirst, CharLike.map_look, hnone]
            rw [hsame]
            decide +kernel } }
  have hfile : newerWorld.tree.HoldsText plainLibrary.locationFile newerText := rfl
  obtain ⟨outcome, x, between, ending, y, after, hx, hbetween, hy, hafter, hfirst, -, hsecond⟩ :=
    locationSteps_lines (by decide +kernel) hfile (by decide) hnames fun _ => hlines
  exact ⟨outcome, x, between, ending, y, after, hx, hbetween, hy, hafter,
    hfirst.trans (by decide +kernel), hsecond⟩

/-- A line behind a key without a value is taken for the value, and lost. -/
theorem updateEmitterPath_bareKey :
    let v := (plainLibrary.updateEmitterPath
      (serviceWorld "emitterPackageJsonPath:\nrepo: Azure/widget\n" [])).2
    v.tree.content? plainLibrary.locationFile =
        some (Utf8.encode (emitterEntry.toList ++ ['\n'])) ∧
      "repo: Azure/widget".toList ∈
        otherLines [emitterKey] "emitterPackageJsonPath:\nrepo: Azure/widget\n".toList ∧
      "repo: Azure/widget".toList ∉ otherLines [emitterKey] (emitterEntry.toList ++ ['\n']) := by
  decide +kernel

end Library

end Migration

end BuildMend
