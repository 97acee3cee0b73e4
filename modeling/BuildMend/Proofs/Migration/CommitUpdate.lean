import BuildMend.Proofs.CommitService
import BuildMend.Proofs.Migration.Effect
import BuildMend.Proofs.SpecSearch

/-!
What an update of the commit comes to.

* `UpdateEffect`: what an update ends in, and the text that it gives to the file.
* `CommitUpdate.newest`, `CommitUpdate.settled`, `CommitUpdate.moved`: the newest commit, and what follows
  from it, or from the location of a specification that has moved.
* `CommitUpdate.effect`, `Library.commitEffect`: what an update comes to, by the replies of the web service
  and the location that the assistant finds.
* `Library.updateCommitOf_apply`, `Library.updateCommit_apply`: an update comes to that.
-/

namespace BuildMend.Migration

open Act FileTree Number Text

/-! ### What updates come to -/

/-- What an update ends in, and the text that the file gets, if it gets one. -/
structure UpdateEffect where
  ends : Except Failure StepOutcome
  text : Option (List Char) := none

namespace UpdateEffect

/-- An update that only fails. -/
def failing (f : Failure) : UpdateEffect := ⟨.error f, none⟩

/-- An update that writes nothing and warns. -/
def warning (text : String) : UpdateEffect := ⟨.ok (.warned text), none⟩

/-- Lookup failures are warnings. -/
def forgiven (e : UpdateEffect) : UpdateEffect :=
  match e.ends with
  | .error f =>
    if f.isLookupFailure then
      { e with ends := .ok (.warned s!"Could not fetch latest commit: {f.message}") }
    else e
  | .ok _ => e

/-- What an effect makes of a file: it gets the text, or stays as it was. -/
def On (e : UpdateEffect) (p : Path) (w v : World) : Prop :=
  v.tree.content? p = (e.text.map Utf8.encode).or (w.tree.content? p)

lemma On.congr {e : UpdateEffect} {p : Path} {w x v : World} (h : e.On p x v)
    (hx : x.tree.content? p = w.tree.content? p) : e.On p w v := by
  rw [On, ← hx]
  exact h

lemma on_of_tree {e : UpdateEffect} {p : Path} {w v : World} (he : e.text = none)
    (hv : v.tree = w.tree) : e.On p w v := by
  rw [On, he, hv]
  rfl

lemma forgiven_text (e : UpdateEffect) : e.forgiven.text = e.text := by
  rw [forgiven]
  split
  · split <;> rfl
  · rfl

end UpdateEffect

/-- What writing code points comes to, and the text that the file gets: none if changes are only reported, and
the empty one if the code points are no text. -/
def writing (dryRun : Bool) (points : List CodePoint) : Except Failure Unit × Option (List Char) :=
  if dryRun then (.ok (), none)
  else
    match CodePoint.toChars? points with
    | .ok text => (.ok (), some text)
    | .error h => (.error (.unencodable h), some [])

/-- What writing a text for a commit comes to, with the result in which the commit's first parts are told. -/
def putEffect (dryRun : Bool) (points : List CodePoint) (commit : Json)
    (result : String → StepOutcome) : UpdateEffect where
  ends := do
    (writing dryRun points).1
    return result (← Library.commitStart commit)
  text := (writing dryRun points).2

namespace Library

namespace CommitUpdate

variable (u : CommitUpdate)

/-- The newest commit of the directory, or else of the branch, by the replies of the web service. -/
def newest (reply : Nat → Reply) : Except Failure Json :=
  if u.directory.isEmpty then (reply 0).commit
  else do
    let ofDirectory ← (reply 1).commit
    if ofDirectory.isEmptyValue then (reply 2).commit else return ofDirectory

/-- It is given by some reply; the first one, where there is a directory, says whether that exists. -/
lemma exists_newest (reply : Nat → Reply) :
    ∃ i, (if u.directory.isEmpty then 0 else 1) ≤ i ∧ u.newest reply = (reply i).commit := by
  rw [newest]
  split
  · exact ⟨0, Nat.le_refl 0, rfl⟩
  · cases hone : (reply 1).commit with
    | error f => exact ⟨1, Nat.le_refl 1, hone.symm⟩
    | ok ofDirectory =>
      show ∃ i, 1 ≤ i ∧ (if ofDirectory.isEmptyValue then (reply 2).commit else .ok ofDirectory) =
        (reply i).commit
      split
      · exact ⟨2, by omega, rfl⟩
      · exact ⟨1, Nat.le_refl 1, hone.symm⟩

/-- Whether a commit is the one that is given. -/
def isUpToDate (newest : Json) : Bool :=
  (TspLocation.commitValue? u.text).any fun c =>
    match newest with
    | .string s => CodePoint.ofString (String.ofList (trim c)) == s
    | _ => false

/-- What follows from the newest commit. -/
def settled (dryRun : Bool) (newest : Json) : UpdateEffect :=
  if newest.isEmptyValue then .warning "Could not determine latest commit SHA"
  else if u.isUpToDate newest then .warning "Commit SHA already up to date"
  else
    putEffect dryRun (TspLocation.withCommit newest.text u.points) newest fun _ => .changed 1

/-- What follows when the specification has moved: from the location that the assistant finds, or else
from the newest commit of the branch. -/
def moved (dryRun : Bool) (location : Except Failure SpecLocation) (newest : Except Failure Json) :
    UpdateEffect :=
  if dryRun then .warning "Spec path not found (dry-run, skipping assistant lookup)"
  else
    match location with
    | .error f => .failing f
    | .ok found =>
      if !found.path.isEmptyValue && !found.commit.isEmptyValue then
        putEffect false
          (TspLocation.withCommit found.commit.text
            (TspLocation.withDirectory found.path.text u.points))
          found.commit fun _ => .changed 1
      else
        match newest with
        | .error f => .failing f
        | .ok newest =>
          if newest.isEmptyValue then
            .warning "Spec path not found and could not determine new location"
          else
            putEffect false (TspLocation.withCommit newest.text u.points) newest fun start =>
              .warned
                (s!"Could not find new spec path. Updated SHA to latest main ({start}...). " ++
                  "Manual path update required.") 1

/-- Whether the directory is there, by the replies of the web service; one that is not given is. -/
def isThere (reply : Nat → Reply) : Except Failure Bool :=
  if u.directory.isEmpty then .ok true else (reply 0).holdsPath

/-- What an update comes to, by the replies of the web service and the location that the assistant
finds. -/
def effect (dryRun : Bool) (reply : Nat → Reply) (location : Except Failure SpecLocation) :
    UpdateEffect :=
  match u.isThere reply with
  | .error f => (UpdateEffect.failing f).forgiven
  | .ok false => (u.moved dryRun location (reply 1).commit).forgiven
  | .ok true =>
    match u.newest reply with
    | .error f => (UpdateEffect.failing f).forgiven
    | .ok newest => u.settled dryRun newest

end CommitUpdate

variable {l : Library} {w : World} {u : CommitUpdate}

/-! ### Writing -/

/-- A file gets what code points write. -/
lemma savePoints_apply (l : Library) (p : Path) (points : List CodePoint) (w : World) :
    ∃ v, l.savePoints p points w = ((writing l.dryRun points).1, v) ∧
      v.tree.content? p = ((writing l.dryRun points).2.map Utf8.encode).or (w.tree.content? p) := by
  rw [savePoints, writing]
  cases hdry : l.dryRun with
  | true =>
    have hsame (text : List Char) :
        ∃ v, l.save p text w = (.ok (), v) ∧ v.tree.content? p = w.tree.content? p := by
      rw [save, if_pos hdry]
      exact ⟨_, rfl, rfl⟩
    cases CodePoint.toChars? points with
    | ok text => exact hsame text
    | error h => exact hsame []
  | false =>
    cases CodePoint.toChars? points with
    | ok text =>
      obtain ⟨v, hv, htree⟩ := save_real hdry p text w
      refine ⟨v, hv, ?_⟩
      rw [htree, content?_write, if_pos rfl]
      rfl
    | error h =>
      refine ⟨_, rfl, ?_⟩
      show (w.tree.write p (Utf8.encodeString "")).content? p = _
      rw [content?_write, if_pos rfl]
      rfl

/-- Writing a text for a commit, and what is told behind it. -/
lemma put_apply (points : List CodePoint) (commit : Json) (result : String → StepOutcome)
    {rest : String → Action StepOutcome}
    (hrest : ∀ start w, ∃ es, rest start w = (.ok (result start), w.told es)) (w : World) :
    ∃ v, (do
        l.savePoints l.locationFile points
        let start ← Act.ofExcept (commitStart commit)
        rest start : Action StepOutcome) w = ((putEffect l.dryRun points commit result).ends, v) ∧
      (putEffect l.dryRun points commit result).On l.locationFile w v := by
  obtain ⟨v, hv, hcontent⟩ := l.savePoints_apply l.locationFile points w
  rw [bind_apply, hv]
  simp only [putEffect]
  cases hwriting : (writing l.dryRun points).1 with
  | error f => exact ⟨v, rfl, hcontent⟩
  | ok _ =>
    dsimp only
    rw [bind_apply, Act.ofExcept]
    cases commitStart commit with
    | error f => exact ⟨v, rfl, hcontent⟩
    | ok start =>
      obtain ⟨es, hes⟩ := hrest start v
      exact ⟨_, hes, hcontent⟩

/-! ### Lookups -/

lemma note_apply (level : Level) (text : String) (w : World) :
    note level text w = (.ok (), w.told [.log level .migrationSteps text]) := rfl

section Lookups

variable {v : World}

/-- The newest commit of the branch is looked up. -/
lemma latest_served (l : Library) (u : CommitUpdate) {n : Nat} (h : w.Served n v) :
    ∃ x, l.commits.latest u.owner u.repo (some usualBranch) v = ((w.replyAt n).commit, x) ∧
      w.Served (n + 1) x := by
  obtain ⟨x, hx, hserved⟩ := l.commits.latest_apply v u.owner u.repo (some usualBranch)
  exact ⟨x, by rw [hx, h.replyAt_eq]; rfl, h.trans hserved⟩

/-- The newest commit is looked up; nothing is written. -/
lemma newestCommit_apply (l : Library) (u : CommitUpdate)
    (h : w.Served (if u.directory.isEmpty then 0 else 1) v) :
    ∃ x, l.newestCommit u v = (u.newest w.replyAt, x) ∧ x.tree = w.tree := by
  -- the branch is asked for behind what has been asked for already
  have hbranch {n : Nat} {v : World} (h : w.Served n v) :
      ∃ x, (do
        note .info "Could not find path-specific commits, using latest main commit"
        l.commits.latest u.owner u.repo (some usualBranch) : Action Json) v =
          ((w.replyAt n).commit, x) ∧ x.tree = w.tree := by
    obtain ⟨x, hx, hserved⟩ := l.latest_served u (h.told [_])
    exact ⟨x, hx, hserved.tree⟩
  rw [newestCommit, CommitUpdate.newest]
  by_cases hempty : u.directory.isEmpty = true
  · rw [if_pos hempty] at h ⊢
    rw [if_pos hempty]
    exact hbranch h
  · rw [if_neg hempty] at h ⊢
    rw [if_neg hempty]
    obtain ⟨x, hx, hserved⟩ := l.commits.latestForPath_apply v u.owner u.repo u.directory
      (some usualBranch)
    rw [h.replyAt_eq] at hx
    rw [bind_apply, hx]
    cases (w.replyAt (1 + 0)).commit with
    | error f => exact ⟨x, rfl, (h.trans hserved).tree⟩
    | ok ofDirectory =>
      dsimp only
      by_cases hvalue : ofDirectory.isEmptyValue = true
      · rw [if_pos hvalue]
        obtain ⟨y, hy, htree⟩ := hbranch (h.trans hserved)
        refine ⟨y, ?_, htree⟩
        rw [hy]
        show _ = (if ofDirectory.isEmptyValue then (w.replyAt 2).commit else .ok ofDirectory, y)
        rw [if_pos hvalue]
      · rw [if_neg hvalue]
        refine ⟨x, ?_, (h.trans hserved).tree⟩
        show _ = (if ofDirectory.isEmptyValue then (w.replyAt 2).commit else .ok ofDirectory, x)
        rw [if_neg hvalue]
        rfl

end Lookups

/-- A specification that has moved: what is written, and what that ends in. -/
lemma relocate_apply (l : Library) (u : CommitUpdate) {v : World} (h : w.Served 1 v)
    (hspares : (w.client 0).firstTurn.ending.leavings.Spares l.locationFile) :
    let e := u.moved l.dryRun ((w.client 0).location l.search.profile.limit) (w.replyAt 1).commit
    ∃ x, l.relocate u v = (e.ends, x) ∧ e.On l.locationFile w x := by
  intro e
  have hasked := h.told [.log .warning .migrationSteps
    s!"Spec path '{u.directory}' not found on {usualBranch}, searching for its new location"]
  rw [relocate, bind_of_ok (note_apply _ _ v)]
  generalize v.told _ = asked at hasked
  by_cases hdry : l.dryRun = true
  · have he : e = _ := if_pos hdry
    rw [if_pos hdry, he]
    exact ⟨asked, rfl, UpdateEffect.on_of_tree rfl hasked.tree⟩
  · have he : e = _ := if_neg hdry
    have hreal : l.dryRun = false := by simpa using hdry
    obtain ⟨x, hx, hcontent, hreplies, -⟩ := l.search.locate_apply (w := asked) u.owner u.repo
      u.directory usualBranch (p := l.locationFile) (by rwa [hasked.client_eq])
    rw [hasked.client_eq] at hx
    rw [hasked.tree] at hcontent
    rw [if_neg hdry, he, bind_apply, hx]
    cases (w.client 0).location l.search.profile.limit with
    | error f => exact ⟨x, rfl, hcontent⟩
    | ok found =>
      dsimp only
      by_cases hfound : (!found.path.isEmptyValue && !found.commit.isEmptyValue) = true
      · rw [if_pos hfound, if_pos hfound]
        obtain ⟨y, hy, hon⟩ := put_apply (l := l)
          (TspLocation.withCommit found.commit.text
            (TspLocation.withDirectory found.path.text u.points)) found.commit _
          (fun start w => ⟨[_], rfl⟩) x
        rw [hreal] at hy hon
        exact ⟨y, hy, hon.congr hcontent⟩
      · rw [if_neg hfound, if_neg hfound]
        obtain ⟨y, hy, hserved⟩ := l.commits.latest_apply x u.owner u.repo (some usualBranch)
        rw [World.replyAt_congr hreplies, hasked.replyAt_eq] at hy
        have hkept : y.tree.content? l.locationFile = w.tree.content? l.locationFile := by
          rw [hserved.tree, hcontent]
        rw [bind_apply, hy]
        cases (w.replyAt (1 + 0)).commit with
        | error f => exact ⟨y, rfl, hkept⟩
        | ok newest =>
          dsimp only
          by_cases hnewest : newest.isEmptyValue = true
          · rw [if_pos hnewest, if_pos hnewest]
            exact ⟨y, rfl, hkept⟩
          · rw [if_neg hnewest, if_neg hnewest]
            obtain ⟨z, hz, hon⟩ := put_apply (l := l)
              (TspLocation.withCommit newest.text u.points) newest _
                (fun start w => ⟨[], rfl⟩) y
            rw [hreal] at hz hon
            exact ⟨z, hz, hon.congr hkept⟩

/-- The newest commit is written unless it is the one that is given. -/
lemma saveCommit_apply (l : Library) (u : CommitUpdate) (newest : Json) (w : World) :
    ∃ v, l.saveCommit u newest w = ((u.settled l.dryRun newest).ends, v) ∧
      (u.settled l.dryRun newest).On l.locationFile w v := by
  have hput := put_apply (l := l) (TspLocation.withCommit newest.text u.points) newest
    (fun _ => .changed 1)
    (fun start w => ⟨[.log .info .migrationSteps s!"Updated commit SHA to {start}..."], rfl⟩) w
  rw [saveCommit, CommitUpdate.settled, CommitUpdate.isUpToDate]
  by_cases hempty : newest.isEmptyValue = true
  · rw [if_pos hempty, if_pos hempty]
    exact ⟨w, rfl, UpdateEffect.on_of_tree rfl rfl⟩
  · rw [if_neg hempty, if_neg hempty]
    dsimp only
    cases TspLocation.commitValue? u.text with
    | none => exact hput
    | some given =>
      cases newest with
      | string s =>
        dsimp only [Option.map_some, Option.any_some]
        by_cases hsame : (CodePoint.ofString (String.ofList (trim given)) == s) = true
        · rw [if_pos hsame, if_pos hsame]
          exact ⟨w, rfl, UpdateEffect.on_of_tree rfl rfl⟩
        · rw [if_neg hsame, if_neg hsame]
          exact hput
      | _ => exact hput

/-- What the lookups of an update come to, and what is written in them. -/
lemma lookUp_apply (l : Library) (u : CommitUpdate) {v : World} (h : w.Served 0 v)
    (hspares : (w.client 0).firstTurn.ending.leavings.Spares l.locationFile) :
    let moved := u.moved l.dryRun ((w.client 0).location l.search.profile.limit) (w.replyAt 1).commit
    ∃ x, match u.isThere w.replyAt with
      | .error f => l.lookUp u v = (.error f, x) ∧ x.tree = w.tree
      | .ok true => l.lookUp u v = ((u.newest w.replyAt).map .inr, x) ∧ x.tree = w.tree
      | .ok false => l.lookUp u v = (moved.ends.map .inl, x) ∧ moved.On l.locationFile w x := by
  intro moved
  rw [lookUp, CommitUpdate.isThere]
  have hthere {n : Nat} {v : World} (hn : n = if u.directory.isEmpty then 0 else 1)
      (h : w.Served n v) : ∃ x, (do return .inr (← l.newestCommit u) : Action (StepOutcome ⊕ Json)) v =
        ((u.newest w.replyAt).map .inr, x) ∧ x.tree = w.tree := by
    subst hn
    obtain ⟨x, hx, htree⟩ := l.newestCommit_apply u h
    refine ⟨x, ?_, htree⟩
    rw [bind_apply, hx]
    cases u.newest w.replyAt <;> rfl
  by_cases hempty : u.directory.isEmpty = true
  · rw [if_pos hempty, if_pos hempty]
    exact hthere (by rw [if_pos hempty]) h
  · rw [if_neg hempty, if_neg hempty]
    obtain ⟨x, hx, hserved⟩ := l.commits.hasPath_apply v u.owner u.repo u.directory (some usualBranch)
    have hserved := h.trans hserved
    rw [h.replyAt_eq] at hx
    rw [bind_apply, hx]
    cases (w.replyAt (0 + 0)).holdsPath with
    | error f => exact ⟨x, rfl, hserved.tree⟩
    | ok there =>
      cases there with
      | true => exact hthere (by rw [if_neg hempty]) hserved
      | false =>
        obtain ⟨y, hy, hon⟩ := l.relocate_apply u hserved hspares
        refine ⟨y, ?_, hon⟩
        show (do return .inl (← l.relocate u) : Action (StepOutcome ⊕ Json)) x = _
        rw [bind_apply, hy]
        cases moved.ends <;> rfl

/-- What follows from the lookups of an update. -/
def conclude (l : Library) (u : CommitUpdate) :
    Except Failure (StepOutcome ⊕ Json) → Action StepOutcome
  | .ok (.inl result) => return result
  | .ok (.inr newest) => l.saveCommit u newest
  | .error f =>
    if f.isLookupFailure then return .warned s!"Could not fetch latest commit: {f.message}"
    else .fail f

lemma conclude_forgiven (l : Library) (u : CommitUpdate) (e : UpdateEffect) (w : World) :
    l.conclude u (e.ends.map .inl) w = (e.forgiven.ends, w) := by
  obtain ⟨ends, text⟩ := e
  cases ends with
  | ok result => rfl
  | error f =>
    simp only [UpdateEffect.forgiven, Except.map, conclude]
    split <;> rfl

lemma exists_updateCommitOf (l : Library) (u : CommitUpdate) (w : World) :
    ∃ es, l.updateCommitOf u w =
      l.conclude u (l.lookUp u (w.told es)).1 (l.lookUp u (w.told es)).2 :=
  ⟨[_], rfl⟩

/-- The update of the commit for a repository comes to its effect. -/
theorem updateCommitOf_apply (l : Library) (u : CommitUpdate) (w : World)
    (hspares : (w.client 0).firstTurn.ending.leavings.Spares l.locationFile) :
    let e := u.effect l.dryRun w.replyAt ((w.client 0).location l.search.profile.limit)
    ∃ v, l.updateCommitOf u w = (e.ends, v) ∧ e.On l.locationFile w v := by
  intro e
  have he : e = u.effect l.dryRun w.replyAt _ := rfl
  obtain ⟨es, hes⟩ := l.exists_updateCommitOf u w
  obtain ⟨x, hx⟩ := l.lookUp_apply u ((World.Served.refl w).told es) hspares
  rw [CommitUpdate.effect] at he
  rw [hes]
  -- a failure of the lookups alone leaves the file as it is
  have hfailing {f : Failure} (hlook : l.lookUp u (w.told es) = (.error f, x))
      (htree : x.tree = w.tree) (hf : e = (UpdateEffect.failing f).forgiven) :
      ∃ v, l.conclude u (l.lookUp u (w.told es)).1 (l.lookUp u (w.told es)).2 = (e.ends, v) ∧
        e.On l.locationFile w v := by
    rw [hlook, hf]
    exact ⟨x, l.conclude_forgiven u (.failing f) x,
      UpdateEffect.on_of_tree (UpdateEffect.forgiven_text _) htree⟩
  cases hthere : u.isThere w.replyAt with
  | error f =>
    rw [hthere] at hx he
    exact hfailing hx.1 hx.2 he
  | ok there =>
    rw [hthere] at hx he
    cases there with
    | false =>
      obtain ⟨hlook, hon⟩ := hx
      rw [hlook, he]
      refine ⟨x, l.conclude_forgiven u _ x, ?_⟩
      rw [UpdateEffect.On, UpdateEffect.forgiven_text]
      exact hon
    | true =>
      obtain ⟨hlook, htree⟩ := hx
      simp only at he
      cases hnewest : u.newest w.replyAt with
      | error f =>
        rw [hnewest] at hlook he
        exact hfailing hlook htree he
      | ok newest =>
        rw [hnewest] at hlook he
        rw [hlook, he]
        obtain ⟨v, hv, hon⟩ := l.saveCommit_apply u newest x
        exact ⟨v, hv, hon.congr (by rw [htree])⟩

/-! ### The step -/

/-- The directory that a text gives, empty if it gives none. -/
def givenDirectory (text : List Char) : String :=
  String.ofList ((TspLocation.directoryValue? text).getD [])

/-- What the step comes to in a world whose file holds a text. -/
def commitEffect (l : Library) (w : World) (text : List Char) : UpdateEffect :=
  match TspLocation.repositoryValue? text with
  | none => .warning s!"No repo specified in {TspLocation.fileName}, skipping SHA update"
  | some repository =>
    match TspLocation.ownerAndName repository with
    | .error f => .failing (.badUrl f)
    | .ok none => .warning s!"Could not parse repo: {String.ofList repository}"
    | .ok (some (owner, repo)) =>
      CommitUpdate.effect ⟨text, owner, repo, givenDirectory text⟩ l.dryRun w.replyAt
        ((w.client 0).location l.search.profile.limit)

/-- The file is there, and can be looked for. -/
lemma hasLocationFile_apply {text : List Char} (hlong : w.tree.isTooLong l.locationFile = false)
    (hfile : w.tree.HoldsText l.locationFile text) : l.hasLocationFile w = (.ok true, w) := by
  have hfound : Action.lookFor l.locationFile w = (.ok (), w) := by
    rw [lookFor_apply, hlong]
    rfl
  refine (bind_of_ok hfound).trans ((bind_of_ok (get_apply w)).trans ?_)
  rw [isFile_of_textAt (textAt_eq_ok_iff.mpr hfile)]
  rfl

/-- A step that reads the file goes on with the text that this holds. -/
lemma read_apply {text : List Char} (hlong : w.tree.isTooLong l.locationFile = false)
    (hfile : w.tree.HoldsText l.locationFile text) (rest : List Char → Action StepOutcome) :
    (do
      if !(← l.hasLocationFile) then return noLocationFile
      rest (← load l.locationFile) : Action StepOutcome) w = rest text w := by
  have hload : load l.locationFile w = (.ok text, w) := by
    rw [load_apply, textAt_eq_ok_iff.mpr hfile]
  exact (bind_of_ok (hasLocationFile_apply hlong hfile)).trans (bind_of_ok hload)

/-- The step reads the file and comes to its effect. -/
theorem updateCommit_apply {text : List Char} (hlong : w.tree.isTooLong l.locationFile = false)
    (hfile : w.tree.HoldsText l.locationFile text)
    (hspares : (w.client 0).firstTurn.ending.leavings.Spares l.locationFile) :
    ∃ v, l.updateCommit w = ((l.commitEffect w text).ends, v) ∧
      (l.commitEffect w text).On l.locationFile w v := by
  rw [updateCommit, read_apply hlong hfile, commitEffect]
  cases TspLocation.repositoryValue? text with
  | none => exact ⟨w, rfl, UpdateEffect.on_of_tree rfl rfl⟩
  | some repository =>
    dsimp only
    cases TspLocation.ownerAndName repository with
    | error f => exact ⟨w, rfl, UpdateEffect.on_of_tree rfl rfl⟩
    | ok parts =>
      cases parts with
      | none => exact ⟨w, rfl, UpdateEffect.on_of_tree rfl rfl⟩
      | some names =>
        obtain ⟨owner, repo⟩ := names
        exact l.updateCommitOf_apply _ w hspares

/-- A library whose file holds a text, and a web service that gives some replies. -/
def serviceWorld (text : String) (replies : List Reply) : World where
  tree := { files := [(["lib", "tsp-location.yaml"], Utf8.encode text.toList)], directories := [] }
  replies := replies

end Library

end BuildMend.Migration
