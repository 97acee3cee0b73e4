import BuildMend.Proofs.Migration.CommitUpdate

/-!
Failures of lookups are warnings.

* `Json.IsCommit`, `Json.IsWritable`: the values that the program can take for a commit, or write.
* `ClientScript.FailsAsReported`: an assistant that fails only in the ways that the program reports.
* `ClientScript.TellsLocation`: such an assistant, with an answer that can be read, and written if it is used.
* `UpdateEffect.IsMild`: an update that ends in a success, and writes nothing if it says so.
* `CommitUpdate.Lookups`, `Library.Lookups`: replies and answers that hold such values, or fail in the ways that are
  passed over, as far as an update asks for them.
* `Library.updateCommit_succeeds`: with those an update never fails, and leaves the file as it is when it
  counts no change.

An object in the assistant's answer that is too deep for the reader is a failure that is not passed over.
-/

namespace BuildMend

open Act Number Text

/-! ### Values that are taken for commits -/

namespace Json

/-- A value can be written: no half of a pair stands alone in it. -/
def IsWritable (v : Json) : Prop := ∃ s : List Char, v.text = s.map .char

/-- A value is taken for a commit: it stands for nothing, or is a text or a list. -/
def IsCommit (v : Json) : Prop :=
  v.isEmptyValue = true ∨ (∃ s : List Char, v = .string (s.map .char)) ∨ ∃ es, v = .array es

lemma isWritable_of_text {v : Json} {s : String} (h : v.text = CodePoint.ofString s) :
    v.IsWritable := ⟨s.toList, h⟩

namespace IsCommit

variable {v : Json}

lemma isWritable (h : v.IsCommit) (hne : v.isEmptyValue = false) : v.IsWritable := by
  rcases h with h | ⟨s, rfl⟩ | ⟨es, rfl⟩
  · rw [h] at hne
    cases hne
  · exact ⟨s, rfl⟩
  · exact isWritable_of_text rfl

/-- Its first parts can be told. -/
lemma exists_commitStart (h : v.IsCommit) (hne : v.isEmptyValue = false) :
    ∃ start, Migration.Library.commitStart v = .ok start := by
  rcases h with h | ⟨s, rfl⟩ | ⟨es, rfl⟩
  · rw [h] at hne
    cases hne
  · exact ⟨_, rfl⟩
  · exact ⟨_, rfl⟩

end IsCommit

end Json

/-! ### Assistants that fail as reported -/

/-- An assistant fails only in the ways that the program reports: by errors of its client, by turns that end
with an error, and by turns that take too long. -/
structure ClientScript.FailsAsReported (limit : Option Amount) (c : ClientScript) : Prop where
  connects : c.connectFailure.all (·.isClient) = true
  leaves : c.leaves = true
  limits : limit.all (!·.isTooLarge) = true
  turn : ∀ f, c.firstTurn.failure? limit = some f → ∃ g, f = .fault g

namespace ClientScript.FailsAsReported

variable {limit : Option Amount} {c : ClientScript}

/-- What the first prompt fails with is reported. -/
lemma exists_fault (h : c.FailsAsReported limit) {f : Failure} (hf : c.failure? limit = some f) :
    ∃ g, f = .fault g := by
  rw [failure?] at hf
  cases hm : c.connectFailure with
  | some m =>
    have hclient := h.connects
    rw [hm] at hf hclient
    obtain rfl := Option.some.inj hf
    exact ⟨.assistantUnreachable m, if_pos hclient⟩
  | none =>
    rw [hm, Option.map_none, Option.none_or, Option.or_eq_some_iff] at hf
    rcases hf with htime | ⟨-, hturn⟩
    · have hlimit := h.limits
      rw [noTime?] at htime
      cases limit with
      | none => cases htime
      | some time =>
        have hlarge : time.isTooLarge = false := by simpa using hlimit
        simp only [Option.any_some, hlarge, Bool.false_eq_true, if_false] at htime
        split at htime
        · exact ⟨.assistantTimeout time, (Option.some.inj htime).symm⟩
        · cases htime
    · exact h.turn f hturn

/-- It disconnects without a failure of its own. -/
lemma farewell_eq (h : c.FailsAsReported limit) : c.farewell = .ok () := by
  have hleaves := h.leaves
  rw [ClientScript.leaves] at hleaves
  rw [farewell]
  cases hm : c.disconnectFailure with
  | none => rfl
  | some m =>
    rw [hm] at hleaves
    dsimp only
    exact if_pos hleaves

/-- What it fails with is reported, so all that can be missing is the answer. -/
lemma said_eq (h : c.FailsAsReported limit) :
    c.said limit = .ok (if (c.failure? limit).isNone then some c.firstTurn.answer else none) := by
  rw [said]
  cases hf : c.failure? limit with
  | none => rfl
  | some f =>
    obtain ⟨g, rfl⟩ := h.exists_fault hf
    rfl

/-- All that can be missing is the answer. -/
lemma exists_heard (h : c.FailsAsReported limit) : ∃ a, c.heard limit = .ok a :=
  ⟨_, by rw [heard_eq (by simp [h.said_eq]), h.farewell_eq, h.said_eq]; rfl⟩

end ClientScript.FailsAsReported

/-! ### Answers with a location -/

namespace SpecLocation

variable {answer : String} {f : Failure}

/-- An answer fails exactly if the reader comes, in its first object, to a number with too many digits or to a
container that is too deep. -/
lemma ofAnswer_eq_error_iff :
    ofAnswer answer = .error f ↔ ∃ o fault, objectForm.first? answer.toList = some o ∧
      Json.readChars o.value = .error fault ∧
      ((∃ count, fault = .tooManyDigits count) ∨ ∃ container, fault = .tooDeep container) ∧
      f = .badJson fault := by
  constructor
  · intro h
    rw [ofAnswer, read] at h
    cases hfirst : objectForm.first? answer.toList with
    | none =>
      rw [hfirst] at h
      cases h
    | some o =>
      cases hread : Json.readChars o.value with
      | ok v =>
        simp only [hfirst, hread] at h
        cases h
      | error fault =>
        simp only [hfirst, hread] at h
        cases fault with
        | syntaxFault => cases h
        | tooManyDigits count =>
          exact ⟨o, _, rfl, hread, .inl ⟨count, rfl⟩, (Except.error.inj h).symm⟩
        | tooDeep container =>
          exact ⟨o, _, rfl, hread, .inr ⟨container, rfl⟩, (Except.error.inj h).symm⟩
  · rintro ⟨o, fault, hfirst, hread, ⟨count, rfl⟩ | ⟨container, rfl⟩, rfl⟩ <;>
      simp only [ofAnswer, read, hfirst, hread]

/-- Unless its object is too deep, the failure is passed over. -/
lemma isLookupFailure_of_ofAnswer (h : ofAnswer answer = .error f)
    (hnesting : ∀ container, f ≠ .badJson (.tooDeep container)) : f.isLookupFailure = true := by
  obtain ⟨-, fault, -, -, ⟨count, rfl⟩ | ⟨container, rfl⟩, rfl⟩ := ofAnswer_eq_error_iff.mp h
  · rfl
  · exact absurd rfl (hnesting container)

end SpecLocation

/-- An assistant that is asked for a location fails only as reported, and the object in its answer is not too deep
for the reader.  If it gives a path and a commit, both can be written, and the commit can be taken for one. -/
structure ClientScript.TellsLocation (limit : Option Amount) (c : ClientScript) : Prop where
  fails : c.FailsAsReported limit
  nesting : ∀ container, c.location limit ≠ .error (.badJson (.tooDeep container))
  location : ∀ found, c.location limit = .ok found → found.path.isEmptyValue = false →
    found.commit.isEmptyValue = false → found.path.IsWritable ∧ found.commit.IsCommit

/-- It finds a location, or fails in a way that is passed over. -/
lemma ClientScript.TellsLocation.isLookupFailure {limit : Option Amount} {c : ClientScript}
    (h : c.TellsLocation limit) {f : Failure} (hf : c.location limit = .error f) :
    f.isLookupFailure = true := by
  have hnesting (container) : f ≠ .badJson (.tooDeep container) :=
    fun hdeep => h.nesting container (hdeep ▸ hf)
  obtain ⟨a, ha⟩ := h.fails.exists_heard
  rw [ClientScript.location, ha] at hf
  cases a with
  | none => cases hf
  | some answer => exact SpecLocation.isLookupFailure_of_ofAnswer hf hnesting

namespace Migration

/-! ### Mild effects -/

namespace UpdateEffect

/-- An update ends in a success, and writes nothing unless it counts a change. -/
def IsMild (e : UpdateEffect) : Prop :=
  ∃ outcome, e.ends = .ok outcome ∧ outcome.success = true ∧
    (outcome.filesChanged = 0 → e.text = none)

lemma isMild_warning (text : String) : (warning text).IsMild := ⟨_, rfl, rfl, fun _ => rfl⟩

lemma isMild_failing {f : Failure} (h : f.isLookupFailure = true) :
    (failing f).forgiven.IsMild := by
  refine ⟨.warned s!"Could not fetch latest commit: {f.message}", ?_, rfl, fun _ => ?_⟩
  · simp only [forgiven, failing, h, if_true]
  · rw [forgiven_text]
    rfl

lemma IsMild.forgiven {e : UpdateEffect} (h : e.IsMild) : e.forgiven.IsMild := by
  obtain ⟨outcome, hends, hrest⟩ := h
  refine ⟨outcome, ?_, by rwa [forgiven_text]⟩
  simp only [UpdateEffect.forgiven, hends]

end UpdateEffect

/-- Writing a text for a commit is a change. -/
lemma isMild_putEffect {dryRun : Bool} {text : List Char} {points : List CodePoint} {commit : Json}
    {result : String → StepOutcome} (hpoints : points = text.map .char)
    (hcommit : ∃ start, Library.commitStart commit = .ok start)
    (hresult : ∀ start, (result start).success = true ∧ (result start).filesChanged ≠ 0) :
    (putEffect dryRun points commit result).IsMild := by
  obtain ⟨start, hstart⟩ := hcommit
  refine ⟨result start, ?_, (hresult start).1, fun h => absurd h (hresult start).2⟩
  have hwriting : (writing dryRun points).1 = .ok () := by
    rw [writing, hpoints, CodePoint.toChars?_map_char]
    cases dryRun <;> rfl
  simp only [putEffect, hwriting, hstart]
  rfl

/-- A commit that can be written leaves a text. -/
lemma exists_withCommit {commit : Json} (h : commit.IsWritable) (text : List Char) :
    ∃ s : List Char, TspLocation.withCommit commit.text (text.map .char) = s.map CodePoint.char := by
  obtain ⟨c, hc⟩ := h
  exact ⟨_, by rw [hc, TspLocation.withCommit_map_char]⟩

namespace Library

variable {l : Library} {w : World} {u : CommitUpdate}

/-- Some outcome is a commit, or a failure that is passed over. -/
def IsFound (r : Except Failure Json) : Prop :=
  (∀ f, r = .error f → f.isLookupFailure = true) ∧ ∀ c, r = .ok c → c.IsCommit

/-- Setting a commit is a mild effect. -/
lemma isMild_commit {dryRun : Bool} {commit : Json} {result : String → StepOutcome}
    (hcommit : commit.IsCommit) (hne : commit.isEmptyValue = false) (text : List Char)
    (hresult : ∀ start, (result start).success = true ∧ (result start).filesChanged ≠ 0) :
    (putEffect dryRun (TspLocation.withCommit commit.text (text.map .char)) commit
      result).IsMild := by
  obtain ⟨s, hs⟩ := exists_withCommit (hcommit.isWritable hne) text
  exact isMild_putEffect hs (hcommit.exists_commitStart hne) hresult

lemma isMild_settled (dryRun : Bool) {newest : Json} (h : newest.IsCommit) :
    (u.settled dryRun newest).IsMild := by
  rw [CommitUpdate.settled]
  split
  · exact UpdateEffect.isMild_warning _
  · split
    · exact UpdateEffect.isMild_warning _
    · rename_i hne _
      exact isMild_commit h (by simpa using hne) u.text fun _ => ⟨rfl, Nat.one_ne_zero⟩

/-- What the assistant says of a specification that has moved is asked for unless changes are only reported, and the
newest commit of the branch where that gives no place or no commit. -/
lemma isMild_moved {dryRun : Bool} {limit : Option Amount} {c : ClientScript}
    {newest : Except Failure Json} (hc : dryRun = false → c.TellsLocation limit)
    (hnewest : dryRun = false → ∀ found, c.location limit = .ok found →
      (found.path.isEmptyValue || found.commit.isEmptyValue) = true → IsFound newest) :
    (u.moved dryRun (c.location limit) newest).forgiven.IsMild := by
  rw [CommitUpdate.moved.eq_def]
  split
  · exact (UpdateEffect.isMild_warning _).forgiven
  · rename_i hdry
    have hreal : dryRun = false := by simpa using hdry
    cases hloc : c.location limit with
    | error f => exact UpdateEffect.isMild_failing ((hc hreal).isLookupFailure hloc)
    | ok found =>
      dsimp only
      split
      · rename_i hfound
        obtain ⟨hpne, hne⟩ : found.path.isEmptyValue = false ∧ found.commit.isEmptyValue = false := by
          simpa using hfound
        obtain ⟨⟨p, hp⟩, hcommit⟩ := (hc hreal).location found hloc hpne hne
        rw [hp, CommitUpdate.points, ← TspLocation.withDirectory_map_char]
        exact (isMild_commit hcommit hne _ fun _ => ⟨rfl, Nat.one_ne_zero⟩).forgiven
      · rename_i hfound
        have hlast := hnewest hreal found hloc (by simpa [or_iff_not_imp_left] using hfound)
        cases hvalue : newest with
        | error f => exact UpdateEffect.isMild_failing (hlast.1 f hvalue)
        | ok newest =>
          dsimp only
          split
          · exact (UpdateEffect.isMild_warning _).forgiven
          · rename_i hne
            exact (isMild_commit (hlast.2 newest hvalue) (by simpa using hne) u.text
              fun _ => ⟨rfl, Nat.one_ne_zero⟩).forgiven

/-- What an update finds, as far as it asks for it: values that can be taken for commits, a location that can be
written, and no failures but those that are passed over. -/
structure CommitUpdate.Lookups (l : Library) (w : World) (u : CommitUpdate) : Prop where
  place : ∀ f, u.isThere w.replyAt = .error f → f.isLookupFailure = true
  newest : u.isThere w.replyAt = .ok true → IsFound (u.newest w.replyAt)
  assistant : u.isThere w.replyAt = .ok false → l.dryRun = false →
    (w.client 0).TellsLocation l.search.profile.limit
  branch : u.isThere w.replyAt = .ok false → l.dryRun = false →
    ∀ found, (w.client 0).location l.search.profile.limit = .ok found →
      (found.path.isEmptyValue || found.commit.isEmptyValue) = true → IsFound (w.replyAt 1).commit

/-- An update that finds such values is mild. -/
lemma CommitUpdate.Lookups.isMild (h : CommitUpdate.Lookups l w u) :
    (u.effect l.dryRun w.replyAt ((w.client 0).location l.search.profile.limit)).IsMild := by
  rw [CommitUpdate.effect]
  cases hthere : u.isThere w.replyAt with
  | error f => exact UpdateEffect.isMild_failing (h.place f hthere)
  | ok there =>
    cases there with
    | false => exact isMild_moved (h.assistant hthere) (h.branch hthere)
    | true =>
      have hnewest := h.newest hthere
      dsimp only
      cases hvalue : u.newest w.replyAt with
      | error f => exact UpdateEffect.isMild_failing (hnewest.1 f hvalue)
      | ok newest => exact isMild_settled l.dryRun (hnewest.2 newest hvalue)

/-- What a step finds when it looks for commits: an address that can be read, and what the update of the repository
asks for. -/
structure Lookups (l : Library) (w : World) (text : List Char) : Prop where
  address : ∀ repository, TspLocation.repositoryValue? text = some repository →
    ∃ names, TspLocation.ownerAndName repository = .ok names
  update : ∀ repository owner repo, TspLocation.repositoryValue? text = some repository →
    TspLocation.ownerAndName repository = .ok (some (owner, repo)) →
      CommitUpdate.Lookups l w ⟨text, owner, repo, givenDirectory text⟩

/-- Failures of lookups are warnings: a step that finds such values never fails, and leaves the file as it is
when it counts no change. -/
theorem updateCommit_succeeds {text : List Char} (hlong : w.tree.isTooLong l.locationFile = false)
    (hfile : w.tree.HoldsText l.locationFile text)
    (hspares : (w.client 0).firstTurn.ending.leavings.Spares l.locationFile)
    (h : l.Lookups w text) :
    ∃ outcome v, l.updateCommit w = (.ok outcome, v) ∧ outcome.success = true ∧
      (outcome.filesChanged = 0 →
        v.tree.content? l.locationFile = w.tree.content? l.locationFile) := by
  obtain ⟨v, hv, hon⟩ := updateCommit_apply hlong hfile hspares
  have hmild : (l.commitEffect w text).IsMild := by
    rw [commitEffect]
    cases hrepo : TspLocation.repositoryValue? text with
    | none => exact UpdateEffect.isMild_warning _
    | some repository =>
      obtain ⟨names, hnames⟩ := h.address repository hrepo
      simp only [hnames]
      cases names with
      | none => exact UpdateEffect.isMild_warning _
      | some names => exact (h.update repository names.1 names.2 hrepo hnames).isMild
  obtain ⟨outcome, hends, hsuccess, htext⟩ := hmild
  refine ⟨outcome, v, by rw [hv, hends], hsuccess, fun hzero => ?_⟩
  rw [UpdateEffect.On, htext hzero] at hon
  exact hon

/-- A directory and a commit are given. -/
def lostText : List Char := "repo: Azure/widget\ndirectory: spec\ncommit: 000\n".toList

/-- A directory that is not found any more, an assistant that reports an error, and a request that fails. -/
def lostWorld : World :=
  { serviceWorld (String.ofList lostText) [.answer 404 [], .raises ⟨.transport .connection, "refused"⟩] with
    clients := [{ turns := [{ messages := [.result true "error" none none] }] }] }

lemma lostWorld_tellsLocation :
    (lostWorld.client 0).TellsLocation plainLibrary.search.profile.limit := by
  have hfailure : (lostWorld.client 0).firstTurn.failure? plainLibrary.search.profile.limit =
      some (.fault (.assistantReported "error")) := rfl
  have hlocation : (lostWorld.client 0).location plainLibrary.search.profile.limit = .ok .none := rfl
  refine ⟨⟨rfl, rfl, rfl, fun f hf => ⟨_, Option.some.inj (hf.symm.trans hfailure)⟩⟩,
    fun container hdeep => ?_, fun found hfound hpath => ?_⟩
  · rw [hlocation] at hdeep
    cases hdeep
  · obtain rfl := Except.ok.inj (hlocation.symm.trans hfound)
    cases hpath

lemma lostWorld_lookups (owner repo : String) :
    CommitUpdate.Lookups plainLibrary lostWorld ⟨lostText, owner, repo, givenDirectory lostText⟩ := by
  have hgiven : (givenDirectory lostText).isEmpty = false := by decide +kernel
  have hthere : CommitUpdate.isThere ⟨lostText, owner, repo, givenDirectory lostText⟩
      lostWorld.replyAt = .ok false := by
    simp only [CommitUpdate.isThere, hgiven]
    rfl
  refine ⟨fun f hf => ?_, fun htrue => ?_, fun _ _ => lostWorld_tellsLocation, fun _ _ _ _ _ => ?_⟩
  · rw [hthere] at hf
    cases hf
  · rw [hthere] at htrue
    cases htrue
  · refine ⟨fun f hf => ?_, fun c hc => by cases hc⟩
    obtain rfl := Except.error.inj hf
    rfl

/-- The assistant and the web service fail, and the step does not. -/
theorem updateCommit_lost :
    ∃ outcome v, plainLibrary.updateCommit lostWorld = (.ok outcome, v) ∧ outcome.success = true := by
  have hrepo : TspLocation.repositoryValue? lostText = some "Azure/widget".toList := by
    decide +kernel
  have hlookups : plainLibrary.Lookups lostWorld lostText :=
    { address := fun repository hrepository => by
        obtain rfl := Option.some.inj (hrepository.symm.trans hrepo)
        exact ⟨some ("Azure", "widget"), rfl⟩
      update := fun _ owner repo _ _ => lostWorld_lookups owner repo }
  obtain ⟨outcome, v, hv, hsuccess, -⟩ := updateCommit_succeeds (l := plainLibrary) (w := lostWorld)
    (by decide +kernel) rfl (by decide) hlookups
  exact ⟨outcome, v, hv, hsuccess⟩

/-- An element that is no object, and a commit that is a number, stop the step.  A commit that is no text leaves
the file empty, and counts no change. -/
theorem updateCommit_other_commits :
    let numbers := serviceWorld "repo: Azure/widget\n" [.answer 200 (Utf8.encode "[1]".toList)]
    let number := serviceWorld "repo: Azure/widget\n"
      [.answer 200 (Utf8.encode "[\x7b\"sha\": 7\x7d]".toList)]
    let half := serviceWorld "repo: Azure/widget\ndirectory: spec\n"
      [.answer 404 [], .answer 200 (Utf8.encode "[\x7b\"sha\": \"\\ud800\"\x7d]".toList)]
    (plainLibrary.updateCommit numbers).1.toOption = none ∧
      (plainLibrary.updateCommit number).1.toOption = none ∧
      (plainLibrary.updateCommit half).1.toOption.map (fun o => (o.success, o.filesChanged)) =
        some (true, 0) ∧
      (plainLibrary.updateCommit half).2.tree.content? plainLibrary.locationFile = some [] := by
  decide +kernel

end Library

end Migration

end BuildMend
