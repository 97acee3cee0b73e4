import BuildMend.Proofs.Migration.LocationFile

/-!
Which commit an update writes.

* `Event.isMark`, `World.marks`: the requests, the new clients of the assistant, and the files that the
  steps say they saved, in order.
* `CommitService.placeRequest`, `CommitService.pathRequest`, `CommitService.branchRequest`: the requests of
  an update.
* `World.LookedUp`: some lookups lead from one world to another; the file stays as it is.
* `CommitUpdate.Finds`: the newest commit, by the requests that found it.
* `CommitUpdate.Chooses`: the text that an update writes, by what it did before.
* `CommitUpdate.AsksLost`: the assistant was asked only about a directory that does not exist any more.
* `Library.updateCommit_chooses`: an update leaves the file as it is and counts no change, or writes such a
  text once; the assistant is asked only about a directory that the web service does not find.
-/

namespace BuildMend

open Act FileTree Number Text

/-! ### What is observed -/

/-- Whether an event is a request, a new client of the assistant, or what the steps tell of a file. -/
def Event.isMark : Event → Bool
  | .get _ | .client _ => true
  | .log level source _ => level == .debug && source == .migrationSteps
  | _ => false

namespace World

/-- The marks of a world so far, in order. -/
def marks (w : World) : List Event := w.trace.filter Event.isMark

variable {w v : World}

lemma marks_told (w : World) (es : List Event) :
    (w.told es).marks = w.marks ++ es.reverse.filter Event.isMark := by
  simp [marks, told, trace]

/-- A search leaves no marks but those of clients. -/
lemma Searched.marks_eq (h : w.Searched v) :
    ∃ cs, v.marks = w.marks ++ cs ∧ ∀ e ∈ cs, e.isClient = true := by
  obtain ⟨es, hes, hall⟩ := h
  refine ⟨es.reverse.filter Event.isMark, by simp [marks, trace, hes], fun e he => ?_⟩
  obtain ⟨hmem, hmark⟩ := List.mem_filter.mp he
  have hsearch := hall e (List.mem_reverse.mp hmem)
  cases e with
  | log level source text =>
    cases source <;> simp [Event.isMark, Event.isOfSearch] at hmark hsearch
  | client options => rfl
  | _ => simp [Event.isMark, Event.isOfSearch] at hmark hsearch

end World

/-! ### Requests -/

namespace CommitService

variable (c : CommitService) (owner repo path : String) (branch : Option String) (w : World)

/-- The question whether a directory exists on a branch. -/
def placeRequest : Request :=
  ⟨s!"{c.repository owner repo}/contents/{barePath path}", [("ref", branchValue branch)], c.headers,
    answerLimit⟩

/-- The question for the newest commit of a directory on a branch. -/
def pathRequest : Request :=
  ⟨c.repository owner repo ++ "/commits",
    [("path", .ofString (barePath path)), ("sha", branchValue branch),
      ("per_page", .number (.whole 1))], c.headers, answerLimit⟩

/-- The question for the newest commit of a branch. -/
def branchRequest : Request :=
  ⟨c.repository owner repo ++ "/commits",
    [("sha", branchValue branch), ("per_page", .number (.whole 1))], c.headers, answerLimit⟩

/-- The mark of a request is left, whatever it gets. -/
lemma fetch_marks (url : String) (parameters : List (String × Json)) :
    (c.fetch url parameters w).2.marks =
      w.marks ++ [.get ⟨url, parameters, c.headers, answerLimit⟩] := by
  set m := w.marks ++ [.get ⟨url, parameters, c.headers, answerLimit⟩] with hm
  have hfetch : (c.fetch url parameters).Ends w (fun _ v => v.marks = m) fun _ v => v.marks = m := by
    rw [fetch, ends_bind, ends_of_apply_ok (Action.record_apply _ _), ends_bind]
    have hnext (v : World) : (nextReply v).2.marks = v.marks := by
      rw [nextReply_apply]
      cases v.replies <;> rfl
    refine (ends_of_state (P := fun v => v.marks = m) ?_).mono (fun r v hv => ?_) fun _ _ hv => hv
    · rw [hnext, hm]
      exact w.marks_told [_]
    · cases r with
      | raises f => exact hv
      | answer status body =>
        refine ends_ite.mpr ⟨fun _ => ?_, fun _ => ?_⟩
        · rw [ends_bind, Action.log, ends_of_apply_ok (Action.record_apply _ _)]
          exact (v.marks_told [_]).trans (by simpa [Event.isMark] using hv)
        · rw [ends_bind]
          exact (ends_of_state (P := fun v => v.marks = m) hv).mono (fun _ _ h => ends_pure.mpr h)
            fun _ _ h => h
  exact hfetch.state

lemma hasPath_marks :
    (c.hasPath owner repo path branch w).2.marks =
      w.marks ++ [.get (c.placeRequest owner repo path branch)] := by
  rw [placeRequest, ← fetch_marks, hasPath, bind_apply]
  rcases c.fetch _ _ w with ⟨f | _ | _ | _, v⟩ <;> rfl

lemma latestForPath_marks :
    (c.latestForPath owner repo path branch w).2.marks =
      w.marks ++ [.get (c.pathRequest owner repo path branch)] := by
  rw [pathRequest, ← fetch_marks, latestForPath, bind_apply]
  rcases c.fetch _ _ w with ⟨f | answer, v⟩ <;> rfl

lemma latest_marks :
    (c.latest owner repo branch w).2.marks =
      w.marks ++ [.get (c.branchRequest owner repo branch)] := by
  rw [branchRequest, ← fetch_marks, latest, bind_apply]
  rcases c.fetch _ _ w with ⟨f | answer, v⟩ <;> rfl

end CommitService

/-! ### Lookups -/

/-- From one world to another lookups leave some marks and use up some replies; a file stays as it is,
and is not saved. -/
structure World.LookedUp (w : World) (p : Path) (ms : List Event) (n : Nat) (v : World) : Prop where
  marks : v.marks = w.marks ++ ms
  replies : v.replies = w.replies.drop n
  content : v.tree.content? p = w.tree.content? p
  unsaved : Migration.savedRecord p ∉ ms

namespace World.LookedUp

variable {w v x : World} {p : Path} {ms : List Event} {n : Nat}

lemma refl (w : World) (p : Path) : w.LookedUp p [] 0 w where
  marks := (List.append_nil _).symm
  replies := rfl
  content := rfl
  unsaved := List.not_mem_nil

/-- The script goes on behind the replies that are used up. -/
lemma replyAt_eq (h : w.LookedUp p ms n v) : v.replyAt 0 = w.replyAt n := by
  simp [World.replyAt, h.replies, List.getD_eq_getElem?_getD]

/-- What is logged leaves no mark. -/
lemma told (h : w.LookedUp p ms n v) (es : List Event) (hes : es.filter Event.isMark = []) :
    w.LookedUp p ms n (v.told es) where
  marks := by rw [marks_told, List.filter_reverse, hes, h.marks]; simp
  replies := h.replies
  content := h.content
  unsaved := h.unsaved

/-- A request uses up a reply. -/
lemma request (h : w.LookedUp p ms n v) (hs : v.Served 1 x) {q : Request}
    (hq : x.marks = v.marks ++ [.get q]) : w.LookedUp p (ms ++ [.get q]) (n + 1) x where
  marks := by rw [hq, h.marks, List.append_assoc]
  replies := by rw [hs.replies, h.replies, List.drop_drop]
  content := by rw [hs.tree, h.content]
  unsaved := by simpa [Migration.savedRecord] using h.unsaved

variable (c : CommitService) (owner repo path : String) (branch : Option String)

lemma hasPath (h : w.LookedUp p ms n v) :
    ∃ x, c.hasPath owner repo path branch v = ((w.replyAt n).holdsPath, x) ∧
      w.LookedUp p (ms ++ [.get (c.placeRequest owner repo path branch)]) (n + 1) x ∧
      x.client 0 = v.client 0 := by
  obtain ⟨x, hx, hserved⟩ := c.hasPath_apply v owner repo path branch
  have hmarks := c.hasPath_marks owner repo path branch v
  rw [hx] at hmarks
  exact ⟨x, by rw [hx, h.replyAt_eq], h.request hserved hmarks, hserved.client_eq 0⟩

lemma latestForPath (h : w.LookedUp p ms n v) :
    ∃ x, c.latestForPath owner repo path branch v = ((w.replyAt n).commit, x) ∧
      w.LookedUp p (ms ++ [.get (c.pathRequest owner repo path branch)]) (n + 1) x := by
  obtain ⟨x, hx, hserved⟩ := c.latestForPath_apply v owner repo path branch
  have hmarks := c.latestForPath_marks owner repo path branch v
  rw [hx] at hmarks
  exact ⟨x, by rw [hx, h.replyAt_eq], h.request hserved hmarks⟩

lemma latest (h : w.LookedUp p ms n v) :
    ∃ x, c.latest owner repo branch v = ((w.replyAt n).commit, x) ∧
      w.LookedUp p (ms ++ [.get (c.branchRequest owner repo branch)]) (n + 1) x := by
  obtain ⟨x, hx, hserved⟩ := c.latest_apply v owner repo branch
  have hmarks := c.latest_marks owner repo branch v
  rw [hx] at hmarks
  exact ⟨x, by rw [hx, h.replyAt_eq], h.request hserved hmarks⟩

/-- A search uses up no reply. -/
lemma locate (s : SpecSearch) (branch : String) (h : w.LookedUp p ms n v)
    (hclient : v.client 0 = w.client 0)
    (hspares : (w.client 0).firstTurn.ending.leavings.Spares p) :
    ∃ x cs, s.locate owner repo path branch v = ((w.client 0).location s.profile.limit, x) ∧
      w.LookedUp p (ms ++ cs) n x ∧ ∀ e ∈ cs, e.isClient = true := by
  rw [← hclient] at hspares
  obtain ⟨x, hx, hcontent, hreplies, hsearched⟩ := s.locate_apply owner repo path branch hspares
  obtain ⟨cs, hcs, hall⟩ := hsearched.marks_eq
  refine ⟨x, cs, by rw [hx, hclient], ⟨?_, ?_, ?_, fun hmem => ?_⟩, hall⟩
  · rw [hcs, h.marks, List.append_assoc]
  · rw [hreplies, h.replies]
  · rw [hcontent, h.content]
  · exact (List.mem_append.mp hmem).elim h.unsaved fun hcs => nomatch hall _ hcs

end World.LookedUp

/-! ### What an update chooses -/

/-- A value is a name: it is a text, or stands for nothing. -/
def Json.IsName (v : Json) : Prop :=
  v.isEmptyValue = true ∨ ∃ s : List Char, v = .string (s.map .char)

lemma Json.IsToken.isName {v : Json} (h : v.IsToken) : v.IsName :=
  h.imp_right fun ⟨s, _, hs⟩ => ⟨s, hs⟩

lemma Json.IsName.exists_text {v : Json} (h : v.IsName) (hne : v.isEmptyValue = false) :
    ∃ s : List Char, s ≠ [] ∧ v = .string (s.map .char) := by
  rcases h with h | ⟨s, rfl⟩
  · rw [h] at hne
    cases hne
  · refine ⟨s, ?_, rfl⟩
    rintro rfl
    cases hne

namespace Migration

namespace Library

namespace CommitUpdate

variable (u : CommitUpdate) (c : CommitService)

/-- The question whether the directory exists. -/
def place : Event := .get (c.placeRequest u.owner u.repo u.directory (some usualBranch))

/-- The question for the newest commit of the directory. -/
def ofPath : Event := .get (c.pathRequest u.owner u.repo u.directory (some usualBranch))

/-- The question for the newest commit of the branch. -/
def ofBranch : Event := .get (c.branchRequest u.owner u.repo (some usualBranch))

/-- The newest commit, and the requests that found it: it is the one of the directory, or else of the
branch. -/
inductive Finds (reply : Nat → Reply) : List Event → Json → Prop
  | ofPath {newest : Json} : u.directory.isEmpty = false → (reply 0).holdsPath = .ok true →
      (reply 1).commit = .ok newest → newest.isEmptyValue = false →
      Finds reply [u.place c, u.ofPath c] newest
  | ofBranch {nothing newest : Json} : u.directory.isEmpty = false →
      (reply 0).holdsPath = .ok true → (reply 1).commit = .ok nothing →
      nothing.isEmptyValue = true → (reply 2).commit = .ok newest →
      Finds reply [u.place c, u.ofPath c, u.ofBranch c] newest
  | ofBranchAlone {newest : Json} : u.directory.isEmpty = true →
      (reply 0).commit = .ok newest → Finds reply [u.ofBranch c] newest

/-- The text that an update writes at a place, and its marks: it gets the newest commit; or, when the
directory is not there any more, the new one with the commit that the assistant gives with it, or else
the newest commit of the branch. -/
inductive Chooses (reply : Nat → Reply) (location : Except Failure SpecLocation) (p : Path) :
    List Event → List Char → Prop
  | newest {ms : List Event} {commit : List Char} :
      u.Finds c reply ms (.string (commit.map .char)) → commit ≠ [] →
      Chooses reply location p (ms ++ [savedRecord p]) (TspLocation.withCommit commit u.text)
  | moved {asked : List Event} {path commit : List Char} : u.directory.isEmpty = false →
      (reply 0).holdsPath = .ok false → (∀ e ∈ asked, e.isClient = true) →
      location = .ok ⟨.string (path.map .char), .string (commit.map .char)⟩ → path ≠ [] →
      commit ≠ [] →
      Chooses reply location p (u.place c :: asked ++ [savedRecord p])
        (TspLocation.withCommit commit (TspLocation.withDirectory path u.text))
  | lost {asked : List Event} {found : SpecLocation} {commit : List Char} :
      u.directory.isEmpty = false → (reply 0).holdsPath = .ok false →
      (∀ e ∈ asked, e.isClient = true) → location = .ok found →
      (found.path.isEmptyValue = true ∨ found.commit.isEmptyValue = true) →
      (reply 1).commit = .ok (.string (commit.map .char)) → commit ≠ [] →
      Chooses reply location p (u.place c :: asked ++ [u.ofBranch c] ++ [savedRecord p])
        (TspLocation.withCommit commit u.text)

/-- By its marks an update has asked the assistant only behind the answer that the directory does not
exist. -/
def AsksLost (reply : Nat → Reply) (ms : List Event) : Prop :=
  ∀ e ∈ ms, e.isClient = true → ms.head? = some (u.place c) ∧ u.directory.isEmpty = false ∧
    (reply 0).holdsPath = .ok false

variable {u c} {reply : Nat → Reply} {ms : List Event} {newest : Json}

/-- It is asked for only where the directory is there, or none is given. -/
lemma Finds.isThere (h : u.Finds c reply ms newest) : u.isThere reply = .ok true := by
  rw [CommitUpdate.isThere]
  cases h with
  | ofPath hdirectory hthere | ofBranch hdirectory hthere => rwa [hdirectory]
  | ofBranchAlone hdirectory => rw [if_pos hdirectory]

lemma Finds.newest_eq (h : u.Finds c reply ms newest) : u.newest reply = .ok newest := by
  rw [CommitUpdate.newest]
  cases h with
  | ofPath hdirectory _ hcommit hne =>
    rw [if_neg (by simp [hdirectory]), hcommit]
    exact if_neg (by simp [hne])
  | ofBranch hdirectory _ hnothing hempty hcommit =>
    rw [if_neg (by simp [hdirectory]), hnothing, ← hcommit]
    exact if_pos hempty
  | ofBranchAlone hdirectory hcommit => rwa [if_pos hdirectory]

lemma AsksLost.of_silent (h : ∀ e ∈ ms, e.isClient = false) : u.AsksLost c reply ms :=
  fun e he hc => by simp [h e he] at hc

/-- The first mark stays the first one. -/
lemma AsksLost.of_lost (hdirectory : u.directory.isEmpty = false)
    (hlost : (reply 0).holdsPath = .ok false) (ms : List Event) :
    u.AsksLost c reply (u.place c :: ms) := fun _ _ _ => ⟨rfl, hdirectory, hlost⟩

/-- To save a file is not to ask. -/
lemma AsksLost.saved (h : u.AsksLost c reply ms) (p : Path) :
    u.AsksLost c reply (ms ++ [savedRecord p]) := by
  intro e he hc
  rcases List.mem_append.mp he with he | he
  · obtain ⟨hhead, hlost⟩ := h e he hc
    exact ⟨by rw [List.head?_append, hhead]; rfl, hlost⟩
  · obtain rfl := List.mem_singleton.mp he
    cases hc

end CommitUpdate

/-- What an update has come to, by its marks.  The assistant was asked only behind the answer that the
directory does not exist.  The file is as it was, and no change is counted; or it was written once. -/
structure Chose (l : Library) (u : CommitUpdate) (w : World) (r : Except Failure StepOutcome)
    (ms : List Event) (v : World) : Prop where
  marks : v.marks = w.marks ++ ms
  asks : u.AsksLost l.commits w.replyAt ms
  ends :
    (v.tree.content? l.locationFile = w.tree.content? l.locationFile ∧
      savedRecord l.locationFile ∉ ms ∧ ∀ result, r = .ok result → result.filesChanged = 0) ∨
    ∃ result text, r = .ok result ∧ result.filesChanged = 1 ∧
      v.tree.HoldsText l.locationFile text ∧
      u.Chooses l.commits w.replyAt ((w.client 0).location l.search.profile.limit)
        l.locationFile ms text

/-- The commits and the path that an update finds, as far as it asks for them, are names. -/
structure FindsNames (l : Library) (u : CommitUpdate) (w : World) : Prop where
  newest : u.isThere w.replyAt = .ok true → ∀ newest, u.newest w.replyAt = .ok newest → newest.IsName
  location : u.isThere w.replyAt = .ok false →
    ∀ found, (w.client 0).location l.search.profile.limit = .ok found →
      found.path.IsName ∧ found.commit.IsName
  branch : u.isThere w.replyAt = .ok false →
    ∀ found, (w.client 0).location l.search.profile.limit = .ok found →
      (found.path.isEmptyValue || found.commit.isEmptyValue) = true →
        ∀ newest, (w.replyAt 1).commit = .ok newest → newest.IsName

variable {l : Library} {u : CommitUpdate} {w v : World} {ms : List Event} {n : Nat}

/-- The newest commit is a name. -/
lemma FindsNames.isName_newest (h : l.FindsNames u w) {newest : Json}
    (hfinds : u.Finds l.commits w.replyAt ms newest) : newest.IsName :=
  h.newest hfinds.isThere newest hfinds.newest_eq

/-- Lookups that end an update leave the file as it is. -/
lemma Chose.left {r : Except Failure StepOutcome} (h : w.LookedUp l.locationFile ms n v)
    (hasks : u.AsksLost l.commits w.replyAt ms)
    (hr : ∀ result, r = .ok result → result.filesChanged = 0) : l.Chose u w r ms v where
  marks := h.marks
  asks := hasks
  ends := Or.inl ⟨h.content, h.unsaved, hr⟩

/-- So do lookups that fail. -/
lemma Chose.failed {f : Failure} (h : w.LookedUp l.locationFile ms n v)
    (hasks : u.AsksLost l.commits w.replyAt ms) :
    l.Chose u w (.error f) ms v := .left h hasks (by simp)

/-- A failure that is told as a warning changes nothing. -/
lemma Chose.forgiven {r : Except Failure StepOutcome} (h : l.Chose u w r ms v) :
    l.Chose u w (UpdateEffect.mk r none).forgiven.ends ms v := by
  rw [UpdateEffect.forgiven]
  cases r with
  | ok result => exact h
  | error f =>
    dsimp only
    split
    · obtain ⟨hmarks, hasks, ⟨hcontent, hsaved, -⟩ | ⟨_, _, hr, -⟩⟩ := h
      · refine ⟨hmarks, hasks, Or.inl ⟨hcontent, hsaved, fun result hresult => ?_⟩⟩
        obtain rfl := Except.ok.inj hresult
        rfl
      · cases hr
    · exact h

/-- A text with a commit is written, and told to be, when it is the one that is chosen. -/
lemma put_chose (hreal : l.dryRun = false) (h : w.LookedUp l.locationFile ms n v)
    (hasks : u.AsksLost l.commits w.replyAt ms)
    {text : List Char} (commit : List CodePoint) (result : String → StepOutcome)
    (hresult : ∀ start, (result start).filesChanged = 1) {rest : String → Action StepOutcome}
    (hrest : ∀ start x, ∃ es, rest start x = (.ok (result start), x.told es) ∧
      es.filter Event.isMark = [])
    (hchosen : u.Chooses l.commits w.replyAt ((w.client 0).location l.search.profile.limit)
      l.locationFile (ms ++ [savedRecord l.locationFile]) text) :
    ∃ r x qs, (do
        l.savePoints l.locationFile (text.map .char)
        let start ← Act.ofExcept (commitStart (.string commit))
        rest start : Action StepOutcome) v = (r, x) ∧ l.Chose u w r qs x := by
  set saved : World :=
    { v.told [savedRecord l.locationFile] with
      tree := v.tree.write l.locationFile (Utf8.encode text) }
  have hput : l.savePoints l.locationFile (text.map .char) v = (.ok (), saved) := by
    rw [savePoints, CodePoint.toChars?_map_char]
    exact save_told hreal _ text v
  obtain ⟨es, hes, hmarks⟩ := hrest (CodePoint.shown (commit.take 8)) saved
  refine ⟨.ok (result (CodePoint.shown (commit.take 8))), saved.told es,
    ms ++ [savedRecord l.locationFile], (bind_of_ok hput).trans ((bind_of_ok rfl).trans hes), ?_⟩
  exact
    { marks := by
        rw [World.marks_told, List.filter_reverse, hmarks, List.reverse_nil, List.append_nil,
          ← List.append_assoc, ← h.marks]
        exact v.marks_told [savedRecord l.locationFile]
      asks := hasks.saved _
      ends := by
        refine Or.inr ⟨_, text, rfl, hresult _, ?_, hchosen⟩
        show (v.tree.write l.locationFile (Utf8.encode text)).HoldsText l.locationFile text
        rw [HoldsText, content?_write, if_pos rfl] }

/-! ### Updates -/

/-- The newest commit of the branch is looked up. -/
lemma latest_looked (h : w.LookedUp l.locationFile ms n v) :
    ∃ x, (do
        note .info "Could not find path-specific commits, using latest main commit"
        l.commits.latest u.owner u.repo (some usualBranch) : Action Json) v =
          ((w.replyAt n).commit, x) ∧
      w.LookedUp l.locationFile (ms ++ [u.ofBranch l.commits]) (n + 1) x :=
  (h.told [_] rfl).latest l.commits u.owner u.repo (some usualBranch)

/-- The newest commit is looked up for no directory, or for one that exists. -/
lemma newestCommit_finds
    (h : (u.directory.isEmpty = true ∧ w.LookedUp l.locationFile [] 0 v) ∨
      (u.directory.isEmpty = false ∧ (w.replyAt 0).holdsPath = .ok true ∧
        w.LookedUp l.locationFile [u.place l.commits] 1 v)) :
    ∃ r x ms n, l.newestCommit u v = (r, x) ∧ w.LookedUp l.locationFile ms n x ∧
      (∀ e ∈ ms, e.isClient = false) ∧
      ∀ newest, r = .ok newest → u.Finds l.commits w.replyAt ms newest := by
  rw [newestCommit]
  rcases h with ⟨hdirectory, h⟩ | ⟨hdirectory, hthere, h⟩
  · obtain ⟨x, hx, hlooked⟩ := latest_looked (u := u) h
    rw [if_pos hdirectory]
    exact ⟨_, x, _, _, hx, hlooked, by simp [CommitUpdate.ofBranch, Event.isClient],
      fun newest hnewest => .ofBranchAlone hdirectory hnewest⟩
  · obtain ⟨x, hx, hlooked⟩ := h.latestForPath l.commits u.owner u.repo u.directory
      (some usualBranch)
    rw [if_neg (by simp [hdirectory]), bind_apply, hx]
    cases hcommit : (w.replyAt 1).commit with
    | error f =>
      exact ⟨.error f, x, _, _, rfl, hlooked, by simp [CommitUpdate.place, Event.isClient],
        by simp⟩
    | ok ofDirectory =>
      dsimp only
      cases hvalue : ofDirectory.isEmptyValue with
      | true =>
        obtain ⟨y, hy, hlooked⟩ := latest_looked (u := u) hlooked
        rw [if_pos rfl]
        exact ⟨_, y, _, _, hy, hlooked,
          by simp [CommitUpdate.place, CommitUpdate.ofBranch, Event.isClient],
          fun newest hnewest => .ofBranch hdirectory hthere hcommit hvalue hnewest⟩
      | false =>
        rw [if_neg (by simp)]
        refine ⟨_, x, _, _, rfl, hlooked, by simp [CommitUpdate.place, Event.isClient],
          fun newest hnewest => ?_⟩
        obtain rfl := Except.ok.inj hnewest
        exact .ofPath hdirectory hthere hcommit hvalue

/-- The newest commit is written unless it is the one that is given. -/
lemma saveCommit_chose (hreal : l.dryRun = false) (hnames : l.FindsNames u w)
    (h : w.LookedUp l.locationFile ms n v) (hms : ∀ e ∈ ms, e.isClient = false) {newest : Json}
    (hfinds : u.Finds l.commits w.replyAt ms newest) :
    ∃ r x qs, l.saveCommit u newest v = (r, x) ∧ l.Chose u w r qs x := by
  have hasks : u.AsksLost l.commits w.replyAt ms := .of_silent hms
  have hleft (text : String) : l.Chose u w (.ok (.warned text)) ms v :=
    .left h hasks fun _ hresult => Except.ok.inj hresult ▸ rfl
  rw [saveCommit]
  by_cases hempty : newest.isEmptyValue = true
  · rw [if_pos hempty]
    exact ⟨_, v, ms, rfl, hleft _⟩
  · rw [if_neg hempty]
    obtain ⟨commit, hne, rfl⟩ := (hnames.isName_newest hfinds).exists_text (by simpa using hempty)
    have hput := put_chose hreal h hasks (commit.map .char) (fun _ => .changed 1) (fun _ => rfl)
      (fun start _ => ⟨[.log .info .migrationSteps s!"Updated commit SHA to {start}..."], rfl, rfl⟩)
      (.newest hfinds hne)
    rw [TspLocation.withCommit_map_char] at hput
    cases TspLocation.commitValue? u.text with
    | none => exact hput
    | some given =>
      dsimp only [Option.map_some]
      split
      · exact ⟨_, v, ms, rfl, hleft _⟩
      · exact hput

/-- A directory that does not exist any more: the assistant is asked where it is. -/
lemma relocate_chose (hreal : l.dryRun = false) (hnames : l.FindsNames u w)
    (hspares : (w.client 0).firstTurn.ending.leavings.Spares l.locationFile)
    (hdirectory : u.directory.isEmpty = false) (hlost : (w.replyAt 0).holdsPath = .ok false)
    (h : w.LookedUp l.locationFile [u.place l.commits] 1 v) (hclient : v.client 0 = w.client 0) :
    ∃ r x ms, l.relocate u v = (r, x) ∧ l.Chose u w r ms x := by
  have hasks (ms : List Event) : u.AsksLost l.commits w.replyAt (u.place l.commits :: ms) :=
    .of_lost hdirectory hlost ms
  have hthere : u.isThere w.replyAt = .ok false := by rwa [CommitUpdate.isThere, hdirectory]
  have hsearch := h.told [.log .warning .migrationSteps
    s!"Spec path '{u.directory}' not found on {usualBranch}, searching for its new location"] rfl
  obtain ⟨x, asked, hx, hlooked, hall⟩ :=
    hsearch.locate u.owner u.repo u.directory l.search usualBranch hclient hspares
  rw [relocate, bind_of_ok (note_apply _ _ v), if_neg (by simp [hreal]), bind_apply, hx]
  cases hlocation : (w.client 0).location l.search.profile.limit with
  | error f => exact ⟨.error f, x, _, rfl, .failed hlooked (hasks _)⟩
  | ok found =>
    dsimp only
    by_cases hfound : (!found.path.isEmptyValue && !found.commit.isEmptyValue) = true
    · rw [if_pos hfound]
      obtain ⟨hpath, hcommit⟩ := hnames.location hthere found hlocation
      obtain ⟨hpvalue, hcvalue⟩ : found.path.isEmptyValue = false ∧
          found.commit.isEmptyValue = false := by simpa using hfound
      obtain ⟨path, hpne, hpath⟩ := hpath.exists_text hpvalue
      obtain ⟨commit, hcne, hcommit⟩ := hcommit.exists_text hcvalue
      obtain rfl : found = ⟨.string (path.map .char), .string (commit.map .char)⟩ := by
        rw [← hpath, ← hcommit]
      have hput := put_chose hreal hlooked (hasks _) (commit.map .char) (fun _ => .changed 1)
        (fun _ => rfl) (fun start _ => ⟨[.log .info .migrationSteps
          s!"Found new spec path {(Json.string (path.map .char)).display} at {start}..."], rfl, rfl⟩)
        (.moved hdirectory hlost hall hlocation hpne hcne)
      rw [TspLocation.withCommit_map_char, TspLocation.withDirectory_map_char] at hput
      exact hput
    · rw [if_neg hfound]
      obtain ⟨y, hy, hlatest⟩ := hlooked.latest l.commits u.owner u.repo (some usualBranch)
      rw [bind_apply, hy]
      cases hnewest : (w.replyAt 1).commit with
      | error f => exact ⟨.error f, y, _, rfl, .failed hlatest (hasks _)⟩
      | ok newest =>
        dsimp only
        by_cases hempty : newest.isEmptyValue = true
        · rw [if_pos hempty]
          exact ⟨_, y, _, rfl, .left hlatest (hasks _) fun _ hresult => Except.ok.inj hresult ▸ rfl⟩
        · rw [if_neg hempty]
          have hnothing : found.path.isEmptyValue = true ∨ found.commit.isEmptyValue = true := by
            simpa [imp_iff_not_or] using hfound
          have hname := hnames.branch hthere found hlocation (by simpa using hnothing) newest hnewest
          obtain ⟨commit, hne, rfl⟩ := hname.exists_text (by simpa using hempty)
          have hput := put_chose hreal hlatest (hasks _) (commit.map .char)
            (fun start => .warned
              (s!"Could not find new spec path. Updated SHA to latest main ({start}...). " ++
                "Manual path update required.") 1)
            (fun _ => rfl) (fun _ _ => ⟨[], rfl, rfl⟩)
            (.lost hdirectory hlost hall hlocation hnothing hnewest hne)
          rw [TspLocation.withCommit_map_char] at hput
          exact hput

/-- What the lookups of an update find, or what an update has come to in them. -/
lemma lookUp_chose (hreal : l.dryRun = false) (hnames : l.FindsNames u w)
    (hspares : (w.client 0).firstTurn.ending.leavings.Spares l.locationFile)
    (h : w.LookedUp l.locationFile [] 0 v) (hclient : v.client 0 = w.client 0) :
    ∃ x ms, (∃ r, l.lookUp u v = (r.map .inl, x) ∧ l.Chose u w r ms x) ∨
      ∃ newest n, l.lookUp u v = (.ok (.inr newest), x) ∧ w.LookedUp l.locationFile ms n x ∧
        (∀ e ∈ ms, e.isClient = false) ∧ u.Finds l.commits w.replyAt ms newest := by
  -- where the directory exists, or none is given
  have hfound {v : World} (h : (u.directory.isEmpty = true ∧ w.LookedUp l.locationFile [] 0 v) ∨
      (u.directory.isEmpty = false ∧ (w.replyAt 0).holdsPath = .ok true ∧
        w.LookedUp l.locationFile [u.place l.commits] 1 v)) :
      ∃ x ms, (∃ r, (do return .inr (← l.newestCommit u) : Action (StepOutcome ⊕ Json)) v =
          (r.map .inl, x) ∧ l.Chose u w r ms x) ∨
        ∃ newest n, (do return .inr (← l.newestCommit u) : Action (StepOutcome ⊕ Json)) v =
            (.ok (.inr newest), x) ∧ w.LookedUp l.locationFile ms n x ∧
          (∀ e ∈ ms, e.isClient = false) ∧ u.Finds l.commits w.replyAt ms newest := by
    obtain ⟨r, x, ms, n, hx, hlooked, hms, hfinds⟩ := newestCommit_finds h
    refine ⟨x, ms, ?_⟩
    rw [bind_apply, hx]
    cases r with
    | error f =>
      exact Or.inl ⟨.error f, rfl, .failed hlooked (.of_silent hms)⟩
    | ok newest => exact Or.inr ⟨newest, n, rfl, hlooked, hms, hfinds newest rfl⟩
  rw [lookUp]
  by_cases hempty : u.directory.isEmpty = true
  · rw [if_pos hempty]
    exact hfound (Or.inl ⟨hempty, h⟩)
  · have hdirectory : u.directory.isEmpty = false := by simpa using hempty
    obtain ⟨x, hx, hlooked, hkept⟩ := h.hasPath l.commits u.owner u.repo u.directory
      (some usualBranch)
    rw [if_neg hempty, bind_apply, hx]
    cases hthere : (w.replyAt 0).holdsPath with
    | error f =>
      exact ⟨x, _, Or.inl ⟨.error f, rfl, .failed hlooked (.of_silent (by
        simp [Event.isClient]))⟩⟩
    | ok there =>
      cases there with
      | true => exact hfound (Or.inr ⟨hdirectory, hthere, hlooked⟩)
      | false =>
        obtain ⟨r, y, ms, hy, hchose⟩ := relocate_chose hreal hnames hspares hdirectory hthere
          hlooked (hkept.trans hclient)
        refine ⟨y, ms, Or.inl ⟨r, ?_, hchose⟩⟩
        show (do return .inl (← l.relocate u) : Action (StepOutcome ⊕ Json)) x = _
        rw [bind_apply, hy]
        cases r <;> rfl

/-- The update of a repository's commit. -/
lemma updateCommitOf_chose (hreal : l.dryRun = false) (hnames : l.FindsNames u w)
    (hspares : (w.client 0).firstTurn.ending.leavings.Spares l.locationFile) :
    ∃ r v ms, l.updateCommitOf u w = (r, v) ∧ l.Chose u w r ms v := by
  obtain ⟨text, hupdate⟩ : ∃ text, l.updateCommitOf u w =
      l.conclude u (l.lookUp u (w.told [.log .info .migrationSteps text])).1
        (l.lookUp u (w.told [.log .info .migrationSteps text])).2 := ⟨_, rfl⟩
  have hstart : w.LookedUp l.locationFile [] 0 (w.told [.log .info .migrationSteps text]) :=
    (World.LookedUp.refl w _).told [_] rfl
  obtain ⟨x, ms, ⟨r, hx, hchose⟩ | ⟨newest, n, hx, hlooked, hms, hfinds⟩⟩ :=
    lookUp_chose hreal hnames hspares hstart rfl
  · rw [hupdate, hx]
    exact ⟨_, x, ms, l.conclude_forgiven u ⟨r, none⟩ x, hchose.forgiven⟩
  · rw [hupdate, hx]
    exact saveCommit_chose hreal hnames hlooked hms hfinds

/-- An update of a file that names a repository leaves the file as it is, and counts no change; or it
writes the text that it chooses, once.  The assistant is asked only about a directory that the web
service does not find. -/
theorem updateCommit_chooses {text repository : List Char} {owner repo : String}
    (hreal : l.dryRun = false) (hfile : w.tree.HoldsText l.locationFile text)
    (hrepo : TspLocation.repositoryValue? text = some repository)
    (hparts : TspLocation.ownerAndName repository = .ok (some (owner, repo)))
    (hspares : (w.client 0).firstTurn.ending.leavings.Spares l.locationFile)
    (hnames : l.FindsNames ⟨text, owner, repo, givenDirectory text⟩ w) :
    ∃ r v ms, l.updateCommit w = (r, v) ∧
      l.Chose ⟨text, owner, repo, givenDirectory text⟩ w r ms v := by
  cases hlong : w.tree.isTooLong l.locationFile with
  | true =>
    have hlost : l.hasLocationFile w = (.error (.pathTooLong l.locationFile.fullText), w) := by
      rw [hasLocationFile, bind_apply, lookFor_apply, hlong]
      rfl
    refine ⟨.error (.pathTooLong l.locationFile.fullText), w, [], ?_,
      .failed (World.LookedUp.refl w _) (.of_silent (by simp))⟩
    rw [updateCommit, bind_apply, hlost]
  | false =>
    rw [updateCommit, read_apply hlong hfile, hrepo]
    dsimp only
    rw [hparts]
    exact updateCommitOf_chose hreal hnames hspares

/-- A directory that is not found any more, and an assistant that knows where it is. -/
def movedWorld : World :=
  { serviceWorld "repo: Azure/widget\ndirectory: spec\ncommit: 000\n" [.answer 404 []] with
    clients := [{ turns := [{ messages :=
      [.assistant [.text "\x7b\"path\": \"new\", \"commit\": \"abc\"\x7d"]] }] }] }

/-- The file gets the new directory and the commit that the assistant gives with it. -/
theorem updateCommit_chooses_moved :
    (∃ r v ms, plainLibrary.updateCommit movedWorld = (r, v) ∧
      plainLibrary.Chose ⟨"repo: Azure/widget\ndirectory: spec\ncommit: 000\n".toList, "Azure",
        "widget", givenDirectory "repo: Azure/widget\ndirectory: spec\ncommit: 000\n".toList⟩
        movedWorld r ms v) ∧
      (plainLibrary.updateCommit movedWorld).2.tree.content? plainLibrary.locationFile =
        some (Utf8.encode "repo: Azure/widget\ndirectory: new\ncommit: abc\n".toList) := by
  have hlocation : ((movedWorld.client 0).location
      plainLibrary.search.profile.limit).toOption.map (fun found =>
        ((found.path.kind, found.path.text), (found.commit.kind, found.commit.text))) =
      some (("str", "new".toList.map .char), ("str", "abc".toList.map .char)) := by decide +kernel
  have hrepo : TspLocation.repositoryValue?
      "repo: Azure/widget\ndirectory: spec\ncommit: 000\n".toList = some "Azure/widget".toList := by
    decide +kernel
  have hgiven : (givenDirectory
      "repo: Azure/widget\ndirectory: spec\ncommit: 000\n".toList).isEmpty = false := by
    decide +kernel
  refine ⟨updateCommit_chooses rfl rfl hrepo rfl (by decide)
    ⟨fun htrue => ?_, fun _ found hfound => ?_, fun _ _ _ _ newest hnewest => ?_⟩, by decide +kernel⟩
  · simp only [CommitUpdate.isThere, hgiven] at htrue
    cases htrue
  · rw [hfound] at hlocation
    obtain ⟨hpath, hcommit⟩ := Prod.mk.inj (Option.some.inj hlocation)
    obtain ⟨hpkind, hptext⟩ := Prod.mk.inj hpath
    obtain ⟨hckind, hctext⟩ := Prod.mk.inj hcommit
    exact ⟨(Json.isToken_of_text hpkind hptext (by decide)).isName,
      (Json.isToken_of_text hckind hctext (by decide)).isName⟩
  · obtain rfl : Json.null = newest := Except.ok.inj hnewest
    exact Or.inl rfl

/-- A commit that is half of a pair empties the file: the step fails, or counts no change where the
directory is not found. -/
theorem updateCommit_empties :
    let half : Reply :=
      .answer 200 (Utf8.encode "[\x7b\"sha\": \"\\ud800\"\x7d]".toList)
    let branch := serviceWorld "repo: Azure/widget\ncommit: 000\n" [half]
    let lost := serviceWorld "repo: Azure/widget\ndirectory: spec\n" [.answer 404 [], half]
    (plainLibrary.updateCommit branch).1.toOption = none ∧
      (plainLibrary.updateCommit branch).2.tree.content? plainLibrary.locationFile = some [] ∧
      (plainLibrary.updateCommit lost).1.toOption.map (·.filesChanged) = some 0 ∧
      (plainLibrary.updateCommit lost).2.tree.content? plainLibrary.locationFile = some [] := by
  decide +kernel

end Library

end Migration

end BuildMend
