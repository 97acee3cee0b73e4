import BuildMend.Proofs.Session
import BuildMend.Proofs.Within
import BuildMend.SpecSearch

/-!
What the search for a specification that has moved comes to.

* `ClientScript.said`, `ClientScript.location`: what the assistant's first turn says, and the location in
  it; failures that the program reports give no location.
* `Leavings.Spares`, `Desk.Keeps`: what is left behind, or done, does not touch a file.
* `World.Searched`: all that happens is of a search.
* `SpecSearch.locate_apply`: the search ends in that location, and keeps every file that the turn does not
  touch, and the replies of the web service.
-/

namespace BuildMend

open Act Number Text

/-! ### What the assistant says -/

namespace ClientScript

/-- The first turn of a client. -/
def firstTurn (c : ClientScript) : Turn := c.turns.headD {}

/-- What a first prompt to a client fails with. -/
def failure? (limit : Option Amount) (c : ClientScript) : Option Failure :=
  (c.connectFailure.map Mishap.onConnect).or
    ((noTime? limit).or (c.firstTurn.failure? limit))

/-- What is heard of the assistant: its answer, or nothing after a failure that the program reports. -/
def said (limit : Option Amount) (c : ClientScript) : Except Failure (Option String) :=
  match c.failure? limit with
  | none => .ok (some c.firstTurn.answer)
  | some (.fault _) => .ok none
  | some f => .error f

/-- How a client disconnects. -/
def farewell (c : ClientScript) : Except Failure Unit :=
  match c.disconnectFailure with
  | none => .ok ()
  | some m => if m.isClient then .ok () else .error (.mishap m)

/-- What is heard of an assistant whose client is disconnected; one that is waited for for ever is not. -/
def heard (limit : Option Amount) (c : ClientScript) : Except Failure (Option String) :=
  match c.said limit with
  | .error .stalled => .error .stalled
  | said => do
    c.farewell
    said

lemma heard_eq {limit : Option Amount} {c : ClientScript} (h : c.said limit ≠ .error .stalled) :
    c.heard limit = c.farewell >>= fun _ => c.said limit := by
  rw [heard]
  split
  · exact absurd ‹_› h
  · rfl

/-- The location that the assistant finds; without an answer there is none. -/
def location (limit : Option Amount) (c : ClientScript) : Except Failure SpecLocation := do
  match ← c.heard limit with
  | none => return .none
  | some answer => SpecLocation.ofAnswer answer

end ClientScript

/-! ### Files that are not touched -/

/-- What is left behind does not touch a file. -/
def Leavings.Spares (l : Leavings) (p : Path) : Prop := p ∉ l.files.map (·.1)

instance (l : Leavings) (p : Path) : Decidable (l.Spares p) := inferInstanceAs (Decidable (_ ∉ _))

namespace FileTree

variable {p : Path}

lemma content?_addDirectory (t : FileTree) (q : Path) :
    (t.addDirectory q).content? p = t.content? p := rfl

/-- A file that is not touched holds what it held. -/
lemma content?_leave {l : Leavings} (h : l.Spares p) (t : FileTree) :
    (t.leave l).content? p = t.content? p := by
  obtain ⟨directories, files⟩ := l
  have hdirectories : (directories.foldl addDirectory t).content? p = t.content? p := by
    clear h
    induction directories generalizing t with
    | nil => rfl
    | cons q rest ih => rw [List.foldl_cons, ih, content?_addDirectory]
  rw [leave, ← hdirectories]
  generalize directories.foldl addDirectory t = u
  clear hdirectories
  induction files generalizing u with
  | nil => rfl
  | cons f files ih =>
    obtain ⟨hne, hrest⟩ : p ≠ f.1 ∧ p ∉ files.map (·.1) := by simpa [Leavings.Spares] using h
    rw [List.foldl_cons, ih (by simpa [Leavings.Spares] using hrest), content?_write, if_neg hne]

end FileTree

/-- Whether an event belongs to a search: to its session with the assistant, or to what it logs. -/
def Event.isOfSearch : Event → Bool
  | .client _ | .connect | .query _ | .disconnect | .output _ => true
  | .log _ source _ => source == .session || source == .specSearch
  | _ => false

/-- From one world to another only a search has gone on. -/
def World.Searched (w v : World) : Prop :=
  ∃ es, v.past = es ++ w.past ∧ ∀ e ∈ es, e.isOfSearch = true

namespace World.Searched

variable {w v u : World}

lemma of_past (h : v.past = w.past) : w.Searched v := ⟨[], h, by simp⟩

lemma trans (h : w.Searched v) (h' : v.Searched u) : w.Searched u := by
  obtain ⟨es, hes, hall⟩ := h
  obtain ⟨fs, hfs, hall'⟩ := h'
  refine ⟨fs ++ es, by rw [hfs, hes, List.append_assoc], fun e he => ?_⟩
  rcases List.mem_append.mp he with he | he
  · exact hall' e he
  · exact hall e he

end World.Searched

/-- From one desk to another a file and the replies of the web service stay as they are, while the search goes
on. -/
structure Desk.Keeps (p : Path) (d e : Desk) : Prop where
  content : e.world.tree.content? p = d.world.tree.content? p
  replies : e.world.replies = d.world.replies
  searched : d.world.Searched e.world

instance (p : Path) : IsPreorder Desk (Desk.Keeps p) where
  refl _ := ⟨rfl, rfl, .of_past rfl⟩
  trans _ _ _ h h' :=
    ⟨h'.content.trans h.content, h'.replies.trans h.replies, h.searched.trans h'.searched⟩

namespace Session

variable {p : Path}

lemma keeps_record {e : Event} (he : e.isOfSearch = true) :
    (inWorld (.record e)).Within (Desk.Keeps p) := fun _ => ⟨rfl, rfl, [e], rfl, by simpa using he⟩

lemma keeps_note (level : Level) (text : String) : (note level text).Within (Desk.Keeps p) :=
  keeps_record rfl

lemma keeps_change (f : Session → Session) : (change f).Within (Desk.Keeps p) :=
  fun _ => ⟨rfl, rfl, .of_past rfl⟩

lemma keeps_current : current.Within (Desk.Keeps p) := fun _ => ⟨rfl, rfl, .of_past rfl⟩

lemma keeps_emit (text : String) : (emit text).Within (Desk.Keeps p) :=
  keeps_current.bind fun _ => within_ite (keeps_record rfl) (within_pure _)

lemma keeps_nextClient (options : ClientOptions) :
    (inWorld (nextClient options)).Within (Desk.Keeps p) := by
  intro d
  rw [inWorld, zoom_apply, nextClient_apply]
  exact ⟨rfl, rfl, [.client options], rfl, by simp [Event.isOfSearch]⟩

lemma keeps_begin : begin.Within (Desk.Keeps p) := by
  have hstart : start.Within (Desk.Keeps p) := by
    refine keeps_current.bind fun s => (keeps_nextClient _).bind fun client =>
      (keeps_change _).bind fun _ => (keeps_record rfl).bind fun _ => ?_
    split
    · exact within_ite (within_throw _) (within_fail _)
    · exact keeps_note _ _
  refine keeps_current.bind fun s => ?_
  have hready : (do
      start
      change ({ · with state := .initialized })
      note .debug s!"Assistant session ready in {s.directory}" : SessionAction Unit).Within
        (Desk.Keeps p) :=
    hstart.bind fun _ => (keeps_change _).bind fun _ => keeps_note _ _
  exact within_ite ((within_throw _).bind fun _ => hready) hready

lemma keeps_raiseInTurn {α : Type} (m : Mishap) :
    (raiseInTurn m : SessionAction α).Within (Desk.Keeps p) :=
  within_ite (within_throw _) (within_fail _)

lemma keeps_hearBlocks (bs : List Block) : (hearBlocks bs).Within (Desk.Keeps p) := by
  induction bs with
  | nil => exact within_pure _
  | cons b bs ih =>
    refine Within.bind ?_ fun _ => ih.bind fun _ => within_pure _
    cases b with
    | text s => exact (keeps_emit s).bind fun _ => within_pure _
    | tool name => exact (keeps_note _ _).bind fun _ => (keeps_emit _).bind fun _ => within_pure _
    | thinking s => exact within_pure _

lemma keeps_hearMessages (ms : List Message) : (hearMessages ms).Within (Desk.Keeps p) := by
  induction ms with
  | nil => exact within_pure _
  | cons m ms ih =>
    refine Within.bind ?_ fun _ => ih.bind fun _ => within_pure _
    cases m with
    | assistant blocks => exact keeps_hearBlocks blocks
    | result isError kind text cost =>
      simp only [hearMessage]
      refine within_ite (within_throw _) ?_
      cases cost with
      | none => exact within_pure _
      | some cost => exact within_ite (within_fail _) ((keeps_note _ _).bind fun _ => within_pure _)
    | other => exact within_pure _

/-- The end of a turn keeps the files that it does not touch. -/
lemma keeps_endTurn {e : TurnEnd} (h : e.leavings.Spares p) : (endTurn e).Within (Desk.Keeps p) := by
  cases e with
  | ends leavings failure =>
    have hleave : (inWorld (.leave leavings)).Within (Desk.Keeps p) := fun d =>
      ⟨FileTree.content?_leave h d.world.tree, rfl, .of_past rfl⟩
    refine hleave.bind fun _ => ?_
    cases failure with
    | none => exact within_pure _
    | some m => exact keeps_raiseInTurn m
  | hangs =>
    refine keeps_current.bind fun s => ?_
    split
    · exact within_throw _
    · exact within_fail _
  | cancelled => exact within_fail _

/-- What keeps files does so behind the turn that it is about. -/
lemma keeps_afterTurn {a : SessionAction String} (h : a.Within (Desk.Keeps p)) (d : Desk) :
    d.Keeps p (a ⟨d.world, d.session.afterTurn⟩).2 :=
  let hturn := h ⟨d.world, d.session.afterTurn⟩
  ⟨hturn.content, hturn.replies, hturn.searched⟩

/-- A turn keeps the files that it does not touch. -/
lemma keeps_takeTurn {d : Desk} (h : d.session.turn.ending.leavings.Spares p) (prompt : String) :
    d.Keeps p (takeTurn prompt d).2 := by
  rw [takeTurn, bind_of_ok (nextTurn_apply d)]
  generalize d.session.turn = turn at h
  have hanswer : (do
      let texts ← hearMessages turn.messages
      endTurn turn.ending
      return trimString ("\n".intercalate texts) : SessionAction String).Within (Desk.Keeps p) :=
    (keeps_hearMessages _).bind fun _ => (keeps_endTurn h).bind fun _ => within_pure _
  refine keeps_afterTurn ((keeps_record rfl).bind fun _ => ?_) d
  cases turn.refusal with
  | none => exact hanswer
  | some m => exact (keeps_raiseInTurn m).bind fun _ => hanswer

/-- A prompt keeps the files that the next turn does not touch. -/
lemma keeps_send {d : Desk} (h : d.session.turn.ending.leavings.Spares p) (prompt : String) :
    d.Keeps p (send prompt d).2 := by
  have hturn := keeps_takeTurn h prompt
  have hself := refl_of (Desk.Keeps p) d
  by_cases hstate : d.session.state = .initialized
  · have hready : checkReady d = (.ok (), d) := by rw [checkReady_apply, if_pos hstate]
    rw [send, bind_of_ok hready, bind_of_ok (show current d = (.ok d.session, d) from rfl)]
    cases d.session.profile.limit with
    | none => exact hturn
    | some limit =>
      simp only
      split
      · exact hself
      · split
        · exact hself
        · exact hturn
  · rw [send_of_not_ready hstate]
    exact hself

lemma keeps_dispose : dispose.Within (Desk.Keeps p) := by
  have hstop : stop.Within (Desk.Keeps p) := by
    refine keeps_current.bind fun s => (keeps_change _).bind fun _ => ?_
    cases s.client with
    | none => exact within_pure _
    | some c =>
      refine (keeps_record rfl).bind fun _ => ?_
      cases c.disconnectFailure with
      | none => exact within_pure _
      | some m => exact within_ite (keeps_note _ _) (within_fail _)
  exact keeps_current.bind fun s => within_ite
    ((keeps_change _).bind fun _ => hstop.bind fun _ => keeps_note _ _) (within_pure _)

/-- An act within a session is an act at its desk, and the end of the session. -/
lemma within_ends {α : Type} {s : Session} {body : SessionAction α} {w : World}
    {Q : α → World → Prop} {E : Failure → World → Prop} :
    (s.within body).Ends w Q E ↔
      (closing body dispose).Ends ⟨w, s⟩ (fun x d => Q x d.world) fun f d => E f d.world := by
  rw [Ends, Ends, Session.within]
  rcases closing body dispose ⟨w, s⟩ with ⟨x | f, d⟩ <;> rfl

/-- How an attached client disconnects. -/
lemma dispose_farewell {d : Desk} {c : ClientScript} (hstate : d.session.state ≠ .disposed)
    (hc : d.session.client = some c) :
    dispose.Ends d (fun _ _ => c.farewell = .ok ()) fun f _ => c.farewell = .error f := by
  rw [dispose, ends_bind, current_ends, ends_ite]
  refine ⟨fun _ => ?_, fun h => absurd (by simpa using h) hstate⟩
  rw [ends_bind, change_ends, ends_bind, stop, ends_bind, current_ends, ends_bind, change_ends]
  simp only [hc]
  rw [ends_bind, inWorld_ends, ends_of_apply_ok (Action.record_apply _ _)]
  cases hm : c.disconnectFailure with
  | none =>
    refine ends_pure.mpr (note_ends fun _ _ _ => ?_)
    simp only [ClientScript.farewell, hm]
  | some m =>
    simp only
    rw [ends_ite]
    refine ⟨fun h => ?_, fun h => ?_⟩
    · refine note_ends fun v _ _ => note_ends fun _ _ _ => ?_
      simp only [ClientScript.farewell, hm]
      rw [if_pos h]
    · simp only [ends_fail, ClientScript.farewell, hm]
      rw [if_neg h]

end Session

/-! ### The search -/

namespace SpecSearch

open Session

variable {s : SpecSearch} {owner repo : String} {w : World}

/-- A desk at which the client that was attached first is still attached. -/
structure Attends (c : ClientScript) (d : Desk) : Prop where
  state : d.session.state ≠ .disposed
  client : ∃ e, d.session.client = some e ∧ e.farewell = c.farewell

/-- It says its farewell when the session ends. -/
lemma Attends.dispose_ends {c : ClientScript} {d : Desk} (h : Attends c d) :
    dispose.Ends d (fun _ _ => c.farewell = .ok ()) fun f _ => c.farewell = .error f := by
  obtain ⟨e, he, hfarewell⟩ := h.client
  rw [← hfarewell]
  exact dispose_farewell h.state he

/-- What the first prompt to the assistant ends in. -/
lemma asked_ends (request : String) :
    (do Session.begin; Session.send request : SessionAction String).Ends
      ⟨w, s.session owner repo⟩
      (fun a d => (w.client 0).failure? s.profile.limit = none ∧ a = (w.client 0).firstTurn.answer ∧
        Attends (w.client 0) d)
      fun f d => (w.client 0).failure? s.profile.limit = some f ∧ Attends (w.client 0) d := by
  rw [ends_bind]
  refine begin_ends (fun h => absurd rfl h) (fun v hconnect _ _ => ?_) fun m v hm _ => ?_
  · rw [ClientScript.failure?, hconnect, Option.map_none, Option.none_or]
    refine send_ends (fun h => absurd rfl h) (fun f hf => ?_) (fun u htime hturn _ _ => ?_)
      fun f u htime hturn _ => ?_
    · exact ⟨by rw [show noTime? s.profile.limit = some f from hf]; rfl, by simp, _, rfl, rfl⟩
    · refine ⟨?_, rfl, by simp [afterTurn], _, rfl, rfl⟩
      rw [show noTime? s.profile.limit = none from htime]
      exact hturn
    · refine ⟨?_, by simp [afterTurn], _, rfl, rfl⟩
      rw [show noTime? s.profile.limit = none from htime]
      exact hturn
  · refine ⟨?_, by simp [attached, session], _, rfl, rfl⟩
    rw [ClientScript.failure?, hm]
    rfl

/-- The assistant is asked once; failures that the program reports give no answer. -/
lemma ask_ends (request : String) :
    (ask request).Ends ⟨w, s.session owner repo⟩
      (fun a d => (w.client 0).said s.profile.limit = .ok a ∧ Attends (w.client 0) d)
      fun f d => (w.client 0).said s.profile.limit = .error f ∧ Attends (w.client 0) d := by
  rw [ask, ends_bind, ends_attempt]
  refine (asked_ends request).mono ?_ ?_
  · rintro a d ⟨hnone, rfl, hd⟩
    refine ⟨?_, hd⟩
    rw [ClientScript.said, hnone]
  · rintro f d ⟨hsome, hd⟩
    cases f with
    | fault f =>
      rw [ends_bind]
      refine inWorld_ends.mpr ((Action.Tells.log _ _ _).ends fun v _ _ => ⟨?_, ⟨hd.state, hd.client⟩⟩)
      rw [ClientScript.said, hsome]
    | _ =>
      refine ⟨?_, hd⟩
      rw [ClientScript.said, hsome]

/-- A session of the search ends in what is heard of the assistant. -/
lemma heard_ends (request : String) :
    ((s.session owner repo).within (ask request)).Ends w
      (fun a _ => (w.client 0).heard s.profile.limit = .ok a)
      fun f _ => (w.client 0).heard s.profile.limit = .error f := by
  rw [within_ends, ends_closing]
  refine (ask_ends request).mono ?_ ?_
  · rintro a d ⟨hsaid, hd⟩
    rw [ClientScript.heard_eq (by rw [hsaid]; simp), hsaid]
    refine hd.dispose_ends.mono ?_ ?_
    · rintro _ _ hleft
      rw [hleft]
      rfl
    · rintro f _ hleft
      rw [hleft]
      rfl
  · rintro f d ⟨hsaid, hd⟩
    refine ⟨?_, fun hf => ?_⟩
    · rintro rfl
      rw [ClientScript.heard, hsaid]
    · rw [ClientScript.heard_eq (by simpa [hsaid] using hf), hsaid]
      refine hd.dispose_ends.mono ?_ ?_
      · rintro _ _ hleft
        rw [hleft]
        rfl
      · rintro g _ hleft
        rw [hleft]
        rfl

/-- The session keeps every file that the assistant does not touch. -/
lemma heard_keeps (request : String) {p : Path}
    (hp : (w.client 0).firstTurn.ending.leavings.Spares p) :
    Desk.Keeps p ⟨w, s.session owner repo⟩
      (closing (ask request) dispose ⟨w, s.session owner repo⟩).2 := by
  refine closing_within ?_ keeps_dispose
  have hasked : (do Session.begin; Session.send request : SessionAction String).Ends
      ⟨w, s.session owner repo⟩ (fun _ => Desk.Keeps p ⟨w, s.session owner repo⟩)
      fun _ => Desk.Keeps p ⟨w, s.session owner repo⟩ := by
    rw [ends_bind]
    have hready : Session.begin.Ends ⟨w, s.session owner repo⟩
        (fun _ d => d.session.turn = (w.client 0).firstTurn) fun _ _ => True :=
      begin_ends (fun h => absurd rfl h) (fun _ _ _ _ => rfl) fun _ _ _ _ => trivial
    refine (hready.and (ends_of_state (keeps_begin (p := p) _))).mono ?_ fun _ _ h => h.2
    rintro _ d ⟨hturn, hkeeps⟩
    exact ends_of_state (trans_of (Desk.Keeps p) hkeeps (keeps_send (hturn ▸ hp) request))
  have hask : (ask request).Ends ⟨w, s.session owner repo⟩
      (fun _ => Desk.Keeps p ⟨w, s.session owner repo⟩)
      fun _ => Desk.Keeps p ⟨w, s.session owner repo⟩ := by
    rw [ask, ends_bind, ends_attempt]
    refine hasked.mono (fun _ _ h => h) fun f d hkeeps => ?_
    cases f with
    | fault f =>
      exact ends_of_state (trans_of (Desk.Keeps p) hkeeps ((keeps_record rfl).bind
        (fun _ => within_pure none) d))
    | _ => exact hkeeps
  exact hask.state

/-- The location in an answer is logged, and nothing else happens. -/
lemma readAnswer_apply (directory answer : String) (w : World) :
    ∃ es, readAnswer directory answer w = (SpecLocation.ofAnswer answer, w.told es) ∧
      ∀ e ∈ es, e.isOfSearch = true ∧ e.isDeed = false := by
  have hfound (es : List Event) (hes : ∀ e ∈ es, e.isOfSearch = true ∧ e.isDeed = false) :
      ∃ fs, (do
        let found ← Act.ofExcept (SpecLocation.ofAnswer answer)
        if found.path.isEmptyValue then
          note .info s!"Spec path search found no new location for {directory}"
        else
          note .info
            s!"Spec path search suggests {found.path.display} (commit: {found.commit.display})"
        return found : Action SpecLocation) (w.told es) =
          (SpecLocation.ofAnswer answer, w.told fs) ∧
            ∀ e ∈ fs, e.isOfSearch = true ∧ e.isDeed = false := by
    rw [bind_apply, Act.ofExcept]
    cases SpecLocation.ofAnswer answer with
    | error f => exact ⟨es, rfl, hes⟩
    | ok found =>
      simp only
      split <;> exact ⟨_ :: es, rfl, by simpa [Event.isOfSearch, Event.isDeed] using hes⟩
  rw [readAnswer]
  cases SpecLocation.read answer with
  | unreadable object => exact hfound [_] (by simp [Event.isOfSearch, Event.isDeed])
  | location found => exact hfound [] (by simp)
  | failed f => exact hfound [] (by simp)

/-- The search ends in the location that the assistant finds.  It keeps the replies of the web service, and
every file that the assistant does not touch; nothing else goes on. -/
theorem locate_apply (owner repo directory branch : String) {p : Path}
    (hp : (w.client 0).firstTurn.ending.leavings.Spares p) :
    ∃ v, s.locate owner repo directory branch w = ((w.client 0).location s.profile.limit, v) ∧
      v.tree.content? p = w.tree.content? p ∧ v.replies = w.replies ∧ w.Searched v := by
  set request := Prompt.searchRequest owner repo directory branch with hrequest
  have hheard : ((s.session owner repo).within (ask request)).Ends w _ _ := heard_ends request
  have hkeeps : Desk.Keeps p ⟨w, s.session owner repo⟩ _ := heard_keeps request hp
  rw [locate, bind_apply]
  obtain ⟨r, d, hr⟩ : ∃ r d, closing (ask request) dispose ⟨w, s.session owner repo⟩ = (r, d) :=
    ⟨_, _, rfl⟩
  have hwithin : (s.session owner repo).within (ask request) w = (r, d.world) := by
    rw [Session.within, hr]
  rw [Ends, hwithin] at hheard
  rw [hr] at hkeeps
  rw [← hrequest, hwithin, ClientScript.location]
  cases r with
  | error f =>
    simp only at hheard
    exact ⟨d.world, by rw [hheard]; rfl, hkeeps.content, hkeeps.replies, hkeeps.searched⟩
  | ok answer =>
    simp only at hheard
    rw [hheard]
    cases answer with
    | none => exact ⟨d.world, rfl, hkeeps.content, hkeeps.replies, hkeeps.searched⟩
    | some answer =>
      obtain ⟨es, hes, hall⟩ := readAnswer_apply directory answer d.world
      exact ⟨_, hes, hkeeps.content, hkeeps.replies,
        hkeeps.searched.trans ⟨es, rfl, fun e he => (hall e he).1⟩⟩

end SpecSearch

end BuildMend
