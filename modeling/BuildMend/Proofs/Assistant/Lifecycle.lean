import BuildMend.Proofs.Session

/-!
The life of a session, whatever calls are made on it and however they end.

* `SessionCall`, `Session.calls`: the calls that can be made on a session, and a row of them.
* `SessionCall.Goes`: all that a call can do, one case for each way it can go; `SessionCall.act_goes`
  is the only place where the calls themselves are opened.
* `Session.Stands`: what the state of a session says about the deeds done so far: the invariant.
* `Session.calls_lifecycle`: the life of a session, over every row of calls and every world.
-/

namespace BuildMend

open Act Number Text

/-! ### Calls -/

/-- A call on a session. -/
inductive SessionCall where
  | begin
  | askForFix (errors : List Diagnostic) (output : String)
  | send (prompt : String)
  | dispose
  | enter
  /-- The way out of the block that an `enter` opened. -/
  | leave

namespace SessionCall

/-- What a call does, with its answer if it is one to a prompt. -/
def act : SessionCall → SessionAction (Option String)
  | .begin => do
    Session.begin
    return none
  | .askForFix errors output => do return some (← Session.askForFix errors output)
  | .send prompt => do return some (← Session.send prompt)
  | .dispose | .leave => do
    Session.dispose
    return none
  | .enter => do
    Session.enter
    return none

/-- The prompt that a call wants sent. -/
def prompt? : SessionCall → Option String
  | .askForFix errors output => some (Prompt.fixRequest errors output)
  | .send prompt => some prompt
  | _ => none

/-- Whether a call ends the session, whatever else it comes to. -/
def closes : SessionCall → Bool
  | .dispose | .leave => true
  | _ => false

/-- A call that has been made. -/
structure Made where
  call : SessionCall
  /-- The state in which the call found the session. -/
  before : SessionState
  /-- What was done in the call. -/
  deeds : List Event
  outcome : Except Failure (Option String)
  /-- The state in which the call left the session. -/
  after : SessionState

/-- A call is made. -/
def make (c : SessionCall) (d : Desk) : Made × Desk :=
  let (outcome, t) := c.act d
  (⟨c, d.session.state, t.world.deeds.drop d.world.deeds.length, outcome, t.session.state⟩, t)

/-- Whether the session is over after the call: it was closed, or it was not entered. -/
def Made.isLast (m : Made) : Bool :=
  m.call.closes || (m.call matches .enter && m.outcome matches .error _)

end SessionCall

namespace Session

/-- Some calls in a row, each made whatever became of those before it. -/
def calls : List SessionCall → Desk → List SessionCall.Made × Desk
  | [], d => ([], d)
  | c :: cs, d =>
    let (m, t) := c.make d
    let (ms, u) := calls cs t
    (m :: ms, u)

/-- A session as it was made. -/
def fresh (s : Session) : Session := { s with state := .uninitialized, client := none }

end Session

/-! ### What a call can do -/

namespace SessionCall

/-- The deeds of the end of a session: a session that is not over yet may disconnect a client. -/
def Closing (s : SessionState) (es : List Event) : Prop :=
  es = [] ∨ s ≠ .disposed ∧ es = [.disconnect]

/-- The ways in which a call can go on a session in the world: its outcome, what it leaves, and the
deeds done. -/
inductive Goes (d : Desk) :
    SessionCall → Except Failure (Option String) → Session → List Event → Prop where
  /-- A prompt is not taken. -/
  | refused {c : SessionCall} {prompt : String} (hc : c.prompt? = some prompt)
      (hs : d.session.state ≠ .initialized) :
      Goes d c (.error (.fault (.notInitialized d.session.state))) d.session []
  /-- A prompt is taken; it is sent unless there is no time for it. -/
  | prompted {c : SessionCall} {prompt : String} {r : Except Failure (Option String)} {s : Session}
      {es : List Event} (hc : c.prompt? = some prompt) (hs : d.session.state = .initialized)
      (hs' : s.state = .initialized) (hes : es = [] ∨ es = [.query prompt]) : Goes d c r s es
  /-- The session cannot be made ready any more. -/
  | tooLate (hs : d.session.state ≠ .uninitialized) :
      Goes d .begin (.error (.fault (.cannotInitialize d.session.state))) d.session []
  /-- The client of a new session does not connect. -/
  | unconnected {m : Mishap} {s : Session} (hs : d.session.state = .uninitialized)
      (hm : (d.world.client 0).connectFailure = some m) (hs' : s.state = .uninitialized) :
      Goes d .begin (.error m.onConnect) s [.client d.session.options, .connect]
  /-- The client of a new session connects. -/
  | ready {c : SessionCall} {s : Session} (hc : c = .begin ∨ c = .enter)
      (hs : d.session.state = .uninitialized) (hm : (d.world.client 0).connectFailure = none)
      (hs' : s.state = .initialized) :
      Goes d c (.ok none) s [.client d.session.options, .connect]
  /-- The session is closed, also if a client does not leave. -/
  | closed {c : SessionCall} {r : Except Failure (Option String)} {s : Session} {es : List Event}
      (hc : c.closes = true) (hs' : s.state = .disposed) (hes : Closing d.session.state es) :
      Goes d c r s es
  /-- A session that cannot be made ready any more is entered, and closed for it. -/
  | enteredLate {f : Failure} {s : Session} {es : List Event}
      (hs : d.session.state ≠ .uninitialized) (hs' : s.state = .disposed)
      (hes : Closing d.session.state es) : Goes d .enter (.error f) s es
  /-- A new session whose client does not connect is entered, and closed for it. -/
  | notEntered {f : Failure} {s : Session} (hs : d.session.state = .uninitialized)
      (hs' : s.state = .disposed) :
      Goes d .enter (.error f) s [.client d.session.options, .connect, .disconnect]

variable {d : Desk}

/-- What the end of a session comes to: it is over, with no deed or with one. -/
lemma dispose_closing {Q : Unit → Desk → Prop} {E : Failure → Desk → Prop}
    (hQ : ∀ v s es, s.state = .disposed → Closing d.session.state es → d.world.Did es v →
      Q () ⟨v, s⟩)
    (hE : ∀ f v s es, s.state = .disposed → Closing d.session.state es → d.world.Did es v →
      E f ⟨v, s⟩) :
    Session.dispose.Ends d Q E := by
  refine Session.dispose_ends (fun hs => ?_) (fun v _ _ hv _ => ?_) (fun c v hs _ _ hv _ => ?_)
    fun f c v hs _ _ _ hv => ?_
  · exact hQ d.world d.session [] hs (.inl rfl) (.refl _)
  · exact hQ v _ [] rfl (.inl rfl) hv
  · exact hQ v _ _ rfl (.inr ⟨hs, rfl⟩) hv
  · exact hE f v _ _ rfl (.inr ⟨hs, rfl⟩) hv

/-- What the end of a session with a client comes to, if the session is not over yet. -/
lemma dispose_attached {c : ClientScript} (hs : d.session.state ≠ .disposed)
    (hc : d.session.client = some c) {Q : Unit → Desk → Prop} {E : Failure → Desk → Prop}
    (hQ : ∀ v s, s.state = .disposed → d.world.Did [.disconnect] v → Q () ⟨v, s⟩)
    (hE : ∀ f v s, s.state = .disposed → d.world.Did [.disconnect] v → E f ⟨v, s⟩) :
    Session.dispose.Ends d Q E := by
  refine Session.dispose_ends (fun hover => absurd hover hs) (fun v _ hnone => ?_)
    (fun _ v _ _ _ hv _ => hQ v _ rfl hv) fun f _ v _ _ _ _ hv => hE f v _ rfl hv
  exact absurd (hc.symm.trans hnone) (by simp)

/-- A prompt is taken by a session that is ready, and refused by every other one. -/
lemma send_goes {c : SessionCall} {prompt : String} (hc : c.prompt? = some prompt) (d : Desk) :
    (Session.send prompt).Ends d
      (fun x t => ∃ es, d.world.Did es t.world ∧ c.Goes d (.ok (some x)) t.session es)
      fun f t => ∃ es, d.world.Did es t.world ∧ c.Goes d (.error f) t.session es := by
  by_cases hs : d.session.state = .initialized
  · refine Session.send_ends (fun h => absurd hs h) (fun f _ => ?_) (fun v _ _ hv _ => ?_)
      fun f v _ _ hv => ?_
    · exact ⟨[], .refl _, .prompted hc hs hs (.inl rfl)⟩
    · exact ⟨_, hv, .prompted hc hs hs (.inr rfl)⟩
    · exact ⟨_, hv, .prompted hc hs hs (.inr rfl)⟩
  · rw [Ends, Session.send_of_not_ready hs]
    exact ⟨[], .refl _, .refused hc hs⟩

/-- A session is closed whether or not its client leaves. -/
lemma dispose_goes {c : SessionCall} (hc : c.closes = true) (d : Desk) :
    Session.dispose.Ends d
      (fun _ t => ∃ es, d.world.Did es t.world ∧ c.Goes d (.ok none) t.session es)
      fun f t => ∃ es, d.world.Did es t.world ∧ c.Goes d (.error f) t.session es :=
  dispose_closing (fun _ _ es hs hes hv => ⟨es, hv, .closed hc hs hes⟩)
    fun _ _ _ es hs hes hv => ⟨es, hv, .closed hc hs hes⟩

lemma begin_goes (d : Desk) :
    Session.begin.Ends d
      (fun _ t => ∃ es, d.world.Did es t.world ∧ begin.Goes d (.ok none) t.session es)
      fun f t => ∃ es, d.world.Did es t.world ∧ begin.Goes d (.error f) t.session es := by
  by_cases hs : d.session.state = .uninitialized
  · refine Session.begin_ends (fun h => absurd hs h) (fun v hm hv _ => ?_) fun m v hm hv => ?_
    · exact ⟨_, hv, .ready (.inl rfl) hs hm rfl⟩
    · exact ⟨_, hv, .unconnected hs hm hs⟩
  · rw [Ends, Session.begin_of_late hs]
    exact ⟨[], .refl _, .tooLate hs⟩

/-- A session that is entered is ready, or else it is closed: what went wrong with it is raised, or
what goes wrong when it is closed. -/
lemma enter_goes (d : Desk) :
    Session.enter.Ends d
      (fun _ t => ∃ es, d.world.Did es t.world ∧ enter.Goes d (.ok none) t.session es)
      fun f t => ∃ es, d.world.Did es t.world ∧ enter.Goes d (.error f) t.session es := by
  rw [Session.enter, ends_bind, ends_attempt]
  by_cases hs : d.session.state = .uninitialized
  · refine Session.begin_ends (fun h => absurd hs h) (fun v hm hv _ => ?_) fun m v hm hv => ?_
    · exact ⟨_, hv, .ready (.inr rfl) hs hm rfl⟩
    · have hopen : (d.session.attached (d.world.client 0)).state ≠ .disposed := by
        simp [Session.attached, hs]
      rw [ends_bind]
      exact dispose_attached (d := ⟨v, d.session.attached (d.world.client 0)⟩) hopen rfl
        (fun u s hover hu => ⟨_, hv.trans hu, .notEntered hs hover⟩)
        fun f u s hover hu => ⟨_, hv.trans hu, .notEntered hs hover⟩
  · rw [Ends, Session.begin_of_late hs]
    refine ends_bind.mpr ?_
    exact dispose_closing (fun _ _ es hover hes hv => ⟨es, hv, .enteredLate hs hover hes⟩)
      fun _ _ _ es hover hes hv => ⟨es, hv, .enteredLate hs hover hes⟩

/-- Every call goes in one of the ways. -/
theorem act_goes (c : SessionCall) (d : Desk) :
    c.act.Ends d (fun r t => ∃ es, d.world.Did es t.world ∧ c.Goes d (.ok r) t.session es)
      fun f t => ∃ es, d.world.Did es t.world ∧ c.Goes d (.error f) t.session es := by
  cases c with
  | begin => exact ends_bind.mpr (begin_goes d)
  | askForFix errors output =>
    rw [act, Session.askForFix_eq]
    exact ends_bind.mpr (send_goes rfl d)
  | send prompt => exact ends_bind.mpr (send_goes rfl d)
  | dispose => exact ends_bind.mpr (dispose_goes rfl d)
  | enter => exact ends_bind.mpr (enter_goes d)
  | leave => exact ends_bind.mpr (dispose_goes rfl d)

end SessionCall

/-- A state of a session may lead to another one. -/
inductive SessionState.LeadsTo : SessionState → SessionState → Prop where
  | stays (s : SessionState) : LeadsTo s s
  | readied : LeadsTo .uninitialized .initialized
  | ended (s : SessionState) : LeadsTo s .disposed

lemma SessionState.LeadsTo.eq_disposed {s : SessionState} (h : LeadsTo .disposed s) :
    s = .disposed := by
  cases h <;> rfl

lemma SessionCall.Closing.eq_nil {es : List Event} (h : Closing .disposed es) : es = [] :=
  h.resolve_right fun hs => hs.1 rfl

namespace SessionCall.Goes

variable {c : SessionCall} {d : Desk} {r : Except Failure (Option String)} {s : Session}
  {es : List Event}

lemma leadsTo (h : c.Goes d r s es) : d.session.state.LeadsTo s.state := by
  cases h with
  | refused | tooLate => exact .stays _
  | prompted _ hs hs' _ | unconnected hs _ hs' => rw [hs, hs']; exact .stays _
  | ready _ hs _ hs' => rw [hs, hs']; exact .readied
  | closed _ hs' _ | enteredLate _ hs' _ | notEntered _ hs' => rw [hs']; exact .ended _

/-- Only a prompt that a ready session takes is sent. -/
lemma asked (h : c.Goes d r s es) {prompt : String} (hq : .query prompt ∈ es) :
    c.prompt? = some prompt ∧ d.session.state = .initialized := by
  cases h with
  | prompted hc hs _ hes =>
    obtain rfl | rfl := hes
    · simp at hq
    · obtain rfl : prompt = _ := by simpa using hq
      exact ⟨hc, hs⟩
  | closed _ _ hes | enteredLate _ _ hes => obtain rfl | ⟨-, rfl⟩ := hes <;> simp at hq
  | refused | tooLate | unconnected | ready | notEntered => simp at hq

/-- A session that is not ready refuses every prompt, and does nothing for it. -/
lemma refuses (h : c.Goes d r s es) (hc : c.prompt?.isSome) (hs : d.session.state ≠ .initialized) :
    r = .error (.fault (.notInitialized d.session.state)) ∧ es = [] := by
  cases h with
  | refused => exact ⟨rfl, rfl⟩
  | prompted _ hready => exact absurd hready hs
  | ready hc' => obtain rfl | rfl := hc' <;> simp [prompt?] at hc
  | closed hc' => cases c <;> simp [prompt?, closes] at hc hc'
  | tooLate | unconnected | enteredLate | notEntered => simp [prompt?] at hc

/-- A prompt leaves a ready session ready, also if it fails. -/
lemma stays (h : c.Goes d r s es) (hc : c.prompt?.isSome) (hs : d.session.state = .initialized) :
    s.state = .initialized := by
  cases h with
  | refused _ hs' => exact absurd hs hs'
  | prompted _ _ hs' => exact hs'
  | ready _ _ _ hs' => exact hs'
  | closed hc' => cases c <;> simp [prompt?, closes] at hc hc'
  | tooLate | unconnected | enteredLate | notEntered => simp [prompt?] at hc

/-- A session that is closed, or that cannot be entered, is over. -/
lemma ends (h : c.Goes d r s es)
    (hlast : c.closes = true ∨ c = .enter ∧ ∃ f, r = .error f) : s.state = .disposed := by
  cases h with
  | closed _ hs' | enteredLate _ hs' | notEntered _ hs' => exact hs'
  | ready hc => obtain rfl | rfl := hc <;> simp [closes] at hlast
  | refused hc | prompted hc => cases c <;> simp [prompt?, closes] at hc hlast
  | tooLate | unconnected => simp [closes] at hlast

/-- A call that closes the session does nothing else than to disconnect a client. -/
lemma closing (h : c.Goes d r s es) (hc : c.closes = true) : Closing d.session.state es := by
  cases h with
  | closed _ _ hes => exact hes
  | ready hc' => obtain rfl | rfl := hc' <;> simp [closes] at hc
  | refused hc' | prompted hc' => cases c <;> simp [prompt?, closes] at hc hc'
  | tooLate | unconnected | enteredLate | notEntered => simp [closes] at hc

/-- A session that is over does nothing any more. -/
lemma nothing (h : c.Goes d r s es) (hs : d.session.state = .disposed) : es = [] := by
  cases h with
  | refused | tooLate => rfl
  | prompted _ hs' | unconnected hs' | ready _ hs' | notEntered hs' => simp [hs'] at hs
  | closed _ _ hes | enteredLate _ _ hes => exact Closing.eq_nil (hs ▸ hes)

end SessionCall.Goes

/-! ### The invariant -/

/-- Whether a client is disconnected. -/
def Event.isDisconnect : Event → Bool
  | .disconnect => true
  | _ => false

/-- After some deeds the client that was created last is connected: it connected without a failure,
and since then it only got prompts. -/
def World.Connected (w : World) (es : List Event) : Prop :=
  ∃ before options, ∃ prompts : List String, es = before ++ .client options :: .connect :: prompts.map .query ∧
    (w.client (before.countP Event.isClient)).connectFailure = none

lemma World.Connected.query {w : World} {es : List Event} (h : w.Connected es) (prompt : String) :
    w.Connected (es ++ [.query prompt]) := by
  obtain ⟨before, options, prompts, rfl, hc⟩ := h
  exact ⟨before, options, prompts ++ [prompt], by simp, hc⟩

namespace Session

/-- What the state of a session says about the deeds done since some world: an open session has
disconnected nothing, and a ready one is connected. -/
structure Stands (w : World) (es : List Event) (d : Desk) : Prop where
  did : w.Did es d.world
  leftOnce : es.countP Event.isDisconnect ≤ 1
  unleft : d.session.state ≠ .disposed → es.countP Event.isDisconnect = 0
  connected : d.session.state = .initialized → w.Connected es

namespace Stands

variable {w v : World} {es fs : List Event} {d : Desk} {s : Session}

lemma fresh (s : Session) (w : World) : Stands w [] ⟨w, s.fresh⟩ :=
  ⟨.refl w, by simp, fun _ => by simp, fun h => by simp [Session.fresh] at h⟩

/-- A session that is still open after some deeds disconnected nothing in them. -/
lemma still_open (h : Stands w es d) (hv : d.world.Did fs v) (hopen : d.session.state ≠ .disposed)
    (hfs : fs.countP Event.isDisconnect = 0)
    (hready : s.state = .initialized → w.Connected (es ++ fs)) : Stands w (es ++ fs) ⟨v, s⟩ := by
  have hleft : (es ++ fs).countP Event.isDisconnect = 0 := by
    rw [List.countP_append, h.unleft hopen, hfs]
  exact ⟨h.did.trans hv, hleft.le.trans zero_le_one, fun _ => hleft, hready⟩

/-- A session that is over is only asked how often it disconnected a client. -/
lemma ended (h : Stands w es d) (hv : d.world.Did fs v) (hs : s.state = .disposed)
    (hfs : (es ++ fs).countP Event.isDisconnect ≤ 1) : Stands w (es ++ fs) ⟨v, s⟩ :=
  ⟨h.did.trans hv, hfs, fun hopen => absurd hs hopen, fun hready => by simp [hs] at hready⟩

/-- Closing a session disconnects a client only if none was disconnected before. -/
lemma close (h : Stands w es d) (hes : SessionCall.Closing d.session.state fs) :
    (es ++ fs).countP Event.isDisconnect ≤ 1 := by
  obtain rfl | ⟨hopen, rfl⟩ := hes
  · simpa using h.leftOnce
  · simp [List.countP_append, h.unleft hopen, Event.isDisconnect]

/-- Every way in which a call goes keeps the invariant. -/
theorem goes (h : Stands w es d) {c : SessionCall} {r : Except Failure (Option String)}
    (hgo : c.Goes d r s fs) (hv : d.world.Did fs v) : Stands w (es ++ fs) ⟨v, s⟩ := by
  cases hgo with
  | refused | tooLate =>
    have hdid := h.did.trans hv
    rw [List.append_nil] at hdid ⊢
    exact ⟨hdid, h.leftOnce, h.unleft, h.connected⟩
  | prompted _ hs _ hes =>
    refine h.still_open hv (by simp [hs]) ?_ fun _ => ?_
    · obtain rfl | rfl := hes <;> rfl
    · obtain rfl | rfl := hes
      · simpa using h.connected hs
      · exact (h.connected hs).query _
  | unconnected hs _ hs' =>
    exact h.still_open hv (by simp [hs]) rfl fun hready => by simp [hs'] at hready
  | ready _ hs hm _ =>
    refine h.still_open hv (by simp [hs]) rfl fun _ => ⟨es, _, [], rfl, ?_⟩
    rw [← hm, h.did.client_eq, Nat.add_zero]
  | closed _ hs' hes | enteredLate _ hs' hes => exact h.ended hv hs' (h.close hes)
  | notEntered hs hs' =>
    refine h.ended hv hs' ?_
    simp [List.countP_append, h.unleft (by simp [hs]), Event.isDisconnect]

end Stands

end Session

/-! ### A row of calls -/

namespace SessionCall

/-- A call that has been made led from one desk to another. -/
structure Made.Led (m : Made) (d t : Desk) : Prop where
  before : m.before = d.session.state
  after : m.after = t.session.state
  did : d.world.Did m.deeds t.world
  goes : m.call.Goes d m.outcome t.session m.deeds

lemma make_led (c : SessionCall) (d : Desk) : (c.make d).1.Led d (c.make d).2 := by
  have hgoes : ∃ es, d.world.Did es (c.act d).2.world ∧
      c.Goes d (c.act d).1 (c.act d).2.session es := by
    have h := act_goes c d
    rw [Ends] at h
    split at h <;> rename_i heq <;> rwa [heq]
  obtain ⟨es, hdid, hgo⟩ := hgoes
  have hes : (c.make d).1.deeds = es := by
    show (c.act d).2.world.deeds.drop d.world.deeds.length = es
    rw [hdid.deeds, List.drop_left]
  exact ⟨rfl, rfl, hes ▸ hdid, hes ▸ hgo⟩

lemma Made.isLast_iff (m : Made) :
    m.isLast = true ↔ m.call.closes = true ∨ m.call = .enter ∧ ∃ f, m.outcome = .error f := by
  obtain ⟨c, _, _, r, _⟩ := m
  cases c <;> cases r <;> simp [isLast, closes]

end SessionCall

namespace Session

open SessionCall

/-- The calls that have been made led from one desk to another, one after the other. -/
inductive Led : Desk → List Made → Desk → Prop where
  | nil (d : Desk) : Led d [] d
  | cons {d t u : Desk} {m : Made} {ms : List Made} (h : m.Led d t) (hs : Led t ms u) :
      Led d (m :: ms) u

lemma calls_led (cs : List SessionCall) (d : Desk) : Led d (calls cs d).1 (calls cs d).2 := by
  induction cs generalizing d with
  | nil => exact .nil d
  | cons c cs ih => exact .cons (c.make_led d) (ih _)

lemma calls_map_call (cs : List SessionCall) (d : Desk) : (calls cs d).1.map (·.call) = cs := by
  induction cs generalizing d with
  | nil => rfl
  | cons c cs ih => exact congrArg (c :: ·) (ih _)

namespace Led

variable {d t u : Desk} {m : Made} {ms before rest : List Made} {w : World} {es : List Event}

/-- The calls up to some place, and those behind it. -/
lemma split (h : Led d (before ++ rest) u) : ∃ t, Led d before t ∧ Led t rest u := by
  induction before generalizing d with
  | nil => exact ⟨d, .nil d, h⟩
  | cons m before ih =>
    cases h with
    | cons hm hs =>
      obtain ⟨t, ht, hu⟩ := ih hs
      exact ⟨t, .cons hm ht, hu⟩

/-- A call among others, and those before and behind it. -/
lemma at_call (h : Led d (before ++ m :: rest) u) :
    ∃ t v, Led d before t ∧ m.Led t v ∧ Led v rest u := by
  obtain ⟨t, hbefore, hrest⟩ := h.split
  cases hrest with
  | cons hm hs => exact ⟨t, _, hbefore, hm, hs⟩

/-- A call of a row led from some desk to some other. -/
lemma of_mem (h : Led d ms u) (hm : m ∈ ms) : ∃ t v, m.Led t v := by
  obtain ⟨before, rest, rfl⟩ := List.append_of_mem hm
  obtain ⟨t, v, -, hled, -⟩ := h.at_call
  exact ⟨t, v, hled⟩

/-- A row of calls keeps the invariant. -/
theorem stands (h : Led d ms u) (hd : Stands w es d) :
    Stands w (es ++ ms.flatMap (·.deeds)) u := by
  induction h generalizing es with
  | nil d => simpa using hd
  | cons hm _ ih =>
    have hrest := ih (hd.goes hm.goes hm.did)
    rwa [List.append_assoc] at hrest

/-- A session that is over stays so and does nothing any more. -/
theorem nothing (h : Led d ms u) (hd : d.session.state = .disposed) :
    ms.flatMap (·.deeds) = [] := by
  induction h with
  | nil d => rfl
  | cons hm _ ih =>
    have hafter := (hd ▸ hm.goes.leadsTo).eq_disposed
    simp [hm.goes.nothing hd, ih hafter]

/-- Every call finds the session as the one before it left it. -/
lemma isChain (h : Led d ms u) :
    ms.IsChain (fun m n => n.before = m.after) ∧ ∀ m ∈ ms.head?, m.before = d.session.state := by
  induction h with
  | nil d => simp
  | cons hm _ ih =>
    refine ⟨List.isChain_cons.mpr ⟨fun n hn => ?_, ih.1⟩, by simpa using hm.before⟩
    rw [hm.after]
    exact ih.2 n hn

end Led

/-! ### The life of a session -/

/-- The life of a new session in a world, as the calls made on it show it. -/
structure Lifecycle (w : World) (made : List Made) : Prop where
  starts : ∀ m ∈ made.head?, m.before = .uninitialized
  chained : made.IsChain fun m n => n.before = m.after
  /-- A session is made ready at most once, from its first state, and what is over stays over. -/
  moves : ∀ m ∈ made, m.before.LeadsTo m.after
  /-- Only the prompt of a call on a ready session is sent. -/
  asks : ∀ m ∈ made, ∀ prompt, .query prompt ∈ m.deeds →
    m.call.prompt? = some prompt ∧ m.before = .initialized
  /-- A session that is not ready refuses every prompt, and no client notices. -/
  refuses : ∀ m ∈ made, m.call.prompt?.isSome → m.before ≠ .initialized →
    m.outcome = .error (.fault (.notInitialized m.before)) ∧ m.deeds = []
  /-- A prompt leaves a ready session ready, also if it fails. -/
  stays : ∀ m ∈ made, m.call.prompt?.isSome → m.before = .initialized → m.after = .initialized
  /-- A session that is ready after a call is connected by its latest client. -/
  connected : ∀ before m rest, made = before ++ m :: rest → m.after = .initialized →
    w.Connected ((before ++ [m]).flatMap (·.deeds))
  /-- A call that closes an open session may disconnect a client, and does nothing else. -/
  closes : ∀ m ∈ made, m.call.closes = true → Closing m.before m.deeds
  /-- A call that closes the session, or does not manage to enter it, ends it however it goes. -/
  ends : ∀ m ∈ made, m.isLast = true → m.after = .disposed
  /-- Behind such a call nothing is done any more. -/
  idle : ∀ before m rest, made = before ++ m :: rest → m.isLast = true →
    rest.flatMap (·.deeds) = []
  leavesOnce : (made.flatMap (·.deeds)).countP Event.isDisconnect ≤ 1

/-- A new session lives its life, whatever calls are made on it in whatever world. -/
theorem calls_lifecycle (s : Session) (w : World) (cs : List SessionCall) :
    (calls cs ⟨w, s.fresh⟩).1.map (·.call) = cs ∧
      (calls cs ⟨w, s.fresh⟩).2.world.deeds =
        w.deeds ++ (calls cs ⟨w, s.fresh⟩).1.flatMap (·.deeds) ∧
      Lifecycle w (calls cs ⟨w, s.fresh⟩).1 := by
  have hled := calls_led cs ⟨w, s.fresh⟩
  have hstands := hled.stands (.fresh s w)
  refine ⟨calls_map_call cs _, hstands.did.deeds, ?_⟩
  generalize (calls cs ⟨w, s.fresh⟩).1 = made at hled hstands ⊢
  exact {
    starts := hled.isChain.2
    chained := hled.isChain.1
    moves := fun m hm => by
      obtain ⟨t, v, h⟩ := hled.of_mem hm
      rw [h.before, h.after]
      exact h.goes.leadsTo
    asks := fun m hm prompt hq => by
      obtain ⟨t, v, h⟩ := hled.of_mem hm
      rw [h.before]
      exact h.goes.asked hq
    refuses := fun m hm hc hs => by
      obtain ⟨t, v, h⟩ := hled.of_mem hm
      rw [h.before] at hs ⊢
      exact h.goes.refuses hc hs
    stays := fun m hm hc hs => by
      obtain ⟨t, v, h⟩ := hled.of_mem hm
      rw [h.before] at hs
      rw [h.after]
      exact h.goes.stays hc hs
    connected := fun before m rest hmade hs => by
      obtain ⟨t, v, hbefore, h, -⟩ := (hmade ▸ hled).at_call
      rw [h.after] at hs
      have hv := ((hbefore.stands (.fresh s w)).goes h.goes h.did).connected hs
      simpa using hv
    closes := fun m hm hc => by
      obtain ⟨t, v, h⟩ := hled.of_mem hm
      rw [h.before]
      exact h.goes.closing hc
    ends := fun m hm hlast => by
      obtain ⟨t, v, h⟩ := hled.of_mem hm
      rw [h.after]
      exact h.goes.ends (m.isLast_iff.mp hlast)
    idle := fun before m rest hmade hlast => by
      obtain ⟨t, v, -, h, hrest⟩ := (hmade ▸ hled).at_call
      exact hrest.nothing (h.goes.ends (m.isLast_iff.mp hlast))
    leavesOnce := by simpa using hstands.leftOnce }

end Session

end BuildMend
