import BuildMend.Proofs.Assistant.Lifecycle

/-!
The clients of a session, and which of them are disconnected.

* `Session.held`: the client that a session would disconnect at its end.
* `SessionCall.Settles`: what a call does to that client; `SessionCall.act_settles` says it of every call.
* `Session.held_calls`: over a row of calls a client is held or was disconnected exactly if one was held
  or created.
* `SessionCall.openings`, `Reopened`: the calls that open a session before one closes it, and the rows of
  calls that open it again behind a client that did not connect.
* `Session.calls_disconnected_iff`: a session that is over has disconnected all its clients exactly if it
  was not opened again.

Opening a session again attaches another client, and nothing disconnects the one that was attached before.
-/

namespace BuildMend

open Act

/-! ### What a call does to the attached client -/

namespace Session

/-- The number of clients that the end of a session would disconnect: the attached one, unless the session
is over. -/
def held (s : Session) : ℕ := if s.state = .disposed then 0 else s.client.toList.length

variable {s : Session}

lemma held_of_disposed (h : s.state = .disposed) : s.held = 0 := if_pos h

lemma held_of_open (h : s.state ≠ .disposed) : s.held = s.client.toList.length := if_neg h

@[simp] lemma held_fresh (s : Session) : s.fresh.held = 0 := rfl

lemma held_afterTurn (s : Session) : s.afterTurn.held = s.held := by
  rw [held, held, afterTurn]
  cases s.client <;> rfl

lemma held_attached (h : s.state ≠ .disposed) (c : ClientScript) : (s.attached c).held = 1 :=
  held_of_open h

end Session

namespace SessionCall

/-- Whether a call makes a session ready, or tries to. -/
def opens : SessionCall → Bool
  | .begin | .enter => true
  | _ => false

/-- Whether a call creates a client: it opens a session that was not made ready yet. -/
def creates (c : SessionCall) (s : Session) : Bool := c.opens && s.state == .uninitialized

/-- What a call does to clients: at most one is created, and the one that is attached then is held on or
disconnected. -/
structure Settles (c : SessionCall) (s t : Session) (es : List Event) : Prop where
  created : es.countP Event.isClient = if c.creates s then 1 else 0
  kept : es.countP Event.isDisconnect + t.held = if c.creates s then 1 else s.held

variable {d : Desk}

lemma creates_of_not_opens {c : SessionCall} (h : c.opens = false) (s : Session) :
    c.creates s = false := by
  rw [creates, h, Bool.false_and]

lemma creates_of_late {s : Session} (h : s.state ≠ .uninitialized) (c : SessionCall) :
    c.creates s = false := by
  simp [creates, h]

lemma creates_of_new {c : SessionCall} {s : Session} (hc : c.opens = true)
    (hs : s.state = .uninitialized) : c.creates s = true := by
  simp [creates, hc, hs]

/-- A call that creates no client and keeps the attached one. -/
lemma Settles.of_kept {c : SessionCall} {s t : Session} {es : List Event} (hc : c.creates s = false)
    (hes : es = [] ∨ ∃ prompt, es = [.query prompt]) (ht : t.held = s.held) : c.Settles s t es := by
  obtain rfl | ⟨prompt, rfl⟩ := hes <;>
    exact ⟨by simp [hc, Event.isClient], by simp [hc, ht, Event.isDisconnect]⟩

/-- The end of a session disconnects the client that it holds. -/
lemma dispose_settles {E : Failure → Desk → Prop} {Q : Unit → Desk → Prop}
    (h : ∀ t es, d.world.Did es t.world → es.countP Event.isClient = 0 →
      es.countP Event.isDisconnect = d.session.held → t.session.held = 0 →
      Q () t ∧ ∀ f, E f t) : Session.dispose.Ends d Q E := by
  have hattached {c : ClientScript} {v : World} (hs : d.session.state ≠ .disposed)
      (hc : d.session.client = some c) (hv : d.world.Did [.disconnect] v) :=
    h ⟨v, d.session.closed⟩ _ hv rfl (by rw [Session.held_of_open hs, hc]; rfl) rfl
  refine Session.dispose_ends (fun hs => ?_) (fun v hs hc hv _ => ?_)
    (fun _ v hs hc _ hv _ => (hattached hs hc hv).1) fun f _ v hs hc _ _ hv => (hattached hs hc hv).2 f
  · have hheld := Session.held_of_disposed hs
    exact (h d [] (.refl _) rfl hheld.symm hheld).1
  · exact (h ⟨v, d.session.closed⟩ [] hv rfl (by rw [Session.held_of_open hs, hc]; rfl) rfl).1

/-- A prompt is no matter of clients. -/
lemma send_settles {c : SessionCall} (hc : c.opens = false) (prompt : String) (d : Desk) :
    (Session.send prompt).Ends d
      (fun _ t => ∃ es, d.world.Did es t.world ∧ c.Settles d.session t.session es)
      fun _ t => ∃ es, d.world.Did es t.world ∧ c.Settles d.session t.session es := by
  have hcreates := creates_of_not_opens hc d.session
  have hturn := Session.held_afterTurn d.session
  refine Session.send_ends (fun _ => ?_) (fun f _ => ?_) (fun v _ _ hv _ => ?_) fun f v _ _ hv => ?_
  · exact ⟨[], .refl _, .of_kept hcreates (.inl rfl) rfl⟩
  · exact ⟨[], .refl _, .of_kept hcreates (.inl rfl) rfl⟩
  · exact ⟨_, hv, .of_kept hcreates (.inr ⟨prompt, rfl⟩) hturn⟩
  · exact ⟨_, hv, .of_kept hcreates (.inr ⟨prompt, rfl⟩) hturn⟩

/-- The end of a session, as a call of its own. -/
lemma dispose_call_settles {c : SessionCall} (hc : c.opens = false) (d : Desk) :
    Session.dispose.Ends d
      (fun _ t => ∃ es, d.world.Did es t.world ∧ c.Settles d.session t.session es)
      fun _ t => ∃ es, d.world.Did es t.world ∧ c.Settles d.session t.session es := by
  refine dispose_settles fun t es hdid hcreated hleft hheld => ?_
  have hsettles : c.Settles d.session t.session es :=
    ⟨by rw [hcreated, creates_of_not_opens hc]; rfl,
      by rw [hleft, hheld, creates_of_not_opens hc]; rfl⟩
  exact ⟨⟨es, hdid, hsettles⟩, fun _ => ⟨es, hdid, hsettles⟩⟩

lemma begin_settles (d : Desk) :
    Session.begin.Ends d
      (fun _ t => ∃ es, d.world.Did es t.world ∧ begin.Settles d.session t.session es)
      fun _ t => ∃ es, d.world.Did es t.world ∧ begin.Settles d.session t.session es := by
  by_cases hs : d.session.state = .uninitialized
  · have hcreates := creates_of_new (c := .begin) rfl hs
    have hopen : d.session.state ≠ .disposed := by simp [hs]
    refine Session.begin_ends (fun h => absurd hs h) (fun v _ hv _ => ?_) fun m v _ hv => ?_
    · refine ⟨_, hv, ?_, ?_⟩ <;> rw [hcreates] <;> rfl
    · refine ⟨_, hv, by rw [hcreates]; rfl, ?_⟩
      rw [hcreates, Session.held_attached hopen]
      rfl
  · rw [Ends, Session.begin_of_late hs]
    exact ⟨[], .refl _, .of_kept (creates_of_late hs _) (.inl rfl) rfl⟩

/-- A session that is not entered disconnects the client that it has created, or the one that it held. -/
lemma enter_settles (d : Desk) :
    Session.enter.Ends d
      (fun _ t => ∃ es, d.world.Did es t.world ∧ enter.Settles d.session t.session es)
      fun _ t => ∃ es, d.world.Did es t.world ∧ enter.Settles d.session t.session es := by
  rw [Session.enter, ends_bind, ends_attempt]
  by_cases hs : d.session.state = .uninitialized
  · have hcreates := creates_of_new (c := .enter) rfl hs
    have hopen : d.session.state ≠ .disposed := by simp [hs]
    refine Session.begin_ends (fun h => absurd hs h) (fun v _ hv _ => ?_) fun m v _ hv => ?_
    · refine ⟨_, hv, ?_, ?_⟩ <;> rw [hcreates] <;> rfl
    · rw [ends_bind]
      refine dispose_settles fun t es hdid hcreated hleft hheld => ?_
      rw [Session.held_attached hopen] at hleft
      have hsettles : enter.Settles d.session t.session
          ([.client d.session.options, .connect] ++ es) :=
        ⟨by rw [List.countP_append, hcreated, hcreates]; rfl,
          by rw [List.countP_append, hleft, hheld, hcreates]; rfl⟩
      exact ⟨⟨_, hv.trans hdid, hsettles⟩, fun _ => ⟨_, hv.trans hdid, hsettles⟩⟩
  · rw [Ends, Session.begin_of_late hs]
    refine ends_bind.mpr (dispose_settles fun t es hdid hcreated hleft hheld => ?_)
    have hsettles : enter.Settles d.session t.session es :=
      ⟨by rw [hcreated, creates_of_late hs]; rfl, by rw [hleft, hheld, creates_of_late hs]; rfl⟩
    exact ⟨⟨es, hdid, hsettles⟩, fun _ => ⟨es, hdid, hsettles⟩⟩

/-- Every call settles what becomes of its clients. -/
theorem act_settles (c : SessionCall) (d : Desk) :
    c.act.Ends d (fun _ t => ∃ es, d.world.Did es t.world ∧ c.Settles d.session t.session es)
      fun _ t => ∃ es, d.world.Did es t.world ∧ c.Settles d.session t.session es := by
  cases c with
  | begin => exact ends_bind.mpr (begin_settles d)
  | askForFix errors output =>
    rw [act, Session.askForFix_eq]
    exact ends_bind.mpr (send_settles rfl _ d)
  | send prompt => exact ends_bind.mpr (send_settles rfl _ d)
  | dispose => exact ends_bind.mpr (dispose_call_settles rfl d)
  | enter => exact ends_bind.mpr (enter_settles d)
  | leave => exact ends_bind.mpr (dispose_call_settles rfl d)

lemma make_settles (c : SessionCall) (d : Desk) :
    c.Settles d.session (c.make d).2.session (c.make d).1.deeds := by
  obtain ⟨es, hdid, hsettles⟩ := (act_settles c d).state
  have hes : (c.make d).1.deeds = es := by
    show (c.act d).2.world.deeds.drop d.world.deeds.length = es
    rw [hdid.deeds, List.drop_left]
  rw [hes]
  exact hsettles

end SessionCall

lemma SessionState.LeadsTo.eq_uninitialized {s : SessionState} (h : s.LeadsTo .uninitialized) :
    s = .uninitialized := by
  cases h
  rfl

namespace SessionCall.Goes

variable {c : SessionCall} {d : Desk} {r : Except Failure (Option String)} {s : Session}
  {es : List Event}

/-- What was made ready once, or is over, is not new again. -/
lemma late (h : c.Goes d r s es) (hs : d.session.state ≠ .uninitialized) :
    s.state ≠ .uninitialized := by
  intro hnew
  have hleads := h.leadsTo
  rw [hnew] at hleads
  exact hs hleads.eq_uninitialized

/-- A prompt leaves a new session new. -/
lemma new_of_prompt (h : c.Goes d r s es) (hc : c.prompt?.isSome)
    (hs : d.session.state = .uninitialized) : s.state = .uninitialized := by
  cases h with
  | refused => exact hs
  | prompted _ hready => exact absurd (hs.symm.trans hready) (by simp)
  | ready hc' => obtain rfl | rfl := hc' <;> simp [prompt?] at hc
  | closed hc' => cases c <;> simp [prompt?, closes] at hc hc'
  | tooLate | unconnected | enteredLate | notEntered => simp [prompt?] at hc

/-- A call that opens a new session leaves it new only if it is a mere `begin`, and its client does not
connect. -/
lemma new_iff (h : c.Goes d r s es) (hc : c.opens = true) (hs : d.session.state = .uninitialized) :
    s.state = .uninitialized ↔ c = .begin ∧ (d.world.client 0).connectFailure.isSome := by
  cases h with
  | refused hc' | prompted hc' => cases c <;> simp [prompt?, opens] at hc hc'
  | tooLate hs' | enteredLate hs' => exact absurd hs hs'
  | unconnected _ hm hs' => simp [hs', hm]
  | ready _ _ hm hs' => simp [hs', hm]
  | closed hc' => cases c <;> simp [closes, opens] at hc hc'
  | notEntered _ hs' => simp [hs']

end SessionCall.Goes

/-! ### Rows of calls -/

namespace SessionCall

/-- The calls that open the session, up to the first one that closes it. -/
def openings (cs : List SessionCall) : List SessionCall :=
  (cs.takeWhile fun c => !c.closes).filter opens

/-- In a row of calls the session is opened again, behind a client of the world that did not connect. -/
def Reopened (w : World) (cs : List SessionCall) : Prop :=
  (w.client 0).connectFailure.isSome ∧ ∃ c rest, openings cs = begin :: c :: rest

lemma not_closes_of_opens {c : SessionCall} (h : c.opens = true) : c.closes = false := by
  cases c <;> simp_all [opens, closes]

lemma not_opens_of_prompt {c : SessionCall} (h : c.prompt?.isSome) :
    c.opens = false ∧ c.closes = false := by
  cases c <;> simp_all [opens, closes, prompt?]

lemma openings_closes {c : SessionCall} (h : c.closes = true) (cs : List SessionCall) :
    openings (c :: cs) = [] := by
  simp [openings, h]

lemma openings_opens {c : SessionCall} (h : c.opens = true) (cs : List SessionCall) :
    openings (c :: cs) = c :: openings cs := by
  simp [openings, not_closes_of_opens h, h]

lemma openings_prompt {c : SessionCall} (h : c.prompt?.isSome) (cs : List SessionCall) :
    openings (c :: cs) = openings cs := by
  simp [openings, not_opens_of_prompt h]

/-- A call closes the session, opens it, or is a prompt. -/
lemma closes_or_opens_or_prompt (c : SessionCall) :
    c.closes = true ∨ c.opens = true ∨ c.prompt?.isSome := by
  cases c <;> simp [closes, opens, prompt?]

end SessionCall

namespace Session

open SessionCall

/-- The deeds of a row of calls. -/
def callDeeds (cs : List SessionCall) (d : Desk) : List Event := (calls cs d).1.flatMap (·.deeds)

lemma callDeeds_cons (c : SessionCall) (cs : List SessionCall) (d : Desk) :
    callDeeds (c :: cs) d = (c.make d).1.deeds ++ callDeeds cs (c.make d).2 := by
  simp [callDeeds, calls]

/-- The number of clients that a row of calls creates. -/
def created (cs : List SessionCall) (d : Desk) : ℕ := (callDeeds cs d).countP Event.isClient

lemma created_cons (c : SessionCall) (cs : List SessionCall) (d : Desk) :
    created (c :: cs) d = (if c.creates d.session then 1 else 0) + created cs (c.make d).2 := by
  rw [created, callDeeds_cons, List.countP_append, (make_settles c d).created, created]

/-- Over a row of calls a client is disconnected, or held at last, exactly if one was held at first or is
created. -/
theorem held_calls (cs : List SessionCall) (d : Desk) :
    0 < (callDeeds cs d).countP Event.isDisconnect + (calls cs d).2.session.held ↔
      0 < d.session.held + created cs d := by
  induction cs generalizing d with
  | nil => simp [callDeeds, calls, created]
  | cons c cs ih =>
    have hkept := (make_settles c d).kept
    have hrest := ih (c.make d).2
    rw [callDeeds_cons, List.countP_append, created_cons]
    show 0 < _ + _ + (calls cs (c.make d).2).2.session.held ↔ _
    by_cases hc : c.creates d.session = true
    · rw [if_pos hc] at hkept ⊢
      omega
    · rw [if_neg hc] at hkept ⊢
      omega

variable {d : Desk}

/-- A session that was made ready, or is over, creates no client any more. -/
lemma created_of_late (cs : List SessionCall) (h : d.session.state ≠ .uninitialized) :
    created cs d = 0 := by
  induction cs generalizing d with
  | nil => rfl
  | cons c cs ih =>
    rw [created_cons, creates_of_late h, ih ((c.make_led d).goes.late h)]
    rfl

lemma created_closes {c : SessionCall} (hc : c.closes = true) (cs : List SessionCall) (d : Desk) :
    created (c :: cs) d = 0 := by
  have hover := (c.make_led d).goes.ends (.inl hc)
  have hopens : c.opens = false := Bool.eq_false_iff.mpr fun hopens => by
    rw [not_closes_of_opens hopens] at hc
    cases hc
  rw [created_cons, creates_of_not_opens hopens, created_of_late cs (by simp [hover])]
  rfl

/-- A new session creates a client exactly if a call opens it before one closes it. -/
lemma created_pos_iff (cs : List SessionCall) (h : d.session.state = .uninitialized) :
    0 < created cs d ↔ openings cs ≠ [] := by
  induction cs generalizing d with
  | nil => simp [created, callDeeds, calls, openings]
  | cons c cs ih =>
    rcases c.closes_or_opens_or_prompt with hc | hc | hc
    · simp [created_closes hc cs d, openings_closes hc]
    · simp [created_cons, creates_of_new hc h, openings_opens hc]
    · have hnew := (c.make_led d).goes.new_of_prompt hc h
      rw [created_cons, creates_of_not_opens (not_opens_of_prompt hc).1, openings_prompt hc]
      simpa using ih hnew

/-- A new session creates a second client exactly if it is opened again. -/
lemma one_lt_created_iff (cs : List SessionCall) (h : d.session.state = .uninitialized) :
    1 < created cs d ↔ Reopened d.world cs := by
  induction cs generalizing d with
  | nil => simp [created, callDeeds, calls, Reopened, openings]
  | cons c cs ih =>
    have hled := c.make_led d
    rcases c.closes_or_opens_or_prompt with hc | hc | hc
    · simp [created_closes hc cs d, Reopened, openings_closes hc]
    · rw [created_cons, creates_of_new hc h, if_pos rfl, Reopened, openings_opens hc]
      by_cases hnew : (c.make d).2.session.state = .uninitialized
      · obtain ⟨rfl, hm⟩ := (hled.goes.new_iff hc h).mp hnew
        have hagain := created_pos_iff cs hnew
        rw [List.ne_nil_iff_exists_cons] at hagain
        simp [hagain, hm]
      · rw [created_of_late cs hnew]
        refine iff_of_false (by simp) fun ⟨hm, c', rest, heq⟩ => hnew ?_
        exact (hled.goes.new_iff hc h).mpr ⟨(List.cons.inj heq).1, hm⟩
    · have hnew := hled.goes.new_of_prompt hc h
      have hnone : (c.make d).1.deeds = [] := (hled.goes.refuses hc (by simp [h])).2
      have hclient : (c.make d).2.world.client 0 = d.world.client 0 := by
        simpa [hnone] using hled.did.client_eq 0
      rw [created_cons, creates_of_not_opens (not_opens_of_prompt hc).1, Reopened,
        openings_prompt hc, ← hclient]
      simpa [Reopened] using ih hnew

/-- A session that is over has disconnected one of its clients, if it created any.  It has disconnected all
of them exactly if it was not opened again behind a client that did not connect. -/
theorem calls_disconnected_iff (s : Session) (w : World) (cs : List SessionCall)
    (hover : (calls cs ⟨w, s.fresh⟩).2.session.state = .disposed) :
    let deeds := callDeeds cs ⟨w, s.fresh⟩
    (calls cs ⟨w, s.fresh⟩).2.world.deeds = w.deeds ++ deeds ∧
      deeds.countP Event.isDisconnect = min 1 (deeds.countP Event.isClient) ∧
      (deeds.countP Event.isDisconnect = deeds.countP Event.isClient ↔ ¬Reopened w cs) := by
  intro deeds
  have hstands : Stands w deeds _ := (calls_led cs ⟨w, s.fresh⟩).stands (.fresh s w)
  have hleft : deeds.countP Event.isDisconnect ≤ 1 := hstands.leftOnce
  have hheld := held_calls cs ⟨w, s.fresh⟩
  rw [held_of_disposed hover, held_fresh, Nat.add_zero, Nat.zero_add] at hheld
  have hagain : 1 < deeds.countP Event.isClient ↔ Reopened w cs := one_lt_created_iff cs rfl
  have hmin : deeds.countP Event.isDisconnect = min 1 (deeds.countP Event.isClient) := by
    change 0 < deeds.countP Event.isDisconnect ↔ 0 < deeds.countP Event.isClient at hheld
    omega
  refine ⟨hstands.did.deeds, hmin, ?_⟩
  rw [← hagain]
  omega

/-- A world whose first client does not connect. -/
def unreachableWorld : World where
  tree := { files := [], directories := [] }
  clients := [{ connectFailure := some ⟨.client .connection, "refused"⟩ }, {}]

/-- A session that mends builds. -/
def plainSession : Session :=
  .forFixes ⟨"model", "model", none, "acceptEdits", none⟩ false "/lib"

/-- A client that did not connect is disconnected at the end of its session. -/
theorem calls_disconnected_unreachable :
    let cs : List SessionCall := [.begin, .send "hello", .leave]
    (callDeeds cs ⟨unreachableWorld, plainSession.fresh⟩).countP Event.isClient = 1 ∧
      (callDeeds cs ⟨unreachableWorld, plainSession.fresh⟩).countP Event.isDisconnect = 1 := by
  intro cs
  have hover : (calls cs ⟨unreachableWorld, plainSession.fresh⟩).2.session.state = .disposed := rfl
  have hcreated : (callDeeds cs ⟨unreachableWorld, plainSession.fresh⟩).countP Event.isClient = 1 := rfl
  obtain ⟨-, hleft, -⟩ := calls_disconnected_iff plainSession unreachableWorld cs hover
  exact ⟨hcreated, by rw [hleft, hcreated]; rfl⟩

/-- A session that is opened again has two clients, of which its end disconnects one. -/
theorem calls_not_disconnected :
    let cs : List SessionCall := [.begin, .begin, .dispose]
    let d : Desk := ⟨unreachableWorld, plainSession.fresh⟩
    (calls cs d).2.session.state = .disposed ∧ (callDeeds cs d).countP Event.isClient = 2 ∧
      (callDeeds cs d).countP Event.isDisconnect = 1 := by
  decide +kernel

end Session

end BuildMend
