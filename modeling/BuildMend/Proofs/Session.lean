import BuildMend.Assistant.Session
import BuildMend.Proofs.BuildTool

/-!
What the parts of a session with the assistant end in.

* `Turn.answers`, `ClientScript.cooperates`: the turns that end in an answer, and the clients that
  connect, answer always and disconnect without a failure of their own.
* `Turn.answer`, `Turn.failure?`: the answer of a turn, and what the other turns fail with.
* `Session.begin_ends`: a client is created and connected once; it stays attached if that fails.
* `Session.send_ends`: a prompt is sent at most once, and the client keeps its place.
* `Session.dispose_ends`: an attached client is disconnected once and detached.
-/

namespace BuildMend

open Act Number Text

/-! ### What clients do -/

/-- Whether a message neither ends its turn with an error nor names a cost that cannot be told. -/
def Message.isHarmless : Message → Bool
  | .result isError _ _ cost => !isError && cost.all fun c => !c.isTooLarge
  | _ => true

/-- Whether a turn ends by itself and without a failure. -/
def TurnEnd.isQuiet : TurnEnd → Bool
  | .ends _ none => true
  | _ => false

/-- Whether a turn that has some limit ends in an answer. -/
def Turn.answers (limit : Option Amount) (t : Turn) : Bool :=
  givesTime limit && t.refusal.isNone && t.messages.all (·.isHarmless) && t.ending.isQuiet

/-! ### How turns fail -/

/-- What the program makes of a mishap when it connects. -/
def Mishap.onConnect (m : Mishap) : Failure :=
  if m.isClient then .fault (.assistantUnreachable m) else .mishap m

/-- What the program makes of a mishap in a turn. -/
def Mishap.inTurn (m : Mishap) : Failure :=
  if m.isClient then .fault (.assistantFailed m) else .mishap m

lemma Mishap.onConnect_ne_stalled (m : Mishap) : m.onConnect ≠ .stalled := by
  rw [Mishap.onConnect]
  split <;> simp

/-- What a turn fails with that has not ended when its time is over; without a limit it is waited for
for ever. -/
def overdue (limit : Option Amount) : Failure :=
  (limit.map fun l => Failure.fault (.assistantTimeout l)).getD .stalled

/-- What a prompt fails with whose limit leaves no time, before it is sent. -/
def noTime? (limit : Option Amount) : Option Failure :=
  if limit.any (·.isNonPositive) then some (overdue limit)
  else if limit.any (·.isTooLarge) then some .numberTooLarge
  else none

lemma noTime?_eq_none_iff {limit : Option Amount} :
    noTime? limit = none ↔ givesTime limit = true := by
  cases limit with
  | none => simp [noTime?, givesTime]
  | some l =>
    simp only [noTime?, givesTime, Option.any_some, Option.all_some]
    split <;> simp_all

namespace Message

/-- What a message makes its turn fail with. -/
def failure? : Message → Option Failure
  | .result isError kind text cost =>
    if isError then some (.fault (.assistantReported ((firstGiven [text]).getD kind)))
    else if cost.any (·.isTooLarge) then some .numberTooLarge
    else none
  | _ => none

/-- The texts among the parts of a message. -/
def texts : Message → List String
  | .assistant blocks => blocks.flatMap fun
    | .text s => [s]
    | _ => []
  | _ => []

lemma failure?_eq_none_iff {m : Message} : m.failure? = none ↔ m.isHarmless = true := by
  cases m with
  | assistant blocks => simp [failure?, isHarmless]
  | result isError kind text cost =>
    cases isError <;> cases cost <;> simp [failure?, isHarmless]
  | other => simp [failure?, isHarmless]

end Message

namespace TurnEnd

/-- What follows the messages of a turn, as a failure. -/
def failure? (limit : Option Amount) : TurnEnd → Option Failure
  | .ends _ m => m.map Mishap.inTurn
  | .hangs => some (overdue limit)
  | .cancelled => some .cancelled

/-- What the end of a turn leaves behind. -/
def leavings : TurnEnd → Leavings
  | .ends leavings _ => leavings
  | _ => {}

lemma failure?_eq_none_iff {limit : Option Amount} {e : TurnEnd} :
    e.failure? limit = none ↔ e.isQuiet = true := by
  cases e with
  | ends leavings m => cases m <;> simp [failure?, isQuiet]
  | hangs => simp [failure?, isQuiet]
  | cancelled => simp [failure?, isQuiet]

end TurnEnd

namespace Turn

/-- What a turn fails with: what its prompt raises, or else the first message that is not harmless, or
else its end. -/
def failure? (limit : Option Amount) (t : Turn) : Option Failure :=
  (t.refusal.map Mishap.inTurn).or
    ((t.messages.findSome? Message.failure?).or (t.ending.failure? limit))

/-- The answer of a turn: its texts, a line each, without blanks around them. -/
def answer (t : Turn) : String :=
  trimString ("\n".intercalate (t.messages.flatMap Message.texts))

lemma failure?_eq_none_iff {limit : Option Amount} {t : Turn} (h : givesTime limit = true) :
    t.failure? limit = none ↔ t.answers limit = true := by
  simp [failure?, answers, h, TurnEnd.failure?_eq_none_iff, Message.failure?_eq_none_iff, and_assoc]

end Turn

namespace ClientScript

/-- Whether a client disconnects, or fails to in its own way only. -/
def leaves (c : ClientScript) : Bool := c.disconnectFailure.all (·.isClient)

/-- A client that connects, answers every prompt within some limit, and leaves. -/
structure Cooperates (limit : Option Amount) (c : ClientScript) : Prop where
  connects : c.connectFailure = none
  answers : ∀ j, (c.turns.getD j {}).answers limit = true
  leaves : c.leaves = true

/-- The client after its next turn. -/
def afterTurn (c : ClientScript) : ClientScript := { c with turns := c.turns.tail }

lemma Cooperates.afterTurn {limit : Option Amount} {c : ClientScript} (h : c.Cooperates limit) :
    c.afterTurn.Cooperates limit where
  connects := h.connects
  answers j := by
    have hj := h.answers (j + 1)
    simpa [ClientScript.afterTurn, List.getD_eq_getElem?_getD] using hj
  leaves := h.leaves

end ClientScript

namespace Session

/-- The next turn of the attached client. -/
def turn (s : Session) : Turn := (s.client.map fun c => c.turns.headD {}).getD {}

/-- The session after the next turn of the attached client. -/
def afterTurn (s : Session) : Session := { s with client := s.client.map (·.afterTurn) }

/-- The session with a client attached. -/
def attached (s : Session) (c : ClientScript) : Session := { s with client := some c }

/-- The session after its end. -/
def closed (s : Session) : Session := { s with client := none, state := .disposed }

/-- The attached client answers and leaves. -/
def Cooperates (s : Session) : Prop :=
  ∃ c, s.client = some c ∧ c.Cooperates s.profile.limit

namespace Cooperates

variable {s : Session}

lemma afterTurn (h : s.Cooperates) : s.afterTurn.Cooperates := by
  obtain ⟨c, hc, hcoop⟩ := h
  exact ⟨c.afterTurn, by simp [Session.afterTurn, hc], hcoop.afterTurn⟩

lemma turn_answers (h : s.Cooperates) : s.turn.answers s.profile.limit = true := by
  obtain ⟨c, hc, hcoop⟩ := h
  have h0 := hcoop.answers 0
  simpa [Session.turn, hc, List.headD_eq_head?_getD, List.getD_eq_getElem?_getD,
    List.head?_eq_getElem?] using h0

lemma leaves (h : s.Cooperates) {c : ClientScript} (hc : s.client = some c) : c.leaves = true := by
  obtain ⟨d, hd, hcoop⟩ := h
  obtain rfl : d = c := Option.some.inj (hd.symm.trans hc)
  exact hcoop.leaves

end Cooperates

variable {d : Desk}

/-! ### Parts of a session -/

lemma inWorld_ends {α : Type} {a : Action α} {Q : α → Desk → Prop} {E : Failure → Desk → Prop} :
    (inWorld a).Ends d Q E ↔
      a.Ends d.world (fun x v => Q x { d with world := v }) fun f v => E f { d with world := v } :=
  ends_zoom

lemma note_ends {level : Level} {text : String} {Q : Unit → Desk → Prop}
    {E : Failure → Desk → Prop}
    (h : ∀ v, d.world.Did [] v → v.tree = d.world.tree → Q () { d with world := v }) :
    (note level text).Ends d Q E :=
  inWorld_ends.mpr <| (Action.Tells.log _ _ _).ends h

lemma current_ends {Q : Session → Desk → Prop} {E : Failure → Desk → Prop} :
    current.Ends d Q E ↔ Q d.session d := Iff.rfl

lemma change_ends {f : Session → Session} {Q : Unit → Desk → Prop} {E : Failure → Desk → Prop} :
    (change f).Ends d Q E ↔ Q () { d with session := f d.session } := Iff.rfl

lemma emit_ends {text : String} {Q : Unit → Desk → Prop} {E : Failure → Desk → Prop}
    (h : ∀ v, d.world.Did [] v → v.tree = d.world.tree → Q () { d with world := v }) :
    (emit text).Ends d Q E := by
  rw [emit, ends_bind, current_ends, ends_ite]
  refine ⟨fun _ => ?_, fun _ => h d.world (.refl _) rfl⟩
  exact inWorld_ends.mpr <| (Action.Tells.of_record rfl).ends h

/-! ### Connecting -/

lemma nextClient_apply (options : ClientOptions) (w : World) :
    nextClient options w =
      (.ok (w.client 0),
        { w with past := .client options :: w.past, clients := w.clients.drop 1 }) := by
  obtain ⟨_, _, _, _, clients, _, _⟩ := w
  cases clients <;> rfl

/-- A client is created and connected, once; if that fails it stays attached. -/
lemma start_ends {Q : Unit → Desk → Prop} {E : Failure → Desk → Prop}
    (hQ : ∀ v, (d.world.client 0).connectFailure = none →
      d.world.Did [.client d.session.options, .connect] v → v.tree = d.world.tree →
      Q () ⟨v, d.session.attached (d.world.client 0)⟩)
    (hE : ∀ m v, (d.world.client 0).connectFailure = some m →
      d.world.Did [.client d.session.options, .connect] v →
      E m.onConnect ⟨v, d.session.attached (d.world.client 0)⟩) :
    start.Ends d Q E := by
  have hnew (e : Event) (he : e = .connect) : d.world.Did [.client d.session.options, e]
      { d.world with
        past := e :: .client d.session.options :: d.world.past
        clients := d.world.clients.drop 1 } := by
    subst he
    exact ⟨rfl, rfl, by simp [World.deeds, World.trace, Event.isDeed]⟩
  rw [start, ends_bind, current_ends, ends_bind, inWorld_ends,
    ends_of_apply_ok (nextClient_apply _ _), ends_bind, change_ends, ends_bind, inWorld_ends,
    ends_of_apply_ok (Action.record_apply _ _)]
  split
  · rename_i m hm
    have h := hE m _ hm (hnew _ rfl)
    rw [Mishap.onConnect] at h
    rw [ends_ite]
    refine ⟨fun hc => ?_, fun hc => ?_⟩
    · rw [if_pos hc] at h
      exact h
    · rw [if_neg hc] at h
      exact h
  · rename_i hm
    exact note_ends fun v hv htree => hQ v hm (by simpa using (hnew _ rfl).trans hv) htree

/-- A session is made ready once in its life, by a client of its own. -/
theorem begin_ends {Q : Unit → Desk → Prop} {E : Failure → Desk → Prop}
    (hstate : d.session.state ≠ .uninitialized → E (.fault (.cannotInitialize d.session.state)) d)
    (hQ : ∀ v, (d.world.client 0).connectFailure = none →
      d.world.Did [.client d.session.options, .connect] v → v.tree = d.world.tree →
      Q () ⟨v, { d.session.attached (d.world.client 0) with state := .initialized }⟩)
    (hE : ∀ m v, (d.world.client 0).connectFailure = some m →
      d.world.Did [.client d.session.options, .connect] v →
      E m.onConnect ⟨v, d.session.attached (d.world.client 0)⟩) :
    begin.Ends d Q E := by
  rw [begin, ends_bind, current_ends]
  simp only
  rw [ends_ite]
  refine ⟨fun h => hstate (by simpa using h), fun _ => ?_⟩
  rw [ends_bind]
  refine start_ends (fun v hc hv htree => ?_) hE
  rw [ends_bind, change_ends]
  exact note_ends fun u hu hsame => hQ u hc (by simpa using hv.trans hu) (hsame.trans htree)

/-- A session that was ready once is not made ready again. -/
lemma begin_of_late (h : d.session.state ≠ .uninitialized) :
    begin d = (.error (.fault (.cannotInitialize d.session.state)), d) := by
  rw [begin, bind_of_ok (show current d = (.ok d.session, d) from rfl)]
  simp only
  rw [if_pos (by simpa using h)]
  rfl

/-! ### Prompts -/

lemma hearBlock_ends {b : Block} {Q : List String → Desk → Prop} {E : Failure → Desk → Prop}
    (h : ∀ v, d.world.Did [] v → v.tree = d.world.tree →
      Q (Message.texts (.assistant [b])) { d with world := v }) :
    (hearBlock b).Ends d Q E := by
  cases b with
  | text s =>
    rw [hearBlock, ends_bind]
    exact emit_ends fun v hv htree => h v hv htree
  | tool name =>
    rw [hearBlock, ends_bind]
    refine note_ends fun v hv htree => ?_
    rw [ends_bind]
    exact emit_ends fun u hu hsame => h u (hv.trans hu) (hsame.trans htree)
  | thinking s => exact h d.world (.refl _) rfl

lemma hearBlocks_ends {bs : List Block} {Q : List String → Desk → Prop}
    {E : Failure → Desk → Prop}
    (h : ∀ v, d.world.Did [] v → v.tree = d.world.tree →
      Q (Message.texts (.assistant bs)) { d with world := v }) :
    (hearBlocks bs).Ends d Q E := by
  induction bs generalizing d Q with
  | nil => exact h d.world (.refl _) rfl
  | cons b bs ih =>
    rw [hearBlocks, ends_bind]
    refine hearBlock_ends fun v hv htree => ?_
    rw [ends_bind]
    refine ih fun u hu hsame => ?_
    have hboth := h u (hv.trans hu) (hsame.trans htree)
    simpa [Message.texts] using hboth

lemma hearMessage_ends {m : Message} {Q : List String → Desk → Prop} {E : Failure → Desk → Prop}
    (hQ : ∀ v, m.failure? = none → d.world.Did [] v → v.tree = d.world.tree →
      Q m.texts { d with world := v })
    (hE : ∀ f, m.failure? = some f → E f d) : (hearMessage m).Ends d Q E := by
  cases m with
  | assistant blocks => exact hearBlocks_ends fun v hv htree => hQ v rfl hv htree
  | result isError kind text cost =>
    simp only [hearMessage]
    rw [ends_ite]
    refine ⟨fun he => hE _ (by simp [Message.failure?, he]), fun he => ?_⟩
    cases cost with
    | none => exact hQ d.world (by simp [Message.failure?, he]) (.refl _) rfl
    | some cost =>
      simp only
      rw [ends_ite]
      refine ⟨fun hc => hE _ (by simp [Message.failure?, he, hc]), fun hc => ?_⟩
      rw [ends_bind]
      exact note_ends fun v hv htree => hQ v (by simp [Message.failure?, he, hc]) hv htree
  | other => exact hQ d.world rfl (.refl _) rfl

/-- The messages of a turn are heard up to the first one that is not harmless. -/
lemma hearMessages_ends {ms : List Message} {Q : List String → Desk → Prop}
    {E : Failure → Desk → Prop}
    (hQ : ∀ v, ms.findSome? Message.failure? = none → d.world.Did [] v →
      v.tree = d.world.tree → Q (ms.flatMap Message.texts) { d with world := v })
    (hE : ∀ f v, ms.findSome? Message.failure? = some f → d.world.Did [] v →
      E f { d with world := v }) :
    (hearMessages ms).Ends d Q E := by
  induction ms generalizing d Q with
  | nil => exact hQ d.world rfl (.refl _) rfl
  | cons m ms ih =>
    rw [hearMessages, ends_bind]
    refine hearMessage_ends (fun v hm hv htree => ?_) fun f hm =>
      hE f d.world (by simp [hm]) (.refl _)
    rw [ends_bind]
    refine ih (fun u hms hu hsame => ?_) fun f u hms hu => hE f u (by simp [hm, hms]) (hv.trans hu)
    exact hQ u (by simpa [hm] using hms) (hv.trans hu) (hsame.trans htree)

lemma raiseInTurn_ends {α : Type} {m : Mishap} {Q : α → Desk → Prop} {E : Failure → Desk → Prop} :
    (raiseInTurn m : SessionAction α).Ends d Q E ↔ E m.inTurn d := by
  rw [raiseInTurn, Mishap.inTurn]
  split <;> rfl

lemma endTurn_ends {e : TurnEnd} {Q : Unit → Desk → Prop} {E : Failure → Desk → Prop}
    (hQ : ∀ v, e.failure? d.session.profile.limit = none → d.world.Did [] v →
      v.tree = d.world.tree.leave e.leavings → Q () { d with world := v })
    (hE : ∀ f v, e.failure? d.session.profile.limit = some f → d.world.Did [] v →
      E f { d with world := v }) :
    (endTurn e).Ends d Q E := by
  cases e with
  | ends leavings failure =>
    simp only [endTurn]
    rw [ends_bind, inWorld_ends, ends_of_apply_ok (Action.leave_apply _ _)]
    cases failure with
    | none => exact hQ _ rfl (.of_tree _ _) rfl
    | some m => exact raiseInTurn_ends.mpr (hE _ _ rfl (.of_tree _ _))
  | hangs =>
    simp only [endTurn]
    rw [ends_bind, current_ends]
    split
    · rename_i limit hl
      exact hE _ d.world (by simp [TurnEnd.failure?, overdue, hl]) (.refl _)
    · rename_i hl
      exact hE _ d.world (by simp [TurnEnd.failure?, overdue, hl]) (.refl _)
  | cancelled => exact hE _ d.world rfl (.refl _)

lemma nextTurn_apply (d : Desk) :
    nextTurn d = (.ok d.session.turn, { d with session := d.session.afterTurn }) := by
  obtain ⟨w, ⟨_, _, _, _, _, _, _, client⟩⟩ := d
  cases client <;> rfl

/-- A prompt is sent to the attached client, which takes its next turn. -/
lemma takeTurn_ends {prompt : String} {Q : String → Desk → Prop} {E : Failure → Desk → Prop}
    (hQ : ∀ v, d.session.turn.failure? d.session.profile.limit = none →
      d.world.Did [.query prompt] v →
      v.tree = d.world.tree.leave d.session.turn.ending.leavings →
      Q d.session.turn.answer ⟨v, d.session.afterTurn⟩)
    (hE : ∀ f v, d.session.turn.failure? d.session.profile.limit = some f →
      d.world.Did [.query prompt] v → E f ⟨v, d.session.afterTurn⟩) :
    (takeTurn prompt).Ends d Q E := by
  have hasked : d.world.Did [.query prompt]
      { d.world with past := .query prompt :: d.world.past } := .of_deed _ rfl rfl rfl _
  rw [takeTurn, ends_bind, ends_of_apply_ok (nextTurn_apply _), ends_bind, inWorld_ends,
    ends_of_apply_ok (Action.record_apply _ _)]
  generalize d.session.turn = turn at *
  simp only
  cases hm : turn.refusal with
  | some m =>
    simp only
    rw [ends_bind]
    exact raiseInTurn_ends.mpr (hE _ _ (by simp [Turn.failure?, hm]) hasked)
  | none =>
    simp only
    rw [ends_bind]
    refine hearMessages_ends (fun v hms hv htree => ?_) fun f v hms hv =>
      hE f v (by simp [Turn.failure?, hm, hms]) (by simpa using hasked.trans hv)
    rw [ends_bind]
    refine endTurn_ends (fun u he hu hleft => ?_) fun f u he hu =>
      hE f u (by simp only [Turn.failure?, hm, hms]; exact he)
        (by simpa using (hasked.trans hv).trans hu)
    exact hQ u (by simp only [Turn.failure?, hm, hms]; exact he)
      (by simpa using (hasked.trans hv).trans hu) (by rw [hleft, htree])

/-- A prompt is sent at most once, and only by a session that is ready and has the time for it. -/
theorem send_ends {prompt : String} {Q : String → Desk → Prop} {E : Failure → Desk → Prop}
    (hstate : d.session.state ≠ .initialized → E (.fault (.notInitialized d.session.state)) d)
    (hlimit : ∀ f, noTime? d.session.profile.limit = some f → E f d)
    (hQ : ∀ v, noTime? d.session.profile.limit = none →
      d.session.turn.failure? d.session.profile.limit = none →
      d.world.Did [.query prompt] v →
      v.tree = d.world.tree.leave d.session.turn.ending.leavings →
      Q d.session.turn.answer ⟨v, d.session.afterTurn⟩)
    (hE : ∀ f v, noTime? d.session.profile.limit = none →
      d.session.turn.failure? d.session.profile.limit = some f →
      d.world.Did [.query prompt] v → E f ⟨v, d.session.afterTurn⟩) :
    (send prompt).Ends d Q E := by
  simp only [send, checkReady]
  rw [ends_bind, ends_bind, current_ends, ends_ite]
  refine ⟨fun h => hstate (by simpa using h), fun _ => ?_⟩
  rw [ends_pure, ends_bind, current_ends]
  split
  · rename_i limit hl
    rw [ends_ite, ends_ite]
    refine ⟨fun hn => ?_, fun hn => ⟨fun ht => ?_, fun ht => ?_⟩⟩
    · exact hlimit _ (by simp [noTime?, overdue, hl, hn])
    · exact hlimit _ (by simp [noTime?, hl, hn, ht])
    · have htime : noTime? d.session.profile.limit = none := by simp [noTime?, hl, hn, ht]
      exact takeTurn_ends (fun v => hQ v htime) fun f v => hE f v htime
  · rename_i hl
    have htime : noTime? d.session.profile.limit = none := by simp [noTime?, hl]
    exact takeTurn_ends (fun v => hQ v htime) fun f v => hE f v htime

/-- A session is ready while it is initialized. -/
lemma checkReady_apply (d : Desk) :
    checkReady d =
      (if d.session.state = .initialized then .ok ()
        else .error (.fault (.notInitialized d.session.state)), d) := by
  obtain ⟨w, ⟨_, _, _, _, _, _, state, _⟩⟩ := d
  cases state <;> rfl

/-- A session that is not ready refuses every prompt. -/
lemma send_of_not_ready (h : d.session.state ≠ .initialized) (prompt : String) :
    send prompt d = (.error (.fault (.notInitialized d.session.state)), d) := by
  rw [send, bind_apply, checkReady_apply, if_neg h]

/-- The request for a fix is sent like any prompt: whether the session is ready is asked twice. -/
lemma askForFix_eq (errors : List Diagnostic) (output : String) :
    askForFix errors output = send (Prompt.fixRequest errors output) := by
  funext d
  by_cases h : d.session.state = .initialized
  · have hready : checkReady d = (.ok (), d) := by rw [checkReady_apply, if_pos h]
    rw [askForFix, bind_of_ok hready]
  · rw [send_of_not_ready h, askForFix, bind_apply, checkReady_apply, if_neg h]

/-- The request for a fix is a prompt. -/
theorem askForFix_ends {errors : List Diagnostic} {output : String} {Q : String → Desk → Prop}
    {E : Failure → Desk → Prop}
    (hstate : d.session.state ≠ .initialized → E (.fault (.notInitialized d.session.state)) d)
    (hlimit : ∀ f, noTime? d.session.profile.limit = some f → E f d)
    (hQ : ∀ prompt v, noTime? d.session.profile.limit = none →
      d.session.turn.failure? d.session.profile.limit = none →
      d.world.Did [.query prompt] v →
      v.tree = d.world.tree.leave d.session.turn.ending.leavings →
      Q d.session.turn.answer ⟨v, d.session.afterTurn⟩)
    (hE : ∀ f prompt v, noTime? d.session.profile.limit = none →
      d.session.turn.failure? d.session.profile.limit = some f →
      d.world.Did [.query prompt] v → E f ⟨v, d.session.afterTurn⟩) :
    (askForFix errors output).Ends d Q E := by
  simp only [askForFix, checkReady]
  rw [ends_bind, ends_bind, current_ends, ends_ite]
  refine ⟨fun h => hstate (by simpa using h), fun _ => ?_⟩
  exact send_ends hstate hlimit (fun v => hQ _ v) fun f v => hE f _ v

/-! ### The end of a session -/

/-- The attached client is disconnected once and detached. -/
lemma stop_ends {Q : Unit → Desk → Prop} {E : Failure → Desk → Prop}
    (hnone : d.session.client = none → Q () { d with session := { d.session with client := none } })
    (hQ : ∀ c v, d.session.client = some c → c.leaves = true → d.world.Did [.disconnect] v →
      v.tree = d.world.tree → Q () ⟨v, { d.session with client := none }⟩)
    (hE : ∀ f c v, d.session.client = some c → c.leaves = false → f ≠ .stalled →
      d.world.Did [.disconnect] v → E f ⟨v, { d.session with client := none }⟩) :
    stop.Ends d Q E := by
  have hleft : d.world.Did [.disconnect] { d.world with past := .disconnect :: d.world.past } :=
    .of_deed _ rfl rfl rfl _
  rw [stop, ends_bind, current_ends, ends_bind, change_ends]
  cases hc : d.session.client with
  | none => exact hnone hc
  | some c =>
    simp only
    rw [ends_bind, inWorld_ends, ends_of_apply_ok (Action.record_apply _ _)]
    cases hm : c.disconnectFailure with
    | none => exact hQ c _ hc (by simp [ClientScript.leaves, hm]) hleft rfl
    | some m =>
      simp only
      rw [ends_ite]
      refine ⟨fun h => ?_, fun h => ?_⟩
      · exact note_ends fun v hv htree =>
          hQ c v hc (by simp [ClientScript.leaves, hm, h]) (by simpa using hleft.trans hv) htree
      · exact hE _ c _ hc (by simp [ClientScript.leaves, hm, h]) (by simp) hleft

/-- The end of a session disconnects the attached client once; a second end does nothing. -/
theorem dispose_ends {Q : Unit → Desk → Prop} {E : Failure → Desk → Prop}
    (hdone : d.session.state = .disposed → Q () d)
    (hnone : ∀ v, d.session.state ≠ .disposed → d.session.client = none → d.world.Did [] v →
      v.tree = d.world.tree → Q () ⟨v, d.session.closed⟩)
    (hQ : ∀ c v, d.session.state ≠ .disposed → d.session.client = some c → c.leaves = true →
      d.world.Did [.disconnect] v → v.tree = d.world.tree → Q () ⟨v, d.session.closed⟩)
    (hE : ∀ f c v, d.session.state ≠ .disposed → d.session.client = some c → c.leaves = false →
      f ≠ .stalled → d.world.Did [.disconnect] v → E f ⟨v, d.session.closed⟩) :
    dispose.Ends d Q E := by
  rw [dispose, ends_bind, current_ends, ends_ite]
  refine ⟨fun h => ?_, fun h => hdone (by simpa using h)⟩
  have hs : d.session.state ≠ .disposed := by simpa using h
  rw [ends_bind, change_ends, ends_bind]
  refine stop_ends (fun hc => ?_) (fun c v hc hl hv htree => ?_) fun f c v hc hl hf hv =>
    hE f c v hs hc hl hf hv
  · exact note_ends fun v hv htree => hnone v hs hc hv htree
  · exact note_ends fun u hu hsame =>
      hQ c u hs hc hl (by simpa using hv.trans hu) (hsame.trans htree)

end Session

end BuildMend
