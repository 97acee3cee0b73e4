import BuildMend.Proofs.FixRun.Attempt

/-!
What a run asks of its surroundings, and the answers that cut it short.

* `Question`: a process is started, a client is connected, or a prompt is sent.
* `Cue`: a question with the answer to it.
* `Supply`: the answers that the surroundings still have, each given once.
* `World.cues`: the answers that a world has for the questions among some deeds.
* `Mender.failure?`: the failure that an answer is for a run, if it is one.
* `Mender.StructuralFault`: the answers that are structural failures, with the faults that tell of them;
  `Mender.failure?_eq_fault_iff`: no other answer is a fault.
-/

namespace BuildMend

open Number

/-! ### Questions and answers -/

/-- What a run asks of its surroundings. -/
inductive Question where
  /-- How does a process for an operation go? -/
  | process (mode : BuildMode)
  /-- What does a new client raise when it is connected? -/
  | connect
  /-- How does the assistant answer a prompt? -/
  | turn
  deriving DecidableEq

/-- The kind of answer that a question has. -/
abbrev Question.Answer : Question → Type
  | .process _ => ProcessScript
  | .connect => Option Mishap
  | .turn => Turn

/-- A question with the answer to it. -/
structure Cue where
  question : Question
  answer : question.Answer

namespace Cue

/-- What an answer that is no failure leaves behind in the files. -/
def leavings : Cue → Leavings
  | ⟨.process _, p⟩ => ProcessScript.leavings p
  | ⟨.connect, _⟩ => {}
  | ⟨.turn, t⟩ => (Turn.ending t).leavings

end Cue

/-- The question that a deed asks. -/
def Event.question? : Event → Option Question
  | .start mode _ _ => some (.process mode)
  | .connect => some .connect
  | .query _ => some .turn
  | _ => none

lemma Event.exists_eq_start {e : Event} {mode : BuildMode} (h : e.mode? = some mode) :
    ∃ command directory, e = .start mode command directory := by
  cases e <;> simp_all [Event.mode?]

/-! ### Supplies -/

/-- The answers that the surroundings still have: processes, clients, and the turns of the client that
is connected. -/
structure Supply where
  processes : List ProcessScript
  clients : List ClientScript
  current : ClientScript := {}

namespace Supply

/-- The answer to a question. -/
def answer (s : Supply) : (q : Question) → q.Answer
  | .process _ => s.processes.headD .quiet
  | .connect => (s.clients.headD {}).connectFailure
  | .turn => s.current.turns.headD {}

/-- The answers that are left after a question. -/
def after (s : Supply) : Question → Supply
  | .process _ => { s with processes := s.processes.tail }
  | .connect => { s with clients := s.clients.tail, current := s.clients.headD {} }
  | .turn => { s with current := s.current.afterTurn }

/-- A question with the answer to it. -/
def cue (s : Supply) (q : Question) : Cue := ⟨q, s.answer q⟩

/-- The answers to some questions, asked in their order. -/
def cues (s : Supply) : List Question → List Cue
  | [] => []
  | q :: qs => s.cue q :: (s.after q).cues qs

lemma map_question_cues (s : Supply) (qs : List Question) : (s.cues qs).map Cue.question = qs := by
  induction qs generalizing s with
  | nil => rfl
  | cons q qs ih => exact congrArg (q :: ·) (ih _)

lemma cues_append (s : Supply) (qs rs : List Question) :
    s.cues (qs ++ rs) = s.cues qs ++ (qs.foldl after s).cues rs := by
  induction qs generalizing s with
  | nil => rfl
  | cons q qs ih => exact congrArg (s.cue q :: ·) (ih _)

lemma dropLast_cues (s : Supply) (qs : List Question) :
    (s.cues qs).dropLast = s.cues qs.dropLast := by
  rcases List.eq_nil_or_concat qs with rfl | ⟨qs, q, rfl⟩
  · rfl
  · simp [cues_append, cues]

end Supply

namespace World

/-- The answers that a world has from now on. -/
def supply (w : World) : Supply := ⟨w.processes, w.clients, {}⟩

/-- The answers that a world has for the questions among some deeds. -/
def cues (w : World) (es : List Event) : List Cue := w.supply.cues (es.filterMap Event.question?)

end World

/-! ### Answers that cut a run short -/

namespace Mender

variable {m : Mender}

/-- The failure that an answer is for a run, if it is one. -/
def failure? (m : Mender) : Cue → Option Failure
  | ⟨.process mode, p⟩ =>
    ProcessScript.failure? mode ((m.tool.command? mode).getD []) m.tool.limit p
  | ⟨.connect, r⟩ => Option.map Mishap.onConnect r
  | ⟨.turn, t⟩ => Turn.failure? m.assistant.limit t

/-- The set-up of a run names a program for every operation, and its limits are positive. -/
structure IsWired (m : Mender) : Prop where
  commands : ∀ mode, ∃ program rest, m.tool.command? mode = some (program :: rest)
  buildLimit : ∀ l ∈ m.tool.limit, l.isNonPositive = false
  requestLimit : ∀ l ∈ m.assistant.limit, l.isNonPositive = false

/-- The structural failures of a run among the answers of its surroundings, with the faults that tell of
them.  A limit that is too large cannot be set, so nothing exceeds it. -/
inductive StructuralFault (m : Mender) : Cue → Fault → Prop
  /-- The system refuses to start a process. -/
  | refused {mode reason program rest} (h : m.tool.command? mode = some (program :: rest)) :
      StructuralFault m ⟨.process mode, .refused reason⟩ (.buildToolStart program reason)
  /-- A build is not over within its limit. -/
  | buildTimeout {mode pieces leavings limit} (h : m.tool.limit = some limit)
      (hset : limit.isTooLarge = false) :
      StructuralFault m ⟨.process mode, .runs pieces .hangs leavings⟩ (.buildTimeout mode limit)
  /-- The client of the assistant does not connect. -/
  | unreachable {x} (hx : x.isClient = true) :
      StructuralFault m ⟨.connect, some x⟩ (.assistantUnreachable x)
  /-- The client refuses a prompt. -/
  | queryFailed {t x} (h : t.refusal = some x) (hx : x.isClient = true) :
      StructuralFault m ⟨.turn, t⟩ (.assistantFailed x)
  /-- A turn comes to a message that reports an error. -/
  | reported {t before kind text cost after} (h : t.refusal = none)
      (hms : t.messages = before ++ .result true kind text cost :: after)
      (hbefore : ∀ x ∈ before, x.isHarmless = true) :
      StructuralFault m ⟨.turn, t⟩ (.assistantReported ((firstGiven [text]).getD kind))
  /-- The client fails after the messages of a turn. -/
  | streamFailed {t leavings x} (h : t.refusal = none)
      (hms : ∀ x ∈ t.messages, x.isHarmless = true)
      (hend : t.ending = .ends leavings (some x)) (hx : x.isClient = true) :
      StructuralFault m ⟨.turn, t⟩ (.assistantFailed x)
  /-- A turn is not over within its limit. -/
  | requestTimeout {t limit} (h : t.refusal = none) (hms : ∀ x ∈ t.messages, x.isHarmless = true)
      (hend : t.ending = .hangs) (hlimit : m.assistant.limit = some limit) :
      StructuralFault m ⟨.turn, t⟩ (.assistantTimeout limit)

end Mender

/-! ### Faults -/

lemma Mishap.onConnect_eq_fault_iff {x : Mishap} {f : Fault} :
    x.onConnect = .fault f ↔ x.isClient = true ∧ f = .assistantUnreachable x := by
  rw [Mishap.onConnect]
  split <;> simp [*, eq_comm]

lemma Mishap.inTurn_eq_fault_iff {x : Mishap} {f : Fault} :
    x.inTurn = .fault f ↔ x.isClient = true ∧ f = .assistantFailed x := by
  rw [Mishap.inTurn]
  split <;> simp [*, eq_comm]

lemma overrun_eq_fault_iff {mode : BuildMode} {limit : Option Amount} {f : Fault} :
    overrun mode limit = .fault f ↔ ∃ l, limit = some l ∧ f = .buildTimeout mode l := by
  cases limit <;> simp [overrun, eq_comm]

lemma overdue_eq_fault_iff {limit : Option Amount} {f : Fault} :
    overdue limit = .fault f ↔ ∃ l, limit = some l ∧ f = .assistantTimeout l := by
  cases limit <;> simp [overdue, eq_comm]

/-- The message with which a turn fails is the first one that is not harmless. -/
lemma findSome?_failure?_eq_fault_iff {ms : List Message} {f : Fault} :
    ms.findSome? Message.failure? = some (.fault f) ↔
      ∃ before kind text cost after, ms = before ++ .result true kind text cost :: after ∧
        (∀ x ∈ before, x.isHarmless = true) ∧
        f = .assistantReported ((firstGiven [text]).getD kind) := by
  have hmessage {x : Message} : x.failure? = some (.fault f) ↔
      ∃ kind text cost, x = .result true kind text cost ∧
        f = .assistantReported ((firstGiven [text]).getD kind) := by
    cases x with
    | assistant blocks => simp [Message.failure?]
    | result isError kind text cost =>
      cases isError with
      | true => simpa [Message.failure?] using eq_comm
      | false => cases cost <;> simp [Message.failure?]
    | other => simp [Message.failure?]
  rw [List.findSome?_eq_some_iff]
  constructor
  · rintro ⟨before, x, after, rfl, hx, hbefore⟩
    obtain ⟨kind, text, cost, rfl, hf⟩ := hmessage.mp hx
    exact ⟨before, kind, text, cost, after, rfl,
      fun y hy => Message.failure?_eq_none_iff.mp (hbefore y hy), hf⟩
  · rintro ⟨before, kind, text, cost, after, rfl, hbefore, hf⟩
    exact ⟨before, _, after, rfl, hmessage.mpr ⟨kind, text, cost, rfl, hf⟩,
      fun y hy => Message.failure?_eq_none_iff.mpr (hbefore y hy)⟩

namespace Mender

variable {m : Mender}

lemma process_failure?_eq_fault_iff (hm : m.IsWired) {mode : BuildMode} {p : ProcessScript}
    {f : Fault} :
    m.failure? ⟨.process mode, p⟩ = some (.fault f) ↔ m.StructuralFault ⟨.process mode, p⟩ f := by
  obtain ⟨program, rest, hcommand⟩ := hm.commands mode
  have hpositive : m.tool.limit.any (·.isNonPositive) = false := by
    rw [Option.any_eq_false]
    exact fun l hl => by simp [hm.buildLimit l hl]
  constructor
  · cases p with
    | refused reason =>
      rintro h
      simp only [failure?, hcommand, ProcessScript.failure?, Option.getD_some,
        BuildTool.startFailure, Option.some.injEq, Failure.fault.injEq] at h
      subst h
      exact .refused hcommand
    | raises x => intro h; simp [failure?, ProcessScript.failure?] at h
    | runs pieces ending leavings =>
      intro h
      simp only [failure?, ProcessScript.failure?, hpositive, Bool.false_eq_true, if_false] at h
      split at h
      · simp at h
      · rename_i hset
        cases ending with
        | exits code => simp [ProcessEnd.failure?] at h
        | cancelled => simp [ProcessEnd.failure?] at h
        | hangs =>
          obtain ⟨l, hl, rfl⟩ := overrun_eq_fault_iff.mp (Option.some.inj h)
          exact .buildTimeout hl (by simpa [hl] using hset)
  · rintro (h | ⟨h, hset⟩)
    · simp [failure?, ProcessScript.failure?, h, BuildTool.startFailure]
    · rw [h] at hpositive
      simp only [Option.any_some] at hpositive
      simp [failure?, ProcessScript.failure?, ProcessEnd.failure?, h, hpositive, hset, overrun]

lemma turn_failure?_eq_fault_iff {t : Turn} {f : Fault} :
    m.failure? ⟨.turn, t⟩ = some (.fault f) ↔ m.StructuralFault ⟨.turn, t⟩ f := by
  have hquiet {ms : List Message} (h : ∀ x ∈ ms, x.isHarmless = true) :
      ms.findSome? Message.failure? = none := by
    rw [List.findSome?_eq_none_iff]
    exact fun x hx => Message.failure?_eq_none_iff.mpr (h x hx)
  constructor
  · intro h
    simp only [failure?, Turn.failure?] at h
    cases hr : t.refusal with
    | some x =>
      simp only [hr, Option.map_some, Option.some_or, Option.some.injEq] at h
      obtain ⟨hx, rfl⟩ := Mishap.inTurn_eq_fault_iff.mp h
      exact .queryFailed hr hx
    | none =>
      simp only [hr, Option.map_none, Option.none_or] at h
      cases hms : t.messages.findSome? Message.failure? with
      | some g =>
        simp only [hms, Option.some_or, Option.some.injEq] at h
        obtain ⟨before, kind, text, cost, after, hsplit, hbefore, rfl⟩ :=
          findSome?_failure?_eq_fault_iff.mp (h ▸ hms)
        exact .reported hr hsplit hbefore
      | none =>
        have hall : ∀ x ∈ t.messages, x.isHarmless = true := fun x hx =>
          Message.failure?_eq_none_iff.mp (List.findSome?_eq_none_iff.mp hms x hx)
        simp only [hms, Option.none_or] at h
        cases hend : t.ending with
        | ends leavings x =>
          cases x with
          | none => simp [hend, TurnEnd.failure?] at h
          | some x =>
            simp only [hend, TurnEnd.failure?, Option.map_some, Option.some.injEq] at h
            obtain ⟨hx, rfl⟩ := Mishap.inTurn_eq_fault_iff.mp h
            exact .streamFailed hr hall hend hx
        | hangs =>
          simp only [hend, TurnEnd.failure?, Option.some.injEq] at h
          obtain ⟨l, hl, rfl⟩ := overdue_eq_fault_iff.mp h
          exact .requestTimeout hr hall hend hl
        | cancelled => simp [hend, TurnEnd.failure?] at h
  · intro h
    cases h with
    | queryFailed h hx =>
      simp [failure?, Turn.failure?, h, Mishap.inTurn_eq_fault_iff, hx]
    | reported h hms hbefore =>
      have hfind := findSome?_failure?_eq_fault_iff.mpr ⟨_, _, _, _, _, hms, hbefore, rfl⟩
      simp [failure?, Turn.failure?, h, hfind]
    | streamFailed h hms hend hx =>
      simp [failure?, Turn.failure?, h, hquiet hms, hend, TurnEnd.failure?,
        Mishap.inTurn_eq_fault_iff, hx]
    | requestTimeout h hms hend hlimit =>
      simp [failure?, Turn.failure?, h, hquiet hms, hend, TurnEnd.failure?, overdue, hlimit]

/-- The faults among the answers are the structural failures. -/
theorem failure?_eq_fault_iff (hm : m.IsWired) {c : Cue} {f : Fault} :
    m.failure? c = some (.fault f) ↔ m.StructuralFault c f := by
  obtain ⟨q, a⟩ := c
  cases q with
  | process mode => exact process_failure?_eq_fault_iff hm
  | connect =>
    constructor
    · intro h
      obtain ⟨x, rfl, hx⟩ := Option.map_eq_some_iff.mp (show Option.map _ a = _ from h)
      obtain ⟨hc, rfl⟩ := Mishap.onConnect_eq_fault_iff.mp hx
      exact .unreachable hc
    · rintro ⟨⟩
      rename_i x hx
      exact congrArg some (Mishap.onConnect_eq_fault_iff.mpr ⟨hx, rfl⟩)
  | turn => exact turn_failure?_eq_fault_iff

end Mender

end BuildMend
