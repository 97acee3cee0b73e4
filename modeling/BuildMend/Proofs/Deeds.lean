import BuildMend.Proofs.Ends

/-!
The deeds of a run: what it does to its surroundings, as against what it logs and shows.

* `World.deeds`: the events of a world that are no log records and no shown words, in order.
* `startedModes`: the operations of the build tool that some events start.
* `World.process`, `World.client`: what the next processes and clients of a world will do; behind the
  end of the script a process ends with success and a client answers nothing.
* `World.Did`: one world leads to another by some deeds; each started process and each new client
  takes the next place of its script, so deeds add up (`World.Did.trans`).
* `Action.Tells`: an action that only logs or shows something.
-/

namespace BuildMend

open Act

/-! ### Events -/

namespace Event

/-- Whether an event does something, and does not only log or show it. -/
def isDeed : Event → Bool
  | .log .. | .output _ => false
  | _ => true

/-- The operation that an event starts. -/
def mode? : Event → Option BuildMode
  | .start mode _ _ => some mode
  | _ => none

/-- Whether the build tool is started. -/
def isStart (e : Event) : Bool := e.mode?.isSome

/-- Whether a client of the assistant is created. -/
def isClient : Event → Bool
  | .client _ => true
  | _ => false

end Event

/-- The operations that some events start, in order. -/
def startedModes (es : List Event) : List BuildMode := es.filterMap Event.mode?

@[simp] lemma startedModes_nil : startedModes [] = [] := rfl

@[simp] lemma startedModes_append (es fs : List Event) :
    startedModes (es ++ fs) = startedModes es ++ startedModes fs := List.filterMap_append

lemma startedModes_cons_of_some {e : Event} {mode : BuildMode} (h : e.mode? = some mode)
    (es : List Event) : startedModes (e :: es) = mode :: startedModes es :=
  List.filterMap_cons_some h

lemma startedModes_cons_of_none {e : Event} (h : e.mode? = none) (es : List Event) :
    startedModes (e :: es) = startedModes es :=
  List.filterMap_cons_none h

/-! ### Worlds -/

namespace World

/-- The deeds of a world so far, in order. -/
def deeds (w : World) : List Event := w.trace.filter Event.isDeed

/-- What the `i`-th process from now on will do. -/
def process (w : World) (i : Nat) : ProcessScript := w.processes.getD i .quiet

/-- What the `i`-th client from now on will do. -/
def client (w : World) (i : Nat) : ClientScript := w.clients.getD i {}

/-- The world in which some more events have happened, the latest first. -/
def told (w : World) (es : List Event) : World := { w with past := es ++ w.past }

/-- From one world to another some deeds are done, and nothing else of what the surroundings will do
is used up. -/
structure Did (w : World) (es : List Event) (v : World) : Prop where
  processes : v.processes = w.processes.drop (startedModes es).length
  clients : v.clients = w.clients.drop (es.countP Event.isClient)
  deeds : v.deeds = w.deeds ++ es

lemma deeds_told {w : World} {es : List Event} :
    (w.told es).deeds = w.deeds ++ es.reverse.filter Event.isDeed := by
  simp [World.deeds, told, trace]

namespace Did

variable {w v u : World} {es fs : List Event}

lemma refl (w : World) : w.Did [] w := ⟨by simp, by simp, by simp⟩

/-- Deeds add up. -/
lemma trans (h : w.Did es v) (h' : v.Did fs u) : w.Did (es ++ fs) u where
  processes := by rw [h'.processes, h.processes, List.drop_drop, startedModes_append,
    List.length_append]
  clients := by rw [h'.clients, h.clients, List.drop_drop, List.countP_append]
  deeds := by rw [h'.deeds, h.deeds, List.append_assoc]

/-- The script goes on behind the processes that were started. -/
lemma process_eq (h : w.Did es v) (i : Nat) :
    v.process i = w.process ((startedModes es).length + i) := by
  simp [process, h.processes, List.getD_eq_getElem?_getD]

/-- The script goes on behind the clients that were created. -/
lemma client_eq (h : w.Did es v) (i : Nat) :
    v.client i = w.client (es.countP Event.isClient + i) := by
  simp [client, h.clients, List.getD_eq_getElem?_getD]

/-- A change of the files alone is no deed. -/
lemma of_tree (w : World) (t : FileTree) : w.Did [] { w with tree := t } :=
  ⟨by simp, by simp, by simp [World.deeds, trace]⟩

/-- A deed that starts no process and creates no client. -/
lemma of_deed (e : Event) (hd : e.isDeed = true) (hm : e.mode? = none) (hc : e.isClient = false)
    (w : World) : w.Did [e] { w with past := e :: w.past } where
  processes := by simp [startedModes, hm]
  clients := by simp [hc]
  deeds := by simp [World.deeds, trace, hd]

end Did

end World

/-! ### Actions that only tell -/

namespace Action

/-- An action only logs or shows something: it ends in a value and does no deed. -/
def Tells (a : Action Unit) : Prop :=
  ∀ w, ∃ es, a w = (.ok (), w.told es) ∧ ∀ e ∈ es, e.isDeed = false

variable {a b : Action Unit}

lemma Tells.of_record {e : Event} (h : e.isDeed = false) : (record e).Tells :=
  fun _ => ⟨[e], rfl, by simpa using h⟩

lemma Tells.log (level : Level) (source : Source) (text : String) :
    (Action.log level source text).Tells := .of_record rfl

lemma Tells.pure : (pure () : Action Unit).Tells := fun _ => ⟨[], rfl, by simp⟩

lemma Tells.bind (ha : a.Tells) (hb : b.Tells) : (do a; b : Action Unit).Tells := by
  intro w
  obtain ⟨es, hes, hd⟩ := ha w
  obtain ⟨fs, hfs, hd'⟩ := hb (w.told es)
  refine ⟨fs ++ es, ?_, fun e he => ?_⟩
  · rw [bind_apply, hes]
    show b (w.told es) = _
    rw [hfs]
    simp [World.told]
  · rcases List.mem_append.mp he with he | he
    · exact hd' e he
    · exact hd e he

/-- After an action that only tells a run goes on as if nothing had been done. -/
lemma Tells.ends (h : a.Tells) {w : World} {Q : Unit → World → Prop} {E : Failure → World → Prop}
    (hQ : ∀ v, w.Did [] v → v.tree = w.tree → Q () v) : a.Ends w Q E := by
  obtain ⟨es, hes, hd⟩ := h w
  rw [ends_of_apply_ok hes]
  have hnil : es.reverse.filter Event.isDeed = [] := by
    simpa [List.filter_eq_nil_iff] using fun e he => hd e he
  exact hQ _ ⟨by simp [World.told], by simp [World.told], by rw [World.deeds_told, hnil]⟩ rfl

end Action

end BuildMend
