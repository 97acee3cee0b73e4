import BuildMend.Proofs.BuildTool

/-!
The processes behind the deeds of a run.

* `World.KillsLeftovers`: a started process that does not end by itself is killed once, before
  anything else is done, and nothing else is killed.
* `World.BuildDeeds`: deeds that are operations of the build tool, the first of some operations.
* `World.scriptsOf`: the scripts of the processes that some deeds start for an operation.
-/

namespace BuildMend

open Number

namespace World

variable {limit : Option Amount} {w v : World} {es fs : List Event}

/-! ### Leftovers -/

/-- In some deeds every started process that does not end by itself is killed: once, and before
anything else is done.  No other process is killed. -/
structure KillsLeftovers (limit : Option Amount) (w : World) (es : List Event) : Prop where
  first : Event.kill ∉ es.takeWhile fun e => !e.isStart
  each : ∀ before e after, es = before ++ e :: after → e.isStart = true →
    ∃ rest, after = (w.process (startedModes before).length).remains limit ++ rest ∧
      Event.kill ∉ rest.takeWhile fun e => !e.isStart

lemma mem_takeWhile_append {α : Type} {p : α → Bool} {x : α} {a b : List α}
    (h : x ∈ (a ++ b).takeWhile p) : x ∈ a.takeWhile p ∨ x ∈ b.takeWhile p := by
  rw [List.takeWhile_append] at h
  split at h
  · rename_i hlen
    have ha : a.takeWhile p = a := (List.takeWhile_sublist p).eq_of_length hlen
    rw [ha]
    exact List.mem_append.mp h
  · exact Or.inl h

namespace KillsLeftovers

/-- Deeds without processes. -/
lemma of_forall (h : ∀ e ∈ es, e.isStart = false ∧ e ≠ .kill) : w.KillsLeftovers limit es where
  first hk := (h _ ((List.takeWhile_sublist _).mem hk)).2 rfl
  each before e after hes he := by
    have hm : e ∈ es := by simp [hes]
    rw [(h e hm).1] at he
    cases he

/-- Only what the processes will do matters. -/
lemma congr (h : w.KillsLeftovers limit es) (hp : ∀ i, v.process i = w.process i) :
    v.KillsLeftovers limit es where
  first := h.first
  each before e after hes he := by
    rw [hp]
    exact h.each before e after hes he

/-- The start of a process, and what is done about it. -/
lemma start {e : Event} (he : e.isStart = true) :
    w.KillsLeftovers limit (e :: (w.process 0).remains limit) where
  first := by simp [he]
  each before f after hes hf := by
    cases before with
    | nil =>
      obtain ⟨rfl, rfl⟩ := List.cons.inj hes
      exact ⟨[], by simp, by simp⟩
    | cons g before =>
      have hmem : f ∈ (w.process 0).remains limit := by
        rw [(List.cons.inj hes).2]
        simp
      rw [ProcessScript.eq_kill_of_mem_remains hmem] at hf
      cases hf

/-- Leftovers are killed in deeds and in those after them. -/
lemma append (h : w.KillsLeftovers limit es)
    (hp : ∀ i, v.process i = w.process ((startedModes es).length + i))
    (h' : v.KillsLeftovers limit fs) : w.KillsLeftovers limit (es ++ fs) where
  first hk := (mem_takeWhile_append hk).elim h.first h'.first
  each before e after hes he := by
    have later (a : List Event) (hb : before = es ++ a) (hfs : fs = a ++ e :: after) :
        ∃ rest, after = (w.process (startedModes before).length).remains limit ++ rest ∧
          Event.kill ∉ rest.takeWhile fun e => !e.isStart := by
      obtain ⟨rest, hrest, hk⟩ := h'.each a e after hfs he
      rw [hp] at hrest
      exact ⟨rest, by rw [hb, startedModes_append, List.length_append]; exact hrest, hk⟩
    rcases List.append_eq_append_iff.mp hes with ⟨a, hb, hfs⟩ | ⟨c, hes', hc⟩
    · exact later a hb hfs
    · cases c with
      | nil => exact later [] (by simpa using hes'.symm) hc.symm
      | cons g c =>
        obtain ⟨rfl, rfl⟩ := List.cons.inj hc
        obtain ⟨rest, rfl, hk⟩ := h.each before _ c hes' he
        exact ⟨rest ++ fs, by simp, fun hm => (mem_takeWhile_append hm).elim hk h'.first⟩

end KillsLeftovers

/-! ### Operations -/

/-- Deeds that are operations of the build tool, the first of some operations, with what is done about
their processes. -/
structure BuildDeeds (limit : Option Amount) (w : World) (modes : List BuildMode)
    (es : List Event) : Prop where
  only : ∀ e ∈ es, e.isStart = true ∨ e = .kill
  modes : startedModes es <+: modes
  kills : w.KillsLeftovers limit es

namespace BuildDeeds

lemma nil {modes : List BuildMode} : w.BuildDeeds limit modes [] where
  only := by simp
  modes := List.nil_prefix
  kills := .of_forall (by simp)

lemma start {mode : BuildMode} {e : Event} (he : e.mode? = some mode) :
    w.BuildDeeds limit [mode] (e :: (w.process 0).remains limit) where
  only f hf := by
    rcases List.mem_cons.mp hf with rfl | hf
    · exact Or.inl (by simp [Event.isStart, he])
    · exact Or.inr (ProcessScript.eq_kill_of_mem_remains hf)
  modes := by simp [startedModes_cons_of_some he]
  kills := .start (by simp [Event.isStart, he])

lemma mono {modes modes' : List BuildMode} (h : w.BuildDeeds limit modes es)
    (hm : modes <+: modes') : w.BuildDeeds limit modes' es :=
  ⟨h.only, h.modes.trans hm, h.kills⟩

lemma congr {modes : List BuildMode} (h : w.BuildDeeds limit modes es)
    (hp : ∀ i, v.process i = w.process i) : v.BuildDeeds limit modes es :=
  ⟨h.only, h.modes, h.kills.congr hp⟩

lemma clients {modes : List BuildMode} (h : w.BuildDeeds limit modes es) :
    es.countP Event.isClient = 0 := by
  rw [List.countP_eq_zero]
  intro e he
  rcases h.only e he with h | rfl
  · cases e <;> simp [Event.isStart, Event.mode?, Event.isClient] at h ⊢
  · simp [Event.isClient]

/-- Operations that are all done, and then some more. -/
lemma append {modes modes' : List BuildMode} (h : w.BuildDeeds limit modes es)
    (hm : startedModes es = modes) (hd : w.Did es v) (h' : v.BuildDeeds limit modes' fs) :
    w.BuildDeeds limit (modes ++ modes') (es ++ fs) where
  only e he := (List.mem_append.mp he).elim (h.only e) (h'.only e)
  modes := by
    rw [startedModes_append, hm]
    exact (List.prefix_append_right_inj _).mpr h'.modes
  kills := h.kills.append hd.process_eq h'.kills

end BuildDeeds

/-! ### Scripts -/

/-- The scripts of the processes that some deeds start for an operation, in order. -/
def scriptsOf (w : World) (mode : BuildMode) (es : List Event) : List ProcessScript :=
  ((startedModes es).zipIdx.filter fun x => x.1 == mode).map fun x => w.process x.2

@[simp] lemma scriptsOf_nil {mode : BuildMode} : w.scriptsOf mode [] = [] := rfl

lemma scriptsOf_eq_nil {mode : BuildMode} (h : mode ∉ startedModes es) :
    w.scriptsOf mode es = [] := by
  rw [scriptsOf, List.map_eq_nil_iff, List.filter_eq_nil_iff]
  intro x hx hmode
  obtain rfl : x.1 = mode := by simpa using hmode
  exact h (List.fst_mem_of_mem_zipIdx hx)

lemma scriptsOf_singleton {mode : BuildMode} (h : startedModes es = [mode]) :
    w.scriptsOf mode es = [w.process 0] := by
  rw [scriptsOf, h]
  simp

lemma scriptsOf_append {mode : BuildMode} (h : w.Did es v) (fs : List Event) :
    w.scriptsOf mode (es ++ fs) = w.scriptsOf mode es ++ v.scriptsOf mode fs := by
  have hshift (l : List BuildMode) (n k : Nat) :
      ((l.zipIdx (n + k)).filter fun x => x.1 == mode).map (fun x => w.process x.2)
        = ((l.zipIdx k).filter fun x => x.1 == mode).map fun x => w.process (n + x.2) := by
    induction l generalizing k with
    | nil => rfl
    | cons m l ih =>
      rw [List.zipIdx_cons, List.zipIdx_cons, List.filter_cons, List.filter_cons]
      split <;> simp [ih, Nat.add_assoc]
  unfold scriptsOf
  rw [startedModes_append, List.zipIdx_append, List.filter_append, List.map_append, Nat.zero_add,
    ← Nat.add_zero (startedModes es).length, hshift]
  simp only [h.process_eq]

/-- Deeds that do not start an operation leave its scripts as they are. -/
lemma scriptsOf_append_of_not_mem {mode : BuildMode} (h : w.Did es v)
    (hno : mode ∉ startedModes fs) : w.scriptsOf mode (es ++ fs) = w.scriptsOf mode es := by
  rw [scriptsOf_append h, scriptsOf_eq_nil hno, List.append_nil]

end World

end BuildMend
