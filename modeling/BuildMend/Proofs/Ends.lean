import BuildMend.World.Basic
import Mathlib

/-!
What an act ends in.

* `Act.Ends`: from a state an act ends in a value as `Q` says, or in a failure as `E` says.
* `Act.ends_bind`: two acts in a row; a failure of the first one ends both.
* `Act.Ends.mono`: an act that ends in more is known to end in less.
* `Act.ends_closing`: a closing act runs after every end but the one that never comes.
-/

namespace BuildMend.Act

variable {σ τ α β : Type}

lemma get_apply (s : σ) : (get : Act σ σ) s = (.ok s, s) := rfl

lemma bind_of_ok {a : Act σ β} {f : β → Act σ α} {s t : σ} {x : β} (h : a s = (.ok x, t)) :
    (a >>= f) s = f x t := by
  rw [bind_apply, h]

/-! ### Ends -/

/-- From a state an act ends in a value and a state as `Q` says, or in a failure and a state as
`E` says. -/
def Ends (a : Act σ α) (s : σ) (Q : α → σ → Prop) (E : Failure → σ → Prop) : Prop :=
  match a s with
  | (.ok x, t) => Q x t
  | (.error f, t) => E f t

section Rules

variable {Q : α → σ → Prop} {E : Failure → σ → Prop} {s : σ}

lemma Ends.mono {a : Act σ α} {Q' : α → σ → Prop} {E' : Failure → σ → Prop}
    (h : a.Ends s Q E) (hQ : ∀ x t, Q x t → Q' x t) (hE : ∀ f t, E f t → E' f t) :
    a.Ends s Q' E' := by
  rw [Ends] at h ⊢
  split at h
  · exact hQ _ _ h
  · exact hE _ _ h

/-- An act that cannot fail ends in a value. -/
lemma Ends.exists_ok {a : Act σ α} (h : a.Ends s Q fun _ _ => False) :
    ∃ x t, a s = (.ok x, t) ∧ Q x t := by
  rw [Ends] at h
  split at h
  · exact ⟨_, _, by assumption, h⟩
  · exact h.elim

/-- What holds of the state of either end. -/
lemma Ends.state {a : Act σ α} {P : σ → Prop} (h : a.Ends s (fun _ => P) fun _ => P) :
    P (a s).2 := by
  rw [Ends] at h
  split at h <;> simp [*]

/-- What is known of the state in which an act ends holds of either end. -/
lemma ends_of_state {a : Act σ α} {P : σ → Prop} (h : P (a s).2) :
    a.Ends s (fun _ => P) fun _ => P := by
  rw [Ends]
  split <;> simp_all

/-- What two times is known of the ends of an act. -/
lemma Ends.and {a : Act σ α} {Q' : α → σ → Prop} {E' : Failure → σ → Prop} (h : a.Ends s Q E)
    (h' : a.Ends s Q' E') : a.Ends s (fun x t => Q x t ∧ Q' x t) fun f t => E f t ∧ E' f t := by
  rw [Ends] at h h' ⊢
  split at h <;> simp_all

lemma ends_of_apply_ok {a : Act σ α} {x : α} {t : σ} (ha : a s = (.ok x, t)) :
    a.Ends s Q E ↔ Q x t := by
  rw [Ends, ha]

/-- Any act, by what it does. -/
lemma ends_iff {a : Act σ α} :
    a.Ends s Q E ↔ (∀ x t, a s = (.ok x, t) → Q x t) ∧ ∀ f t, a s = (.error f, t) → E f t := by
  rw [Ends]
  obtain ⟨r, t⟩ := a s
  constructor
  · intro h
    refine ⟨?_, ?_⟩ <;> rintro _ _ ⟨⟩ <;> exact h
  · intro h
    cases r with
    | ok x => exact h.1 x t rfl
    | error f => exact h.2 f t rfl

@[simp] lemma ends_pure {x : α} : (pure x : Act σ α).Ends s Q E ↔ Q x s := Iff.rfl

@[simp] lemma ends_throw {f : Failure} : (throw f : Act σ α).Ends s Q E ↔ E f s := Iff.rfl

@[simp] lemma ends_fail {f : Failure} : (fail f : Act σ α).Ends s Q E ↔ E f s := Iff.rfl

@[simp] lemma ends_fault {f : Fault} : (fault f : Act σ α).Ends s Q E ↔ E (.fault f) s := Iff.rfl

/-- Two acts in a row. -/
lemma ends_bind {a : Act σ β} {f : β → Act σ α} :
    (a >>= f).Ends s Q E ↔ a.Ends s (fun x t => (f x).Ends t Q E) E := by
  rw [Ends, bind_apply, Ends]
  obtain ⟨r, t⟩ := a s
  cases r <;> rfl

lemma ends_ite {c : Prop} [Decidable c] {a b : Act σ α} :
    (if c then a else b).Ends s Q E ↔ (c → a.Ends s Q E) ∧ (¬c → b.Ends s Q E) := by
  split <;> simp [*]

@[simp] lemma ends_get {Q : σ → σ → Prop} : (get : Act σ σ).Ends s Q E ↔ Q s s := Iff.rfl

@[simp] lemma ends_set {t : σ} {Q : PUnit → σ → Prop} :
    (set t : Act σ PUnit).Ends s Q E ↔ Q ⟨⟩ t := Iff.rfl

@[simp] lemma ends_modify {f : σ → σ} {Q : PUnit → σ → Prop} :
    (modify f : Act σ PUnit).Ends s Q E ↔ Q ⟨⟩ (f s) := Iff.rfl

/-- An act on a part of a state. -/
lemma ends_zoom {part : σ → τ} {withPart : σ → τ → σ} {a : Act τ α} :
    (a.zoom part withPart).Ends s Q E ↔
      a.Ends (part s) (fun x t => Q x (withPart s t)) fun f t => E f (withPart s t) := by
  rw [Ends, zoom_apply, Ends]
  obtain ⟨r, t⟩ := a (part s)
  cases r <;> rfl

/-- An act whose failure is a value ends in that value. -/
lemma ends_attempt {a : Act σ α} {Q : Except Failure α → σ → Prop} :
    a.attempt.Ends s Q E ↔ a.Ends s (fun x t => Q (.ok x) t) fun f t => Q (.error f) t := by
  rw [Ends, attempt_apply, Ends]
  obtain ⟨r, t⟩ := a s
  cases r <;> rfl

/-- An act and a closing act: the closing act runs unless the first one waits for ever, and its own
failure hides one of the first. -/
lemma ends_closing {body : Act σ α} {close : Act σ Unit} :
    (closing body close).Ends s Q E ↔
      body.Ends s (fun x t => close.Ends t (fun _ u => Q x u) E)
        fun f t => (f = .stalled → E f t) ∧ (f ≠ .stalled → close.Ends t (fun _ u => E f u) E) := by
  rw [closing, ends_bind, ends_attempt]
  constructor <;> intro h <;> refine h.mono ?_ ?_
  · intro x t hx
    rwa [ends_bind] at hx
  · intro f t hf
    cases f <;> simpa [ends_bind] using hf
  · intro x t hx
    rw [ends_bind]
    exact hx
  · intro f t hf
    cases f <;> simpa [ends_bind] using hf

end Rules

end BuildMend.Act
