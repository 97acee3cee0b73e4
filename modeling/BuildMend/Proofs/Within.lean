import BuildMend.Proofs.Ends

/-!
Acts that stay within a relation.

* `Act.Within`: wherever an act starts, it leads only to states that a relation allows.
* `Act.Within.bind`, `Act.closing_within`: acts in a row stay within a relation that goes on over both.
-/

namespace BuildMend.Act

variable {σ τ α β : Type}

/-- Wherever an act starts, it leads only to states that a relation allows, also when it fails. -/
def Within (R : σ → σ → Prop) (a : Act σ α) : Prop := ∀ s, R s (a s).2

variable {R : σ → σ → Prop} [IsPreorder σ R]

lemma within_pure (x : α) : (pure x : Act σ α).Within R := fun s => refl_of R s

lemma within_fail (f : Failure) : (fail f : Act σ α).Within R := fun s => refl_of R s

lemma within_throw (f : Failure) : (throw f : Act σ α).Within R := fun s => refl_of R s

lemma within_get : (get : Act σ σ).Within R := fun s => refl_of R s

lemma within_ofExcept (r : Except Failure α) : (ofExcept r : Act σ α).Within R :=
  fun s => refl_of R s

lemma Within.bind {a : Act σ α} {f : α → Act σ β} (ha : a.Within R) (hf : ∀ x, (f x).Within R) :
    (a >>= f).Within R := by
  intro s
  have hs := ha s
  rw [bind_apply]
  cases h : a s with
  | mk r t =>
    rw [h] at hs
    cases r with
    | error e => exact hs
    | ok x => exact trans_of R hs (hf x t)

omit [IsPreorder σ R] in
lemma Within.attempt {a : Act σ α} (ha : a.Within R) : a.attempt.Within R := ha

omit [IsPreorder σ R] in
lemma within_ite {c : Prop} [Decidable c] {a b : Act σ α} (ha : a.Within R) (hb : b.Within R) :
    (if c then a else b).Within R := by
  split
  · exact ha
  · exact hb

/-- An act and a closing act stay within a relation, if the first one does where it starts. -/
lemma closing_within {body : Act σ α} {close : Act σ Unit} {s : σ} (hbody : R s (body s).2)
    (hclose : close.Within R) : R s (closing body close s).2 := by
  have hthen {β : Type} {f : Unit → Act σ β} (hf : ∀ x, (f x).Within R) :
      R s ((close >>= f) (body s).2).2 :=
    trans_of R hbody (hclose.bind hf (body s).2)
  rw [closing, bind_apply, attempt_apply]
  cases (body s).1 with
  | ok x => exact hthen fun _ => within_pure x
  | error f => cases f <;> first | exact hbody | exact hthen fun _ => within_throw _

end BuildMend.Act
