import HerdrBoard.Lib.Outcome

/-!
# Two computations in step

Two stateful computations that return the same values and the same errors, and keep a relation
between their states. -/

namespace Lib

variable {ε σ τ α β : Type}

/-- The same outcome, in related states. -/
inductive SameOutcome (R : σ → τ → Prop) : EStateM.Result ε σ α → EStateM.Result ε τ α → Prop
  | ok (a : α) {s : σ} {t : τ} (h : R s t) : SameOutcome R (.ok a s) (.ok a t)
  | error (e : ε) {s : σ} {t : τ} (h : R s t) : SameOutcome R (.error e s) (.error e t)

theorem SameOutcome.mono {R R' : σ → τ → Prop} (hR : ∀ s t, R s t → R' s t)
    {x : EStateM.Result ε σ α}
    {y : EStateM.Result ε τ α} (h : SameOutcome R x y) : SameOutcome R' x y := by
  cases h with
  | ok a h => exact .ok a (hR _ _ h)
  | error e h => exact .error e (hR _ _ h)

/-- From related states the two computations have the same outcome, in related states. -/
def Paired (R : σ → τ → Prop) (x : EStateM ε σ α) (y : EStateM ε τ α) : Prop :=
  ∀ s t, R s t → SameOutcome R (x s) (y t)

variable {R : σ → τ → Prop} {x : EStateM ε σ α} {y : EStateM ε τ α}

theorem paired_pure (a : α) : Paired R (pure a : EStateM ε σ α) (pure a) := fun _ _ h => .ok a h

theorem paired_throw (e : ε) :
    Paired R (throw e : EStateM ε σ α) (throw e) := fun _ _ h => .error e h

theorem Paired.bind {f : α → EStateM ε σ β} {g : α → EStateM ε τ β} (hxy : Paired R x y)
    (hfg : ∀ a, Paired R (f a) (g a)) : Paired R (x >>= f) (y >>= g) := by
  intro s t hst
  rw [run_bind, run_bind]
  have h := hxy s t hst
  cases hx : x s with
  | ok a s' =>
      rw [hx] at h
      cases hy : y t with
      | ok b t' =>
          rw [hy] at h
          cases h with
          | ok _ h => exact hfg a s' t' h
      | error e t' =>
          rw [hy] at h
          cases h
  | error e s' =>
      rw [hx] at h
      cases hy : y t with
      | ok b t' =>
          rw [hy] at h
          cases h
      | error e' t' =>
          rw [hy] at h
          cases h with
          | error _ h => exact .error e h

/-- What holds of the two starts is known of what runs from them. -/
theorem paired_of_ok {a : α}
    (h : ∀ s t, R s t → ∃ s' t', x s = .ok a s' ∧ y t = .ok a t' ∧ R s' t') : Paired R x y := by
  intro s t hst
  obtain ⟨s', t', hx, hy, hR⟩ := h s t hst
  rw [hx, hy]
  exact .ok a hR

/-- Both return a value, or both fail with one error. -/
theorem Paired.outcomes (h : Paired R x y) {s : σ} {t : τ} (hst : R s t) :
    (∃ a s' t', x s = .ok a s' ∧ y t = .ok a t' ∧ R s' t') ∨ ∃ e s' t', x s = .error e s' ∧
      y t = .error e t' ∧ R s' t' := by
  have hsame := h s t hst
  generalize x s = left at hsame
  generalize y t = right at hsame
  cases hsame with
  | ok a h => exact .inl ⟨a, _, _, rfl, rfl, h⟩
  | error e h => exact .inr ⟨e, _, _, rfl, rfl, h⟩

end Lib
