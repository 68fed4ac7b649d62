import Mathlib.Tactic.Common

/-!
# Stateful computations that may fail

Inversion rules for `EStateM`, and the three shapes a computation can have with respect to its
state: it only reads (`ReadOnly`), it fails without a trace (`Atomic`), it never fails (`Total`). -/

namespace Lib

variable {ε σ τ α β : Type}

/-- The state a computation ends in, whatever its outcome. -/
def finalState : EStateM.Result ε σ α → σ
  | .ok _ s => s
  | .error _ s => s

@[simp] theorem finalState_ok (a : α) (s : σ) : finalState (.ok a s : EStateM.Result ε σ α) = s :=
  rfl

@[simp] theorem finalState_error (e : ε) (s : σ) :
    finalState (.error e s : EStateM.Result ε σ α) = s := rfl

def succeeded : EStateM.Result ε σ α → Bool
  | .ok _ _ => true
  | .error _ _ => false

theorem ok_of_succeeded {r : EStateM.Result ε σ α} (h : succeeded r = true) :
    ∃ a t, r = .ok a t := by
  cases r with
  | ok a t => exact ⟨a, t, rfl⟩
  | error e t => cases h

/-! ## Running the monad operations -/

theorem run_bind (x : EStateM ε σ α) (f : α → EStateM ε σ β) (s : σ) :
    (x >>= f) s = match x s with | .ok a s => f a s | .error e s => .error e s := rfl

/-- What follows a computation starts from its result and its state. -/
theorem bind_run {x : EStateM ε σ α} {f : α → EStateM ε σ β} {s t : σ} {a : α} (h : x s = .ok a t) :
    (x >>= f) s = f a t := by
  rw [run_bind, h]

/-- Nothing follows a computation that fails. -/
theorem bind_error {x : EStateM ε σ α} {f : α → EStateM ε σ β} {s t : σ} {e : ε}
    (h : x s = .error e t) : (x >>= f) s = .error e t := by
  rw [run_bind, h]

theorem get_bind_run {f : σ → EStateM ε σ β} {s : σ} : (get >>= f) s = f s s := rfl

@[simp] theorem bind_ok {x : EStateM ε σ α} {f : α → EStateM ε σ β} {s t : σ} {b : β} :
    (x >>= f) s = .ok b t ↔ ∃ a u, x s = .ok a u ∧ f a u = .ok b t := by
  rw [run_bind]
  cases x s <;> simp

@[simp] theorem map_ok {x : EStateM ε σ α} {f : α → β} {s t : σ} {b : β} :
    (f <$> x) s = .ok b t ↔ ∃ a, x s = .ok a t ∧ f a = b := by
  change EStateM.map f x s = _ ↔ _
  unfold EStateM.map
  cases x s with
  | ok a u => simp; tauto
  | error e u => simp

@[simp] theorem pure_ok {a b : α} {s t : σ} :
    (pure a : EStateM ε σ α) s = .ok b t ↔ a = b ∧ s = t := by
  change EStateM.Result.ok a s = _ ↔ _
  simp

@[simp] theorem throw_ok {e : ε} {b : α} {s t : σ} :
    (throw e : EStateM ε σ α) s = .ok b t ↔ False := by
  change EStateM.Result.error e s = _ ↔ _
  simp

@[simp] theorem get_ok {s t u : σ} : (get : EStateM ε σ σ) s = .ok u t ↔ s = u ∧ s = t := by
  change EStateM.Result.ok s s = _ ↔ _
  simp

@[simp] theorem set_ok {s t v : σ} {b : PUnit} :
    (set v : EStateM ε σ PUnit) s = .ok b t ↔ v = t := by
  change EStateM.Result.ok _ v = _ ↔ _
  simp

@[simp] theorem modify_ok {f : σ → σ} {s t : σ} {b : PUnit} :
    (modify f : EStateM ε σ PUnit) s = .ok b t ↔ f s = t := by
  change EStateM.Result.ok _ (f s) = _ ↔ _
  simp

@[simp] theorem ite_ok {c : Prop} [Decidable c] {x y : EStateM ε σ α} {s t : σ} {b : α} :
    (if c then x else y) s = .ok b t ↔ (c ∧ x s = .ok b t) ∨ (¬c ∧ y s = .ok b t) := by
  by_cases hc : c <;> simp [hc]

/-! ## Guards, lookups and transactions -/

/-- `if c { return Err(e) }`. -/
def refuse (c : Prop) [Decidable c] (e : ε) : EStateM ε σ Unit := if c then throw e else pure ()

@[simp] theorem refuse_ok {c : Prop} [Decidable c] {e : ε} {s t : σ} {u : Unit} :
    (refuse c e : EStateM ε σ Unit) s = .ok u t ↔ ¬c ∧ s = t := by
  by_cases hc : c <;> simp [refuse, hc]

theorem refuse_bind_error {c : Prop} [Decidable c] {e : ε} {f : Unit → EStateM ε σ α}
    {s : σ} (h : c) : (refuse c e >>= f) s = .error e s := by
  rw [refuse, if_pos h]
  rfl

/-- `o.ok_or_else(|| e)?`. -/
def okOr (o : Option α) (e : ε) : EStateM ε σ α :=
  match o with
  | some a => pure a
  | none => throw e

@[simp] theorem okOr_ok {o : Option α} {e : ε} {s t : σ} {a : α} :
    (okOr o e : EStateM ε σ α) s = .ok a t ↔ o = some a ∧ s = t := by
  cases o <;> simp [okOr]

/-- `result?` on a result that was computed without touching the state. -/
def fromExcept (r : Except ε α) : EStateM ε σ α :=
  match r with
  | .ok a => pure a
  | .error e => throw e

@[simp] theorem fromExcept_ok {r : Except ε α} {s t : σ} {a : α} :
    (fromExcept r : EStateM ε σ α) s = .ok a t ↔ r = .ok a ∧ s = t := by
  cases r <;> simp [fromExcept]

/-- A sequence succeeds when its parts do. -/
theorem except_bind_ok {x : Except ε α} {f : α → Except ε β} {b : β} :
    (x >>= f) = .ok b ↔ ∃ a, x = .ok a ∧ f a = .ok b := by
  change Except.bind x f = _ ↔ _
  cases x <;> simp [Except.bind]

theorem mapError_ok {ε' : Type} {r : Except ε α} {f : ε → ε'} {a : α} :
    r.mapError f = .ok a ↔ r = .ok a := by
  cases r <;> simp [Except.mapError]

theorem fromExcept_bind_ok {r : Except ε α} {f : α → EStateM ε σ β} {a : α} {s : σ}
    (h : r = .ok a) : (fromExcept r >>= f) s = f a s := by
  rw [h]
  rfl

theorem fromExcept_bind_error {r : Except ε α} {f : α → EStateM ε σ β} {e : ε} {s : σ}
    (h : r = .error e) : (fromExcept r >>= f) s = .error e s := by
  rw [h]
  rfl

/-- A check that does not pass reports a fault. -/
theorem error_of_not_ok {r : Except ε Unit} (h : ¬r = .ok ()) : ∃ e, r = .error e := by
  cases r with
  | ok a => exact absurd rfl h
  | error e => exact ⟨e, rfl⟩

/-- Run `body` and forget everything it wrote if it fails. -/
def transaction (body : EStateM ε σ α) : EStateM ε σ α := fun s =>
  match body s with
  | .ok a t => .ok a t
  | .error e _ => .error e s

@[simp] theorem transaction_ok {body : EStateM ε σ α} {s t : σ} {a : α} :
    transaction body s = .ok a t ↔ body s = .ok a t := by
  unfold transaction
  cases body s <;> simp

theorem transaction_error {body : EStateM ε σ α} {s t : σ} {e : ε} (h : body s = .error e t) :
    transaction body s = .error e s := by
  simp [transaction, h]

/-- Run a computation on one component of a larger state. -/
def zoom (get : τ → σ) (put : σ → τ → τ) (x : EStateM ε σ α) : EStateM ε τ α := fun t =>
  match x (get t) with
  | .ok a s => .ok a (put s t)
  | .error e s => .error e (put s t)

@[simp] theorem zoom_ok {get : τ → σ} {put : σ → τ → τ} {x : EStateM ε σ α} {t u : τ} {a : α} :
    zoom get put x t = .ok a u ↔ ∃ s, x (get t) = .ok a s ∧ put s t = u := by
  unfold zoom
  cases x (get t) with
  | ok b s => simp
  | error e s => simp

/-! ## Shapes of computations -/

/-- The state is the same afterwards, whatever the outcome. -/
def ReadOnly (x : EStateM ε σ α) : Prop := ∀ s, finalState (x s) = s

/-- A failure leaves the state as it was. -/
def Atomic (x : EStateM ε σ α) : Prop := ∀ s e t, x s = .error e t → t = s

/-- Never fails. -/
def Total (x : EStateM ε σ α) : Prop := ∀ s, ∃ a t, x s = .ok a t

theorem ReadOnly.ok {x : EStateM ε σ α} (hx : ReadOnly x) {s t a} (h : x s = .ok a t) : t = s := by
  have := hx s
  rwa [h] at this

theorem ReadOnly.atomic {x : EStateM ε σ α} (hx : ReadOnly x) : Atomic x := by
  intro s e t h
  have := hx s
  rwa [h] at this

theorem Total.atomic {x : EStateM ε σ α} (hx : Total x) : Atomic x := by
  intro s e t h
  obtain ⟨a, u, hok⟩ := hx s
  rw [hok] at h
  cases h

theorem readOnly_pure (a : α) : ReadOnly (pure a : EStateM ε σ α) := fun _ => rfl

theorem readOnly_throw (e : ε) : ReadOnly (throw e : EStateM ε σ α) := fun _ => rfl

theorem readOnly_get : ReadOnly (get : EStateM ε σ σ) := fun _ => rfl

theorem readOnly_refuse (c : Prop) [Decidable c] (e : ε) :
    ReadOnly (refuse c e : EStateM ε σ Unit) := by
  unfold refuse
  split
  · exact readOnly_throw e
  · exact readOnly_pure ()

theorem readOnly_okOr (o : Option α) (e : ε) : ReadOnly (okOr o e : EStateM ε σ α) := by
  cases o
  · exact readOnly_throw e
  · exact readOnly_pure _

theorem readOnly_fromExcept (r : Except ε α) : ReadOnly (fromExcept r : EStateM ε σ α) := by
  cases r
  · exact readOnly_throw _
  · exact readOnly_pure _

theorem ReadOnly.bind {x : EStateM ε σ α} {f : α → EStateM ε σ β} (hx : ReadOnly x)
    (hf : ∀ a, ReadOnly (f a)) : ReadOnly (x >>= f) := by
  intro s
  have hs := hx s
  rw [run_bind]
  cases h : x s with
  | ok a t =>
      rw [h] at hs
      cases hs
      exact hf a t
  | error e t =>
      rw [h] at hs
      exact hs

/-- Reads first, then one step that fails without a trace. -/
theorem ReadOnly.bind_atomic {x : EStateM ε σ α} {f : α → EStateM ε σ β} (hx : ReadOnly x)
    (hf : ∀ a, Atomic (f a)) : Atomic (x >>= f) := by
  intro s e u h
  have hs := hx s
  rw [run_bind] at h
  cases hxs : x s with
  | ok a t =>
      rw [hxs] at h hs
      cases hs
      exact hf a _ e u h
  | error e' t =>
      rw [hxs] at h hs
      cases h
      exact hs

/-- After a step that fails without a trace, only steps that succeed where it ended. -/
theorem Atomic.bind_succeeds {x : EStateM ε σ α} {f : α → EStateM ε σ β} (hx : Atomic x)
    (hf : ∀ s a t, x s = .ok a t → ∃ b u, f a t = .ok b u) : Atomic (x >>= f) := by
  intro s e u h
  rw [run_bind] at h
  cases hxs : x s with
  | ok a t =>
      rw [hxs] at h
      obtain ⟨b, v, hb⟩ := hf s a t hxs
      simp only [hb] at h
      cases h
  | error e' t =>
      rw [hxs] at h
      cases h
      exact hx s _ _ hxs

theorem Atomic.bind_total {x : EStateM ε σ α} {f : α → EStateM ε σ β} (hx : Atomic x)
    (hf : ∀ a, Total (f a)) : Atomic (x >>= f) := hx.bind_succeeds fun _ a t _ => hf a t

/-- A failure from `s` leaves the state as it was. -/
def AtomicAt (x : EStateM ε σ α) (s : σ) : Prop := ∀ e t, x s = .error e t → t = s

theorem Atomic.atomicAt {x : EStateM ε σ α} (hx : Atomic x) (s : σ) : AtomicAt x s := hx s

theorem ReadOnly.bind_atomicAt {x : EStateM ε σ α} {f : α → EStateM ε σ β} {s : σ} (hx : ReadOnly x)
    (hf : ∀ a, x s = .ok a s → AtomicAt (f a) s) : AtomicAt (x >>= f) s := by
  intro e u h
  rw [run_bind] at h
  cases hxs : x s with
  | ok a t =>
      cases hx.ok hxs
      rw [hxs] at h
      exact hf a hxs e u h
  | error e' t =>
      have hs := hx s
      rw [hxs] at h hs
      cases h
      exact hs

theorem AtomicAt.bind_succeeds {x : EStateM ε σ α} {f : α → EStateM ε σ β} {s : σ}
    (hx : AtomicAt x s)
    (hf : ∀ a t, x s = .ok a t → ∃ b u, f a t = .ok b u) : AtomicAt (x >>= f) s := by
  intro e u h
  rw [run_bind] at h
  cases hxs : x s with
  | ok a t =>
      rw [hxs] at h
      obtain ⟨b, v, hb⟩ := hf a t hxs
      simp only [hb] at h
      cases h
  | error e' t =>
      rw [hxs] at h
      cases h
      exact hx _ _ hxs

theorem atomic_transaction (body : EStateM ε σ α) : Atomic (transaction body) := by
  intro s e t h
  unfold transaction at h
  cases hb : body s <;> rw [hb] at h <;> cases h
  rfl

theorem atomic_ite {c : Prop} [Decidable c] {x y : EStateM ε σ α} (hx : Atomic x) (hy : Atomic y) :
    Atomic (if c then x else y) := by
  split
  · exact hx
  · exact hy

theorem total_pure (a : α) : Total (pure a : EStateM ε σ α) := fun s => ⟨a, s, rfl⟩

theorem total_modify (f : σ → σ) : Total (modify f : EStateM ε σ PUnit) := fun s => ⟨_, f s, rfl⟩

theorem Total.bind {x : EStateM ε σ α} {f : α → EStateM ε σ β} (hx : Total x)
    (hf : ∀ a, Total (f a)) : Total (x >>= f) := by
  intro s
  obtain ⟨a, t, ha⟩ := hx s
  obtain ⟨b, u, hb⟩ := hf a t
  exact ⟨b, u, bind_ok.mpr ⟨a, t, ha, hb⟩⟩

theorem Atomic.zoom {get : τ → σ} {put : σ → τ → τ} (hput : ∀ t, put (get t) t = t)
    {x : EStateM ε σ α} (hx : Atomic x) : Atomic (zoom get put x) := by
  intro t e u h
  unfold Lib.zoom at h
  cases hxs : x (get t) with
  | ok a s => rw [hxs] at h; cases h
  | error e' s =>
      rw [hxs] at h
      cases h
      rw [hx _ _ _ hxs, hput]

/-- A read that fails ends the computation where it started. -/
theorem ReadOnly.finalState_bind_of_fails {x : EStateM ε σ α} {f : α → EStateM ε σ β} {s : σ}
    (hx : ReadOnly x) (h : ∀ a, x s ≠ .ok a s) : finalState ((x >>= f) s) = s := by
  have hs := hx s
  rw [run_bind]
  cases hxs : x s with
  | ok a t =>
      cases hx.ok hxs
      exact absurd hxs (h a)
  | error e t =>
      rw [hxs] at hs
      exact hs

/-! ## Relations between the states before and after -/

/-- Whatever the outcome, the computation ends in a state related to the one it started in. -/
def Respects (R : σ → σ → Prop) (x : EStateM ε σ α) : Prop := ∀ s, R s (finalState (x s))

/-- Two states with the same image. -/
def SameBy {γ : Type} (π : σ → γ) (s t : σ) : Prop := π t = π s

/-- The computation does not change the image of the state. -/
abbrev Keeps {γ : Type} (π : σ → γ) (x : EStateM ε σ α) : Prop := Respects (SameBy π) x

instance {γ : Type} (π : σ → γ) : Std.Refl (SameBy π) := ⟨fun _ => rfl⟩

instance {γ : Type} (π : σ → γ) : IsTrans σ (SameBy π) := ⟨fun _ _ _ h h' => h'.trans h⟩

section Respects

variable {R : σ → σ → Prop}

theorem Respects.mono {R' : σ → σ → Prop} {x : EStateM ε σ α} (h : Respects R x)
    (hR : ∀ s t, R s t → R' s t) : Respects R' x := fun s => hR _ _ (h s)

theorem Respects.ok {x : EStateM ε σ α} (h : Respects R x) {s t : σ} {a : α} (hx : x s = .ok a t) :
    R s t := by
  have := h s
  rwa [hx] at this

theorem respects_ite {c : Prop} [Decidable c] {x y : EStateM ε σ α} (hx : c → Respects R x)
    (hy : ¬c → Respects R y) : Respects R (if c then x else y) := by
  split
  · next h => exact hx h
  · next h => exact hy h

section Trans

variable [IsTrans σ R]

/-- From one state: what follows starts where the first part ended. -/
theorem bind_at {x : EStateM ε σ α} {f : α → EStateM ε σ β} {s : σ} (hx : R s (finalState (x s)))
    (hf : ∀ a t, x s = .ok a t → R t (finalState (f a t))) : R s (finalState ((x >>= f) s)) := by
  rw [run_bind]
  cases h : x s with
  | ok a t =>
      rw [h] at hx
      exact trans_of R hx (hf a t h)
  | error e t =>
      rw [h] at hx
      exact hx

theorem Respects.bind_ok {x : EStateM ε σ α} {f : α → EStateM ε σ β} (hx : Respects R x)
    (hf : ∀ s a t, x s = .ok a t → R t (finalState (f a t))) : Respects R (x >>= f) :=
  fun s => bind_at (hx s) (hf s)

theorem Respects.bind {x : EStateM ε σ α} {f : α → EStateM ε σ β} (hx : Respects R x)
    (hf : ∀ a, Respects R (f a)) : Respects R (x >>= f) := hx.bind_ok fun _ a t _ => hf a t

end Trans

variable [Std.Refl R]

theorem ReadOnly.respects {x : EStateM ε σ α} (hx : ReadOnly x) : Respects R x := by
  intro s
  rw [hx s]
  exact refl_of R s

/-- A step that fails without a trace need only be looked at where it succeeds. -/
theorem Atomic.at {x : EStateM ε σ α} (hx : Atomic x) {s : σ} (hok : ∀ a t, x s = .ok a t → R s t) :
    R s (finalState (x s)) := by
  cases h : x s with
  | ok a t => exact hok a t h
  | error e t =>
      rw [hx s e t h]
      exact refl_of R s

theorem Atomic.respects {x : EStateM ε σ α} (hx : Atomic x) (hok : ∀ s a t, x s = .ok a t → R s t) :
    Respects R x := fun s => hx.at (hok s)

theorem respects_pure (a : α) : Respects R (pure a : EStateM ε σ α) := (readOnly_pure a).respects

theorem respects_throw (e : ε) : Respects R (throw e : EStateM ε σ α) := (readOnly_throw e).respects

theorem Respects.transaction {body : EStateM ε σ α} (h : Respects R body) :
    Respects R (transaction body) :=
  (atomic_transaction body).respects fun _ _ _ hok => h.ok (transaction_ok.mp hok)

/-- What a read returned is known of the state that what follows starts from. -/
theorem ReadOnly.bind_at {x : EStateM ε σ α} {f : α → EStateM ε σ β} (hx : ReadOnly x) {s : σ}
    (hf : ∀ a, x s = .ok a s → R s (finalState (f a s))) : R s (finalState ((x >>= f) s)) := by
  have hs := hx s
  rw [run_bind]
  cases h : x s with
  | ok a t =>
      cases hx.ok h
      exact hf a h
  | error e t =>
      rw [h] at hs
      cases hs
      exact refl_of R _

theorem ReadOnly.bind_respects {x : EStateM ε σ α} {f : α → EStateM ε σ β} (hx : ReadOnly x)
    (hf : ∀ s a, x s = .ok a s → R s (finalState (f a s))) : Respects R (x >>= f) :=
  fun s => hx.bind_at (hf s)

end Respects

/-- A failure leaves the image of the state. -/
def AtomicBy {γ : Type} (π : σ → γ) (x : EStateM ε σ α) : Prop :=
  ∀ s e t, x s = .error e t → π t = π s

section AtomicBy

variable {γ : Type} {π : σ → γ}

theorem Atomic.by {x : EStateM ε σ α} (hx : Atomic x) :
    AtomicBy π x := fun s e t h => congrArg π (hx s e t h)

/-- What keeps the image can go before what leaves it when it fails. -/
theorem Respects.bind_atomicBy {x : EStateM ε σ α} {f : α → EStateM ε σ β} (hx : Keeps π x)
    (hf : ∀ a, AtomicBy π (f a)) : AtomicBy π (x >>= f) := by
  intro s e u h
  have hstart := hx s
  rw [run_bind] at h
  cases hrun : x s with
  | ok a t =>
      rw [hrun] at h hstart
      exact (hf a t e u h).trans hstart
  | error e' t =>
      rw [hrun] at h hstart
      cases h
      exact hstart

end AtomicBy

/-! ## Successful computations -/

/-- Success ends in a state related to the one the computation started in. -/
def Commits (R : σ → σ → Prop) (x : EStateM ε σ α) : Prop := ∀ s a t, x s = .ok a t → R s t

section Commits

variable {R : σ → σ → Prop}

theorem Respects.commits {x : EStateM ε σ α} (h : Respects R x) :
    Commits R x := fun _ _ _ hx => h.ok hx

theorem Commits.bind [IsTrans σ R] {x : EStateM ε σ α} {f : α → EStateM ε σ β} (hx : Commits R x)
    (hf : ∀ a, Commits R (f a)) : Commits R (x >>= f) := by
  intro s b u h
  obtain ⟨a, t, hs, ht⟩ := bind_ok.mp h
  exact trans_of R (hx s a t hs) (hf a t b u ht)

theorem commits_ite {c : Prop} [Decidable c] {x y : EStateM ε σ α} (hx : Commits R x)
    (hy : Commits R y) : Commits R (if c then x else y) := by
  split
  · exact hx
  · exact hy

variable [Std.Refl R]

theorem commits_pure (a : α) : Commits R (pure a : EStateM ε σ α) := (respects_pure a).commits

/-- A transaction ends where it started, or where its body succeeds. -/
theorem Commits.transaction {x : EStateM ε σ α} (h : Commits R x) : Respects R (transaction x) :=
  (atomic_transaction x).respects fun s a t hx => h s a t (transaction_ok.mp hx)

end Commits

/-! ## An invariant and an answer -/

/-- Run from `s`, the computation ends in an `I`-state whatever its outcome, and its
answer meets `Q`. -/
structure Ensures (I : σ → Prop) (x : EStateM ε σ α) (s : σ) (Q : α → σ → Prop) : Prop where
  inv : I (finalState (x s))
  answer : ∀ a t, x s = .ok a t → Q a t

section Ensures

variable {I : σ → Prop} {s : σ} {Q : α → σ → Prop} {Q' : β → σ → Prop}

theorem Ensures.ok {x : EStateM ε σ α} (h : Ensures I x s Q) {a : α} {t : σ} (hx : x s = .ok a t) :
    I t := by
  have := h.inv
  rwa [hx] at this

theorem Ensures.bind {x : EStateM ε σ α} {f : α → EStateM ε σ β} (hx : Ensures I x s Q)
    (hf : ∀ a t, I t → Q a t → Ensures I (f a) t Q') : Ensures I (x >>= f) s Q' := by
  have hinv := hx.inv
  constructor
  · rw [run_bind]
    cases h : x s with
    | ok a t => exact (hf a t (hx.ok h) (hx.answer a t h)).inv
    | error e t =>
        rw [h] at hinv
        exact hinv
  · intro b u h
    obtain ⟨a, t, ha, hb⟩ := bind_ok.mp h
    exact (hf a t (hx.ok ha) (hx.answer a t ha)).answer b u hb

theorem ensures_pure {a : α} (hI : I s) (hQ : Q a s) : Ensures I (pure a : EStateM ε σ α) s Q := by
  refine ⟨hI, fun b t h => ?_⟩
  obtain ⟨rfl, rfl⟩ := pure_ok.mp h
  exact hQ

theorem ReadOnly.ensures {x : EStateM ε σ α} (hx : ReadOnly x) (hI : I s)
    (hQ : ∀ a, x s = .ok a s → Q a s) :
    Ensures I x s Q := by
  refine ⟨(hx s).symm ▸ hI, fun a t h => ?_⟩
  cases hx.ok h
  exact hQ a h

theorem ReadOnly.ensures_bind {x : EStateM ε σ α} {f : α → EStateM ε σ β}
    (hx : ReadOnly x) (hI : I s)
    (hf : ∀ a, x s = .ok a s → Ensures I (f a) s Q') : Ensures I (x >>= f) s Q' := by
  refine (hx.ensures (Q := fun a t => t = s ∧ x s = .ok a s) hI fun a h => ⟨rfl, h⟩).bind ?_
  rintro a t - ⟨rfl, h⟩
  exact hf a h

theorem ensures_transaction {x : EStateM ε σ α} (hI : I s)
    (h : ∀ a t, x s = .ok a t → I t ∧ Q a t) : Ensures I (transaction x) s Q where
  inv := by
    cases hx : transaction x s with
    | ok a t => exact (h a t (transaction_ok.mp hx)).1
    | error e t => exact (atomic_transaction x s e t hx) ▸ hI
  answer a t hx := (h a t (transaction_ok.mp hx)).2

end Ensures

/-! ## Success -/

/-- Run from `s`, the computation succeeds, and its answer meets `Q`. -/
def Succeeds (x : EStateM ε σ α) (s : σ) (Q : α → σ → Prop) : Prop := ∃ a t, x s = .ok a t ∧ Q a t

section Succeeds

variable {s : σ} {Q : α → σ → Prop} {Q' : β → σ → Prop}

theorem Succeeds.bind {x : EStateM ε σ α} {f : α → EStateM ε σ β} (hx : Succeeds x s Q)
    (hf : ∀ a t, x s = .ok a t → Q a t → Succeeds (f a) t Q') : Succeeds (x >>= f) s Q' := by
  obtain ⟨a, t, ha, hQ⟩ := hx
  obtain ⟨b, u, hb, hQ'⟩ := hf a t ha hQ
  exact ⟨b, u, bind_ok.mpr ⟨a, t, ha, hb⟩, hQ'⟩

theorem Succeeds.mono {R : α → σ → Prop} {x : EStateM ε σ α} (h : Succeeds x s Q)
    (hR : ∀ a t, x s = .ok a t → Q a t → R a t) : Succeeds x s R := by
  obtain ⟨a, t, ha, hQ⟩ := h
  exact ⟨a, t, ha, hR a t ha hQ⟩

theorem succeeds_pure {a : α} (hQ : Q a s) : Succeeds (pure a : EStateM ε σ α) s Q :=
  ⟨a, s, rfl, hQ⟩

theorem succeeds_get_bind {f : σ → EStateM ε σ β} (h : Succeeds (f s) s Q') :
    Succeeds (get >>= f) s Q' := h

theorem succeeds_ite {c : Prop} [Decidable c] {x y : EStateM ε σ α} (hx : c → Succeeds x s Q)
    (hy : ¬c → Succeeds y s Q) : Succeeds (if c then x else y) s Q := by
  by_cases hc : c
  · rw [if_pos hc]
    exact hx hc
  · rw [if_neg hc]
    exact hy hc

/-- A first step whose outcome is known. -/
theorem succeeds_bind_run {x : EStateM ε σ α} {f : α → EStateM ε σ β} {a : α} {t : σ}
    (hx : x s = .ok a t) (h : Succeeds (f a) t Q') : Succeeds (x >>= f) s Q' := by
  obtain ⟨b, u, hb, hQ⟩ := h
  exact ⟨b, u, bind_ok.mpr ⟨a, t, hx, hb⟩, hQ⟩

theorem refuse_run {c : Prop} [Decidable c] (h : ¬c) (e : ε) :
    (refuse c e : EStateM ε σ Unit) s = .ok () s :=
  refuse_ok.mpr ⟨h, rfl⟩

theorem okOr_run {o : Option α} {a : α} (h : o = some a) (e : ε) :
    (okOr o e : EStateM ε σ α) s = .ok a s :=
  okOr_ok.mpr ⟨h, rfl⟩

theorem Succeeds.transaction {x : EStateM ε σ α} (h : Succeeds x s Q) :
    Succeeds (transaction x) s Q := by
  obtain ⟨a, t, ha, hQ⟩ := h
  exact ⟨a, t, transaction_ok.mpr ha, hQ⟩

theorem Succeeds.zoom {get : τ → σ} {put : σ → τ → τ} {x : EStateM ε σ α} {t : τ}
    (h : Succeeds x (get t) Q) :
    Succeeds (zoom get put x) t fun a u => ∃ s, Q a s ∧ put s t = u := by
  obtain ⟨a, s, ha, hQ⟩ := h
  exact ⟨a, put s t, zoom_ok.mpr ⟨s, ha, rfl⟩, s, hQ, rfl⟩

theorem Total.succeeds {x : EStateM ε σ α} (h : Total x) (s : σ) :
    Succeeds x s fun _ _ => True := by
  obtain ⟨a, t, ha⟩ := h s
  exact ⟨a, t, ha, trivial⟩

end Succeeds

/-- Reads at the end do not show in the final state. -/
theorem finalState_bind_readOnly {x : EStateM ε σ α} {f : α → EStateM ε σ β}
    (hf : ∀ a, ReadOnly (f a)) (s : σ) : finalState ((x >>= f) s) = finalState (x s) := by
  rw [run_bind]
  cases x s with
  | ok a t => exact hf a t
  | error e t => rfl

theorem finalState_zoom {get : τ → σ} {put : σ → τ → τ} (x : EStateM ε σ α) (t : τ) :
    finalState (zoom get put x t) = put (finalState (x (get t))) t := by
  unfold zoom
  cases x (get t) <;> rfl

end Lib
