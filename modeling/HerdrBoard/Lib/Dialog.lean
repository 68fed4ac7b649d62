import Mathlib.Data.List.Infix
import Mathlib.Tactic.Common

/-!
# Dialogues

A computation that calls a world it does not control, one call after the other. A contract says what
the world keeps to and what the computation may call, in terms of the history of calls and answers
so far; `Meets` is the weakest condition on the history from which a computation keeps the contract,
whatever the world answers. -/

namespace Lib

/-- A computation that calls, waits for the answer, and goes on with it. -/
inductive Dialog (C : Type) (A : C → Type) (ε α : Type) where
  | done (a : α)
  | fail (e : ε)
  | call (c : C) (next : A c → Dialog C A ε α)

namespace Dialog

variable {C : Type} {A : C → Type} {ε ε' α β : Type}

def bind : Dialog C A ε α → (α → Dialog C A ε β) → Dialog C A ε β
  | .done a, f => f a
  | .fail e, _ => .fail e
  | .call c next, f => .call c fun a => (next a).bind f

instance : Monad (Dialog C A ε) where
  pure := .done
  bind := bind

/-- One call, with its answer. -/
def ask (c : C) : Dialog C A ε (A c) := .call c .done

def ofExcept : Except ε α → Dialog C A ε α
  | .ok a => .done a
  | .error e => .fail e

/-- One call whose answer may be an error. -/
def query (c : C) (read : A c → Except ε α) : Dialog C A ε α := .call c fun a => ofExcept (read a)

/-- The outcome as a value. -/
def attempt : Dialog C A ε α → Dialog C A ε' (Except ε α)
  | .done a => .done (.ok a)
  | .fail e => .done (.error e)
  | .call c next => .call c fun a => (next a).attempt

def mapError (f : ε → ε') : Dialog C A ε α → Dialog C A ε' α
  | .done a => .done a
  | .fail e => .fail (f e)
  | .call c next => .call c fun a => (next a).mapError f

end Dialog

/-- A call and its answer. -/
abbrev Exchange {C : Type} (A : C → Type) := Σ c, A c

/-- The exchanges so far, the latest first. -/
abbrev History {C : Type} (A : C → Type) := List (Exchange A)

/-- Every exchange meets `p` at the history it was made in. -/
def Follows {C : Type} {A : C → Type} (p : History A → Exchange A → Prop) : History A → Prop
  | [] => True
  | e :: past => p past e ∧ Follows p past

section Follows

variable {C : Type} {A : C → Type} {p q : History A → Exchange A → Prop} {h h' past : History A}
    {e : Exchange A}

theorem Follows.suffix (hp : Follows p h') (hle : h <:+ h') : Follows p h := by
  induction h' with
  | nil =>
      rw [List.suffix_nil.mp hle]
      trivial
  | cons e past ih =>
      rcases List.suffix_cons_iff.mp hle with rfl | hle
      · exact hp
      · exact ih hp.2 hle

theorem Follows.at (hp : Follows p h) (hle : e :: past <:+ h) : p past e := (hp.suffix hle).1

theorem follows_of_forall {p : Exchange A → Prop} (hp : ∀ e ∈ h, p e) :
    Follows (fun _ e => p e) h := by
  induction h with
  | nil => trivial
  | cons e past ih =>
      exact ⟨hp e List.mem_cons_self, ih fun e' he' => hp e' (List.mem_cons_of_mem e he')⟩

end Follows

/-- What the world keeps to, and what a computation may call. -/
structure Contract {C : Type} (A : C → Type) where
  rely : History A → Exchange A → Prop
  guard : History A → C → Prop

namespace Dialog

variable {C : Type} {A : C → Type} {ε ε' α β : Type}

/-- Whatever the world answers within the contract, the calls are within it and the outcome
meets `post`. -/
def Meets (κ : Contract A) (post : Except ε α → History A → Prop) :
    Dialog C A ε α → History A → Prop
  | .done a, h => post (.ok a) h
  | .fail e, h => post (.error e) h
  | .call c next, h => κ.guard h c ∧ ∀ a, κ.rely h ⟨c, a⟩ → (next a).Meets κ post (⟨c, a⟩ :: h)

/-- What is left to meet after a computation that goes on with `f`. -/
def after (κ : Contract A) (post : Except ε β → History A → Prop) (f : α → Dialog C A ε β) :
    Except ε α → History A → Prop
  | .ok a, h => (f a).Meets κ post h
  | .error e, h => post (.error e) h

variable {κ : Contract A} {post post' : Except ε α → History A → Prop} {x : Dialog C A ε α}
    {h h' : History A}

@[simp] theorem after_ok {f : α → Dialog C A ε β} {post : Except ε β → History A → Prop} {a : α} :
    after κ post f (.ok a) h ↔ (f a).Meets κ post h := Iff.rfl

@[simp] theorem after_error {f : α → Dialog C A ε β}
    {post : Except ε β → History A → Prop} {e : ε} :
    after κ post f (.error e) h ↔ post (.error e) h := Iff.rfl

@[simp] theorem meets_pure {a : α} : (pure a : Dialog C A ε α).Meets κ post h ↔ post (.ok a) h :=
  Iff.rfl

@[simp] theorem meets_done {a : α} : (Dialog.done a : Dialog C A ε α).Meets κ post h ↔
    post (.ok a) h := Iff.rfl

@[simp] theorem meets_fail {e : ε} : (Dialog.fail e : Dialog C A ε α).Meets κ post h ↔
    post (.error e) h := Iff.rfl

@[simp] theorem meets_ask {c : C} {post : Except ε (A c) → History A → Prop} :
    (ask c : Dialog C A ε (A c)).Meets κ post h ↔
      κ.guard h c ∧ ∀ a, κ.rely h ⟨c, a⟩ → post (.ok a) (⟨c, a⟩ :: h) := Iff.rfl

@[simp] theorem meets_ofExcept {r : Except ε α} : (ofExcept r : Dialog C A ε α).Meets κ post h ↔
    post r h := by
  cases r <;> rfl

@[simp] theorem meets_query {c : C} {read : A c → Except ε α} : (query c read).Meets κ post h ↔
    κ.guard h c ∧ ∀ a, κ.rely h ⟨c, a⟩ → post (read a) (⟨c, a⟩ :: h) :=
  and_congr_right' (forall₂_congr fun _ _ => meets_ofExcept)

/-- A computation from `h` only adds to the history. -/
theorem Meets.mono (hx : x.Meets κ post h) (himp : ∀ r h', h <:+ h' → post r h' → post' r h') :
    x.Meets κ post' h := by
  induction x generalizing h with
  | done a => exact himp _ _ List.suffix_rfl hx
  | fail e => exact himp _ _ List.suffix_rfl hx
  | call c next ih =>
      refine ⟨hx.1, fun a ha => ih a (hx.2 a ha) ?_⟩
      intro r h' hle
      exact himp r h' ((List.suffix_cons _ _).trans hle)

@[simp] theorem meets_bind {f : α → Dialog C A ε β} {post : Except ε β → History A → Prop} :
    (x >>= f).Meets κ post h ↔ x.Meets κ (after κ post f) h := by
  induction x generalizing h with
  | done a => exact Iff.rfl
  | fail e => exact Iff.rfl
  | call c next ih => exact and_congr_right' (forall₂_congr fun a _ => ih a)

/-- The rule of sequence: the second part starts wherever the first may leave. -/
theorem Meets.bind {f : α → Dialog C A ε β} {mid : Except ε α → History A → Prop}
    {post : Except ε β → History A → Prop} (hx : x.Meets κ mid h)
    (hok : ∀ a h', h <:+ h' → mid (.ok a) h' → (f a).Meets κ post h')
    (herror : ∀ e h', h <:+ h' → mid (.error e) h' → post (.error e) h') :
    (x >>= f).Meets κ post h := by
  rw [meets_bind]
  refine hx.mono ?_
  intro r h' hle hmid
  cases r with
  | ok a => exact hok a h' hle hmid
  | error e => exact herror e h' hle hmid

@[simp] theorem meets_attempt {post : Except ε' (Except ε α) → History A → Prop} :
    (x.attempt : Dialog C A ε' (Except ε α)).Meets κ post h ↔
      x.Meets κ (fun r => post (.ok r)) h := by
  induction x generalizing h with
  | done a => exact Iff.rfl
  | fail e => exact Iff.rfl
  | call c next ih => exact and_congr_right' (forall₂_congr fun a _ => ih a)

@[simp] theorem meets_mapError {f : ε → ε'} {post : Except ε' α → History A → Prop} :
    (x.mapError f).Meets κ post h ↔ x.Meets κ (fun r => post (r.mapError f)) h := by
  induction x generalizing h with
  | done a => exact Iff.rfl
  | fail e => exact Iff.rfl
  | call c next ih => exact and_congr_right' (forall₂_congr fun a _ => ih a)

/-! ## Computations that only make harmless calls -/

/-- Every call the computation can make meets `P`. -/
def Only (P : C → Prop) : Dialog C A ε α → Prop
  | .done _ => True
  | .fail _ => True
  | .call c next => P c ∧ ∀ a, (next a).Only P

section Only

variable {P Q : C → Prop}

@[simp] theorem only_pure {a : α} : (pure a : Dialog C A ε α).Only P := trivial

@[simp] theorem only_done {a : α} : (Dialog.done a : Dialog C A ε α).Only P := trivial

@[simp] theorem only_fail {e : ε} : (Dialog.fail e : Dialog C A ε α).Only P := trivial

@[simp] theorem only_ask {c : C} : (ask c : Dialog C A ε (A c)).Only P ↔ P c :=
  ⟨fun h => h.1, fun h => ⟨h, fun _ => trivial⟩⟩

@[simp] theorem only_ofExcept {r : Except ε α} : (ofExcept r : Dialog C A ε α).Only P := by
  cases r <;> trivial

@[simp] theorem only_query {c : C} {read : A c → Except ε α} : (query c read).Only P ↔ P c :=
  and_iff_left fun _ => only_ofExcept

theorem Only.bind {f : α → Dialog C A ε β} (hx : x.Only P) (hf : ∀ a, (f a).Only P) :
    (x >>= f).Only P := by
  induction x with
  | done a => exact hf a
  | fail e => trivial
  | call c next ih => exact ⟨hx.1, fun a => ih a (hx.2 a)⟩

theorem Only.ite {c : Prop} [Decidable c] {y : Dialog C A ε α} (hx : x.Only P) (hy : y.Only P) :
    (if c then x else y).Only P := by
  split <;> assumption

@[simp] theorem only_attempt : (x.attempt : Dialog C A ε' (Except ε α)).Only P ↔ x.Only P := by
  induction x with
  | done a => exact Iff.rfl
  | fail e => exact Iff.rfl
  | call c next ih => exact and_congr_right' (forall_congr' ih)

@[simp] theorem only_mapError {f : ε → ε'} : (x.mapError f).Only P ↔ x.Only P := by
  induction x with
  | done a => exact Iff.rfl
  | fail e => exact Iff.rfl
  | call c next ih => exact and_congr_right' (forall_congr' ih)

/-- The frame rule: calls of a kind that keep `I`, and that the contract allows
wherever `I` holds. -/
theorem Only.meets {I : History A → Prop} (hx : x.Only P) (hguard : ∀ h c, P c → I h → κ.guard h c)
    (hkeep : ∀ h c a, P c → κ.rely h ⟨c, a⟩ → I h → I (⟨c, a⟩ :: h)) (hI : I h) :
    x.Meets κ (fun _ => I) h := by
  induction x generalizing h with
  | done a => exact hI
  | fail e => exact hI
  | call c next ih => exact ⟨hguard h c hx.1 hI, fun a ha => ih a (hx.2 a) (hkeep h c a hx.1 ha hI)⟩

end Only

/-! ## Runs -/

/-- A run of the computation from one history to another. -/
inductive Runs : Dialog C A ε α → History A → Except ε α → History A → Prop where
  | done (a : α) (h : History A) : Runs (.done a) h (.ok a) h
  | fail (e : ε) (h : History A) : Runs (.fail e) h (.error e) h
  | call {c : C} {next : A c → Dialog C A ε α} {h h' : History A} {r : Except ε α} (a : A c)
      (hrest : Runs (next a) (⟨c, a⟩ :: h) r h') : Runs (.call c next) h r h'

theorem Runs.suffix {r : Except ε α} (hrun : x.Runs h r h') : h <:+ h' := by
  induction hrun with
  | done | fail => exact List.suffix_rfl
  | call a _ ih => exact (List.suffix_cons _ _).trans ih

/-- A computation that meets a contract keeps to it in every run in which the world does, and
ends in `post`. -/
theorem Meets.runs {r : Except ε α} (hx : x.Meets κ post h) (hrun : x.Runs h r h')
    (hrely : Follows κ.rely h') (hguard : Follows (fun past e => κ.guard past e.1) h) :
    Follows (fun past e => κ.guard past e.1) h' ∧ post r h' := by
  induction hrun with
  | done | fail => exact ⟨hguard, hx⟩
  | call a hrest ih => exact ih (hx.2 a (hrely.at hrest.suffix)) hrely ⟨hx.1, hguard⟩

/-- The run in which the world answers as `world` says. -/
def answered (world : (h : History A) → (c : C) → A c) :
    Dialog C A ε α → History A → Except ε α × History A
  | .done a, h => (.ok a, h)
  | .fail e, h => (.error e, h)
  | .call c next, h => (next (world h c)).answered world (⟨c, world h c⟩ :: h)

theorem runs_answered (world : (h : History A) → (c : C) → A c) (x : Dialog C A ε α)
    (h : History A) : x.Runs h (x.answered world h).1 (x.answered world h).2 := by
  induction x generalizing h with
  | done a => exact .done a h
  | fail e => exact .fail e h
  | call c next ih => exact .call _ (ih _ _)

end Dialog

end Lib
