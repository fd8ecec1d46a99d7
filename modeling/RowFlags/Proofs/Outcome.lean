import Mathlib.Control.Monad.Basic

/-!
# Outcomes

What it takes for a computation that may fail to succeed or to fail. Proofs about such computations
open them by these equivalences, one step at a time, and do not unfold the monad.
-/

set_option autoImplicit false

namespace RowFlags.Outcome

variable {ε δ α β : Type}

@[simp] theorem ok_bind (a : α) (f : α → Except ε β) : (Except.ok a >>= f) = f a := rfl

@[simp] theorem error_bind (e : ε) (f : α → Except ε β) : (Except.error e >>= f) = .error e := rfl

@[simp] theorem mapError_ok (f : ε → δ) (a : α) :
    (Except.ok a : Except ε α).mapError f = .ok a := rfl

@[simp] theorem mapError_error (f : ε → δ) (e : ε) :
    (Except.error e : Except ε α).mapError f = .error (f e) := rfl

theorem mapError_id (x : Except ε α) : x.mapError id = x := by
  cases x <;> rfl

theorem bind_eq_ok_iff {x : Except ε α} {f : α → Except ε β} {b : β} :
    (x >>= f) = .ok b ↔ ∃ a, x = .ok a ∧ f a = .ok b := by
  cases x <;> simp

theorem bind_eq_error_iff {x : Except ε α} {f : α → Except ε β} {e : ε} :
    (x >>= f) = .error e ↔ x = .error e ∨ ∃ a, x = .ok a ∧ f a = .error e := by
  cases x <;> simp

theorem map_eq_ok_iff {x : Except ε α} {f : α → β} {b : β} :
    f <$> x = .ok b ↔ ∃ a, x = .ok a ∧ f a = b := by
  cases x <;> simp

theorem map_eq_error_iff {x : Except ε α} {f : α → β} {e : ε} :
    f <$> x = .error e ↔ x = .error e := by
  cases x <;> simp

theorem mapError_eq_ok_iff {x : Except ε α} {f : ε → δ} {a : α} :
    x.mapError f = .ok a ↔ x = .ok a := by
  cases x <;> simp

theorem mapError_eq_error_iff {x : Except ε α} {f : ε → δ} {d : δ} :
    x.mapError f = .error d ↔ ∃ e, x = .error e ∧ f e = d := by
  cases x <;> simp

theorem toOption_eq_some_iff {x : Except ε α} {a : α} : x.toOption = some a ↔ x = .ok a := by
  cases x <;> simp [Except.toOption]

/-- The failure of a computation that fails. -/
def failure? : Except ε α → Option ε
  | .ok _ => none
  | .error e => some e

theorem failure?_eq_some_iff {x : Except ε α} {e : ε} : failure? x = some e ↔ x = .error e := by
  cases x <;> simp [failure?]

theorem failure?_eq_none_iff {x : Except ε α} : failure? x = none ↔ ∃ a, x = .ok a := by
  cases x <;> simp [failure?]

/-- After a computation that may fail and changes a state, the next one starts from its state. -/
theorem run_run_bind {σ : Type} (x : ExceptT ε (StateM σ) α) (f : α → ExceptT ε (StateM σ) β)
    (s : σ) : (x >>= f).run.run s =
      match x.run.run s with
      | (.ok a, after) => (f a).run.run after
      | (.error e, after) => (.error e, after) := by
  rw [ExceptT.run_bind, StateT.run_bind]
  match x.run.run s with
  | (.ok _, _) => rfl
  | (.error _, _) => rfl

theorem run_run_bind_of_ok {σ : Type} {x : ExceptT ε (StateM σ) α} {s after : σ} {a : α}
    (h : x.run.run s = (.ok a, after)) (f : α → ExceptT ε (StateM σ) β) :
    (x >>= f).run.run s = (f a).run.run after := by
  rw [run_run_bind, h]

/-- Without effects, a sequence is that of the results. -/
theorem run_bind_id (x : ExceptT ε Id α) (f : α → ExceptT ε Id β) :
    (x >>= f).run = bind (m := Except ε) x.run fun a => (f a).run := by
  rw [ExceptT.run_bind]
  match x.run with
  | .ok _ => rfl
  | .error _ => rfl

theorem run_bind_eq_ok_iff {x : ExceptT ε Id α} {f : α → ExceptT ε Id β} {b : β} :
    (x >>= f).run = .ok b ↔ ∃ a, x.run = .ok a ∧ (f a).run = .ok b := by
  rw [run_bind_id]
  exact bind_eq_ok_iff

theorem run_run_liftExcept_bind {σ : Type} (x : Except ε α) (f : α → ExceptT ε (StateM σ) β)
    (s : σ) : (liftExcept x >>= f).run.run s =
      match x with
      | .ok a => (f a).run.run s
      | .error e => (.error e, s) := by
  cases x <;> rfl

/-! ## Two computations at once -/

/-- Both computations succeed or both fail, with results and failures that are in relation. -/
inductive Both (E : ε → δ → Prop) (V : α → β → Prop) : Except ε α → Except δ β → Prop
  | ok {a : α} {b : β} (h : V a b) : Both E V (.ok a) (.ok b)
  | error {e : ε} {d : δ} (h : E e d) : Both E V (.error e) (.error d)

namespace Both

variable {ε' δ' α' β' : Type} {E : ε → δ → Prop} {V : α → β → Prop} {W : α' → β' → Prop}

theorem same {E : ε → ε → Prop} (hE : ∀ e, E e e) (x : Except ε α) : Both E Eq x x := by
  cases x with
  | ok a => exact .ok rfl
  | error e => exact .error (hE e)

theorem bind {x : Except ε α} {y : Except δ β} {f : α → Except ε α'} {g : β → Except δ β'}
    (h : Both E V x y) (hf : ∀ a b, V a b → Both E W (f a) (g b)) :
    Both E W (x >>= f) (y >>= g) := by
  cases h with
  | ok h => exact hf _ _ h
  | error h => exact .error h

/-- After the same computation, what follows it decides. -/
theorem bind_same {E : ε → ε → Prop} (hE : ∀ e, E e e) (x : Except ε α) {f : α → Except ε α'}
    {g : α → Except ε β'} (hf : ∀ a, Both E W (f a) (g a)) : Both E W (x >>= f) (x >>= g) := by
  refine (same hE x).bind ?_
  rintro a _ rfl
  exact hf a

theorem map {x : Except ε α} {y : Except δ β} {f : α → α'} {g : β → β'} (h : Both E V x y)
    (hf : ∀ a b, V a b → W (f a) (g b)) : Both E W (f <$> x) (g <$> y) := by
  cases h with
  | ok h => exact .ok (hf _ _ h)
  | error h => exact .error h

theorem mapError {D : ε' → δ' → Prop} {x : Except ε α} {y : Except δ β} {f : ε → ε'} {g : δ → δ'}
    (h : Both E V x y) (hf : ∀ e d, E e d → D (f e) (g d)) :
    Both D V (x.mapError f) (y.mapError g) := by
  cases h with
  | ok h => exact .ok h
  | error h => exact .error (hf _ _ h)

theorem exists_ok_iff {x : Except ε α} {y : Except δ β} (h : Both E V x y) :
    (∃ a, x = .ok a) ↔ ∃ b, y = .ok b := by
  cases h <;> simp

theorem eq_error_iff {x : Except ε α} {y : Except ε β} (h : Both Eq V x y) (e : ε) :
    x = .error e ↔ y = .error e := by
  cases h with
  | ok h => simp
  | error h => rw [Except.error.injEq, Except.error.injEq, h]

theorem related {x : Except ε α} {y : Except δ β} {a : α} {b : β} (h : Both E V x y)
    (hx : x = .ok a) (hy : y = .ok b) : V a b := by
  subst hx hy
  cases h
  assumption

end Both

end RowFlags.Outcome
