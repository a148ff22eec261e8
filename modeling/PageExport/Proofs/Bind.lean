/-!
Computations in steps, on a state that may be left behind by a failure. How they end is told by their
first step that fails, or else by the last one.
-/
namespace PageExport

variable {ε σ α β : Type} {x y : EStateM ε σ α} {f g : α → EStateM ε σ β} {s s' t : σ}

/-- A computation in steps succeeds just if each step does, in the state that the one before left. -/
theorem bind_eq_ok_iff {b : β} :
    (x >>= f) s = .ok b s' ↔ ∃ a t, x s = .ok a t ∧ f a t = .ok b s' := by
  change EStateM.bind x f s = .ok b s' ↔ _
  unfold EStateM.bind
  cases x s with
  | ok a t => simp [and_assoc]
  | error e t => simp

theorem bind_of_eq_ok {a : α} (h : x s = .ok a t) : (x >>= f) s = f a t := by
  change EStateM.bind x f s = _
  rw [EStateM.bind, h]

theorem bind_of_eq_error {e : ε} (h : x s = .error e t) : (x >>= f) s = .error e t := by
  change EStateM.bind x f s = _
  rw [EStateM.bind, h]

/-- Computations in steps agree where their steps do. -/
theorem bind_eq_bind (hx : x s = y s) (hf : ∀ a s', y s = .ok a s' → f a s' = g a s') :
    (x >>= f) s = (y >>= g) s := by
  cases hy : y s with
  | ok a t => rw [bind_of_eq_ok (hx.trans hy), bind_of_eq_ok hy, hf a t hy]
  | error e t => rw [bind_of_eq_error (hx.trans hy), bind_of_eq_error hy]

end PageExport
