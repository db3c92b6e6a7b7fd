import Mathlib.Algebra.Group.Nat.Defs
import Lockstep.Search.Iterate
/-!
Runs of a step. What one step preserves a whole run preserves, and a run comes to its end if every
step makes something grow that has a bound.
-/

set_option autoImplicit false

namespace Lockstep.Search

variable {σ : Type} {step : σ → Option σ} {P : σ → Prop}

def Preserves (step : σ → Option σ) (P : σ → Prop) : Prop :=
  ∀ s t : σ, P s → step s = some t → P t

theorem iterate_preserves (h : Preserves step P) (n : Nat) {s : σ} (hs : P s) :
    P (iterate step n s) := by
  induction n generalizing s with
  | zero => exact hs
  | succ n ih =>
    cases ht : step s with
    | none => simpa [iterate, ht] using hs
    | some t => simpa [iterate, ht] using ih (h s t hs ht)

/-- `size` grows with each step and is less than `bound` where there is still a step to do. -/
theorem iterate_halts (size : σ → Nat) (bound : Nat) (h : Preserves step P)
    (hsize : ∀ s t : σ, P s → step s = some t → size s < size t ∧ size s < bound)
    (n : Nat) {s : σ} (hs : P s) (hn : bound ≤ size s + n) : step (iterate step n s) = none := by
  induction n generalizing s with
  | zero =>
    cases ht : step s with
    | none => simpa [iterate] using ht
    | some t =>
      have := (hsize s t hs ht).2
      omega
  | succ n ih =>
    cases ht : step s with
    | none => simp [iterate, ht]
    | some t =>
      have := (hsize s t hs ht).1
      simpa [iterate, ht] using ih (h s t hs ht) (by omega)

/-- Two runs go the same way if a view turns each step of one into a step of the other. -/
theorem iterate_simulates {τ : Type} {step' : τ → Option τ} {view : σ → τ} (h : Preserves step P)
    (hv : ∀ s : σ, P s → (step s).map view = step' (view s)) (n : Nat) {s : σ} (hs : P s) :
    view (iterate step n s) = iterate step' n (view s) := by
  induction n generalizing s with
  | zero => rfl
  | succ n ih =>
    have hview := hv s hs
    cases ht : step s with
    | none =>
      rw [ht] at hview
      simp [iterate, ht, ← hview]
    | some t =>
      rw [ht] at hview
      simp [iterate, ht, ← hview, ih (h s t hs ht)]

/-- A view that commutes with one step commutes with a run. -/
theorem iterate_view {τ : Type} {step' : τ → Option τ} {view : σ → τ}
    (hv : ∀ s : σ, (step s).map view = step' (view s)) (n : Nat) (s : σ) :
    view (iterate step n s) = iterate step' n (view s) :=
  iterate_simulates (P := fun _ => True) (fun _ _ _ _ => trivial) (fun s _ => hv s) n trivial

theorem iterate_succ_getD (n : Nat) (s : σ) :
    iterate step (n + 1) s = iterate step n ((step s).getD s) := by
  cases ht : step s with
  | none => simp [iterate, ht, iterate_of_none]
  | some t => simp [iterate, ht]

/-- What relates two runs stays, also when one of them comes to its end before the other. -/
theorem iterate_relates {τ : Type} {step' : τ → Option τ} {R : σ → τ → Prop}
    (h : ∀ s t, R s t → R ((step s).getD s) ((step' t).getD t)) (n : Nat) {s : σ} {t : τ}
    (hst : R s t) : R (iterate step n s) (iterate step' n t) := by
  induction n generalizing s t with
  | zero => exact hst
  | succ n ih =>
    rw [iterate_succ_getD, iterate_succ_getD]
    exact ih (h s t hst)

theorem stepsIn_add_one (m : Nat) : stepsIn m + 1 = 2 ^ m := by
  induction m with
  | zero => rfl
  | succ m ih =>
    rw [Nat.pow_succ, ← ih]
    simp only [stepsIn]
    omega

end Lockstep.Search
