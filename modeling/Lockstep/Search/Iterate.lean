/-!
Runs of a step that may have nothing left to do. `iterate` is bounded by a number of steps;
`exhaust` by a number that doubles with each round, so that a bound that is only a logarithm is
enough to start it.
-/

set_option autoImplicit false

namespace Lockstep.Search

variable {σ : Type}

/-- So many steps, fewer if there is nothing left to do. -/
def iterate (step : σ → Option σ) : Nat → σ → σ
  | 0, s => s
  | n + 1, s => match step s with
    | some t => iterate step n t
    | none => s

theorem iterate_of_none {step : σ → Option σ} {s : σ} (h : step s = none) (n : Nat) :
    iterate step n s = s := by
  cases n <;> simp [iterate, h]

theorem iterate_add (step : σ → Option σ) (m n : Nat) (s : σ) :
    iterate step (m + n) s = iterate step n (iterate step m s) := by
  induction m generalizing s with
  | zero => simp [iterate]
  | succ m ih =>
    rw [Nat.succ_add]
    cases h : step s with
    | none => simp [iterate, h, iterate_of_none h]
    | some t => simp [iterate, h, ih]

/-- Rounds of `n`, `2 * n`, `4 * n`, … steps. -/
def rounds (step : σ → Option σ) : Nat → Nat → σ → σ
  | 0, _, s => s
  | m + 1, n, s =>
    let t := iterate step n s
    match step t with
    | some _ => rounds step m (2 * n) t
    | none => t

/-- The number of steps in `m` rounds that start with one step: the greatest with `m` binary
digits. -/
def stepsIn : Nat → Nat
  | 0 => 0
  | m + 1 => 2 * stepsIn m + 1

theorem rounds_eq_iterate (step : σ → Option σ) (m n : Nat) (s : σ) :
    rounds step m n s = iterate step (n * stepsIn m) s := by
  induction m generalizing n s with
  | zero => simp [rounds, iterate, stepsIn]
  | succ m ih =>
    have split : n * stepsIn (m + 1) = n + 2 * n * stepsIn m := by
      rw [stepsIn, Nat.mul_add, Nat.mul_one, Nat.add_comm, Nat.mul_left_comm, Nat.mul_assoc]
    rw [split, iterate_add]
    cases h : step (iterate step n s) with
    | none => simp [rounds, h, iterate_of_none h]
    | some t => simp [rounds, h, ih]

/-- At most `stepsIn m` steps. -/
def exhaust (step : σ → Option σ) (m : Nat) (s : σ) : σ := rounds step m 1 s

theorem exhaust_eq_iterate (step : σ → Option σ) (m : Nat) (s : σ) :
    exhaust step m s = iterate step (stepsIn m) s := by
  simp [exhaust, rounds_eq_iterate]

end Lockstep.Search
