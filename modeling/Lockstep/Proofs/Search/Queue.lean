import Lockstep.Proofs.Search.Run
/-!
Loops over a queue. Each step takes the first thing of the queue and puts what it finds at the end. A
run of such steps is told by what it takes and what it puts there, without any bound on its length;
so where there is one, the loop comes to its end.
-/

set_option autoImplicit false

namespace Lockstep.Search

variable {σ α : Type} {step : σ → Option σ} {queue taken : σ → List α} {s t : σ}
  {xs ys : List α}

/-- The whole loop from one state on: `taken` are the things that its steps take, one at each step,
`put` those that they put into the queue, and in the last state there is no step left. -/
inductive QueueRun (step : σ → Option σ) (queue : σ → List α) :
    σ → (taken put : List α) → σ → Prop
  | done {s : σ} : step s = none → QueueRun step queue s [] [] s
  | next {s t u : σ} {x : α} {rest new xs ys : List α} : queue s = x :: rest → step s = some t →
      queue t = rest ++ new → QueueRun step queue t xs ys u →
      QueueRun step queue s (x :: xs) (new ++ ys) u

/-- What was in the queue or was put there has been taken, in that order, or is still there. -/
theorem QueueRun.conserves (h : QueueRun step queue s xs ys t) :
    queue s ++ ys = xs ++ queue t := by
  induction h with
  | done _ => simp
  | next hs _ ht _ ih => rw [hs, List.cons_append, List.cons_append, ← List.append_assoc, ← ht, ih]

/-- Each step takes the first thing of the queue, and keeps a list of what was taken. -/
def Takes (step : σ → Option σ) (queue taken : σ → List α) : Prop :=
  ∀ s t : σ, step s = some t → ∃ x rest new,
    queue s = x :: rest ∧ queue t = rest ++ new ∧ taken t = taken s ++ [x]

/-- Where so many steps are enough, they are the whole loop. -/
theorem Takes.exists_run (h : Takes step queue taken) {n : Nat} (hs : taken s = [])
    (hend : step (iterate step n s) = none) :
    ∃ put, QueueRun step queue s (taken (iterate step n s)) put (iterate step n s) := by
  suffices hrun : ∃ xs put, QueueRun step queue s xs put (iterate step n s) ∧
      taken (iterate step n s) = taken s ++ xs by
    obtain ⟨xs, put, hrun, htaken⟩ := hrun
    rw [hs, List.nil_append] at htaken
    exact ⟨put, htaken ▸ hrun⟩
  clear hs
  induction n generalizing s with
  | zero => exact ⟨[], [], .done hend, by simp [iterate]⟩
  | succ n ih =>
    cases hstep : step s with
    | none =>
      rw [iterate_of_none hstep]
      exact ⟨[], [], .done hstep, by simp⟩
    | some t =>
      obtain ⟨x, rest, new, hqueue, hqueue', htaken⟩ := h s t hstep
      have hrest : iterate step (n + 1) s = iterate step n t := by simp [iterate, hstep]
      rw [hrest] at hend ⊢
      obtain ⟨xs, put, hrun, hxs⟩ := ih hend
      refine ⟨x :: xs, new ++ put, .next hqueue hstep hqueue' hrun, ?_⟩
      rw [hxs, htaken, List.append_assoc, List.singleton_append]

end Lockstep.Search
