import Lockstep.Proofs.Flow.Shortening
/-!
Call stacks. A stack holds every call that is open: a call pushes its site, a return pops it or is
refused, and a jump forgets them all. A call string does the same as long as there is room in it,
and where it gives up calls it still holds the latest ones of the stack.
-/

set_option autoImplicit false

namespace Lockstep

/-- The sites of all open calls, the latest one last. -/
abbrev CallStack := List Json

/-- The open calls after a step, if the step can be taken. With none of them open a return may go
anywhere. -/
def CallStack.along (stack : CallStack) (e : FlowEdge) : Option CallStack :=
  match e.kind with
  | .internal => some stack
  | .call => some (stack ++ [e.site])
  | .return =>
    match stack.getLast? with
    | none => some stack
    | some latest => if sameSite latest e.site then some stack.dropLast else none
  | .jump => some []

namespace CallString

variable {c : CallString} {e : FlowEdge} {stack stack' : CallStack}

theorem pushBounded_of_lt {α : Type} {bound : Int} {xs : List α} (x : α)
    (h : xs.length < bound.toNat) : pushBounded bound xs x = xs ++ [x] := by
  have hnone : ((xs.length : Int) + 1 - bound).toNat = 0 := by omega
  rw [pushBounded, hnone, List.drop_zero]

/-- With room for a call, a call string does what a stack does. -/
theorem along_sites (hroom : e.kind = .call → c.sites.length < c.bound.toNat) :
    (c.along e).map (·.sites) = CallStack.along c.sites e := by
  unfold CallString.along CallString.step CallStack.along
  cases hk : e.kind with
  | internal => rfl
  | call => simp [CallString.extend, pushBounded_of_lt _ (hroom hk), FlowEdge.site]
  | «return» =>
    unfold CallString.closeCall
    cases hl : c.sites.getLast? with
    | none => rfl
    | some latest =>
      by_cases hs : sameSite latest e.callSite.key = true
      · simp [hs, FlowEdge.site, pop]
      · simp [hs, FlowEdge.site]
  | jump => rfl

/-- A call string that holds the latest calls of a stack allows what the stack allows, and goes on
holding the latest ones. -/
theorem along_of_suffix (h : c.sites <:+ stack) (hs : CallStack.along stack e = some stack') :
    ∃ d, c.along e = some d ∧ d.sites <:+ stack' := by
  -- the stack is a call string itself, under a bound that leaves it room for one more call
  let whole : CallString := ⟨stack, [], max c.bound (stack.length + 1)⟩
  have hroom : stack.length < whole.bound.toNat := by
    simp only [whole]
    omega
  have hwhole : (whole.along e).map (·.sites) = some stack' :=
    (along_sites fun _ => hroom).trans hs
  obtain ⟨d, hd, rfl⟩ := Option.map_eq_some_iff.mp hwhole
  have hshort : c.Shortens whole := ⟨h, Int.toNat_le_toNat (Int.le_max_left _ _)⟩
  obtain ⟨c', hc', hrel⟩ := shortens_simulates hshort hd
  exact ⟨c', hc', hrel.sites⟩

end CallString
end Lockstep
