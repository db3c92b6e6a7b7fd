import Lockstep.Proofs.Flow.Walk
/-!
Walks under a smaller bound. A context that keeps fewer calls keeps the latest of those that a longer
one keeps. It allows whatever the longer one allows and stays the shorter of the two, so that a walk
under one bound is a walk under every smaller one.
-/

set_option autoImplicit false

namespace Lockstep

namespace CallString

/-- The latest calls of another context, under a bound that allows no more. -/
structure Shortens (c d : CallString) : Prop where
  sites : c.sites <:+ d.sites
  bound : c.bound.toNat ≤ d.bound.toNat

variable {c d d' : CallString} {site : Json} {e : FlowEdge} {k k' : Int}

theorem shortens_empty (h : k ≤ k') : (empty k).Shortens (empty k') :=
  ⟨List.suffix_rfl, Int.toNat_le_toNat h⟩

theorem pushBounded_suffix {α : Type} (bound : Int) (xs : List α) (x : α) :
    pushBounded bound xs x <:+ xs ++ [x] := List.drop_suffix _ _

theorem Shortens.extend (h : c.Shortens d) (site : Json) :
    (c.extend site).Shortens (d.extend site) := by
  obtain ⟨older, hd⟩ := h.sites
  have hlonger : c.sites ++ [site.key] <:+ d.sites ++ [site.key] :=
    ⟨older, by rw [← hd, List.append_assoc]⟩
  have hlen := h.sites.length_le
  have hbound := h.bound
  have hkept : (pushBounded c.bound c.sites site.key).length ≤
      (pushBounded d.bound d.sites site.key).length := by
    rw [length_pushBounded, length_pushBounded]
    omega
  -- both are what is left at the end of the longer list
  have hc := (pushBounded_suffix c.bound c.sites site.key).trans hlonger
  exact ⟨List.suffix_of_suffix_length_le hc (pushBounded_suffix ..) hkept, h.bound⟩

theorem Shortens.pop (h : c.Shortens d) (hc : c.sites ≠ []) : c.pop.Shortens d.pop := by
  obtain ⟨older, hd⟩ := h.sites
  refine ⟨⟨older, ?_⟩, h.bound⟩
  simp only [CallString.pop]
  rw [← hd, List.dropLast_append_of_ne_nil hc]

theorem Shortens.closeCall (h : c.Shortens d) (hd : d.closeCall site = some d') :
    ∃ c', c.closeCall site = some c' ∧ c'.Shortens d' := by
  have hbound := h.bound
  cases hl : c.sites.getLast? with
  | none =>
    -- the call that is closed has been given up here, or none was open in either
    have hc : c.sites = [] := List.getLast?_eq_none_iff.mp hl
    refine ⟨c, by simp [CallString.closeCall, hl], ?_, ?_⟩
    · rw [hc]
      exact List.nil_suffix
    · rwa [bound_closeCall hd]
  | some latest =>
    obtain ⟨older, hsites⟩ := h.sites
    have hc : c.sites ≠ [] := by
      intro hnil
      simp [hnil] at hl
    have hlast : d.sites.getLast? = some latest := by
      rw [← hsites, List.getLast?_append, hl, Option.some_or]
    unfold CallString.closeCall at hd ⊢
    rw [hlast] at hd
    by_cases hs : sameSite latest site.key = true
    · simp only [hl, if_pos hs, Option.some.injEq] at hd ⊢
      exact ⟨c.pop, rfl, hd ▸ h.pop hc⟩
    · simp [hs] at hd

/-- A return does not preserve that the shorter context is the longer one cut to its bound. That it
is some suffix is preserved by every step. -/
theorem shortens_simulates : Simulates Shortens := by
  intro c d d' e h hd
  unfold CallString.along CallString.step at hd ⊢
  cases hk : e.kind with
  | internal =>
    simp only [hk] at hd
    exact ⟨c, rfl, Option.some.inj hd ▸ h⟩
  | call =>
    simp only [hk] at hd
    exact ⟨_, rfl, Option.some.inj hd ▸ h.extend e.callSite⟩
  | «return» =>
    simp only [hk] at hd
    exact h.closeCall hd
  | jump =>
    simp only [hk] at hd
    exact ⟨_, rfl, Option.some.inj hd ▸ ⟨List.suffix_rfl, h.bound⟩⟩

end CallString
end Lockstep
