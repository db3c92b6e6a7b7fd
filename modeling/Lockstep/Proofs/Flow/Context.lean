import Lockstep.Flow.Exploration
/-!
Calling contexts along the edges of a graph. How sites were written does not matter to where a
context leads, and a context that began empty has no more sites than its bound, all of them sites
through which the graph calls.
-/

set_option autoImplicit false

namespace Lockstep.CallString

/-- The same open calls under the same bound, however their sites are written. -/
def Same (c d : CallString) : Prop := c.sites = d.sites ∧ c.bound = d.bound

theorem Same.refl (c : CallString) : c.Same c := ⟨rfl, rfl⟩

theorem Same.symm {c d : CallString} (h : c.Same d) : d.Same c := ⟨h.1.symm, h.2.symm⟩

theorem Same.trans {c d e : CallString} (h : c.Same d) (h' : d.Same e) : c.Same e :=
  ⟨h.1.trans h'.1, h.2.trans h'.2⟩

theorem Same.extend {c d : CallString} (h : c.Same d) (site : Json) :
    (c.extend site).Same (d.extend site) := by
  simp [Same, CallString.extend, h.1, h.2]

theorem Same.closeCall {c d c' : CallString} {site : Json} (h : c.Same d)
    (hc : c.closeCall site = some c') : ∃ d', d.closeCall site = some d' ∧ c'.Same d' := by
  unfold CallString.closeCall at hc ⊢
  rw [← h.1]
  cases hl : c.sites.getLast? with
  | none =>
    rw [hl] at hc
    exact ⟨d, rfl, Option.some.inj hc ▸ h⟩
  | some latest =>
    by_cases hs : sameSite latest site.key = true
    · simp only [hl, if_pos hs] at hc ⊢
      rw [← Option.some.inj hc]
      exact ⟨d.pop, rfl, by simp [pop, h.1], h.2⟩
    · simp [hl, hs] at hc

theorem Same.along {c d c' : CallString} {e : FlowEdge} (h : c.Same d)
    (hc : c.along e = some c') : ∃ d', d.along e = some d' ∧ c'.Same d' := by
  unfold CallString.along CallString.step at hc ⊢
  cases hk : e.kind with
  | internal =>
    simp only [hk] at hc
    exact ⟨d, rfl, Option.some.inj hc ▸ h⟩
  | call =>
    simp only [hk] at hc
    exact ⟨_, rfl, Option.some.inj hc ▸ h.extend e.callSite⟩
  | «return» =>
    simp only [hk] at hc
    exact h.closeCall hc
  | jump =>
    simp only [hk] at hc
    refine ⟨_, rfl, ?_⟩
    rw [← Option.some.inj hc, h.2]
    exact .refl _

/-- What the context of a walk through a graph can be: not too long, and of sites that the graph
calls through. -/
structure Fits (g : FlowGraph) (depth : Int) (c : CallString) : Prop where
  bound : c.bound = depth
  length : c.sites.length ≤ depth.toNat
  site : ∀ s ∈ c.sites, s ∈ Exploration.callSites g

theorem Fits.empty (g : FlowGraph) (depth : Int) : Fits g depth (.empty depth) :=
  ⟨rfl, by simp [CallString.empty], by simp [CallString.empty]⟩

theorem mem_of_mem_pushBounded {α : Type} {bound : Int} {xs : List α} {x y : α}
    (h : y ∈ pushBounded bound xs x) : y ∈ xs ∨ y = x := by
  simpa using List.mem_of_mem_drop h

theorem Fits.extend {g : FlowGraph} {depth : Int} {c : CallString} (h : c.Fits g depth)
    {site : Json} (hs : site.key ∈ Exploration.callSites g) : (c.extend site).Fits g depth := by
  refine ⟨h.bound, ?_, ?_⟩
  · have hlen := length_pushBounded c.bound c.sites site.key
    have hb := h.bound
    simp only [CallString.extend]
    omega
  · intro s hmem
    rcases mem_of_mem_pushBounded hmem with hmem | rfl
    · exact h.site s hmem
    · exact hs

theorem Fits.pop {g : FlowGraph} {depth : Int} {c : CallString} (h : c.Fits g depth) :
    c.pop.Fits g depth := by
  refine ⟨h.bound, ?_, fun s hs => h.site s (List.dropLast_subset _ hs)⟩
  have hlen := h.length
  simp only [CallString.pop, List.length_dropLast]
  omega

theorem closeCall_eq_some {c d : CallString} {site : Json} (h : c.closeCall site = some d) :
    d = c ∨ d = c.pop := by
  unfold closeCall at h
  cases hl : c.sites.getLast? with
  | none => exact Or.inl (by simpa [hl] using h.symm)
  | some latest =>
    by_cases hs : sameSite latest site.key = true
    · exact Or.inr (by simpa [hl, hs] using h.symm)
    · simp [hl, hs] at h

theorem Fits.along {g : FlowGraph} {depth : Int} {c d : CallString} {e : FlowEdge}
    (h : c.Fits g depth) (he : e ∈ g.edges) (hd : c.along e = some d) : d.Fits g depth := by
  unfold CallString.along CallString.step at hd
  cases hk : e.kind with
  | internal =>
    simp only [hk] at hd
    exact Option.some.inj hd ▸ h
  | call =>
    simp only [hk] at hd
    have hsite : e.site ∈ Exploration.callSites g :=
      List.mem_map.mpr ⟨e, by simp [he, hk], rfl⟩
    exact Option.some.inj hd ▸ h.extend hsite
  | «return» =>
    simp only [hk] at hd
    rcases closeCall_eq_some hd with rfl | rfl
    · exact h
    · exact h.pop
  | jump =>
    simp only [hk] at hd
    rw [← Option.some.inj hd, h.bound]
    exact .empty g depth

end Lockstep.CallString
