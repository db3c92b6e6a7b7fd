import Mathlib.Algebra.Group.Nat.Defs
import Mathlib.Data.List.ProdSigma
import Lockstep.Proofs.Flow.Visit
import Lockstep.Proofs.Search.Reach
/-!
Explorations come to their end. There are no more path nodes than nodes of the graph times call
strings within the bound, and an exploration that has visited them all has met every place that a
walk from a source leads to.
-/

set_option autoImplicit false

namespace Lockstep

/-- All lists of at most so many of these things. -/
def wordsUpTo {α : Type} (xs : List α) : Nat → List (List α)
  | 0 => [[]]
  | n + 1 => [] :: xs.flatMap fun x => (wordsUpTo xs n).map (x :: ·)

theorem mem_wordsUpTo {α : Type} {xs w : List α} {n : Nat} :
    w ∈ wordsUpTo xs n ↔ w.length ≤ n ∧ ∀ a ∈ w, a ∈ xs := by
  induction n generalizing w with
  | zero => cases w <;> simp [wordsUpTo]
  | succ n ih =>
    cases w with
    | nil => simp [wordsUpTo]
    | cons a w =>
      simp only [wordsUpTo, List.mem_cons, List.mem_flatMap, List.mem_map, ih]
      constructor
      · intro h
        rcases h with h | ⟨x, hx, v, ⟨hlen, hv⟩, heq⟩
        · simp at h
        · obtain ⟨rfl, rfl⟩ := List.cons.inj heq
          exact ⟨by simpa using hlen, by simpa [hx] using hv⟩
      · intro h
        obtain ⟨hlen, hw⟩ := h
        exact Or.inr ⟨a, hw a (by simp), w, ⟨by simpa using hlen, fun b hb => hw b (by simp [hb])⟩, rfl⟩

theorem length_wordsUpTo_succ {α : Type} (xs : List α) (n : Nat) :
    (wordsUpTo xs (n + 1)).length = 1 + xs.length * (wordsUpTo xs n).length := by
  simp [wordsUpTo, List.length_flatMap, Nat.add_comm]

theorem length_wordsUpTo_le {α : Type} (xs : List α) (n : Nat) :
    (wordsUpTo xs n).length ≤ (xs.length + 1) ^ n := by
  induction n with
  | zero => simp [wordsUpTo]
  | succ n ih =>
    rw [length_wordsUpTo_succ, Nat.pow_succ, Nat.mul_add, Nat.mul_one, Nat.add_comm, Nat.mul_comm]
    have hpos : 0 < (xs.length + 1) ^ n := Nat.pow_pos (by omega)
    have hmul := Nat.mul_le_mul_right xs.length ih
    omega

theorem Arrives.at_place {g : FlowGraph} {cfg : FlowConfig} {depth : Int} {s t : Position}
    (hg : g.Valid) (hs : Arrives g cfg depth s) (ht : Arrives g cfg depth t)
    (hp : s.place = t.place) : s.node = t.node ∧ s.context.Same t.context := by
  simp only [Position.place, Prod.mk.injEq] at hp
  exact ⟨hg.node_ext hs.mem_nodes ht.mem_nodes hp.1, hp.2, hs.fits.bound.trans ht.fits.bound.symm⟩

namespace Exploration

variable {tag : FlowTag} {g : FlowGraph} {cfg : FlowConfig} {depth : Int} {seen : Seen}
  {x : Exploration} {n m : PathNode} {s t : Position}

/-- `sites` may be any list of the sites through which the graph calls. -/
theorem Explored.length_le (h : Explored tag g cfg depth seen x) {sites : List Json}
    (hsites : ∀ s ∈ callSites g, s ∈ sites) :
    x.nodes.length ≤ g.nodes.length * (wordsUpTo sites depth.toNat).length := by
  have hsub : ∀ p ∈ x.nodes.map (·.place),
      p ∈ (g.nodes.map (·.id)) ×ˢ (wordsUpTo sites depth.toNat) := by
    intro p hp
    obtain ⟨n, hn, rfl⟩ := List.mem_map.mp hp
    have hfits := (h.arrived n hn).arrives.fits
    rw [List.mem_product]
    refine ⟨List.mem_map.mpr ⟨n.node, h.node_mem hn, rfl⟩, mem_wordsUpTo.mpr ⟨hfits.length, ?_⟩⟩
    exact fun s hs => hsites s (hfits.site s hs)
  simpa [List.length_product] using Search.length_le_of_nodup h.places hsub

theorem lt_two_pow_magnitude (g : FlowGraph) (depth : Int) :
    g.nodes.length * (wordsUpTo (callSites g) depth.toNat).length < 2 ^ magnitude g depth := by
  have hnodes : g.nodes.length < 2 ^ (g.nodes.length.log2 + 1) := Nat.lt_log2_self
  have hsites : (callSites g).length + 1 ≤ 2 ^ ((callSites g).length.log2 + 1) := Nat.lt_log2_self
  have hwords : (wordsUpTo (callSites g) depth.toNat).length ≤
      2 ^ (((callSites g).length.log2 + 1) * depth.toNat) := by
    rw [Nat.pow_mul]
    exact Nat.le_trans (length_wordsUpTo_le ..) (Nat.pow_le_pow_left hsites _)
  calc g.nodes.length * (wordsUpTo (callSites g) depth.toNat).length
      ≤ g.nodes.length * 2 ^ (((callSites g).length.log2 + 1) * depth.toNat) :=
        Nat.mul_le_mul_left _ hwords
    _ < 2 ^ (g.nodes.length.log2 + 1) * 2 ^ (((callSites g).length.log2 + 1) * depth.toNat) :=
        Nat.mul_lt_mul_of_pos_right hnodes (Nat.pow_pos (by omega))
    _ = 2 ^ (g.nodes.length.log2 + 1 + ((callSites g).length.log2 + 1) * depth.toNat) :=
        (Nat.pow_add ..).symm
    _ ≤ 2 ^ magnitude g depth := by
        apply Nat.pow_le_pow_right (by omega)
        simp only [magnitude, Nat.add_mul, Nat.mul_comm depth.toNat]
        omega

theorem complete_settled (hg : g.Valid) : Settled tag g cfg depth (complete tag g cfg depth) := by
  rw [complete, Search.exhaust_eq_iterate]
  exact Search.iterate_preserves (visit_preserves hg) _ (start_settled hg)

theorem complete_halts (hg : g.Valid) : visit tag g cfg (complete tag g cfg depth) = none := by
  rw [complete, Search.exhaust_eq_iterate]
  refine Search.iterate_halts (fun x => x.visited.length)
    (g.nodes.length * (wordsUpTo (callSites g) depth.toNat).length) (visit_preserves hg) ?_ _
    (start_settled hg) ?_
  · intro x y h hy
    have hlen := Explored.length_le h fun _ hs => hs
    obtain ⟨-, hgrow, hlt⟩ := h.visit hg hy
    omega
  · have hlt := lt_two_pow_magnitude g depth
    have hsteps := Search.stepsIn_add_one (magnitude g depth)
    omega

theorem visited_complete (hg : g.Valid) :
    (complete tag g cfg depth).visited = (complete tag g cfg depth).nodes := by
  have hw : (complete tag g cfg depth).waiting = [] := by
    have hend : visit tag g cfg (complete tag g cfg depth) = none := complete_halts hg
    cases hw : (complete tag g cfg depth).waiting with
    | nil => rfl
    | cons n rest => simp [visit, hw] at hend
  simp [nodes, hw]

theorem complete_link_iff (hg : g.Valid) {l : Link} : l ∈ (complete tag g cfg depth).links ↔
    l.source ∈ (complete tag g cfg depth).nodes ∧ l.target ∈ (complete tag g cfg depth).nodes ∧
    firstEdge? g cfg l.source l.target = some l.edge := by
  rw [Explored.link_iff (complete_settled hg) l, visited_complete hg]
  by_cases hs : l.source ∈ (complete tag g cfg depth).nodes
  · simp [seenBy, firstEdge?, hs]
  · simp [seenBy, hs]

theorem complete_at (hg : g.Valid) (hn : n ∈ (complete tag g cfg depth).nodes)
    (ht : Arrives g cfg depth t) (hp : n.place = t.place) : n.At t :=
  (((complete_settled hg).arrived n hn).arrives).at_place hg ht hp

theorem complete_step (hg : g.Valid) (hn : n ∈ (complete tag g cfg depth).nodes)
    (ht : FlowStep g cfg n.position t) : ∃ m ∈ (complete tag g cfg depth).nodes, m.At t := by
  obtain ⟨e, he⟩ := ht
  have hseen : e ∈ seenBy g (complete tag g cfg depth).visited n := by
    rw [visited_complete hg]
    simpa [seenBy, hn, FlowGraph.mem_outEdges] using ⟨he.edge, he.source⟩
  obtain ⟨m, hm, hp⟩ := (complete_settled hg).closed n e hseen t he
  have hn' := ((complete_settled hg).arrived n hn).arrives
  exact ⟨m, hm, complete_at hg hm (hn'.step ⟨e, he⟩) hp⟩

/-- Every place that a walk from a source leads to has its path node. -/
theorem exists_complete (hg : g.Valid) (ht : Arrives g cfg depth t) :
    ∃ n ∈ (complete tag g cfg depth).nodes, n.At t := by
  obtain ⟨s, hs, hsrc, hw⟩ := ht
  have hs' : Arrives g cfg depth (.initial depth s) := ⟨s, hs, hsrc, .refl⟩
  induction hw with
  | refl =>
    obtain ⟨n, hn, hp⟩ := (complete_settled hg).started s hs hsrc
    exact ⟨n, hn, complete_at hg hn hs' hp⟩
  | @tail u v _ huv ih =>
    obtain ⟨n, hn, hnode, hsame⟩ := ih
    obtain ⟨e, he⟩ := huv
    have hnode' : u.node = n.position.node := hnode.symm
    obtain ⟨d, he', hd⟩ := he.same hnode' hsame.symm
    obtain ⟨m, hm, hmnode, hmsame⟩ := complete_step hg hn ⟨e, he'⟩
    exact ⟨m, hm, hmnode, hmsame.trans hd.symm⟩

end Exploration
end Lockstep
