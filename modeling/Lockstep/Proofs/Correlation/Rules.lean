import Lockstep.Correlation.Engine
/-!
The rules of a correlation, apart from how they are computed: what a seed is, and what each rule
derives from a quadruple. Looking partners up by their routine finds those that a search through all
of them would find, in the same order.
-/

set_option autoImplicit false

namespace Lockstep.Engine

theorem Buckets.get_cons (s : Routine) (ns : List PathNode) (b : Buckets) (r : Routine) :
    Buckets.get ((s, ns) :: b) r = if r = s then ns else b.get r := by
  unfold get
  rw [List.lookup_cons]
  by_cases h : r = s
  · rw [if_pos h, beq_iff_eq.mpr h]
    rfl
  · rw [if_neg h, beq_eq_false_iff_ne.mpr h]

theorem Buckets.get_add (n : PathNode) (b : Buckets) (r : Routine) :
    (b.add n).get r = if n.routine = r then b.get r ++ [n] else b.get r := by
  induction b with
  | nil =>
    rw [add, get_cons]
    by_cases h : n.routine = r
    · rw [if_pos h, if_pos h.symm]
      rfl
    · rw [if_neg h, if_neg fun hr => h hr.symm]
  | cons p rest ih =>
    obtain ⟨s, ns⟩ := p
    by_cases hs : s = n.routine
    · rw [add, if_pos hs, get_cons, get_cons]
      by_cases h : n.routine = r
      · rw [if_pos h, if_pos (h.symm.trans hs.symm), if_pos (h.symm.trans hs.symm)]
      · have hr : r ≠ s := fun hr => h (hr.trans hs).symm
        rw [if_neg h, if_neg hr, if_neg hr]
    · rw [add, if_neg hs, get_cons, get_cons, ih]
      by_cases hr : r = s
      · rw [if_pos hr, if_pos hr, if_neg fun h : n.routine = r => hs (hr.symm.trans h.symm)]
      · rw [if_neg hr, if_neg hr]

theorem Buckets.get_ofList (ns : List PathNode) (r : Routine) :
    (ofList ns).get r = ns.filter (·.routine == r) := by
  have hfold (b : Buckets) :
      (ns.foldl (fun b n => b.add n) b).get r = b.get r ++ ns.filter (·.routine == r) := by
    induction ns generalizing b with
    | nil => simp
    | cons n ns ih =>
      rw [List.foldl_cons, ih, get_add]
      by_cases h : n.routine = r <;> simp [h]
  simpa [ofList, get] using hfold []

/-- A joint source: a quadruple that starts where its two flows are. -/
structure IsSeed (e : Engine) (q : Quadruple) : Prop where
  start1 : q.source1 = q.node1
  start2 : q.source2 = q.node2
  sourceA : q.node1 ∈ e.flowA.sources
  sourceB : q.node2 ∈ e.flowB.sources
  aligned : q.node1.routine = q.node2.routine
  pair : e.pairs.isSourcePair q.node1.node q.node2.node = true

inductive Derives (e : Engine) : StepKind → Quadruple → Quadruple → Prop
  | advanceA {q : Quadruple} {n : PathNode} : n ∈ e.flowA.successors q.node1 →
      n.routine = q.node2.routine → Derives e .advanceA q { q with node1 := n }
  | advanceB {q : Quadruple} {n : PathNode} : n ∈ e.flowB.successors q.node2 →
      n.routine = q.node1.routine → Derives e .advanceB q { q with node2 := n }
  | joint {q : Quadruple} {n₁ n₂ : PathNode} : n₁ ∈ e.flowA.successors q.node1 →
      n₂ ∈ e.flowB.successors q.node2 → n₁.routine = n₂.routine → n₁.routine ≠ q.node1.routine →
      (e.config.policy = .callSite → e.sameCrossing q n₁ n₂ = true) →
      Derives e .joint q { q with node1 := n₁, node2 := n₂ }

variable {e : Engine} {q r : Quadruple} {k : StepKind}

theorem mem_seeds : q ∈ e.seeds ↔ e.IsSeed q := by
  simp only [seeds, Buckets.get_ofList, List.mem_flatMap, List.mem_map, List.mem_filter,
    beq_iff_eq]
  constructor
  · intro h
    obtain ⟨a, ha, b, ⟨⟨hb, hr⟩, hp⟩, rfl⟩ := h
    exact ⟨rfl, rfl, ha, hb, hr.symm, hp⟩
  · obtain ⟨s₁, s₂, n₁, n₂⟩ := q
    intro h
    obtain ⟨h₁, h₂, ha, hb, hr, hp⟩ := h
    refine ⟨n₁, ha, n₂, ⟨⟨hb, hr.symm⟩, hp⟩, ?_⟩
    rw [Quadruple.mk.injEq]
    exact ⟨h₁.symm, h₂.symm, rfl, rfl⟩

theorem allows_iff {n₁ n₂ : PathNode} : e.allows q n₁ n₂ = true ↔
    (e.config.policy = .callSite → e.sameCrossing q n₁ n₂ = true) := by
  unfold allows
  cases h : e.config.policy <;> simp

theorem mem_advanceA : r ∈ e.advanceA q ↔ e.Derives .advanceA q r := by
  simp only [advanceA, List.mem_map, List.mem_filter, beq_iff_eq]
  constructor
  · intro h
    obtain ⟨n, ⟨hn, hr⟩, rfl⟩ := h
    exact .advanceA hn hr
  · intro h
    cases h with
    | advanceA hn hr => exact ⟨_, ⟨hn, hr⟩, rfl⟩

theorem mem_advanceB : r ∈ e.advanceB q ↔ e.Derives .advanceB q r := by
  simp only [advanceB, List.mem_map, List.mem_filter, beq_iff_eq]
  constructor
  · intro h
    obtain ⟨n, ⟨hn, hr⟩, rfl⟩ := h
    exact .advanceB hn hr
  · intro h
    cases h with
    | advanceB hn hr => exact ⟨_, ⟨hn, hr⟩, rfl⟩

theorem mem_joint : r ∈ e.joint q ↔ e.Derives .joint q r := by
  simp only [joint, Buckets.get_ofList, List.mem_flatMap, List.mem_map, List.mem_filter,
    beq_iff_eq, bne_iff_ne, allows_iff]
  constructor
  · intro h
    obtain ⟨n₁, ⟨h₁, hr⟩, n₂, ⟨⟨⟨h₂, -⟩, heq⟩, ha⟩, rfl⟩ := h
    exact .joint h₁ h₂ heq.symm hr ha
  · intro h
    cases h with
    | joint h₁ h₂ heq hr ha => exact ⟨_, ⟨h₁, hr⟩, _, ⟨⟨⟨h₂, heq ▸ hr⟩, heq.symm⟩, ha⟩, rfl⟩

/-- Expanding a quadruple applies every rule to it, and nothing else. -/
theorem mem_expand : (r, k) ∈ e.expandWith e.advanceA q ↔ e.Derives k q r := by
  simp only [expandWith, List.mem_append, List.mem_map, mem_advanceA, mem_advanceB, mem_joint,
    Prod.mk.injEq]
  constructor
  · intro h
    rcases h with (⟨s, hs, rfl, rfl⟩ | ⟨s, hs, rfl, rfl⟩) | ⟨s, hs, rfl, rfl⟩ <;> exact hs
  · intro h
    cases k with
    | seed => cases h
    | advanceA => exact Or.inl (Or.inl ⟨r, h, rfl, rfl⟩)
    | advanceB => exact Or.inl (Or.inr ⟨r, h, rfl, rfl⟩)
    | joint => exact Or.inr ⟨r, h, rfl, rfl⟩

theorem IsSeed.isAligned (h : e.IsSeed q) : q.isAligned = true := by
  simpa [Quadruple.isAligned] using h.aligned

theorem Derives.isAligned (h : e.Derives k q r) : r.isAligned = true := by
  cases h with
  | advanceA _ hr => simpa [Quadruple.isAligned] using hr
  | advanceB _ hr => simpa [Quadruple.isAligned] using hr.symm
  | joint _ _ hr _ _ => simpa [Quadruple.isAligned] using hr

theorem isAligned_of_mem_expand {c : Quadruple × StepKind}
    (hc : c ∈ e.expandWith e.advanceA q) : c.1.isAligned = true := (mem_expand.mp hc).isAligned

theorem isAligned_of_mem_seeds {c : Quadruple × StepKind}
    (hc : c ∈ e.seeds.map (·, StepKind.seed)) : c.1.isAligned = true := by
  obtain ⟨q, hq, rfl⟩ := List.mem_map.mp hc
  exact (mem_seeds.mp hq).isAligned

end Lockstep.Engine
