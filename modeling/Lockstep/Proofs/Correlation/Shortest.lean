import Lockstep.Proofs.Correlation.Fixpoint
import Lockstep.Proofs.Correlation.Limit
import Lockstep.Proofs.Correlation.Outcome
import Lockstep.Proofs.Search.Distance
/-!
Chains are shortest derivations. Quadruples are recorded in the order of how many rules it takes to
derive them, and each record is one rule farther from the seeds than its parent. So the chain of a
quadruple has as few rules as any derivation of it.
-/

set_option autoImplicit false

namespace Lockstep

open Search

namespace Progress

variable {e : Engine} {p : Progress} {c : Quadruple × StepKind} {cs : List (Quadruple × StepKind)}
  {parent : Option Quadruple} {most : Int} {r : Record}

/-- A record is old, or it was made for a quadruple that had none. -/
theorem mem_recordAll (hcs : ∀ c ∈ cs, c.1.isAligned = true)
    (hr : r ∈ (cs.foldl (record most parent) p).records) :
    r ∈ p.records ∨ (r.parent = parent ∧ r.quadruple ∉ p.records.map (·.quadruple) ∧
      ∃ c ∈ cs, c.1 = r.quadruple) := by
  induction cs generalizing p with
  | nil => exact Or.inl hr
  | cons c cs ih =>
    have hrest := ih (fun d hd => hcs d (by simp [hd])) hr
    rcases record_cases most parent (hcs c (by simp)) (p := p) with heq | heq | ⟨hnew, heq⟩
    · rw [heq] at hrest
      exact hrest.imp_right fun ⟨hp, hq, d, hd, h⟩ => ⟨hp, hq, d, by simp [hd], h⟩
    · rw [heq] at hrest
      exact hrest.imp_right fun ⟨hp, hq, d, hd, h⟩ => ⟨hp, hq, d, by simp [hd], h⟩
    · rw [heq, records_added] at hrest
      rcases hrest with hmem | ⟨hp, hq, d, hd, h⟩
      · rcases List.mem_append.mp hmem with hmem | hmem
        · exact Or.inl hmem
        · obtain rfl := List.mem_singleton.mp hmem
          exact Or.inr ⟨rfl, hnew, c, by simp, rfl⟩
      · rw [List.map_append, List.mem_append, not_or] at hq
        exact Or.inr ⟨hp, hq.1, d, by simp [hd], h⟩

/-- What holds between two steps without a limit: the search goes by distance, and each record is one
rule farther away than its parent. -/
structure Layered (e : Engine) (p : Progress) : Prop where
  halt : p.halt = none
  ordered : p.frontier.Ordered e.next e.seeds
  farther : ∀ r ∈ p.records, ∀ q, r.parent = some q →
    distance e.next e.seeds r.quadruple = distance e.next e.seeds q + 1

theorem Layered.step (hmost : e.config.most = 0) :
    Preserves (Progress.step e e.advanceA) (Layered e) := by
  intro p p' h hstep
  have hview : Frontier.visit e.next p.frontier = some p'.frontier := by
    rw [← Engine.step_unlimited hmost h.halt, hstep]
    rfl
  refine ⟨Engine.step_halt hmost p p' h.halt hstep, Frontier.Ordered.visit _ _ h.ordered hview, ?_⟩
  obtain ⟨r, rest, -, hw, rfl⟩ := step_eq_some hstep
  have hwait : p.frontier.waiting = r.quadruple :: rest.map (·.quadruple) := by
    simp [frontier, hw]
  intro s hs q hq
  rcases mem_recordAll (fun _ hc => Engine.isAligned_of_mem_expand hc) hs with hold | hnew
  · exact h.farther s (records_taken hw ▸ hold) q hq
  · obtain ⟨hparent, hfresh, c, hc, heq⟩ := hnew
    obtain rfl : r.quadruple = q := Option.some.inj (hparent.symm.trans hq)
    rw [records_taken hw, ← found_frontier] at hfresh
    have hnext : s.quadruple ∈ e.next r.quadruple := List.mem_map.mpr ⟨c, hc, heq⟩
    exact h.ordered.distance_new hwait hnext hfresh

end Progress

namespace Engine

variable {e : Engine} {q r : Quadruple} {rs : List Record} {n : Nat}

theorem start_layered (hmost : e.config.most = 0) : e.start.Layered e := by
  obtain ⟨hfrontier, hhalt⟩ := start_unlimited hmost
  refine ⟨hhalt, hfrontier ▸ .of_addAll e.seeds, fun r hr q hq => ?_⟩
  rcases Progress.mem_recordAll (fun _ hc => isAligned_of_mem_seeds hc) hr with hold | hnew
  · simp [Progress.records] at hold
  · exact absurd (hnew.1.symm.trans hq) (by simp)

theorem run_layered (hmost : e.config.most = 0) : (e.runWith e.advanceA).Layered e :=
  iterate_preserves (Progress.Layered.step hmost) _ (start_layered hmost)

/-- Whatever the limit, records are in the order of distance, each one rule farther than its
parent. -/
theorem outcome_layered (e : Engine) :
    e.outcome.quadruples.Pairwise
      (fun q r => distance e.next e.seeds q ≤ distance e.next e.seeds r) ∧
    ∀ r ∈ e.outcome.records, ∀ q, r.parent = some q →
      distance e.next e.seeds r.quadruple = distance e.next e.seeds q + 1 := by
  obtain ⟨n, hn⟩ := e.exists_first
  have h : ((e.limited 0).runWith e.advanceA).Layered (e.limited 0) := run_layered rfl
  have hrecords : e.outcome.records = ((e.limited 0).runWith e.advanceA).records.take n := hn
  refine ⟨?_, fun r hr => h.farther r (List.mem_of_mem_take (hrecords ▸ hr))⟩
  have hsorted := h.ordered.sorted
  rw [Progress.found_frontier] at hsorted
  rw [Correlation.quadruples, hrecords, List.map_take]
  exact hsorted.take

/-- So many rules lead from a seed to a quadruple. -/
inductive DerivedIn (e : Engine) : Nat → Quadruple → Prop
  | seed {q : Quadruple} : e.IsSeed q → DerivedIn e 0 q
  | derives {n : Nat} {k : StepKind} {q r : Quadruple} : DerivedIn e n q → e.Derives k q r →
      DerivedIn e (n + 1) r

theorem derivedIn_iff : e.DerivedIn n q ↔ ReachedIn e.next e.seeds n q := by
  constructor
  · intro h
    induction h with
    | seed hs => exact .start (mem_seeds.mpr hs)
    | derives _ hd ih => exact ih.next (mem_next.mpr ⟨_, hd⟩)
  · intro h
    induction h with
    | start hs => exact .seed (mem_seeds.mp hs)
    | next _ hr ih =>
      obtain ⟨k, hk⟩ := mem_next.mp hr
      exact ih.derives hk

/-- A chain in which each record is one rule farther than its parent is as long as its quadruple is
far away. -/
theorem Lineage.length_rules (h : e.Lineage rs q) (hfar : ∀ r ∈ rs, ∀ p, r.parent = some p →
      distance e.next e.seeds r.quadruple = distance e.next e.seeds p + 1) :
    (rs.filter (·.step != .seed)).length = distance e.next e.seeds q ∧
    rs.length = distance e.next e.seeds q + 1 := by
  induction h with
  | seed hs => simp [distance_start (mem_seeds.mpr hs)]
  | @derived rs p q k _ hd _ ih =>
    obtain ⟨hrules, hlength⟩ := ih fun r hr => hfar r (by simp [hr])
    have hstep : (k != .seed) = true := by cases hd <;> rfl
    have hlast : distance e.next e.seeds q = distance e.next e.seeds p + 1 :=
      hfar ⟨q, some p, k⟩ (by simp) p rfl
    simp [List.filter_append, hrules, hlength, hlast, hstep]

/-- What the chain of a quadruple is: a derivation from a seed that goes nowhere twice, and as short
as any. -/
structure Explains (e : Engine) (q : Quadruple) (chain : List Record) : Prop where
  nodup : (chain.map (·.quadruple)).Nodup
  isSeed : e.IsSeed ⟨q.source1, q.source2, q.source1, q.source2⟩
  head : chain.head? = some ⟨⟨q.source1, q.source2, q.source1, q.source2⟩, none, .seed⟩
  last : chain.getLast?.map (·.quadruple) = some q
  linked : chain.IsChain fun r s =>
    s.parent = some r.quadruple ∧ ∀ k, e.Derives k r.quadruple s.quadruple ↔ k = s.step
  shortest : IsLeast {n | e.DerivedIn n q} (chain.filter (·.step != .seed)).length

theorem chain_far (e : Engine) (q : Quadruple) : ∀ r ∈ e.outcome.chain q, ∀ p, r.parent = some p →
    distance e.next e.seeds r.quadruple = distance e.next e.seeds p + 1 :=
  fun r hr => e.outcome_layered.2 r ((e.chain_sublist q).subset hr)

/-- A chain is one record longer than its quadruple is far away. -/
theorem length_chain (hq : q ∈ e.outcome.quadruples) :
    (e.outcome.chain q).length = distance e.next e.seeds q + 1 :=
  ((outcome_lineage hq).length_rules (e.chain_far q)).2

theorem Lineage.explains (h : e.Lineage rs q) (hfar : ∀ r ∈ rs, ∀ p, r.parent = some p →
    distance e.next e.seeds r.quadruple = distance e.next e.seeds p + 1) : e.Explains q rs where
  nodup := h.nodup
  isSeed := h.isSeed
  head := h.head?
  last := h.getLast?
  linked := h.linked
  shortest := by
    rw [(h.length_rules hfar).1]
    simpa only [derivedIn_iff] using h.reached.isLeast_distance

/-- Every quadruple is recorded once and after its parent, the chain of each explains it with as few
rules as there can be, and what is recorded later has no shorter chain. -/
theorem solve_shortest (e : Engine) : ∃ c, e.solve = .ok c ∧ c.quadruples.Nodup ∧
    (∀ r ∈ c.records, ∀ p, r.parent = some p → [p, r.quadruple].Sublist c.quadruples) ∧
    (∀ q ∈ c.quadruples, e.Explains q (c.chain q) ∧ (c.chain q).Sublist c.records) ∧
    (c.quadruples.map fun q => (c.chain q).length).Pairwise (· ≤ ·) := by
  refine ⟨e.outcome, e.solve_eq_outcome, e.nodup_outcome, e.parent_before, ?_, ?_⟩
  · exact fun q hq => ⟨(outcome_lineage hq).explains (e.chain_far q), e.chain_sublist q⟩
  · rw [List.pairwise_map]
    refine e.outcome_layered.1.imp_of_mem fun {q r} hq hr hle => ?_
    rw [length_chain hq, length_chain hr]
    exact Nat.succ_le_succ hle

/-- It takes three rules to come to the first sink pair of the sample. -/
theorem solve_shortest_sample : ∃ c, sample.solve = .ok c ∧ ∃ q ∈ c.quadruples,
    c.isFinding q = true ∧ sample.Explains q (c.chain q) ∧ (c.chain q).length = 4 := by
  obtain ⟨c, hc, -, -, hchains, -⟩ := solve_shortest sample
  obtain rfl := Except.ok.inj ((solve_eq_outcome _).symm.trans hc)
  obtain ⟨q, hq, hsink, hlength⟩ : ∃ q ∈ sample.outcome.quadruples,
      sample.outcome.isFinding q = true ∧ (sample.outcome.chain q).length = 4 := by decide
  exact ⟨_, hc, q, hq, hsink, (hchains q hq).1, hlength⟩

end Engine
end Lockstep
