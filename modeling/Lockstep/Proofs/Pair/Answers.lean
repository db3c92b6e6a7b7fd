import Lockstep.Catalogue.Basic
import Lockstep.Pair.Table
import Lockstep.Proofs.Pair.Projection
/-!
Declarations that have an answer to all that they are asked about the nodes of a graph. A table
answers for every graph, a catalogue for every graph whose labels are texts as far as its message
can be filled in.
-/

set_option autoImplicit false

namespace Lockstep

/-- Every routine and every call can be named; by a text, for one thing, they can. -/
structure FlowGraph.Nameable (g : FlowGraph) : Prop where
  file : ∀ r ∈ g.routines, r.file.isScalar = true
  callSite : ∀ e ∈ g.edges, e.callSite.isScalar = true

/-- The declaration answers all that can be asked about the nodes of the graph. -/
structure PairConfig.Answers (pairs : PairConfig) (g : FlowGraph) : Prop where
  sourcePair : ∀ a ∈ g.nodes, ∀ b ∈ g.nodes, (pairs.sourcePair a b).isSome = true
  sinkPair : ∀ a ∈ g.nodes, ∀ b ∈ g.nodes, (pairs.sinkPair a b).isSome = true
  barrier : ∀ side, ∀ n ∈ g.nodes, (pairs.barrier side n).isSome = true
  describe : ∀ a ∈ g.nodes, ∀ b ∈ g.nodes, ∀ x ∈ g.nodes, ∀ y ∈ g.nodes,
    ∃ t, pairs.describe a b x y = .ok t

variable {g : FlowGraph} {pairs : PairConfig}

theorem PairConfig.Answers.settles (h : pairs.Answers g) (hg : g.Valid) (hname : g.Nameable) :
    pairs.settles g = true := by
  simp only [PairConfig.settles, Bool.and_eq_true, List.all_eq_true]
  refine ⟨hname.file, fun p hp => ?_⟩
  obtain ⟨ha, hb, -⟩ := hg.mem_routinePairs.mp hp
  exact ⟨h.sourcePair _ ha _ hb, h.sinkPair _ ha _ hb⟩

theorem PairTable.answers (t : PairTable) (g : FlowGraph) : t.config.Answers g where
  sourcePair _ _ _ _ := rfl
  sinkPair _ _ _ _ := rfl
  barrier _ _ _ := rfl
  describe _ _ _ _ _ _ _ _ := ⟨_, rfl⟩

section Catalogue

variable {α : Type} {x : α} {ts : List (α → Option Bool)} {n a b : FlowNode}

theorem isSome_allHold (h : ∀ t ∈ ts, (t x).isSome = true) : (allHold x ts).isSome = true := by
  induction ts with
  | nil => rfl
  | cons t ts ih =>
    have ht := h t (by simp)
    have hts := ih fun u hu => h u (by simp [hu])
    unfold allHold
    cases hx : t x with
    | none => simp [hx] at ht
    | some answer => cases answer <;> simp [hts]

theorem isSome_someHolds (h : ∀ t ∈ ts, (t x).isSome = true) : (someHolds x ts).isSome = true := by
  induction ts with
  | nil => rfl
  | cons t ts ih =>
    have ht := h t (by simp)
    have hts := ih fun u hu => h u (by simp [hu])
    unfold someHolds
    cases hx : t x with
    | none => simp [hx] at ht
    | some answer => cases answer <;> simp [hts]

theorem Matcher.isSome_given {β : Type} (want : Option β) {test : β → FlowNode → Option Bool}
    (h : ∀ w, (test w n).isSome = true) : (given want test n).isSome = true := by
  cases want with
  | none => rfl
  | some w => exact h w

theorem Matcher.isSome_matches? (m : Matcher) (hn : n.label.asText?.isSome = true) :
    (m.matches? n).isSome = true := by
  refine isSome_allHold fun t ht => ?_
  have hsearch : ∀ p, (searchLabel p n).isSome = true := fun p => by simpa [searchLabel] using hn
  simp only [tests, List.mem_cons, List.not_mem_nil, or_false] at ht
  rcases ht with rfl | rfl | rfl | rfl | rfl | rfl | rfl
  case inr.inr.inl => exact isSome_given m.labelMatch hsearch
  all_goals exact isSome_given _ fun _ => rfl

theorem PairRule.isSome_matches? (r : PairRule) (ha : a.label.asText?.isSome = true)
    (hb : b.label.asText?.isSome = true) : (r.matches? a b).isSome = true := by
  unfold matches?
  split
  · rfl
  split
  · rfl
  refine isSome_allHold fun t ht => ?_
  rcases List.mem_pair.mp ht with rfl | rfl
  · exact r.first.isSome_matches? ha
  · exact r.second.isSome_matches? hb

theorem Catalogue.isSome_pairHolds (rules : List PairRule) (ha : a.label.asText?.isSome = true)
    (hb : b.label.asText?.isSome = true) : (pairHolds rules a b).isSome = true := by
  refine isSome_someHolds fun t ht => ?_
  obtain ⟨r, -, rfl⟩ := List.mem_map.mp ht
  exact r.isSome_matches? ha hb

theorem Catalogue.answers (c : Catalogue) (hlabel : ∀ n ∈ g.nodes, n.label.asText?.isSome = true)
    (hdescribe : ∀ a ∈ g.nodes, ∀ b ∈ g.nodes, ∀ x ∈ g.nodes, ∀ y ∈ g.nodes,
      ∃ t, c.describe a b x y = .ok t) : c.config.Answers g where
  sourcePair a ha b hb := isSome_pairHolds c.sourceRules (hlabel a ha) (hlabel b hb)
  sinkPair a ha b hb := isSome_pairHolds c.sinkRules (hlabel a ha) (hlabel b hb)
  barrier side n hn := by
    refine isSome_someHolds fun t ht => ?_
    obtain ⟨r, -, rfl⟩ := List.mem_map.mp ht
    exact r.matcher.isSome_matches? (hlabel n hn)
  describe := hdescribe

end Catalogue
end Lockstep
