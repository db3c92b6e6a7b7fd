import Lockstep.Flow.Trace
import Lockstep.Proofs.Flow.Kept
import Lockstep.Proofs.Search.Distance
/-!
Shortest traces. A trace is looked for backward from its target: path nodes come up in the order of how
far from there they are, each with a shortest way to the target, so the first source among them begins
a shortest trace. There always is one, since a path node is kept only on the way from a source.
-/

set_option autoImplicit false

namespace Lockstep.PathGraph

open Search

/-- A trace leads to its target from a source, by a step of the path graph from each path node to the
next. -/
structure TracesTo (p : PathGraph) (target : PathNode) (trace : List PathNode) : Prop where
  source : ∃ s ∈ p.sources, trace.head? = some s
  target : trace.getLast? = some target
  steps : trace.IsChain fun n m => m ∈ p.successors n

/-- How many steps it takes at least from a path node to the target. -/
noncomputable def remoteness (p : PathGraph) (target n : PathNode) : Nat :=
  distance p.predecessors [target] n

/-- A way from a path node to the target, of which every step comes nearer to it. -/
inductive Way (p : PathGraph) (target : PathNode) : PathNode → List PathNode → Prop
  | here : Way p target target [target]
  | before {n m : PathNode} {way : List PathNode} : Way p target m way → n ∈ p.predecessors m →
      p.remoteness target n = p.remoteness target m + 1 → Way p target n (n :: way)

variable {p : PathGraph} {target n m : PathNode} {way trace : List PathNode}

theorem remoteness_self (p : PathGraph) (target : PathNode) : p.remoteness target target = 0 :=
  distance_start (List.mem_singleton.mpr rfl)

namespace Way

theorem head? (h : p.Way target n way) : way.head? = some n := by
  cases h <;> rfl

theorem getLast? (h : p.Way target n way) : way.getLast? = some target := by
  induction h with
  | here => rfl
  | before _ _ _ ih => rw [List.getLast?_cons, ih, Option.getD_some]

theorem isChain (h : p.Way target n way) : way.IsChain fun n m => m ∈ p.successors n := by
  induction h with
  | here => exact .singleton _
  | before hway hn _ ih =>
    refine List.isChain_cons.mpr ⟨fun k hk => ?_, ih⟩
    obtain rfl := Option.some.inj (hway.head?.symm.trans hk)
    exact mem_predecessors.mp hn

theorem length (h : p.Way target n way) : way.length = p.remoteness target n + 1 := by
  induction h with
  | here => rw [remoteness_self, List.length_singleton]
  | before _ _ hfar ih => rw [List.length_cons, ih, hfar]

theorem remoteness_le (h : p.Way target n way) :
    ∀ k ∈ way, p.remoteness target k ≤ p.remoteness target n := by
  induction h with
  | here => simp
  | before _ _ hfar ih =>
    intro k hk
    rcases List.mem_cons.mp hk with rfl | hk
    · exact Nat.le_refl _
    · have hle := ih k hk
      omega

theorem nodup (h : p.Way target n way) : way.Nodup := by
  induction h with
  | here => exact List.nodup_singleton _
  | before hway _ hfar ih =>
    refine List.nodup_cons.mpr ⟨fun hmem => ?_, ih⟩
    have hle := hway.remoteness_le _ hmem
    omega

end Way

/-- However a trace leads to the target, it has one path node more than steps. -/
theorem reachedIn_of_isChain (hsteps : trace.IsChain fun n m => m ∈ p.successors n)
    (hhead : trace.head? = some n) (hlast : trace.getLast? = some target) :
    ReachedIn p.predecessors [target] (trace.length - 1) n := by
  induction trace generalizing n with
  | nil => simp at hhead
  | cons k trace ih =>
    obtain rfl : k = n := Option.some.inj hhead
    cases trace with
    | nil =>
      obtain rfl : k = target := Option.some.inj hlast
      exact .start (List.mem_singleton.mpr rfl)
    | cons m rest =>
      obtain ⟨hstep, hrest⟩ := List.isChain_cons_cons.mp hsteps
      have hreached : ReachedIn p.predecessors [target] rest.length m :=
        ih hrest rfl (by simpa using hlast)
      exact hreached.next (mem_predecessors.mpr hstep)

namespace Backtrack

/-- What holds between two steps of the search. While it goes on there is a way for each path node
that waits, and no source has come up; at its end there is a way from a source, and no source is
nearer to the target. -/
inductive Sound (p : PathGraph) (target : PathNode) : Backtrack → Prop
  | searching {f : Frontier PathNode} {ways : List (List PathNode)} :
      f.Ordered p.predecessors [target] → List.Forall₂ (p.Way target) f.waiting ways →
      (∀ n ∈ f.visited, n.isSource = false) → Sound p target ⟨f.found, ways, none⟩
  | found {reached : List PathNode} {ways : List (List PathNode)} {n : PathNode}
      {way : List PathNode} : p.Way target n way → n.isSource = true →
      (∀ k s, ReachedIn p.predecessors [target] k s → s.isSource = true →
        p.remoteness target n ≤ k) → Sound p target ⟨reached, ways, some way⟩

variable {f g : Frontier PathNode} {ways : List (List PathNode)} {b b' : Backtrack}
  {ns : List PathNode}

theorem start_sound (p : PathGraph) (target : PathNode) :
    Sound p target ⟨[target], [[target]], none⟩ := by
  have hordered : Frontier.Ordered p.predecessors [target] ⟨[], [target]⟩ := .of_addAll [target]
  exact .searching hordered (.cons .here .nil) (by simp)

/-- Path nodes that are found get a way each. -/
theorem prependAll (hways : List.Forall₂ (p.Way target) f.waiting ways)
    (hnew : ∀ n ∈ ns, n ∉ f.found → p.Way target n (n :: way)) :
    ∃ more, ns.foldl (prepend way) ⟨f.found, ways, none⟩ =
        ⟨(ns.foldl Frontier.add f).found, more, none⟩ ∧
      List.Forall₂ (p.Way target) (ns.foldl Frontier.add f).waiting more := by
  induction ns generalizing f ways with
  | nil => exact ⟨ways, rfl, hways⟩
  | cons n ns ih =>
    simp only [List.foldl_cons]
    by_cases hn : n ∈ f.found
    · have hadd : f.add n = f := by simp [Frontier.add, hn]
      have hprepend : prepend way ⟨f.found, ways, none⟩ n = ⟨f.found, ways, none⟩ := by
        simp [prepend, hn]
      rw [hadd, hprepend]
      exact ih hways fun m hm => hnew m (List.mem_cons_of_mem _ hm)
    · have hadd : f.add n = ⟨f.visited, f.waiting ++ [n]⟩ := by simp [Frontier.add, hn]
      have hprepend : prepend way ⟨f.found, ways, none⟩ n =
          ⟨(f.add n).found, ways ++ [n :: way], none⟩ := by
        simp [prepend, hn, Frontier.found_add]
      rw [hprepend]
      refine ih ?_ fun m hm hfresh => hnew m (List.mem_cons_of_mem _ hm) fun hm' => ?_
      · rw [hadd]
        exact List.rel_append hways (.cons (hnew n List.mem_cons_self hn) .nil)
      · exact hfresh (Frontier.mem_found_add.mpr (Or.inl hm'))

/-- All that a step can do: a source has come up, or the search goes on as one through the
predecessors does. -/
theorem step_cases (hf : f.Ordered p.predecessors [target])
    (hways : List.Forall₂ (p.Way target) f.waiting ways)
    (hb : step p ⟨f.found, ways, none⟩ = some b) :
    ∃ n rest, f.waiting = n :: rest ∧
      ((∃ way more, n.isSource = true ∧ p.Way target n way ∧ more.length = rest.length ∧
          b = ⟨f.found, more, some way⟩) ∨
       ∃ g more, n.isSource = false ∧ Frontier.visit p.predecessors f = some g ∧
          g.visited = f.visited ++ [n] ∧ List.Forall₂ (p.Way target) g.waiting more ∧
          b = ⟨g.found, more, none⟩) := by
  cases hwaiting : f.waiting with
  | nil =>
    rw [hwaiting] at hways
    cases hways
    simp [step] at hb
  | cons n rest =>
    rw [hwaiting] at hways
    cases hways with
    | @cons _ way _ ways hway hways =>
      obtain ⟨first, others, rfl⟩ : ∃ first others, way = first :: others :=
        List.exists_cons_of_length_pos (by rw [hway.length]; omega)
      obtain rfl : first = n := Option.some.inj hway.head?
      refine ⟨first, rest, rfl, ?_⟩
      by_cases hsource : first.isSource = true
      · refine Or.inl ⟨_, ways, hsource, hway, hways.length_eq.symm, ?_⟩
        simpa [step, hsource] using hb.symm
      · rw [Bool.not_eq_true] at hsource
        have hvisit : Frontier.visit p.predecessors f =
            some ((p.predecessors first).foldl Frontier.add ⟨f.visited ++ [first], rest⟩) := by
          simp [Frontier.visit, hwaiting]
        have hfound : f.found = Frontier.found ⟨f.visited ++ [first], rest⟩ := by
          simp [Frontier.found, hwaiting]
        have hnew : ∀ m ∈ p.predecessors first, m ∉ f.found →
            p.Way target m (m :: first :: others) := fun m hm hfresh =>
          hway.before hm (hf.distance_new hwaiting hm hfresh)
        rw [hfound] at hnew
        obtain ⟨more, heq, hmore⟩ := prependAll hways hnew
        refine Or.inr ⟨_, more, hsource, hvisit, Frontier.visited_addAll _ _, hmore, ?_⟩
        rw [← heq, ← hfound]
        simpa [step, hsource] using hb.symm

theorem step_sound : Preserves (step p) (Sound p target) := by
  intro b b' hsound hb
  cases hsound with
  | found _ _ _ => simp [step] at hb
  | @searching f ways hf hways hnone =>
    obtain ⟨n, rest, hwaiting, hfound | hon⟩ := step_cases hf hways hb
    · obtain ⟨way, more, hsource, hway, -, rfl⟩ := hfound
      refine .found hway hsource fun k s hs hsource' => Nat.le_of_not_lt fun hlt => ?_
      simp [hnone s (hf.mem_visited hwaiting hs hlt)] at hsource'
    · obtain ⟨g, more, hsource, hvisit, hvisited, hmore, rfl⟩ := hon
      refine .searching (Frontier.Ordered.visit f g hf hvisit) hmore fun m hm => ?_
      rw [hvisited, List.mem_append, List.mem_singleton] at hm
      rcases hm with hm | rfl
      · exact hnone m hm
      · exact hsource

/-- How many path nodes have come up. -/
def settled (b : Backtrack) : Nat := b.reached.length - b.waiting.length

theorem settled_found {result : Option (List PathNode)} (h : ways.length = f.waiting.length) :
    settled ⟨f.found, ways, result⟩ = f.visited.length := by
  simp [settled, Frontier.found, h]

theorem step_settled (hworld : ∀ n, Reached p.predecessors [target] n → n ∈ p.nodes)
    (hsound : Sound p target b) (hb : step p b = some b') :
    settled b < settled b' ∧ settled b < p.nodes.length := by
  cases hsound with
  | found _ _ _ => simp [step] at hb
  | @searching f ways hf hways _ =>
    have hsize : f.found.length ≤ p.nodes.length :=
      length_le_of_nodup hf.nodup fun n hn => hworld n (hf.reached n hn)
    rw [settled_found hways.length_eq.symm]
    obtain ⟨n, rest, hwaiting, hcases⟩ := step_cases hf hways hb
    have hlength : f.found.length = f.visited.length + (rest.length + 1) := by
      simp [Frontier.found, hwaiting]
    rcases hcases with hfound | hon
    · obtain ⟨way, more, -, -, hmore, rfl⟩ := hfound
      simp only [settled, hlength, hmore]
      omega
    · obtain ⟨g, more, -, -, hvisited, hmore, rfl⟩ := hon
      rw [settled_found hmore.length_eq.symm, hvisited, List.length_append, List.length_singleton]
      omega

/-- Where a source can be come to, the search ends at one of the nearest. -/
theorem traceTo_found (hworld : ∀ n, Reached p.predecessors [target] n → n ∈ p.nodes) {s : PathNode}
    (hs : Reached p.predecessors [target] s) (hsource : s.isSource = true) :
    ∃ n, p.Way target n (p.traceTo target) ∧ n.isSource = true ∧
      ∀ k s, ReachedIn p.predecessors [target] k s → s.isSource = true →
        p.remoteness target n ≤ k := by
  have hstart := start_sound p target
  have hsound := iterate_preserves step_sound (p.nodes.length + 2) hstart
  have hend : step p (iterate (step p) (p.nodes.length + 2) ⟨[target], [[target]], none⟩) = none :=
    iterate_halts settled p.nodes.length step_sound
      (fun b b' hb hstep => step_settled hworld hb hstep) _ hstart (by omega)
  rw [traceTo]
  generalize iterate (step p) (p.nodes.length + 2) ⟨[target], [[target]], none⟩ = b at hsound hend
  cases hsound with
  | found hway hsource hnearest => exact ⟨_, hway, hsource, hnearest⟩
  | @searching f ways hf hways hnone =>
    -- a search without a result has looked at all that can be come to
    cases hways' : ways with
    | cons way more =>
      subst hways'
      obtain ⟨n, rest, hway, -, -⟩ := List.forall₂_cons_right_iff.mp hways
      obtain ⟨first, others, rfl⟩ : ∃ first others, way = first :: others :=
        List.exists_cons_of_length_pos (by rw [hway.length]; omega)
      by_cases hfirst : first.isSource = true <;> simp [step, hfirst] at hend
    | nil =>
      subst hways'
      have hwaiting : f.waiting = [] := List.forall₂_nil_right_iff.mp hways
      have hvisit : Frontier.visit p.predecessors f = none := by simp [Frontier.visit, hwaiting]
      have hmem := (hf.mem_found_iff hvisit s).mpr hs
      rw [Frontier.found, hwaiting, List.append_nil] at hmem
      simp [hnone s hmem] at hsource

end Backtrack

variable {tag : FlowTag} {g : FlowGraph} {cfg : FlowConfig} {depth : Int} {s t : Position}

/-- Walks to what leads on to a sink are gone step by step in the path graph. -/
theorem exists_steps (hg : g.Valid) (hw : Walk g cfg s t) (ht : Escapes g cfg t)
    (hn : n ∈ (build tag g cfg depth).nodes) (hat : n.At s) :
    ∃ m ∈ (build tag g cfg depth).nodes, m.At t ∧
      Relation.ReflTransGen (fun n m => m ∈ (build tag g cfg depth).successors n) n m := by
  induction hw using Relation.ReflTransGen.head_induction_on generalizing n with
  | refl => exact ⟨n, hn, hat, .refl⟩
  | head hst hw ih =>
    obtain ⟨k, hk, hkat⟩ := successor_of_step hg hn hat hst (ht.walk hw)
    obtain ⟨m, hm, hmat, hsteps⟩ := ih ((mem_successors_build hg).mp hk).2.1 hkat
    exact ⟨m, hm, hmat, .head hk hsteps⟩

/-- Whatever is kept can be come to from a source that is kept. -/
theorem exists_source_steps (hg : g.Valid) (hn : n ∈ (build tag g cfg depth).nodes) :
    ∃ s ∈ (build tag g cfg depth).sources,
      Relation.ReflTransGen (fun n m => m ∈ (build tag g cfg depth).successors n) s n := by
  have hescapes := ((mem_nodes_build hg).mp hn).2
  obtain ⟨a, ha, hsource, hw⟩ := (arrived_build hg hn).arrives
  have hkept : ∃ s ∈ (build tag g cfg depth).nodes, s.At (.initial depth a) :=
    exists_build hg ⟨a, ha, hsource, .refl⟩ (hescapes.walk hw)
  obtain ⟨s, hs, hat⟩ := hkept
  have hflag : s.isSource = true := by
    refine (arrived_build hg hs).source.mpr ⟨?_, hat.2.1⟩
    rw [hat.1]
    exact hsource
  obtain ⟨m, hm, hmat, hsteps⟩ := exists_steps hg hw hescapes hs hat
  obtain rfl : m = n := place_inj_build hg hm hn (by
    simp [Position.place, PathNode.position, hmat.1, hmat.2.1])
  exact ⟨s, List.mem_filter.mpr ⟨hs, hflag⟩, hsteps⟩

theorem mem_nodes_of_reached (hg : g.Valid) (ht : target ∈ (build tag g cfg depth).nodes)
    (h : Reached (build tag g cfg depth).predecessors [target] n) :
    n ∈ (build tag g cfg depth).nodes := by
  refine Reached.induct (P := fun n => n ∈ (build tag g cfg depth).nodes) ?_ ?_ h
  · intro n hn
    rwa [List.mem_singleton.mp hn]
  · intro n _ m hm
    exact ((mem_successors_build hg).mp (mem_predecessors.mp hm)).1

theorem reached_of_steps {s : PathNode}
    (h : Relation.ReflTransGen (fun n m => m ∈ p.successors n) s target) :
    Reached p.predecessors [target] s := by
  induction h using Relation.ReflTransGen.head_induction_on with
  | refl => exact .of_mem (List.mem_singleton.mpr rfl)
  | head hstep _ ih => exact ih.next (mem_predecessors.mpr hstep)

/-- Every path node that is kept can be come to from a source, and the trace to it is a shortest one: it
leads to it from a source, step by step and never through a path node twice, and no trace to it has
fewer path nodes. -/
theorem traceTo_shortest (hg : g.Built) (tag : FlowTag) (cfg : FlowConfig) (depth : Int) :
    let p := build tag g cfg depth
    ∀ t ∈ p.nodes, p.TracesTo t (p.traceTo t) ∧ (p.traceTo t).Nodup ∧
      (∀ trace, p.TracesTo t trace → (p.traceTo t).length ≤ trace.length) ∧
      ∃ s ∈ p.sources, Relation.ReflTransGen (fun n m => m ∈ p.successors n) s t := by
  intro p t ht
  have hworld : ∀ n, Reached p.predecessors [t] n → n ∈ p.nodes :=
    fun n hn => mem_nodes_of_reached hg.valid ht hn
  obtain ⟨s, hs, hsteps⟩ := exists_source_steps hg.valid ht
  obtain ⟨n, hway, hsource, hnearest⟩ :=
    Backtrack.traceTo_found hworld (reached_of_steps hsteps) (List.mem_filter.mp hs).2
  have hreached := reachedIn_of_isChain hway.isChain hway.head? hway.getLast?
  have hn : n ∈ p.sources := List.mem_filter.mpr ⟨hworld n hreached.reached, hsource⟩
  refine ⟨⟨⟨n, hn, hway.head?⟩, hway.getLast?, hway.isChain⟩, hway.nodup, ?_, s, hs, hsteps⟩
  intro trace htrace
  obtain ⟨s', hs', hhead⟩ := htrace.source
  have hle := hnearest _ _ (reachedIn_of_isChain htrace.steps hhead htrace.target)
    (List.mem_filter.mp hs').2
  have hpos : 0 < trace.length := List.length_pos_of_mem (List.mem_of_mem_head? hhead)
  rw [hway.length]
  omega

/-- A value goes into a routine that calls itself again and again. Inside of the second call it is
three steps from the source, and no trace that goes round there is shorter. -/
theorem traceTo_shortest_sample :
    let p := build ⟨['A'], 0⟩ .sample (.ofIds [['s']] [['k']] []) 1
    FlowGraph.sample.Built ∧ ∃ t ∈ p.nodes, t.place = (['k'], [.text ['r']]) ∧
      p.TracesTo t (p.traceTo t) ∧ (p.traceTo t).Nodup ∧ (p.traceTo t).length = 4 ∧
      ∀ trace, p.TracesTo t trace → 4 ≤ trace.length := by
  intro p
  obtain ⟨t, ht, hplace, hlength⟩ : ∃ t ∈ p.nodes, t.place = (['k'], [.text ['r']]) ∧
      (p.traceTo t).length = 4 := by decide
  obtain ⟨htrace, hnodup, hleast, -⟩ :=
    traceTo_shortest FlowGraph.built_sample ⟨['A'], 0⟩ (.ofIds [['s']] [['k']] []) 1 t ht
  exact ⟨FlowGraph.built_sample, t, ht, hplace, htrace, hnodup, hlength, hlength ▸ hleast⟩

end Lockstep.PathGraph
