import Lockstep.Flow.Store
import Lockstep.Proofs.Graph.Store
/-!
What the tables of a path graph hold. They hold a list of path nodes and a list of steps if every
path node stands under its key and has a row in both of the other tables, with the steps out of it
in the one and those into it in the other. Interning adds a path node, linking adds a step, and
pruning takes some of both away.
-/

set_option autoImplicit false

namespace Lockstep

namespace Table

variable {κ ν : Type} {ks : List κ} {F G : κ → ν} {k : κ} {v : ν}

/-- Under each of these keys what a function has for it. -/
def tabulate (ks : List κ) (F : κ → ν) : Table κ ν := ks.map fun k => (k, F k)

@[simp] theorem keys_tabulate : (tabulate ks F).keys = ks := by
  simp [keys, tabulate, Function.comp_def]

theorem tabulate_append (ls : List κ) : tabulate (ks ++ ls) F = tabulate ks F ++ tabulate ls F :=
  List.map_append

variable [DecidableEq κ]

theorem get?_tabulate : (tabulate ks F).get? k = if k ∈ ks then some (F k) else none := by
  induction ks with
  | nil => rfl
  | cons l ks ih =>
    rw [tabulate, List.map_cons, get?_cons, ← tabulate, ih]
    by_cases hk : k = l
    · simp [hk]
    · simp [hk]

/-- A new value under a known key is another function at that key. -/
theorem put_tabulate (hks : ks.Nodup) (hk : k ∈ ks) (hG : ∀ l ∈ ks, G l = if l = k then v else F l) :
    (tabulate ks F).put k v = tabulate ks G := by
  induction ks with
  | nil => simp at hk
  | cons l ks ih =>
    obtain ⟨hl, hks⟩ := List.nodup_cons.mp hks
    have hhead := hG l (by simp)
    by_cases hlk : k = l
    · subst hlk
      have htail : tabulate ks F = tabulate ks G := by
        refine List.map_congr_left fun m hm => ?_
        have hne : m ≠ k := fun hmk => hl (hmk ▸ hm)
        rw [hG m (List.mem_cons_of_mem _ hm), if_neg hne]
      rw [if_pos rfl] at hhead
      simp only [tabulate, List.map_cons, put, if_pos, hhead] at htail ⊢
      rw [htail]
    · rw [if_neg (Ne.symm hlk)] at hhead
      have hrest := ih hks (List.mem_of_ne_of_mem hlk hk) fun m hm => hG m (List.mem_cons_of_mem _ hm)
      simp only [tabulate, List.map_cons, put, if_neg hlk, hhead] at hrest ⊢
      rw [hrest]

theorem Lists.mem_of_get? {vs : List ν} {t : Table κ ν} {f : ν → κ} (h : t.Lists f vs)
    (hv : t.get? k = some v) : v ∈ vs ∧ f v = k := by
  rw [h.get?] at hv
  exact ⟨List.mem_of_find?_eq_some hv, by simpa using List.find?_some hv⟩

theorem Lists.get?_eq_some {vs : List ν} {t : Table κ ν} {f : ν → κ} (h : t.Lists f vs)
    (hvs : (vs.map f).Nodup) : t.get? k = some v ↔ v ∈ vs ∧ f v = k := by
  refine ⟨h.mem_of_get?, fun ⟨hv, hk⟩ => ?_⟩
  cases hf : t.get? k with
  | none =>
    rw [h.get?] at hf
    exact absurd hk (by simpa using List.find?_eq_none.mp hf v hv)
  | some w =>
    obtain ⟨hw, hk'⟩ := h.mem_of_get? hf
    rw [List.inj_on_of_nodup_map hvs hw hv (hk'.trans hk.symm)]

end Table

/-- A step that the tables hold. -/
structure Step where
  source : Occurrence
  target : Occurrence
  edge : FlowEdge

namespace PathStore

open Table

/-- The steps at one end of which a path node stands, with what stands at the other end. -/
def row (near far : Step → Occurrence) (ls : List Step) (o : Occurrence) :
    Table Occurrence FlowEdge :=
  (ls.filter fun l => decide (near l = o)).map fun l => (far l, l.edge)

section Rows

variable {near far : Step → Occurrence} {os : List Occurrence} {ls : List Step} {o p q : Occurrence}
  {l : Step}

theorem keys_row : (row near far ls o).keys = (ls.filter fun l => decide (near l = o)).map far := by
  simp [row, Table.keys, Function.comp_def]

theorem get?_row : (row near far ls o).get? q =
    (ls.find? fun l => decide (near l = o) && decide (far l = q)).map (·.edge) := by
  induction ls with
  | nil => rfl
  | cons l ls ih =>
    by_cases ho : near l = o
    · by_cases hq : q = far l
      · simp [row, ho, hq]
      · simp only [row, ho, decide_true, List.filter_cons_of_pos, List.map_cons, get?_cons, if_neg hq]
        simpa [ho, Ne.symm hq, row] using ih
    · simpa [row, ho] using ih

theorem row_append : row near far (ls ++ [l]) o =
    if near l = o then row near far ls o ++ [(far l, l.edge)] else row near far ls o := by
  by_cases ho : near l = o <;> simp [row, ho]

theorem row_eq_nil (h : ∀ l ∈ ls, near l ≠ o) : row near far ls o = [] := by
  simpa [row] using h

theorem row_tabulate (hls : ∀ l ∈ ls, near l ∈ os) :
    Table.row (tabulate os (row near far ls)) o = row near far ls o := by
  rw [Table.row, get?_tabulate]
  by_cases ho : o ∈ os
  · rw [if_pos ho, Option.getD_some]
  · have hnone : ∀ l ∈ ls, near l ≠ o := fun l hl heq => ho (heq ▸ hls l hl)
    rw [if_neg ho, Option.getD_none, row_eq_nil hnone]

/-- A new path node comes with an empty row. -/
theorem put_rows (hnew : o ∉ os) (hls : ∀ l ∈ ls, near l ∈ os) :
    (tabulate os (row near far ls)).put o [] = tabulate (os ++ [o]) (row near far ls) := by
  have hrow : row near far ls o = [] := row_eq_nil fun l hl heq => hnew (heq ▸ hls l hl)
  rw [put_of_get?_eq_none _ (by rw [get?_tabulate, if_neg hnew]), tabulate_append]
  simp [tabulate, hrow]

/-- A new step comes last in the row of the path node at its near end. -/
theorem put_step (hos : os.Nodup) (hl : near l ∈ os)
    (hnew : (row near far ls (near l)).get? (far l) = none) :
    (tabulate os (row near far ls)).put (near l)
        ((row near far ls (near l)).put (far l) l.edge) =
      tabulate os (row near far (ls ++ [l])) := by
  refine put_tabulate hos hl fun o _ => ?_
  rw [row_append, put_of_get?_eq_none _ hnew]
  by_cases ho : o = near l
  · simp [ho]
  · simp [ho, Ne.symm ho]

theorem keepRows_tabulate (kept : List Occurrence) :
    keepRows kept (tabulate os (row near far ls)) =
      tabulate (os.filter kept.contains)
        (row near far (ls.filter fun l => kept.contains (near l) && kept.contains (far l))) := by
  simp only [keepRows, tabulate, List.filter_map, List.map_map]
  refine List.map_congr_left fun o ho => ?_
  have hkept : o ∈ kept := by simpa using (List.mem_filter.mp ho).2
  simp only [Function.comp_apply, row, List.filter_map, List.filter_filter, Prod.mk.injEq, true_and]
  congr 1
  refine List.filter_congr fun l _ => ?_
  by_cases hl : near l = o
  · simp [hl, hkept]
  · simp [hl]

end Rows

/-- The tables hold these path nodes, in their order, and these steps. -/
structure Holds (s : PathStore) (os : List Occurrence) (ls : List Step) : Prop where
  interned : s.interned.Lists Occurrence.key os
  leaving : s.leaving = tabulate os (row Step.source Step.target ls)
  entering : s.entering = tabulate os (row Step.target Step.source ls)

variable {s : PathStore} {os : List Occurrence} {ls : List Step} {o p q : Occurrence} {e : FlowEdge}

theorem holds_empty (tag : FlowTag) : (empty tag).Holds [] [] := ⟨rfl, rfl, rfl⟩

/-- Both ends of every step are among the path nodes. -/
def EndsIn (os : List Occurrence) (ls : List Step) : Prop :=
  ∀ l ∈ ls, l.source ∈ os ∧ l.target ∈ os

theorem Holds.nodes (h : s.Holds os ls) : s.nodes = os := h.interned.values

theorem Holds.length_interned (h : s.Holds os ls) : s.interned.length = os.length := by
  rw [← h.nodes]
  simp [PathStore.nodes, Table.values]

theorem Holds.row_leaving (h : s.Holds os ls) (hends : EndsIn os ls) (o : Occurrence) :
    s.leaving.row o = row Step.source Step.target ls o := by
  rw [h.leaving, row_tabulate fun l hl => (hends l hl).1]

theorem Holds.row_entering (h : s.Holds os ls) (hends : EndsIn os ls) (o : Occurrence) :
    s.entering.row o = row Step.target Step.source ls o := by
  rw [h.entering, row_tabulate fun l hl => (hends l hl).2]

theorem Holds.add (h : s.Holds os ls) (hends : EndsIn os ls) (hnew : ∀ p ∈ os, p.key ≠ o.key) :
    (s.add o).Holds (os ++ [o]) ls := by
  have hmem : o ∉ os := fun ho => hnew o ho rfl
  refine ⟨h.interned.put ?_, ?_, ?_⟩
  · rw [h.interned.get?]
    simpa using hnew
  · rw [← put_rows hmem fun l hl => (hends l hl).1, ← h.leaving]
    rfl
  · rw [← put_rows hmem fun l hl => (hends l hl).2, ← h.entering]
    rfl

theorem Holds.intern (h : s.Holds os ls) {node : FlowNode} {context : CallString}
    (hnamed : context.sites.find? (!·.isScalar) = none) :
    s.intern node context =
      match os.find? fun o => decide (o.key = (node.id, context.sites)) with
      | some o => .ok (o, false, s)
      | none => .ok (⟨os.length, s.tag, node, context⟩, true,
          s.add ⟨os.length, s.tag, node, context⟩) := by
  unfold PathStore.intern named
  rw [hnamed, h.interned.get?, h.length_interned]
  cases os.find? fun o => decide (o.key = (node.id, context.sites)) <;> rfl

theorem intern_unnamed {node : FlowNode} {context : CallString} {v : Json}
    (hnamed : context.sites.find? (!·.isScalar) = some v) :
    s.intern node context = .error (.notName v) := by
  unfold PathStore.intern named
  rw [hnamed]
  rfl

theorem rowOf_tabulate {F : Occurrence → Table Occurrence FlowEdge} (ho : o ∈ os) :
    rowOf (tabulate os F) o = .ok (F o) := by
  rw [rowOf, get?_tabulate, if_pos ho]

/-- A step from one of the path nodes to another one is added unless there is one between them. -/
theorem Holds.link (h : s.Holds os ls) (hos : os.Nodup) (hp : p ∈ os) (hq : q ∈ os) (e : FlowEdge) :
    ∃ t, s.link p q e = .ok t ∧ t = { s with leaving := t.leaving, entering := t.entering } ∧
      t.Holds os (if ls.any fun l => decide (l.source = p) && decide (l.target = q) then ls
        else ls ++ [⟨p, q, e⟩]) := by
  have hout : rowOf s.leaving p = .ok (row Step.source Step.target ls p) := by
    rw [h.leaving, rowOf_tabulate hp]
  have hinto : rowOf s.entering q = .ok (row Step.target Step.source ls q) := by
    rw [h.entering, rowOf_tabulate hq]
  unfold PathStore.link
  rw [hout]
  by_cases hany : (ls.any fun l => decide (l.source = p) && decide (l.target = q)) = true
  · refine ⟨s, ?_, rfl, by rwa [if_pos hany]⟩
    have hknown : ((row Step.source Step.target ls p).get? q).isSome = true := by
      rw [get?_row, Option.isSome_map, List.find?_isSome]
      simpa using hany
    simp [hknown, bind, Except.bind, pure, Except.pure]
  · have hnone {a b : Step → Bool} (hab : ∀ l, (a l && b l) = true ↔ l.source = p ∧ l.target = q) :
        ls.find? (fun l => a l && b l) = none := by
      refine List.find?_eq_none.mpr fun l hl hfound => hany (List.any_eq_true.mpr ⟨l, hl, ?_⟩)
      simpa using (hab l).mp hfound
    have hnew : (row Step.source Step.target ls p).get? q = none := by
      rw [get?_row, hnone (by simp), Option.map_none]
    have hnew' : (row Step.target Step.source ls q).get? p = none := by
      rw [get?_row, hnone (by simp [and_comm]), Option.map_none]
    refine ⟨{ s with
      leaving := s.leaving.put p ((row Step.source Step.target ls p).put q e)
      entering := s.entering.put q ((row Step.target Step.source ls q).put p e) }, ?_, rfl, ?_⟩
    · simp [hnew, hinto, bind, Except.bind, pure, Except.pure]
    · rw [if_neg hany]
      refine ⟨h.interned, ?_, ?_⟩
      · rw [h.leaving]
        exact put_step (l := ⟨p, q, e⟩) hos hp hnew
      · rw [h.entering]
        exact put_step (l := ⟨p, q, e⟩) hos hq hnew'

theorem Holds.prune (h : s.Holds os ls) : s.prune.Holds (os.filter s.alive.contains)
    (ls.filter fun l => s.alive.contains l.source && s.alive.contains l.target) := by
  refine ⟨?_, ?_, ?_⟩
  · simp only [PathStore.prune, Table.Lists, show s.interned = _ from h.interned, List.filter_map]
    rfl
  · rw [← keepRows_tabulate, ← h.leaving]
    rfl
  · have hboth : (fun l : Step => s.alive.contains l.source && s.alive.contains l.target) =
        fun l => s.alive.contains l.target && s.alive.contains l.source := by
      funext l
      exact Bool.and_comm _ _
    rw [hboth, ← keepRows_tabulate, ← h.entering]
    rfl

end PathStore
end Lockstep
