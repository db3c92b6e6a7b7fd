import Mathlib.Data.List.Forall2
import Lockstep.Proofs.Correlation.Lineage
/-!
What a correlation lists. Its findings are those of its quadruples that are at a sink pair, each with
the traces of its chain. The first records of a correlation list, of its findings, those that are
theirs.
-/

set_option autoImplicit false

namespace Lockstep

theorem forall₂_of_mapM {ε α β : Type} {f : α → Except ε β} {xs : List α} {ys : List β}
    (h : xs.mapM f = .ok ys) : List.Forall₂ (fun x y => f x = .ok y) xs ys := by
  induction xs generalizing ys with
  | nil => exact Except.ok.inj h ▸ .nil
  | cons x xs ih =>
    rw [List.mapM_cons] at h
    cases hx : f x with
    | error err => simp [hx, bind, Except.bind] at h
    | ok y =>
      cases hxs : xs.mapM f with
      | error err => simp [hx, hxs, bind, Except.bind] at h
      | ok rest =>
        rw [hx, hxs] at h
        exact Except.ok.inj h ▸ .cons hx (ih hxs)

theorem exists_of_mapM {ε α β : Type} {f : α → Except ε β} {xs : List α} {ys : List β} {y : β}
    (h : xs.mapM f = .ok ys) (hy : y ∈ ys) : ∃ x ∈ xs, f x = .ok y := by
  have hall := forall₂_of_mapM h
  clear h
  induction hall with
  | nil => simp at hy
  | @cons x z xs _ hx _ ih =>
    rcases List.mem_cons.mp hy with rfl | hy
    · exact ⟨x, by simp, hx⟩
    · obtain ⟨x', hx', heq⟩ := ih hy
      exact ⟨x', by simp [hx'], heq⟩

theorem mapM_congr {ε α β : Type} {f g : α → Except ε β} {xs : List α}
    (h : ∀ x ∈ xs, f x = g x) : xs.mapM f = xs.mapM g := by
  induction xs with
  | nil => rfl
  | cons x xs ih =>
    rw [List.mapM_cons, List.mapM_cons, h x (by simp), ih fun y hy => h y (by simp [hy])]

/-- What turns each thing and its result into others turns all of them into others. -/
theorem mapM_map {ε α α' β β' : Type} {f : α → Except ε β} {f' : α' → Except ε β'} {s : α → α'}
    {t : β → β'} (h : ∀ x, f' (s x) = (f x).map t) (xs : List α) :
    (xs.map s).mapM f' = (xs.mapM f).map (List.map t) := by
  induction xs with
  | nil => rfl
  | cons x xs ih =>
    rw [List.map_cons, List.mapM_cons, List.mapM_cons, ih, h]
    cases f x with
    | error err => rfl
    | ok y =>
      cases xs.mapM f with
      | error err => rfl
      | ok ys => rfl

theorem mapM_append_eq_ok {ε α β : Type} {f : α → Except ε β} {xs xs' : List α} {ys : List β}
    (h : (xs ++ xs').mapM f = .ok ys) :
    ∃ zs zs', xs.mapM f = .ok zs ∧ xs'.mapM f = .ok zs' ∧ ys = zs ++ zs' := by
  rw [List.mapM_append] at h
  cases hx : xs.mapM f with
  | error err => simp [hx, bind, Except.bind] at h
  | ok zs =>
    cases hx' : xs'.mapM f with
    | error err => simp [hx, hx', bind, Except.bind] at h
    | ok zs' =>
      rw [hx, hx'] at h
      exact ⟨zs, zs', rfl, rfl, (Except.ok.inj h).symm⟩

namespace Correlation

variable {c : Correlation} {back : List Record} {q : Quadruple} {f : Finding} {fs : List Finding}
  {n : Nat}

theorem findingOf_eq_ok (h : c.findingOf back q = .ok f) :
    f.quadruple = q ∧ f.traceA = trace ((chainIn back q).map (·.quadruple.node1)) ∧
      f.traceB = trace ((chainIn back q).map (·.quadruple.node2)) ∧
      f.jointSteps = ((chainIn back q).filter (·.step == .joint)).length := by
  unfold findingOf at h
  cases hd : c.pairs.describe q.source1.node q.source2.node q.node1.node q.node2.node with
  | error err => simp [hd, bind, Except.bind] at h
  | ok t =>
    rw [hd] at h
    obtain rfl := Except.ok.inj h
    exact ⟨rfl, rfl, rfl, rfl⟩

/-- A finding is that of a recorded quadruple. -/
theorem of_mem_findings (h : c.findings = .ok fs) (hf : f ∈ fs) :
    f.quadruple ∈ c.quadruples ∧
      c.pairs.isSinkPair f.quadruple.node1.node f.quadruple.node2.node = true ∧
      f.traceA = trace ((c.chain f.quadruple).map (·.quadruple.node1)) ∧
      f.traceB = trace ((c.chain f.quadruple).map (·.quadruple.node2)) ∧
      f.jointSteps = ((c.chain f.quadruple).filter (·.step == .joint)).length := by
  obtain ⟨q, hq, hfinding⟩ := exists_of_mapM h hf
  obtain ⟨rfl, hA, hB, hjoint⟩ := findingOf_eq_ok hfinding
  obtain ⟨hmem, hsink⟩ := List.mem_filter.mp hq
  exact ⟨hmem, hsink, hA, hB, hjoint⟩

theorem quadruple_of_mapM {qs : List Quadruple} (h : qs.mapM (c.findingOf back) = .ok fs) :
    fs.map (·.quadruple) = qs := by
  have hall := forall₂_of_mapM h
  clear h
  induction hall with
  | nil => rfl
  | cons hf _ ih => rw [List.map_cons, ih, (findingOf_eq_ok hf).1]

/-- The first records of a correlation. -/
def first (c : Correlation) (n : Nat) : Correlation :=
  { c with records := c.records.take n, truncated := decide (n < c.records.length) }

theorem quadruples_first (c : Correlation) (n : Nat) :
    (c.first n).quadruples = c.quadruples.take n := by
  simp [first, quadruples]

theorem chainIn_take {rs : List Record} (hnodup : (rs.map (·.quadruple)).Nodup)
    (hq : q ∈ (rs.take n).map (·.quadruple)) :
    chainIn (rs.take n).reverse q = chainIn rs.reverse q := by
  have hsplit : rs.reverse = (rs.drop n).reverse ++ (rs.take n).reverse := by
    rw [← List.reverse_append, List.take_append_drop]
  rw [hsplit, chainIn_append]
  intro hdrop
  rw [List.map_reverse, List.mem_reverse, List.map_drop] at hdrop
  rw [List.map_take] at hq
  exact List.disjoint_take_drop hnodup (Nat.le_refl n) hq hdrop

theorem chain_first (hnodup : c.quadruples.Nodup) (hq : q ∈ (c.first n).quadruples) :
    (c.first n).chain q = c.chain q :=
  chainIn_take hnodup hq

/-- The first records have the findings that all of them together have for these quadruples. -/
theorem findings_first (hnodup : c.quadruples.Nodup) : (c.first n).findings =
    ((c.quadruples.take n).filter c.isFinding).mapM (c.findingOf c.records.reverse) := by
  unfold findings
  rw [quadruples_first]
  refine mapM_congr fun q hq => ?_
  have hchain : chainIn (c.records.take n).reverse q = chainIn c.records.reverse q := by
    refine chainIn_take hnodup ?_
    rw [List.map_take]
    exact (List.mem_filter.mp hq).1
  simp only [findingOf, first, hchain]

theorem findings_first_eq_filter (hnodup : c.quadruples.Nodup) (h : c.findings = .ok fs) :
    (c.first n).findings = .ok (fs.filter (·.quadruple ∈ (c.first n).quadruples)) := by
  have hsplit : c.quadruples.filter c.isFinding =
      (c.quadruples.take n).filter c.isFinding ++ (c.quadruples.drop n).filter c.isFinding := by
    rw [← List.filter_append, List.take_append_drop]
  unfold findings at h
  rw [hsplit] at h
  obtain ⟨gs, gs', hgs, hgs', rfl⟩ := mapM_append_eq_ok h
  rw [findings_first hnodup, hgs, quadruples_first, List.filter_append]
  have hin : ∀ f ∈ gs, f.quadruple ∈ c.quadruples.take n := by
    intro f hf
    have hmem : f.quadruple ∈ gs.map (·.quadruple) := List.mem_map.mpr ⟨f, hf, rfl⟩
    rw [quadruple_of_mapM hgs] at hmem
    exact (List.mem_filter.mp hmem).1
  have hout : ∀ f ∈ gs', f.quadruple ∉ c.quadruples.take n := by
    intro f hf
    have hmem : f.quadruple ∈ gs'.map (·.quadruple) := List.mem_map.mpr ⟨f, hf, rfl⟩
    rw [quadruple_of_mapM hgs'] at hmem
    exact fun hq => List.disjoint_take_drop hnodup (Nat.le_refl n) hq (List.mem_filter.mp hmem).1
  rw [List.filter_eq_self.mpr (by simpa using hin), List.filter_eq_nil_iff.mpr (by simpa using hout),
    List.append_nil]

end Correlation
end Lockstep
