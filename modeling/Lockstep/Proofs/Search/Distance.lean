import Mathlib.Order.Bounds.Basic
import Mathlib.Order.Lattice.Nat
import Lockstep.Proofs.Search.Reach
/-!
How far a search has to go. Things are found in the order of their distance from where the search
starts, and what a visit finds is one step farther away than what is visited.
-/

set_option autoImplicit false

namespace Lockstep.Search

variable {α : Type} {next : α → List α} {start : List α} {x y z : α} {n : Nat}

/-- So many steps lead from one of the first things to this one. -/
inductive ReachedIn (next : α → List α) (start : List α) : Nat → α → Prop
  | start {x : α} : x ∈ start → ReachedIn next start 0 x
  | next {n : Nat} {x y : α} : ReachedIn next start n x → y ∈ next x →
      ReachedIn next start (n + 1) y

theorem Reached.exists_in (h : Reached next start y) : ∃ n, ReachedIn next start n y := by
  refine h.induct (P := fun y => ∃ n, ReachedIn next start n y) ?_ ?_
  · exact fun x hx => ⟨0, .start hx⟩
  · intro x hx y hy
    obtain ⟨n, hn⟩ := hx
    exact ⟨n + 1, hn.next hy⟩

theorem ReachedIn.reached (h : ReachedIn next start n y) : Reached next start y := by
  induction h with
  | start hx => exact .of_mem hx
  | next _ hy ih => exact ih.next hy

/-- The least number of steps that lead to a thing. -/
noncomputable def distance (next : α → List α) (start : List α) (y : α) : Nat :=
  sInf {n | ReachedIn next start n y}

theorem ReachedIn.distance_le (h : ReachedIn next start n y) : distance next start y ≤ n :=
  Nat.sInf_le h

theorem Reached.isLeast_distance (h : Reached next start y) :
    IsLeast {n | ReachedIn next start n y} (distance next start y) :=
  ⟨Nat.sInf_mem h.exists_in, fun _ hn => hn.distance_le⟩

/-- With more steps to choose from, whatever was reached still is, in as many steps. -/
theorem ReachedIn.mono {next' : α → List α} (h : ReachedIn next start n y)
    (hnext : ∀ x, next x ⊆ next' x) : ReachedIn next' start n y := by
  induction h with
  | start hx => exact .start hx
  | next _ hy ih => exact ih.next (hnext _ hy)

theorem Reached.distance_mono {next' : α → List α} (h : Reached next start y)
    (hnext : ∀ x, next x ⊆ next' x) : distance next' start y ≤ distance next start y :=
  (h.isLeast_distance.1.mono hnext).distance_le

theorem distance_start (h : x ∈ start) : distance next start x = 0 :=
  Nat.le_zero.mp (ReachedIn.start h).distance_le

theorem Reached.distance_next (h : Reached next start x) (hy : y ∈ next x) :
    distance next start y ≤ distance next start x + 1 :=
  (h.isLeast_distance.1.next hy).distance_le

namespace Frontier

variable [DecidableEq α] {f g : Frontier α} {rest : List α}

theorem addAll_eq (f : Frontier α) (xs : List α) :
    ∃ new, xs.foldl add f = ⟨f.visited, f.waiting ++ new⟩ ∧ ∀ y ∈ new, y ∈ xs ∧ y ∉ f.found := by
  induction xs generalizing f with
  | nil => exact ⟨[], by simp, by simp⟩
  | cons x xs ih =>
    obtain ⟨new, heq, hnew⟩ := ih (f.add x)
    rw [List.foldl_cons, heq]
    by_cases hx : x ∈ f.found
    · have hadd : f.add x = f := by simp [add, hx]
      rw [hadd] at hnew ⊢
      exact ⟨new, rfl, fun y hy => ⟨List.mem_cons_of_mem _ (hnew y hy).1, (hnew y hy).2⟩⟩
    · have hadd : f.add x = ⟨f.visited, f.waiting ++ [x]⟩ := by simp [add, hx]
      refine ⟨x :: new, by simp [hadd], fun y hy => ?_⟩
      rcases List.mem_cons.mp hy with rfl | hy
      · exact ⟨by simp, hx⟩
      · have hlater := hnew y hy
        rw [mem_found_add, not_or] at hlater
        exact ⟨List.mem_cons_of_mem _ hlater.1, hlater.2.1⟩

/-- Between two visits: the nearer things were found first, and nothing that was found is more than
one step farther away than what waits. -/
structure Ordered (next : α → List α) (start : List α) (f : Frontier α) : Prop
    extends Searches next start f where
  sorted : f.found.Pairwise fun x y => distance next start x ≤ distance next start y
  near : ∀ x ∈ f.waiting, ∀ y ∈ f.found, distance next start y ≤ distance next start x + 1

theorem Ordered.of_addAll (start : List α) : Ordered next start (start.foldl add ⟨[], []⟩) where
  toSearches := .of_addAll start
  sorted := by
    refine List.pairwise_of_forall_mem_list fun x hx y _ => ?_
    have hstart := (mem_found_addAll.mp hx).resolve_left (by simp [found])
    rw [distance_start hstart]
    exact Nat.zero_le _
  near x _ y hy := by
    have hstart := (mem_found_addAll.mp hy).resolve_left (by simp [found])
    rw [distance_start hstart]
    exact Nat.zero_le _

/-- What is nearer than the next thing to visit has been visited. -/
theorem Ordered.mem_visited (h : Ordered next start f) (hw : f.waiting = x :: rest)
    (hz : ReachedIn next start n z) (hn : n < distance next start x) : z ∈ f.visited := by
  have hvisited : ∀ z ∈ f.found, distance next start z < distance next start x → z ∈ f.visited := by
    intro z hz hlt
    rcases List.mem_append.mp hz with hz | hz
    · exact hz
    · have hsorted := (List.pairwise_append.mp h.sorted).2.1
      rw [hw] at hz hsorted
      rcases List.mem_cons.mp hz with rfl | hz
      · omega
      · have hle := (List.pairwise_cons.mp hsorted).1 z hz
        omega
  induction hz with
  | start hz => exact hvisited _ (h.start_found _ hz) (by rw [distance_start hz]; omega)
  | @next n u z hu hstep ih =>
    have hmem := h.closed u (ih (by omega)) z hstep
    have hle := (hu.next hstep).distance_le
    exact hvisited z hmem (by omega)

theorem Ordered.distance_new (h : Ordered next start f) (hw : f.waiting = x :: rest)
    (hy : y ∈ next x) (hnew : y ∉ f.found) :
    distance next start y = distance next start x + 1 := by
  have hx : Reached next start x := h.reached x (by simp [found, hw])
  refine Nat.le_antisymm (hx.distance_next hy) (Nat.lt_of_not_le fun hle => hnew ?_)
  -- if it were no farther away, it would have been found when the thing before it was visited
  have hleast : ReachedIn next start (distance next start y) y := (hx.next hy).isLeast_distance.1
  cases hd : distance next start y with
  | zero =>
    rw [hd] at hleast
    cases hleast with
    | start hs => exact h.start_found y hs
  | succ m =>
    rw [hd] at hleast
    cases hleast with
    | @next _ u _ hu hstep => exact h.closed u (h.mem_visited hw hu (by omega)) y hstep

theorem Ordered.visit : Preserves (visit next) (Ordered next start) := by
  intro f g h hg
  have hsearches := visit_preserves f g h.toSearches hg
  obtain ⟨x, rest, hw, rfl, hf⟩ := found_visit hg
  obtain ⟨new, heq, hnew⟩ := addAll_eq ⟨f.visited ++ [x], rest⟩ (next x)
  rw [heq] at hsearches ⊢
  have hx : x ∈ f.waiting := by simp [hw]
  have hfar : ∀ y ∈ new, distance next start y = distance next start x + 1 := fun y hy =>
    h.distance_new hw (hnew y hy).1 (hf ▸ (hnew y hy).2)
  have hfound : Frontier.found ⟨f.visited ++ [x], rest ++ new⟩ = f.found ++ new := by
    simp [found, hw]
  refine ⟨hsearches, ?_, ?_⟩
  · rw [hfound, List.pairwise_append]
    refine ⟨h.sorted, ?_, ?_⟩
    · refine List.pairwise_of_forall_mem_list fun y hy z hz => ?_
      rw [hfar y hy, hfar z hz]
    · intro y hy z hz
      rw [hfar z hz]
      exact h.near x hx y hy
  · intro w hwait y hy
    rw [hfound] at hy
    have hw' : distance next start x ≤ distance next start w := by
      rcases List.mem_append.mp hwait with hrest | hn
      · have hsorted := (List.pairwise_append.mp h.sorted).2.1
        rw [hw] at hsorted
        exact (List.pairwise_cons.mp hsorted).1 w hrest
      · rw [hfar w hn]
        omega
    rcases List.mem_append.mp hy with hy | hy
    · have hle := h.near x hx y hy
      omega
    · rw [hfar y hy]
      omega

end Frontier
end Lockstep.Search
