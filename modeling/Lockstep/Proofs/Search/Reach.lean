import Mathlib.Data.List.Nodup
import Mathlib.Data.List.Perm.Subperm
import Mathlib.Logic.Relation
import Lockstep.Proofs.Search.Run
import Lockstep.Search.Closure
/-!
What a search finds. It finds each thing once, and in a world that it cannot leave it finds exactly
what can be reached from where it starts.
-/

set_option autoImplicit false

namespace Lockstep.Search

variable {α : Type}

/-- Some number of steps leads from one of the first things to this one. -/
def Reached (next : α → List α) (start : List α) (y : α) : Prop :=
  ∃ x ∈ start, Relation.ReflTransGen (fun a b => b ∈ next a) x y

theorem Reached.of_mem {next : α → List α} {start : List α} {x : α} (h : x ∈ start) :
    Reached next start x := ⟨x, h, .refl⟩

theorem Reached.next {next : α → List α} {start : List α} {x y : α} (h : Reached next start x)
    (hy : y ∈ next x) : Reached next start y := by
  obtain ⟨s, hs, hx⟩ := h
  exact ⟨s, hs, hx.tail hy⟩

/-- The first things and what the steps keep have a property that all reached things have. -/
theorem Reached.induct {next : α → List α} {start : List α} {P : α → Prop}
    (hstart : ∀ x ∈ start, P x) (hnext : ∀ x, P x → ∀ y ∈ next x, P y) {y : α}
    (h : Reached next start y) : P y := by
  obtain ⟨x, hx, hy⟩ := h
  induction hy with
  | refl => exact hstart x hx
  | tail _ hstep ih => exact hnext _ ih _ hstep

theorem length_le_of_nodup {xs ys : List α} (hx : xs.Nodup) (h : ∀ x ∈ xs, x ∈ ys) :
    xs.length ≤ ys.length := (hx.subperm h).length_le

namespace Frontier

variable [DecidableEq α] {next : α → List α} {start : List α}

theorem found_add (f : Frontier α) (x : α) :
    (f.add x).found = if x ∈ f.found then f.found else f.found ++ [x] := by
  unfold add
  split <;> simp [found]

@[simp] theorem visited_add (f : Frontier α) (x : α) : (f.add x).visited = f.visited := by
  unfold add
  split <;> rfl

theorem mem_found_add {f : Frontier α} {x y : α} :
    y ∈ (f.add x).found ↔ y ∈ f.found ∨ y = x := by
  rw [found_add]
  by_cases h : x ∈ f.found
  · rw [if_pos h]
    exact ⟨Or.inl, fun hy => hy.elim id fun e => e ▸ h⟩
  · simp [h]

theorem nodup_found_add {f : Frontier α} (h : f.found.Nodup) (x : α) : (f.add x).found.Nodup := by
  rw [found_add]
  split
  · exact h
  · rename_i hx
    rw [List.nodup_append]
    refine ⟨h, by simp, ?_⟩
    intro a ha b hb e
    exact hx (by simpa [← List.mem_singleton.mp hb, ← e] using ha)

@[simp] theorem visited_addAll (f : Frontier α) (xs : List α) :
    (xs.foldl add f).visited = f.visited := by
  induction xs generalizing f with
  | nil => rfl
  | cons x xs ih => simp [ih]

theorem mem_found_addAll {f : Frontier α} {xs : List α} {y : α} :
    y ∈ (xs.foldl add f).found ↔ y ∈ f.found ∨ y ∈ xs := by
  induction xs generalizing f with
  | nil => simp
  | cons x xs ih => simp [ih, mem_found_add, or_assoc]

theorem nodup_found_addAll {f : Frontier α} (h : f.found.Nodup) (xs : List α) :
    (xs.foldl add f).found.Nodup := by
  induction xs generalizing f with
  | nil => exact h
  | cons x xs ih => exact ih (nodup_found_add h x)

/-- What holds between two visits. -/
structure Searches (next : α → List α) (start : List α) (f : Frontier α) : Prop where
  nodup : f.found.Nodup
  start_found : ∀ x ∈ start, x ∈ f.found
  reached : ∀ x ∈ f.found, Reached next start x
  closed : ∀ x ∈ f.visited, ∀ y ∈ next x, y ∈ f.found

omit [DecidableEq α] in
theorem Searches.of_nodup (h : start.Nodup) : Searches next start ⟨[], start⟩ where
  nodup := by simpa [found] using h
  start_found x hx := by simpa [found] using hx
  reached x hx := .of_mem (by simpa [found] using hx)
  closed x hx := by simp at hx

/-- The first things may come with repetitions if they are added one by one. -/
theorem Searches.of_addAll (start : List α) : Searches next start (start.foldl add ⟨[], []⟩) where
  nodup := nodup_found_addAll (by simp [found]) start
  start_found x hx := mem_found_addAll.mpr (Or.inr hx)
  reached x hx := .of_mem ((mem_found_addAll.mp hx).resolve_left (by simp [found]))
  closed x hx := by simp at hx

theorem found_visit {f g : Frontier α} (h : visit next f = some g) :
    ∃ x rest, f.waiting = x :: rest ∧ g = (next x).foldl add ⟨f.visited ++ [x], rest⟩ ∧
      f.found = Frontier.found ⟨f.visited ++ [x], rest⟩ := by
  unfold visit at h
  cases hw : f.waiting with
  | nil => simp [hw] at h
  | cons x rest =>
    rw [hw] at h
    exact ⟨x, rest, rfl, (Option.some.inj h).symm, by simp [found, hw]⟩

theorem visit_preserves : Preserves (visit next) (Searches next start) := by
  intro f g h hg
  obtain ⟨x, rest, hw, rfl, hf⟩ := found_visit hg
  have hx : x ∈ f.found := by simp [found, hw]
  refine ⟨nodup_found_addAll (hf ▸ h.nodup) _, ?_, ?_, ?_⟩
  · intro y hy
    exact mem_found_addAll.mpr (Or.inl (hf ▸ h.start_found y hy))
  · intro y hy
    rcases mem_found_addAll.mp hy with hy | hy
    · exact h.reached y (hf ▸ hy)
    · exact (h.reached x hx).next hy
  · intro y hy z hz
    rw [visited_addAll] at hy
    rcases List.mem_append.mp hy with hy | hy
    · exact mem_found_addAll.mpr (Or.inl (hf ▸ h.closed y hy z hz))
    · rw [List.mem_singleton.mp hy] at hz
      exact mem_found_addAll.mpr (Or.inr hz)

/-- A search that has come to its end has found all that it can reach. -/
theorem Searches.mem_found_iff {f : Frontier α} (h : Searches next start f)
    (hend : visit next f = none) (y : α) : y ∈ f.found ↔ Reached next start y := by
  have hw : f.waiting = [] := by
    cases hw : f.waiting with
    | nil => rfl
    | cons x rest => simp [visit, hw] at hend
  refine ⟨h.reached y, Reached.induct h.start_found ?_⟩
  intro x hx z hz
  exact h.closed x (by simpa [found, hw] using hx) z hz

/-- In a world that no step leaves, as many visits as there are things are enough. -/
theorem visits_halt {world : List α} (hstart : ∀ x ∈ start, x ∈ world)
    (hworld : ∀ x ∈ world, ∀ y ∈ next x, y ∈ world) {f : Frontier α} (h : Searches next start f)
    {n : Nat} (hn : world.length ≤ n) : visit next (iterate (visit next) n f) = none := by
  refine iterate_halts (fun f => f.visited.length) world.length visit_preserves ?_ n h
    (Nat.le_trans hn (Nat.le_add_left ..))
  intro f g h hg
  obtain ⟨x, rest, hw, rfl, -⟩ := found_visit hg
  have hle : f.found.length ≤ world.length :=
    length_le_of_nodup h.nodup fun y hy => (h.reached y hy).induct hstart hworld
  simp only [found, hw, List.length_append, List.length_cons] at hle
  simp only [visited_addAll, List.length_append, List.length_singleton]
  omega

end Frontier

variable [DecidableEq α] {next : α → List α} {start world : List α} {bound : Nat}

theorem mem_closure_iff (hnodup : start.Nodup) (hstart : ∀ x ∈ start, x ∈ world)
    (hworld : ∀ x ∈ world, ∀ y ∈ next x, y ∈ world) (hbound : world.length ≤ bound) (y : α) :
    y ∈ closure next bound start ↔ Reached next start y := by
  have h : Frontier.Searches next start ⟨[], start⟩ := .of_nodup hnodup
  exact (iterate_preserves Frontier.visit_preserves bound h).mem_found_iff
    (Frontier.visits_halt hstart hworld h hbound) y

section Renaming

variable {β : Type} [DecidableEq β] {f : α → β} {next' : β → List β}

def Frontier.map (f : α → β) (s : Frontier α) : Frontier β :=
  ⟨s.visited.map f, s.waiting.map f⟩

omit [DecidableEq α] [DecidableEq β] in
theorem Frontier.found_map (s : Frontier α) : (s.map f).found = s.found.map f := by
  simp [map, found]

theorem Frontier.add_map (hf : Function.Injective f) (s : Frontier α) (x : α) :
    (s.map f).add (f x) = (s.add x).map f := by
  have hmem : f x ∈ (s.map f).found ↔ x ∈ s.found := by
    rw [found_map, List.mem_map_of_injective hf]
  by_cases hx : x ∈ s.found
  · rw [add, add, if_pos hx, if_pos (hmem.mpr hx)]
  · rw [add, add, if_neg hx, if_neg fun h => hx (hmem.mp h)]
    simp [map]

theorem Frontier.visit_map (hf : Function.Injective f) (h : ∀ x, next' (f x) = (next x).map f)
    (s : Frontier α) : visit next' (s.map f) = (visit next s).map (map f) := by
  cases hw : s.waiting with
  | nil => simp [visit, map, hw]
  | cons x rest =>
    have hrest : (⟨s.visited.map f ++ [f x], rest.map f⟩ : Frontier β) =
        map f ⟨s.visited ++ [x], rest⟩ := by simp [map]
    simp only [visit, map, hw, List.map_cons, Option.map_some, h, List.foldl_map]
    rw [hrest, List.foldl_hom (map f) fun s y => add_map hf s y]
    rfl

/-- What is found does not depend on what things are, as long as they stay apart. -/
theorem closure_map (hf : Function.Injective f) (h : ∀ x, next' (f x) = (next x).map f) (n : Nat)
    (start : List α) : closure next' n (start.map f) = (closure next n start).map f := by
  have hrun := iterate_view (fun s => (Frontier.visit_map hf h s).symm) n ⟨[], start⟩
  rw [closure, closure, ← Frontier.found_map, hrun]
  rfl

end Renaming

end Lockstep.Search
