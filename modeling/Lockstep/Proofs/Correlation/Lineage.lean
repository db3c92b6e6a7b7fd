import Mathlib.Data.List.Chain
import Mathlib.Data.List.Nodup
import Lockstep.Correlation.Finding
import Lockstep.Proofs.Correlation.Rules
import Lockstep.Proofs.Search.Run
/-!
Where recorded quadruples come from. Whatever the limit, each record is a seed or derived from a
quadruple that was recorded before, and no quadruple is recorded twice. So the chain of a quadruple
leads from a seed to it, by one rule after the other.
-/

set_option autoImplicit false

namespace Lockstep

open Search

/-- A record stands for a seed, or for what a rule derives from one of these quadruples. -/
inductive Engine.Origin (e : Engine) (earlier : List Quadruple) : Record → Prop
  | seed {q : Quadruple} : e.IsSeed q → Origin e earlier ⟨q, none, .seed⟩
  | derived {p q : Quadruple} {k : StepKind} : p ∈ earlier → e.Derives k p q →
      Origin e earlier ⟨q, some p, k⟩

/-- Records, the latest first, each of which comes from those before it. -/
inductive Engine.Grown (e : Engine) : List Record → Prop
  | nil : Grown e []
  | cons {older : List Record} {r : Record} : Grown e older →
      r.quadruple ∉ older.map (·.quadruple) → e.Origin (older.map (·.quadruple)) r →
      Grown e (r :: older)

/-- A chain of records from a seed to a quadruple. -/
inductive Engine.Lineage (e : Engine) : List Record → Quadruple → Prop
  | seed {q : Quadruple} : e.IsSeed q → Lineage e [⟨q, none, .seed⟩] q
  | derived {rs : List Record} {p q : Quadruple} {k : StepKind} : Lineage e rs p →
      e.Derives k p q → q ∉ rs.map (·.quadruple) → Lineage e (rs ++ [⟨q, some p, k⟩]) q

variable {e : Engine} {p : Progress} {c : Quadruple × StepKind} {cs : List (Quadruple × StepKind)}
  {parent : Option Quadruple} {most : Int} {older newer rs : List Record} {q : Quadruple} {r : Record}

theorem Engine.Origin.mono {earlier later : List Quadruple} (h : e.Origin earlier r)
    (hsub : earlier ⊆ later) : e.Origin later r := by
  cases h with
  | seed hs => exact .seed hs
  | derived hp hd => exact .derived (hsub hp) hd

theorem Engine.Origin.isAligned {earlier : List Quadruple} (h : e.Origin earlier r) :
    r.quadruple.isAligned = true := by
  cases h with
  | seed hs => exact hs.isAligned
  | derived _ hd => exact hd.isAligned

theorem Engine.Grown.nodup (h : e.Grown older) : (older.map (·.quadruple)).Nodup := by
  induction h with
  | nil => exact .nil
  | cons _ hnew _ ih => exact List.nodup_cons.mpr ⟨hnew, ih⟩

namespace Progress

theorem has_iff_mem : p.has q = true ↔ q ∈ p.records.map (·.quadruple) := by
  simp [has, records]

def added (p : Progress) (r : Record) : Progress := { p with waiting := p.waiting ++ [r] }

@[simp] theorem records_added (p : Progress) (r : Record) :
    (p.added r).records = p.records ++ [r] := by
  simp [added, records]

/-- What recording does with a quadruple that is in line. -/
theorem record_aligned (hc : c.1.isAligned = true) : record most parent p c =
    if p.halt.isSome || p.has c.1 then p
    else if p.isFull most then { p with halt := some .full }
    else p.added ⟨c.1, parent, c.2⟩ := by
  simp [record, added, hc]

theorem record_cases (most : Int) (parent : Option Quadruple) (hc : c.1.isAligned = true) :
    record most parent p c = p ∨ record most parent p c = { p with halt := some .full } ∨
    (c.1 ∉ p.records.map (·.quadruple) ∧ record most parent p c = p.added ⟨c.1, parent, c.2⟩) := by
  rw [record_aligned hc]
  by_cases hskip : (p.halt.isSome || p.has c.1) = true
  · exact Or.inl (if_pos hskip)
  rw [if_neg hskip]
  by_cases hfull : p.isFull most = true
  · exact Or.inr (Or.inl (if_pos hfull))
  · have hnew : c.1 ∉ p.records.map (·.quadruple) := by
      rw [← has_iff_mem]
      simp_all
    exact Or.inr (Or.inr ⟨hnew, if_neg hfull⟩)

/-- All records come from earlier ones, and nothing was out of line. -/
structure Sound (e : Engine) (p : Progress) : Prop where
  grown : e.Grown p.records.reverse
  inLine : ∀ m, p.halt ≠ some (.misaligned m)

theorem Sound.record (most : Int) (h : p.Sound e)
    (hc : e.Origin (p.records.map (·.quadruple)) ⟨c.1, parent, c.2⟩) :
    (record most parent p c).Sound e ∧ p.records ⊆ (record most parent p c).records := by
  rcases record_cases most parent hc.isAligned with heq | heq | ⟨hnew, heq⟩
  · rw [heq]
    exact ⟨h, List.Subset.refl _⟩
  · rw [heq]
    exact ⟨⟨h.grown, fun _ => by simp⟩, List.Subset.refl _⟩
  · rw [heq]
    refine ⟨⟨?_, h.inLine⟩, ?_⟩
    · rw [records_added, List.reverse_append]
      exact .cons h.grown (by simpa using hnew) (hc.mono (by simp))
    · rw [records_added]
      exact List.subset_append_left _ _

theorem Sound.recordAll (h : p.Sound e)
    (hcs : ∀ c ∈ cs, e.Origin (p.records.map (·.quadruple)) ⟨c.1, parent, c.2⟩) :
    (cs.foldl (Progress.record most parent) p).Sound e := by
  induction cs generalizing p with
  | nil => exact h
  | cons c cs ih =>
    obtain ⟨hsound, hsub⟩ := h.record most (hcs c (by simp))
    refine ih hsound fun d hd => (hcs d (by simp [hd])).mono ?_
    exact List.map_subset _ hsub

/-- What is left to do once the record that has waited longest is taken. -/
def taken (p : Progress) (r : Record) (rest : List Record) : Progress :=
  { p with expanded := p.expanded ++ [r], waiting := rest }

theorem records_taken {rest : List Record} (hw : p.waiting = r :: rest) :
    (p.taken r rest).records = p.records := by
  simp [taken, records, hw]

theorem step_waiting (advance : Quadruple → List Quadruple) {rest : List Record}
    (hp : p.halt = none) (hw : p.waiting = r :: rest) : Progress.step e advance p =
      some ((e.expandWith advance r.quadruple).foldl
        (Progress.record e.config.most (some r.quadruple)) (p.taken r rest)) := by
  simp [Progress.step, taken, hp, hw]

theorem step_eq_some {advance : Quadruple → List Quadruple} {p' : Progress}
    (h : Progress.step e advance p = some p') :
    ∃ r rest, p.halt = none ∧ p.waiting = r :: rest ∧
      p' = (e.expandWith advance r.quadruple).foldl
        (Progress.record e.config.most (some r.quadruple)) (p.taken r rest) := by
  cases hp : p.halt with
  | some _ => simp [Progress.step, hp] at h
  | none =>
    cases hw : p.waiting with
    | nil => simp [Progress.step, hp, hw] at h
    | cons r rest =>
      rw [step_waiting advance hp hw] at h
      exact ⟨r, rest, rfl, rfl, (Option.some.inj h).symm⟩

theorem Sound.step : Preserves (Progress.step e e.advanceA) (Sound e) := by
  intro p p' h hstep
  obtain ⟨r, rest, -, hw, rfl⟩ := step_eq_some hstep
  have hrecords := records_taken hw
  have htaken : (p.taken r rest).Sound e := ⟨hrecords ▸ h.grown, h.inLine⟩
  refine htaken.recordAll fun c hc => .derived ?_ (Engine.mem_expand.mp hc)
  rw [hrecords]
  exact List.mem_map.mpr ⟨r, by simp [records, hw], rfl⟩

end Progress

namespace Engine

theorem start_sound (e : Engine) : e.start.Sound e := by
  refine Progress.Sound.recordAll ⟨.nil, by simp⟩ fun c hc => ?_
  obtain ⟨q, hq, rfl⟩ := List.mem_map.mp hc
  exact .seed (mem_seeds.mp hq)

theorem run_sound (e : Engine) : (e.runWith e.advanceA).Sound e :=
  iterate_preserves Progress.Sound.step _ e.start_sound

/-- What a correlation comes to. -/
def outcome (e : Engine) : Correlation :=
  let p := e.runWith e.advanceA
  ⟨p.records, e.pairs, e.flowA, e.flowB, p.halt == some .full⟩

theorem solve_eq_outcome (e : Engine) : e.solve = .ok e.outcome := by
  have hline := e.run_sound.inLine
  unfold solve solveWith conclude outcome
  cases h : (e.runWith e.advanceA).halt with
  | none => simp [h]
  | some halt =>
    cases halt with
    | full => simp [h]
    | misaligned m => exact absurd h (hline m)

theorem outcome_grown (e : Engine) : e.Grown e.outcome.records.reverse := e.run_sound.grown

theorem nodup_outcome (e : Engine) : e.outcome.quadruples.Nodup := by
  have h := e.outcome_grown.nodup
  rwa [List.map_reverse, List.nodup_reverse] at h

end Engine

namespace Correlation

theorem chainIn_sublist (older : List Record) (q : Quadruple) :
    (chainIn older q).Sublist older.reverse := by
  induction older generalizing q with
  | nil => simp [chainIn]
  | cons r older ih =>
    rw [List.reverse_cons, chainIn]
    by_cases hr : r.quadruple = q
    · rw [if_pos hr]
      cases r.parent with
      | none => exact List.sublist_append_right _ _
      | some p => exact (ih p).append (.refl _)
    · rw [if_neg hr]
      exact (ih q).trans (List.sublist_append_left _ _)

/-- Records of other quadruples that come later do not matter. -/
theorem chainIn_append (h : q ∉ newer.map (·.quadruple)) :
    chainIn (newer ++ older) q = chainIn older q := by
  induction newer with
  | nil => rfl
  | cons r newer ih =>
    simp only [List.map_cons, List.mem_cons, not_or] at h
    rw [List.cons_append, chainIn, if_neg fun hr => h.1 hr.symm]
    exact ih h.2

end Correlation

namespace Engine

open Correlation

theorem Grown.lineage (h : e.Grown older) (hq : q ∈ older.map (·.quadruple)) :
    e.Lineage (chainIn older q) q := by
  induction h generalizing q with
  | nil => simp at hq
  | @cons older r _ hnew horigin ih =>
    rw [chainIn]
    by_cases hr : r.quadruple = q
    · subst hr
      cases horigin with
      | seed hs => simpa using Lineage.seed hs
      | @derived p q k hp hd =>
        simp only [if_true]
        refine .derived (ih hp) hd fun hmem => hnew ?_
        have hsub := List.map_subset (·.quadruple) (chainIn_sublist older p).subset
        simpa using hsub hmem
    · rw [if_neg hr]
      have hold : q ∈ older.map (·.quadruple) := by
        rcases List.mem_cons.mp hq with heq | hmem
        · exact absurd heq.symm hr
        · exact hmem
      exact ih hold

theorem outcome_lineage (hq : q ∈ e.outcome.quadruples) : e.Lineage (e.outcome.chain q) q := by
  refine e.outcome_grown.lineage ?_
  rw [List.map_reverse, List.mem_reverse]
  exact hq

theorem Lineage.nodup (h : e.Lineage rs q) : (rs.map (·.quadruple)).Nodup := by
  induction h with
  | seed _ => simp
  | @derived _ _ q _ _ _ hnew ih =>
    rw [List.map_append, List.nodup_append]
    refine ⟨ih, by simp, ?_⟩
    intro a ha b hb hab
    have hq : b = q := List.mem_singleton.mp hb
    exact hnew (hq ▸ hab ▸ ha)

theorem Lineage.isAligned (h : e.Lineage rs q) : q.isAligned = true := by
  cases h with
  | seed hs => exact hs.isAligned
  | derived _ hd _ => exact hd.isAligned

theorem Lineage.mem (h : e.Lineage rs q) : q ∈ rs.map (·.quadruple) := by
  cases h with
  | seed _ => simp
  | derived _ _ _ => simp

theorem Derives.sources {k : StepKind} {p q : Quadruple} (h : e.Derives k p q) :
    q.source1 = p.source1 ∧ q.source2 = p.source2 := by
  cases h <;> exact ⟨rfl, rfl⟩

/-- Where the two flows of a quadruple began is a seed. -/
theorem Lineage.isSeed (h : e.Lineage rs q) :
    e.IsSeed ⟨q.source1, q.source2, q.source1, q.source2⟩ := by
  induction h with
  | @seed q hs =>
    obtain ⟨s₁, s₂, n₁, n₂⟩ := q
    obtain rfl : s₁ = n₁ := hs.start1
    obtain rfl : s₂ = n₂ := hs.start2
    exact hs
  | derived _ hd _ ih =>
    rw [hd.sources.1, hd.sources.2]
    exact ih

theorem Lineage.head? (h : e.Lineage rs q) :
    rs.head? = some ⟨⟨q.source1, q.source2, q.source1, q.source2⟩, none, .seed⟩ := by
  induction h with
  | @seed q hs =>
    obtain ⟨s₁, s₂, n₁, n₂⟩ := q
    obtain rfl : s₁ = n₁ := hs.start1
    obtain rfl : s₂ = n₂ := hs.start2
    rfl
  | derived _ hd _ ih =>
    rw [List.head?_append, ih, hd.sources.1, hd.sources.2]
    rfl

theorem Lineage.getLast? (h : e.Lineage rs q) : rs.getLast?.map (·.quadruple) = some q := by
  cases h with
  | seed _ => rfl
  | derived _ _ _ => simp

/-- Between different quadruples no two rules lead the same way. -/
theorem Derives.unique {k l : StepKind} {p q : Quadruple} (h : e.Derives k p q)
    (h' : e.Derives l p q) (hp : p.isAligned = true) (hne : p ≠ q) : k = l := by
  have hroutine : p.node1.routine = p.node2.routine := by simpa [Quadruple.isAligned] using hp
  cases h with
  | advanceA _ hr =>
    cases h' with
    | advanceA => rfl
    | advanceB => exact absurd rfl hne
    | joint _ _ _ hleaves _ => exact absurd (hr.trans hroutine.symm) hleaves
  | advanceB _ hr =>
    cases h' with
    | advanceA => exact absurd rfl hne
    | advanceB => rfl
    | joint _ _ _ hleaves _ => exact absurd rfl hleaves
  | joint _ _ _ hleaves _ =>
    cases h' with
    | advanceA _ hr => exact absurd (hr.trans hroutine.symm) hleaves
    | advanceB => exact absurd rfl hleaves
    | joint => rfl

/-- Each record follows from the one before it by the rule that it names, and by no other. -/
theorem Lineage.linked (h : e.Lineage rs q) : rs.IsChain fun r s =>
    s.parent = some r.quadruple ∧ ∀ k, e.Derives k r.quadruple s.quadruple ↔ k = s.step := by
  induction h with
  | seed _ => simp
  | @derived rs p q k hrs hd hnew ih =>
    refine List.isChain_append.mpr ⟨ih, by simp, fun r hr s hs => ?_⟩
    have hlast := hrs.getLast?
    rw [Option.mem_def.mp hr] at hlast
    obtain rfl : r.quadruple = p := Option.some.inj hlast
    obtain rfl : ⟨q, some r.quadruple, k⟩ = s := Option.some.inj hs
    have hne : r.quadruple ≠ q := fun heq => hnew (heq ▸ hrs.mem)
    exact ⟨rfl, fun l => ⟨fun hl => hl.unique hd hrs.isAligned hne, fun hl => hl ▸ hd⟩⟩

/-- A parent was recorded before. -/
theorem Grown.parent_before (h : e.Grown older) : ∀ r ∈ older, ∀ p, r.parent = some p →
    [p, r.quadruple].Sublist (older.map (·.quadruple)).reverse := by
  induction h with
  | nil => simp
  | @cons older r _ _ horigin ih =>
    intro s hs p hp
    rw [List.map_cons, List.reverse_cons]
    rcases List.mem_cons.mp hs with rfl | hs
    · cases horigin with
      | seed _ => simp at hp
      | derived hmem _ =>
        obtain rfl := Option.some.inj hp
        exact (List.singleton_sublist.mpr (List.mem_reverse.mpr hmem)).append (.refl _)
    · exact (ih s hs p hp).trans (List.sublist_append_left _ _)

theorem parent_before (e : Engine) : ∀ r ∈ e.outcome.records, ∀ p, r.parent = some p →
    [p, r.quadruple].Sublist e.outcome.quadruples := by
  intro r hr p hp
  have h := e.outcome_grown.parent_before r (List.mem_reverse.mpr hr) p hp
  rwa [List.map_reverse, List.reverse_reverse] at h

theorem chain_sublist (e : Engine) (q : Quadruple) :
    (e.outcome.chain q).Sublist e.outcome.records := by
  have h := chainIn_sublist e.outcome.records.reverse q
  rwa [List.reverse_reverse] at h

end Engine
end Lockstep
