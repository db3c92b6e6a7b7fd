import Lockstep.Proofs.Correlation.Fixpoint
import Lockstep.Proofs.Correlation.Lineage
/-!
How recording guards itself. Flow A may be made to advance in any way at all: a quadruple whose
flows are in different routines is refused, and the run ends there. So a run that has a result has
recorded nothing out of line, and nothing that was yielded is missing unless there was a limit.
-/

set_option autoImplicit false

namespace Lockstep

open Search

/-- What was refused is out of line, and flow A was made to advance to it from one of these. -/
structure Misaligned.YieldedFrom (advance : Quadruple → List Quadruple) (qs : List Quadruple)
    (m : Misaligned) : Prop where
  outOfLine : m.quadruple.isAligned = false
  step : m.step = .advanceA
  yielded : ∃ q ∈ qs, m.quadruple ∈ advance q

theorem Misaligned.YieldedFrom.mono {advance : Quadruple → List Quadruple} {qs rs : List Quadruple}
    {m : Misaligned} (h : m.YieldedFrom advance qs) (hsub : qs ⊆ rs) : m.YieldedFrom advance rs :=
  have ⟨q, hq, hyielded⟩ := h.yielded
  ⟨h.outOfLine, h.step, q, hsub hq, hyielded⟩

variable {e : Engine} {advance : Quadruple → List Quadruple} {q : Quadruple}
  {c : Quadruple × StepKind} {cs : List (Quadruple × StepKind)} {parent : Option Quadruple}
  {most : Int}

/-- Apart from how flow A advances the rules are what they were. -/
theorem Engine.of_mem_expandWith (h : c ∈ e.expandWith advance q) :
    (c.2 = .advanceA ∧ c.1 ∈ advance q) ∨ e.Derives c.2 q c.1 := by
  simp only [expandWith, List.mem_append, List.mem_map] at h
  obtain (⟨r, hr, rfl⟩ | ⟨r, hr, rfl⟩) | ⟨r, hr, rfl⟩ := h
  · exact Or.inl ⟨rfl, hr⟩
  · exact Or.inr (mem_advanceB.mp hr)
  · exact Or.inr (mem_joint.mp hr)

namespace Progress

variable {p p' p'' : Progress}

def quadruples (p : Progress) : List Quadruple := p.records.map (·.quadruple)

@[simp] theorem quadruples_added (p : Progress) (r : Record) :
    (p.added r).quadruples = p.quadruples ++ [r.quadruple] := by
  simp [quadruples]

theorem quadruples_taken {r : Record} {rest : List Record} (hw : p.waiting = r :: rest) :
    (p.taken r rest).quadruples = p.quadruples := by
  simp only [quadruples, records_taken hw]

/-- All that can come of recording a quadruple, in line or not. -/
inductive Recording (parent : Option Quadruple) (c : Quadruple × StepKind) (p : Progress) :
    Progress → Prop
  | ended : p.halt ≠ none → Recording parent c p p
  | known : c.1 ∈ p.quadruples → Recording parent c p p
  | full : p.halt = none → Recording parent c p { p with halt := some .full }
  | added : p.halt = none → c.1 ∉ p.quadruples → c.1.isAligned = true →
      Recording parent c p (p.added ⟨c.1, parent, c.2⟩)
  | refused : p.halt = none → c.1.isAligned = false →
      Recording parent c p { p with halt := some (.misaligned ⟨c.1, c.2⟩) }

theorem recording_record (most : Int) (parent : Option Quadruple) (c : Quadruple × StepKind)
    (p : Progress) : Recording parent c p (record most parent p c) := by
  unfold record
  by_cases hskip : (p.halt.isSome || p.has c.1) = true
  · rw [if_pos hskip]
    rcases Bool.or_eq_true_iff.mp hskip with hended | hhas
    · exact .ended (Option.isSome_iff_ne_none.mp hended)
    · exact .known (has_iff_mem.mp hhas)
  rw [if_neg hskip]
  obtain ⟨hhalt, hnew⟩ : p.halt = none ∧ c.1 ∉ p.quadruples := by
    simpa [quadruples, has_iff_mem] using hskip
  by_cases hfull : p.isFull most = true
  · rw [if_pos hfull]
    exact .full hhalt
  rw [if_neg hfull]
  by_cases hline : c.1.isAligned = true
  · rw [if_pos hline]
    exact .added hhalt hnew hline
  · rw [if_neg hline]
    exact .refused hhalt (Bool.eq_false_iff.mpr hline)

/-- Recording takes nothing back, and it does not go on after an end. -/
structure Extends (p p' : Progress) : Prop where
  expanded : p'.expanded = p.expanded
  quadruples : p.quadruples ⊆ p'.quadruples
  halt : p'.halt = none → p.halt = none

theorem Extends.refl (p : Progress) : p.Extends p := ⟨rfl, List.Subset.refl _, id⟩

theorem Extends.trans (h : p.Extends p') (h' : p'.Extends p'') : p.Extends p'' :=
  ⟨h'.expanded.trans h.expanded, List.Subset.trans h.quadruples h'.quadruples,
    fun hend => h.halt (h'.halt hend)⟩

theorem Recording.extends (h : Recording parent c p p') : p.Extends p' := by
  cases h with
  | ended _ => exact .refl p
  | known _ => exact .refl p
  | full hhalt => exact ⟨rfl, List.Subset.refl _, fun _ => hhalt⟩
  | added hhalt _ _ => exact ⟨rfl, by simp, fun _ => hhalt⟩
  | refused hhalt _ => exact ⟨rfl, List.Subset.refl _, fun _ => hhalt⟩

theorem Recording.mem (h : Recording parent c p p') (hend : p'.halt = none) :
    c.1 ∈ p'.quadruples := by
  cases h with
  | ended hhalt => exact absurd hend hhalt
  | known hmem => exact hmem
  | full _ => cases hend
  | added _ _ _ => simp
  | refused _ _ => cases hend

theorem recordAll_extends (p : Progress) : p.Extends (cs.foldl (record most parent) p) := by
  induction cs generalizing p with
  | nil => exact .refl p
  | cons c cs ih => exact (recording_record most parent c p).extends.trans (ih _)

/-- Unless it comes to an end, recording leaves nothing out. -/
theorem recordAll_contains (hend : (cs.foldl (record most parent) p).halt = none) :
    ∀ c ∈ cs, c.1 ∈ (cs.foldl (record most parent) p).quadruples := by
  induction cs generalizing p with
  | nil => simp
  | cons c cs ih =>
    have hrest : (record most parent p c).Extends ((c :: cs).foldl (record most parent) p) :=
      recordAll_extends _
    intro d hd
    rcases List.mem_cons.mp hd with rfl | hd
    · exact hrest.quadruples ((recording_record most parent d p).mem (hrest.halt hend))
    · exact ih hend d hd

/-- What the guard keeps up: all that is recorded is in line, and what was refused was not. -/
structure Guarded (e : Engine) (advance : Quadruple → List Quadruple) (p : Progress) : Prop where
  nodup : p.quadruples.Nodup
  domain : p.quadruples ⊆ e.domain
  inLine : ∀ q ∈ p.quadruples, q.isAligned = true
  refused : ∀ m, p.halt = some (.misaligned m) → m.YieldedFrom advance p.quadruples

theorem Guarded.recorded (hp : p.Guarded e advance) (h : Recording parent c p p')
    (hdomain : c.1 ∈ e.domain)
    (hline : c.1.isAligned = false → Misaligned.YieldedFrom advance p.quadruples ⟨c.1, c.2⟩) :
    p'.Guarded e advance := by
  cases h with
  | ended _ => exact hp
  | known _ => exact hp
  | full _ => exact ⟨hp.nodup, hp.domain, hp.inLine, by simp⟩
  | added hhalt hnew haligned =>
    refine ⟨?_, ?_, ?_, fun m hm => ?_⟩
    · rw [quadruples_added]
      refine List.nodup_append.mpr ⟨hp.nodup, by simp, fun a ha b hb hab => ?_⟩
      obtain rfl : b = c.1 := List.mem_singleton.mp hb
      exact hnew (hab ▸ ha)
    · rw [quadruples_added]
      exact List.append_subset.mpr ⟨hp.domain, by simpa using hdomain⟩
    · intro q hq
      rw [quadruples_added] at hq
      rcases List.mem_append.mp hq with hq | hq
      · exact hp.inLine q hq
      · exact List.mem_singleton.mp hq ▸ haligned
    · exact absurd (hhalt.symm.trans hm) (by simp)
  | refused _ hout =>
    refine ⟨hp.nodup, hp.domain, hp.inLine, fun m hm => ?_⟩
    obtain rfl : ⟨c.1, c.2⟩ = m := by simpa using hm
    exact hline hout

theorem Guarded.recordAll (hp : p.Guarded e advance) (hcs : ∀ c ∈ cs, c.1 ∈ e.domain ∧
      (c.1.isAligned = false → Misaligned.YieldedFrom advance p.quadruples ⟨c.1, c.2⟩)) :
    (cs.foldl (record most parent) p).Guarded e advance := by
  induction cs generalizing p with
  | nil => exact hp
  | cons c cs ih =>
    have hrecording := recording_record most parent c p
    obtain ⟨hdomain, hline⟩ := hcs c (by simp)
    refine ih (hp.recorded hrecording hdomain hline) fun d hd => ?_
    obtain ⟨hdomain, hline⟩ := hcs d (by simp [hd])
    exact ⟨hdomain, fun hout => (hline hout).mono hrecording.extends.quadruples⟩

theorem Guarded.step (hA : e.flowA.Inward) (hB : e.flowB.Inward)
    (hadvance : ∀ q ∈ e.domain, advance q ⊆ e.domain) :
    Preserves (Progress.step e advance) (Guarded e advance) := by
  intro p p' hp hstep
  obtain ⟨r, rest, hhalt, hw, rfl⟩ := step_eq_some hstep
  have hquadruples := quadruples_taken hw
  have hmem : r.quadruple ∈ p.quadruples := List.mem_map.mpr ⟨r, by simp [records, hw], rfl⟩
  have htaken : (p.taken r rest).Guarded e advance :=
    ⟨hquadruples ▸ hp.nodup, hquadruples ▸ hp.domain, hquadruples ▸ hp.inLine,
      hquadruples ▸ hp.refused⟩
  refine htaken.recordAll fun c hc => ?_
  have hr := hp.domain hmem
  rcases Engine.of_mem_expandWith hc with ⟨hkind, hyielded⟩ | hd
  · exact ⟨hadvance _ hr hyielded, fun hout => ⟨hout, hkind, _, hquadruples ▸ hmem, hyielded⟩⟩
  · exact ⟨hd.mem_domain hA hB hr, fun hout => absurd hd.isAligned (by simp [hout])⟩

/-- Up to an end, all that was yielded from expanded records is recorded. -/
def Followed (e : Engine) (advance : Quadruple → List Quadruple) (p : Progress) : Prop :=
  p.halt = none → ∀ r ∈ p.expanded, ∀ c ∈ e.expandWith advance r.quadruple, c.1 ∈ p.quadruples

theorem followed_step : Preserves (Progress.step e advance) (Followed e advance) := by
  intro p p' hp hstep hend s hs c hc
  obtain ⟨r, rest, hhalt, hw, rfl⟩ := step_eq_some hstep
  have hextends : (p.taken r rest).Extends ((e.expandWith advance r.quadruple).foldl
      (record e.config.most (some r.quadruple)) (p.taken r rest)) := recordAll_extends _
  rw [hextends.expanded] at hs
  -- what was expanded before had all recorded then; what is expanded now has it recorded now
  rcases List.mem_append.mp hs with hs | hs
  · exact hextends.quadruples ((quadruples_taken hw).symm ▸ hp hhalt s hs c hc)
  · exact recordAll_contains hend c (List.mem_singleton.mp hs ▸ hc)

end Progress

namespace Engine

theorem start_guarded (e : Engine) (advance : Quadruple → List Quadruple) :
    e.start.Guarded e advance := by
  refine Progress.Guarded.recordAll ⟨.nil, by simp [Progress.quadruples, Progress.records],
    by simp [Progress.quadruples, Progress.records], by simp⟩ fun c hc => ?_
  obtain ⟨q, hq, rfl⟩ := List.mem_map.mp hc
  have hseed := mem_seeds.mp hq
  exact ⟨hseed.mem_domain, fun hout => absurd hseed.isAligned (by simp [hout])⟩

theorem expanded_start (e : Engine) : e.start.expanded = [] :=
  (Progress.recordAll_extends _).expanded

/-- The guard at work. A run comes to its end, either because what was yielded from its records is
out of line, or with a result that is in line. Unless that is truncated nothing that was yielded from
it is missing. -/
structure Guards (e : Engine) (advance : Quadruple → List Quadruple) : Prop where
  ends : Progress.step e advance (e.runWith advance) = none
  comes :
    (∃ m, e.solveWith advance = .error m ∧ m.YieldedFrom advance (e.runWith advance).quadruples) ∨
    ∃ c, e.solveWith advance = .ok c ∧ (∀ q ∈ c.quadruples, q.isAligned = true) ∧
      (c.truncated = false →
        ∀ q ∈ c.quadruples, ∀ r ∈ e.expandWith advance q, r.1 ∈ c.quadruples)

section Run

variable (hA : e.flowA.Inward) (hB : e.flowB.Inward)
  (hadvance : ∀ q ∈ e.domain, advance q ⊆ e.domain)

include hA hB hadvance

theorem run_guarded : (e.runWith advance).Guarded e advance :=
  iterate_preserves (Progress.Guarded.step hA hB hadvance) _ (e.start_guarded advance)

/-- A run comes to its end: it expands one more record each time, and there are only so many. -/
theorem run_ends : Progress.step e advance (e.runWith advance) = none := by
  refine iterate_halts (fun p => p.expanded.length) e.domain.length
    (Progress.Guarded.step hA hB hadvance) (fun p p' hp hstep => ?_) _ (e.start_guarded advance) ?_
  · obtain ⟨r, rest, -, hw, rfl⟩ := Progress.step_eq_some hstep
    have hrecords : p.quadruples.length ≤ e.domain.length :=
      length_le_of_nodup hp.nodup fun q hq => hp.domain hq
    rw [(Progress.recordAll_extends _).expanded]
    simp only [Progress.quadruples, Progress.records, Progress.taken, hw, List.length_map,
      List.length_append, List.length_cons, List.length_nil] at hrecords ⊢
    omega
  · have := e.length_domain_lt
    omega

theorem guards : e.Guards advance := by
  have hguarded := run_guarded hA hB hadvance
  have hfollowed : (e.runWith advance).Followed e advance :=
    iterate_preserves Progress.followed_step _ fun _ r hr => by simp [expanded_start] at hr
  have hend := run_ends hA hB hadvance
  refine ⟨hend, ?_⟩
  unfold solveWith conclude
  generalize e.runWith advance = p at hguarded hfollowed hend ⊢
  cases hhalt : p.halt with
  | none =>
    refine Or.inr ⟨_, rfl, hguarded.inLine, fun _ q hq c hc => ?_⟩
    -- with no step left and no halt nothing waits any more
    have hwaiting : p.waiting = [] := by
      cases hw : p.waiting with
      | nil => rfl
      | cons r rest => simp [Progress.step_waiting advance hhalt hw] at hend
    obtain ⟨r, hr, rfl⟩ := List.mem_map.mp hq
    have hexpanded : r ∈ p.expanded := by simpa [Progress.records, hwaiting] using hr
    exact hfollowed hhalt r hexpanded c hc
  | some h =>
    cases h with
    | full => exact Or.inr ⟨_, rfl, hguarded.inLine, by simp⟩
    | misaligned m => exact Or.inl ⟨m, rfl, hguarded.refused m hhalt⟩

end Run
end Engine
end Lockstep
