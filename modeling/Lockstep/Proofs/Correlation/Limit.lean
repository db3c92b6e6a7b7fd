import Lockstep.Flow.Exploration
import Lockstep.Pair.Table
import Lockstep.Proofs.Correlation.Listing
import Lockstep.Proofs.Graph.Built
/-!
Correlating up to a limit. Up to the limit it goes as without one, and then it ends: so there are the
first records and the findings of these, and the end came early if there would have been more.
-/

set_option autoImplicit false

namespace Lockstep

open Search

/-- The same engine with another limit. -/
def Engine.limited (e : Engine) (most : Int) : Engine :=
  { e with config := { e.config with most := most } }

namespace Progress

variable {e : Engine} {p b : Progress} {c : Quadruple × StepKind} {cs : List (Quadruple × StepKind)}
  {parent : Option Quadruple} {most : Int} {n : Nat}

/-- How far the same run has come under a limit: just as far, or to its end with the first `n`
records. -/
inductive Cut (n : Nat) (p : Progress) : Progress → Prop
  | within : p.halt = none → p.records.length ≤ n → Cut n p p
  | beyond {b : Progress} : p.halt = none → b.halt = some .full → b.records = p.records.take n →
      n < p.records.length → Cut n p b

theorem isFull_iff (hmost : most ≠ 0) : p.isFull most = true ↔ most.toNat ≤ p.records.length := by
  simp [isFull, hmost]

theorem record_halted (hb : b.halt = some .full) : record most parent b c = b := by
  simp [record, hb]

theorem recordAll_halted (hb : b.halt = some .full) :
    cs.foldl (Progress.record most parent) b = b := by
  induction cs with
  | nil => rfl
  | cons c cs ih => rw [List.foldl_cons, record_halted hb, ih]

theorem record_unbounded (hp : p.halt = none) (hc : c.1.isAligned = true) :
    record 0 parent p c = if p.has c.1 then p else p.added ⟨c.1, parent, c.2⟩ := by
  simp [record_aligned hc, hp, isFull]

theorem Cut.record (hmost : most ≠ 0) (h : Cut most.toNat p b) (hc : c.1.isAligned = true) :
    Cut most.toNat (record 0 parent p c) (record most parent b c) := by
  cases h with
  | within hp hlen =>
    rw [record_unbounded hp hc, record_aligned hc]
    by_cases hhas : p.has c.1 = true
    · simpa [hhas] using within hp hlen
    have hopen : ¬(p.halt.isSome || p.has c.1) = true := by simp [hp, hhas]
    rw [if_neg hhas, if_neg hopen]
    by_cases hfull : most.toNat ≤ p.records.length
    · have hat : most.toNat = p.records.length := Nat.le_antisymm hfull hlen
      rw [if_pos ((isFull_iff hmost).mpr hfull)]
      refine beyond hp rfl ?_ (by simp [hat])
      rw [records_added, hat, List.take_left]
      rfl
    · rw [if_neg fun hb => hfull ((isFull_iff hmost).mp hb)]
      exact within hp (by simp; omega)
  | beyond hp hb hrecords hlen =>
    rw [record_halted hb, record_unbounded hp hc]
    by_cases hhas : p.has c.1 = true
    · simpa [hhas] using beyond hp hb hrecords hlen
    rw [if_neg hhas]
    refine beyond hp hb ?_ (by simp; omega)
    rw [hrecords, records_added, List.take_append_of_le_length (Nat.le_of_lt hlen)]

theorem Cut.recordAll (parent : Option Quadruple) (hmost : most ≠ 0) (h : Cut most.toNat p b)
    (hcs : ∀ c ∈ cs, c.1.isAligned = true) :
    Cut most.toNat (cs.foldl (Progress.record 0 parent) p)
      (cs.foldl (Progress.record most parent) b) :=
  List.foldl_rel h fun c hc _ _ hpb => hpb.record hmost (hcs c hc)

theorem Cut.step (hmost : most ≠ 0) (h : Cut most.toNat p b) :
    Cut most.toNat ((Progress.step (e.limited 0) e.advanceA p).getD p)
      ((Progress.step (e.limited most) e.advanceA b).getD b) := by
  have haligned (r : Record) : ∀ c ∈ e.expandWith e.advanceA r.quadruple, c.1.isAligned = true :=
    fun _ hc => Engine.isAligned_of_mem_expand hc
  cases h with
  | within hp hlen =>
    cases hw : p.waiting with
    | nil => simpa [Progress.step, hp, hw] using within hp hlen
    | cons r rest =>
      have htaken : Cut most.toNat (p.taken r rest) (p.taken r rest) :=
        within hp ((records_taken hw).symm ▸ hlen)
      rw [step_waiting _ hp hw, step_waiting _ hp hw]
      exact htaken.recordAll (some r.quadruple) hmost (haligned r)
  | beyond hp hb hrecords hlen =>
    have hstop : Progress.step (e.limited most) e.advanceA b = none := by
      simp [Progress.step, hb]
    rw [hstop]
    cases hw : p.waiting with
    | nil => simpa [Progress.step, hp, hw] using beyond hp hb hrecords hlen
    | cons r rest =>
      have htaken : Cut most.toNat (p.taken r rest) b := by
        refine beyond hp hb ?_ ?_
        · rw [hrecords, records_taken hw]
        · rwa [records_taken hw]
      have hall := htaken.recordAll (some r.quadruple) hmost (haligned r)
      rw [recordAll_halted hb] at hall
      rw [step_waiting _ hp hw]
      exact hall

end Progress

namespace Engine

variable {e : Engine} {most : Int} {q : Quadruple}

theorem start_cut (e : Engine) (hmost : most ≠ 0) :
    Progress.Cut most.toNat (e.limited 0).start (e.limited most).start := by
  have hnone : Progress.Cut most.toNat ⟨[], [], none⟩ ⟨[], [], none⟩ :=
    .within rfl (Nat.zero_le _)
  exact hnone.recordAll none hmost fun _ hc => isAligned_of_mem_seeds hc

theorem run_cut (e : Engine) (hmost : most ≠ 0) :
    Progress.Cut most.toNat ((e.limited 0).runWith e.advanceA) ((e.limited most).runWith e.advanceA) :=
  iterate_relates (fun _ _ h => h.step hmost) _ (e.start_cut hmost)

/-- A limit leaves the first records. -/
theorem outcome_limited (e : Engine) (hmost : most ≠ 0) :
    (e.limited 0).outcome.truncated = false ∧
    (e.limited most).outcome = (e.limited 0).outcome.first most.toNat := by
  have hcut := e.run_cut hmost
  have houtcome (most : Int) : (e.limited most).outcome =
      ⟨((e.limited most).runWith e.advanceA).records, e.pairs, e.flowA, e.flowB,
        ((e.limited most).runWith e.advanceA).halt == some .full⟩ := rfl
  rw [houtcome, houtcome]
  generalize (e.limited 0).runWith e.advanceA = p at hcut ⊢
  generalize (e.limited most).runWith e.advanceA = b at hcut ⊢
  cases hcut with
  | within hp hlen => simp [Correlation.first, hp, List.take_of_length_le hlen, Nat.not_lt.mpr hlen]
  | beyond hp hb hrecords hlen => simp [Correlation.first, hp, hb, hrecords, hlen]

/-- With or without a limit the first records are left. -/
theorem exists_first (e : Engine) :
    ∃ n, e.outcome.records = ((e.limited 0).outcome.first n).records := by
  by_cases hmost : e.config.most = 0
  · refine ⟨(e.limited 0).outcome.records.length, ?_⟩
    have hsame : e.limited 0 = e := by simp [limited, ← hmost]
    simp [hsame, Correlation.first]
  · have hsame : e.limited e.config.most = e := rfl
    exact ⟨e.config.most.toNat, by rw [← (e.outcome_limited hmost).2, hsame]⟩

/-- With a limit a correlation records what it records first without one, it is truncated exactly if
that is not all, and it lists the findings of what it records, with the same chains and traces. A
negative limit leaves nothing. -/
theorem solve_limited (e : Engine) {most : Int} (hmost : most ≠ 0) :
    ∃ whole part, (e.limited 0).solve = .ok whole ∧ (e.limited most).solve = .ok part ∧
      whole.truncated = false ∧
      part.records = whole.records.take most.toNat ∧
      (part.truncated = true ↔ most.toNat < whole.records.length) ∧
      (∀ q ∈ part.quadruples, part.chain q = whole.chain q) ∧
      part.findings = ((whole.quadruples.take most.toNat).filter whole.isFinding).mapM
        (whole.findingOf whole.records.reverse) ∧
      ∀ fs, whole.findings = .ok fs →
        part.findings = .ok (fs.filter (·.quadruple ∈ part.quadruples)) := by
  obtain ⟨htruncated, hfirst⟩ := e.outcome_limited hmost
  have hnodup := (e.limited 0).nodup_outcome
  refine ⟨(e.limited 0).outcome, (e.limited most).outcome, solve_eq_outcome _, solve_eq_outcome _,
    htruncated, ?_⟩
  rw [hfirst]
  refine ⟨rfl, by simp [Correlation.first], fun q hq => Correlation.chain_first hnodup hq,
    Correlation.findings_first hnodup, fun fs hfs => ?_⟩
  exact Correlation.findings_first_eq_filter hnodup hfs

/-- The two values of the sample graph, each on its way to a sink of its own. -/
def sample : Engine where
  flowA := .build ⟨['A'], 0⟩ .sample (.ofIds [['s']] [['k']] []) 1
  flowB := .build ⟨['B'], 0⟩ .sample (.ofIds [['t']] [['l']] []) 1
  pairs := PairTable.config { sources := [(['s'], ['t'])], sinks := [(['k'], ['l'])] }
  config := { policy := .callSite }

/-- There are nine quadruples. A limit of eight lies between the two that are findings. -/
theorem solve_limited_sample : (8 : Int) ≠ 0 ∧
    ∃ whole part fs, (sample.limited 0).solve = .ok whole ∧ (sample.limited 8).solve = .ok part ∧
      part.truncated = true ∧ whole.findings = .ok fs ∧ fs.length = 2 ∧
      part.findings = .ok (fs.filter (·.quadruple ∈ part.quadruples)) ∧
      (part.quadruples.filter part.isFinding).length = 1 := by
  have hlimit : (8 : Int) ≠ 0 := by decide
  obtain ⟨whole, part, hwhole, hpart, -, -, htruncated, -, -, hfindings⟩ :=
    solve_limited sample hlimit
  obtain rfl := Except.ok.inj ((solve_eq_outcome _).symm.trans hwhole)
  obtain rfl := Except.ok.inj ((solve_eq_outcome _).symm.trans hpart)
  obtain ⟨fs, hfs⟩ : ∃ fs, (sample.limited 0).outcome.findings = .ok fs := ⟨_, rfl⟩
  have hlength := congrArg List.length (Correlation.quadruple_of_mapM hfs)
  rw [List.length_map] at hlength
  exact ⟨hlimit, _, _, fs, hwhole, hpart, htruncated.mpr (by decide), hfs,
    hlength.trans (by decide), hfindings fs hfs, by decide⟩

end Engine
end Lockstep
