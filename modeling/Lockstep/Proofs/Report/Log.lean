import Mathlib.Data.List.Nodup
import Lockstep.Report.Sarif
/-!
What a log of batches lists. Each finding has its result. A rule is listed when a finding of it is
added and is not listed before, so what counts are the batches with findings, and of those with the
same rule the first one.
-/

set_option autoImplicit false

namespace Lockstep

/-- A finding together with the batch that it is reported for. -/
structure Notice where
  batch : Batch
  finding : Finding

namespace Notice

def result (n : Notice) : Json := Sarif.result n.finding n.batch.rule n.batch.severity

end Notice

namespace Batch

variable {b : Batch} {bs : List Batch}

def hasFindings (b : Batch) : Bool := !b.findings.isEmpty

/-- All that is to be reported, in order. -/
def notices (bs : List Batch) : List Notice := bs.flatMap fun b => b.findings.map fun f => ⟨b, f⟩

theorem notices_cons (b : Batch) (bs : List Batch) :
    notices (b :: bs) = (b.findings.map fun f => ⟨b, f⟩) ++ notices bs := List.flatMap_cons

theorem mem_notices {n : Notice} : n ∈ notices bs ↔ n.batch ∈ bs ∧ n.finding ∈ n.batch.findings := by
  obtain ⟨b, f⟩ := n
  simp only [notices, List.mem_flatMap, List.mem_map, Notice.mk.injEq]
  constructor
  · rintro ⟨c, hc, g, hg, rfl, rfl⟩
    exact ⟨hc, hg⟩
  · rintro ⟨hb, hf⟩
    exact ⟨b, hb, f, hf, rfl, rfl⟩

/-- The rule of a batch. Without a description its name stands for one. -/
def listed (b : Batch) : Sarif.Rule :=
  ⟨b.rule, if b.description.isEmpty then b.rule else b.description⟩

/-- Of the batches that have findings, the first one of each rule. -/
def firsts : List Batch → List Batch
  | [] => []
  | b :: bs => if b.hasFindings then b :: (firsts bs).filter (·.rule != b.rule) else firsts bs

theorem nodup_firsts (bs : List Batch) : ((firsts bs).map (·.rule)).Nodup := by
  induction bs with
  | nil => exact .nil
  | cons b bs ih =>
    rw [firsts]
    split_ifs
    · rw [List.map_cons, List.nodup_cons]
      refine ⟨fun hb => ?_, ih.sublist (List.filter_sublist.map _)⟩
      obtain ⟨c, hc, heq⟩ := List.mem_map.mp hb
      exact bne_iff_ne.mp (List.mem_filter.mp hc).2 heq
    · exact ih

/-- A rule is looked up among all batches with findings. -/
theorem find?_firsts (bs : List Batch) (id : Text) :
    (firsts bs).find? (·.rule == id) = bs.find? fun b => b.hasFindings && b.rule == id := by
  induction bs with
  | nil => rfl
  | cons b bs ih =>
    rw [firsts]
    cases hfindings : b.hasFindings with
    | false => simpa [hfindings] using ih
    | true =>
      by_cases hid : b.rule = id
      · simp [hfindings, hid]
      · have hkept (c : Batch) :
            decide ((c.rule != b.rule) = true ∧ (c.rule == id) = true) = (c.rule == id) := by
          by_cases hc : c.rule = id
          · simp [hc, Ne.symm hid]
          · simp [hc]
        rw [if_pos rfl, List.find?_cons_of_neg (by simpa using hid), List.find?_filter]
        simp only [hkept, ih]
        rw [List.find?_cons_of_neg (by simp [hid])]

/-- Where all rules are different there is nothing to leave out but batches without findings. -/
theorem firsts_eq_filter (h : (bs.map (·.rule)).Nodup) : firsts bs = bs.filter (·.hasFindings) := by
  induction bs with
  | nil => rfl
  | cons b bs ih =>
    obtain ⟨hb, hrest⟩ := List.nodup_cons.mp h
    have hothers : (bs.filter (·.hasFindings)).filter (·.rule != b.rule) =
        bs.filter (·.hasFindings) := by
      refine List.filter_eq_self.mpr fun c hc => bne_iff_ne.mpr fun heq => hb ?_
      exact List.mem_map.mpr ⟨c, (List.mem_filter.mp hc).1, heq⟩
    rw [firsts, List.filter_cons, ih hrest, hothers]

end Batch

/-- One value, from its source to its sink in both flows. -/
def Finding.sample : Finding :=
  let node : FlowNode := { id := ['a'], routine := { name := .text ['f'] } }
  let a : PathNode := ⟨0, ⟨['A'], 0⟩, node, .empty 3, true, true⟩
  let b : PathNode := ⟨0, ⟨['B'], 1⟩, node, .empty 3, true, true⟩
  ⟨⟨a, b, a, b⟩, [a], [b], 0, "same value".toList⟩

namespace Sarif.Log

open Batch

def lists (rules : List Rule) (id : Text) : Bool := rules.any (·.id == id)

theorem lists_append (rules : List Rule) (b : Batch) (id : Text) :
    lists (rules ++ [b.listed]) id = (lists rules id || b.rule == id) := by
  simp [lists, listed]

/-- The batches whose rules are still to be listed. -/
def unlisted (rules : List Rule) (bs : List Batch) : List Batch :=
  bs.filter fun b => !lists rules b.rule

theorem unlisted_cons (rules : List Rule) (b : Batch) (bs : List Batch) : unlisted rules (b :: bs) =
    if lists rules b.rule then unlisted rules bs else b :: unlisted rules bs := by
  cases h : lists rules b.rule <;> simp [unlisted, h]

theorem unlisted_others {rules : List Rule} {id : Text} (h : lists rules id = true)
    (bs : List Batch) : unlisted rules (bs.filter (·.rule != id)) = unlisted rules bs := by
  have hothers (b : Batch) : (!lists rules b.rule && b.rule != id) = !lists rules b.rule := by
    by_cases hb : b.rule = id
    · simp [hb, h]
    · simp [hb]
  simp only [unlisted, List.filter_filter, hothers]

theorem unlisted_append (rules : List Rule) (b : Batch) (bs : List Batch) :
    unlisted (rules ++ [b.listed]) bs = unlisted rules (bs.filter (·.rule != b.rule)) := by
  have hothers (c : Batch) : (!lists (rules ++ [b.listed]) c.rule) =
      (!lists rules c.rule && c.rule != b.rule) := by
    rw [lists_append, Bool.not_or, bne, Bool.beq_comm]
  simp only [unlisted, List.filter_filter, hothers]

theorem rules_addRule (log : Log) (b : Batch) : (log.addRule b.rule b.description).rules =
    if lists log.rules b.rule then log.rules else log.rules ++ [b.listed] :=
  apply_ite rules _ _ _

theorem results_addRule (log : Log) (id description : Text) :
    (log.addRule id description).results = log.results := by
  unfold addRule
  split_ifs <;> rfl

theorem lists_add (b : Batch) (log : Log) (f : Finding) :
    lists (add b log f).rules b.rule = true := by
  rw [add, rules_addRule]
  split_ifs with h
  · exact h
  · simp [lists_append]

/-- The first finding of a batch lists its rule, and the others find it listed. -/
theorem rules_foldl_add (b : Batch) (log : Log) (fs : List Finding) :
    (fs.foldl (add b) log).rules =
      if fs.isEmpty || lists log.rules b.rule then log.rules else log.rules ++ [b.listed] := by
  induction fs generalizing log with
  | nil => rfl
  | cons f fs ih =>
    rw [List.foldl_cons, ih, lists_add, Bool.or_true, if_pos rfl, add, rules_addRule]
    rfl

/-- Every finding that is added has its result, in the order in which they are added. -/
theorem results_foldl_add (b : Batch) (log : Log) (fs : List Finding) :
    (fs.foldl (add b) log).results = log.results ++ fs.map (result · b.rule b.severity) := by
  induction fs generalizing log with
  | nil => simp
  | cons f fs ih => rw [List.foldl_cons, ih, add, results_addRule]; simp

/-- Batches add the rules of their firsts that are not listed yet. -/
theorem rules_addBatches (bs : List Batch) (log : Log) :
    (bs.foldl (fun log b => b.findings.foldl (add b) log) log).rules =
      log.rules ++ (unlisted log.rules (firsts bs)).map listed := by
  induction bs generalizing log with
  | nil => simp [firsts, unlisted]
  | cons b bs ih =>
    rw [List.foldl_cons, ih, rules_foldl_add, firsts]
    cases hfindings : b.hasFindings with
    | false =>
      have hempty : b.findings.isEmpty = true := by simpa [hasFindings] using hfindings
      simp [hempty]
    | true =>
      have hsome : b.findings.isEmpty = false := by simpa [hasFindings] using hfindings
      rw [hsome, Bool.false_or, if_pos rfl]
      -- either way later batches of the same rule add nothing
      rw [unlisted_cons]
      by_cases hlisted : lists log.rules b.rule = true
      · rw [if_pos hlisted, if_pos hlisted, unlisted_others hlisted]
      · rw [if_neg hlisted, if_neg hlisted, unlisted_append, List.map_cons, List.append_assoc,
          List.singleton_append]

theorem rules_ofBatches (bs : List Batch) : (ofBatches bs).rules = (firsts bs).map listed := by
  have hrules := rules_addBatches bs { }
  simpa [ofBatches, unlisted, lists] using hrules

/-- Of three batches of one rule, the second is the first one with a finding. -/
example : (ofBatches [
      { rule := ['r'], findings := [], description := ['a'] },
      { rule := ['r'], findings := [.sample], description := ['b'] },
      { rule := ['r'], findings := [.sample], description := ['c'] }]).rules = [⟨['r'], ['b']⟩] := by
  decide

theorem results_addBatches (bs : List Batch) (log : Log) :
    (bs.foldl (fun log b => b.findings.foldl (add b) log) log).results =
      log.results ++ (notices bs).map Notice.result := by
  induction bs generalizing log with
  | nil => simp [notices]
  | cons b bs ih =>
    rw [List.foldl_cons, ih, results_foldl_add, notices_cons, List.map_append, List.map_map,
      List.append_assoc]
    rfl

theorem results_ofBatches (bs : List Batch) :
    (ofBatches bs).results = (notices bs).map Notice.result := by
  have hresults := results_addBatches bs { }
  simpa [ofBatches] using hresults

end Sarif.Log
end Lockstep
