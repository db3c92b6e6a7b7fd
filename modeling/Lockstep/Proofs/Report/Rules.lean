import Lockstep.Proofs.Report.Log
import Lockstep.Proofs.Report.Saving
/-!
The rules that a written log lists. A rule comes to be listed through a finding: where the rules of
the batches are different, each batch with findings has its rule there, in the order of the batches,
and a batch without findings has none.
-/

set_option autoImplicit false

namespace Lockstep

namespace Json

/-- From a value to one that it holds: the member of a name, or the element at a place. -/
inductive Step where
  | member (name : String)
  | element (i : Nat)

instance : Coe String Step := ⟨.member⟩

instance (n : Nat) : OfNat Step n := ⟨.element n⟩

def get? : Json → Step → Option Json
  | .object ms, .member name => member? name.toList ms
  | .list xs, .element i => xs[i]?
  | _, _ => none

/-- The value to which a path leads. -/
def at? (v : Json) : List Step → Option Json
  | [] => some v
  | s :: path => (v.get? s).bind (·.at? path)

/-- A path after another one goes on from where that one leads. -/
theorem at?_append {v w : Json} {path : List Step} (h : v.at? path = some w) (more : List Step) :
    v.at? (path ++ more) = w.at? more := by
  induction path generalizing v with
  | nil =>
    obtain rfl : v = w := Option.some.inj h
    rfl
  | cons s path ih =>
    rw [at?, Option.bind_eq_some_iff] at h
    obtain ⟨u, hu, hpath⟩ := h
    rw [List.cons_append, at?, hu]
    exact ih hpath

end Json

namespace Sarif

/-- The rules that a log lists, and its results. -/
def rules? (doc : Json) : Option Json := doc.at? ["runs", 0, "tool", "driver", "rules"]

def results? (doc : Json) : Option Json := doc.at? ["runs", 0, "results"]

theorem rules?_sarif (bs : List Batch) :
    rules? (Batch.sarif bs) = some (.list ((Log.ofBatches bs).rules.map Log.ruleJson)) := rfl

theorem results?_sarif (bs : List Batch) :
    results? (Batch.sarif bs) = some (.list (Log.ofBatches bs).results) := rfl

theorem at?_ruleJson (r : Rule) : (Log.ruleJson r).at? ["id"] = some (.text r.id) ∧
    (Log.ruleJson r).at? ["shortDescription", "text"] = some (.text r.description) := ⟨rfl, rfl⟩

end Sarif

namespace CommandLine

open Sarif Sarif.Log

variable {format : ReportFormat} {sidecar : Text} {bs : List Batch} {files : Files}
  {reported : Reported}

/-- A log is written as the report, or beside it: then it is the same for every format. -/
structure WritesLog (bs : List Batch) (doc : Json) : Prop where
  report : ∀ sidecar files, (writeReports .sarif sidecar bs files).1 = doc.layout ++ ['\n']
  beside : ∀ format sidecar files reported, sidecar ≠ [] →
    (writeReports format sidecar bs files).2 = .ok reported →
    ∃ p, HoldsLog sidecar doc.layout files reported.files p

theorem writesLog (bs : List Batch) : WritesLog bs (Batch.sarif bs) where
  report _ _ := rfl
  beside _ _ _ _ hsome hreported := (writeReports_eq_ok.mp hreported).2.holdsLog hsome

/-- The rules and the results of a log of batches: a rule for each batch that has findings, told by
its name and description, and a result for each finding, told by the name of its rule. -/
structure ListsRules (bs : List Batch) (doc : Json) : Prop where
  rules : rules? doc = some (.list ((bs.filter (·.hasFindings)).map fun b => ruleJson b.listed))
  told : ∀ b ∈ bs, (ruleJson b.listed).at? ["id"] = some (.text b.rule) ∧
    (ruleJson b.listed).at? ["shortDescription", "text"] =
      some (.text (if b.description.isEmpty then b.rule else b.description))
  results : results? doc = some (.list (bs.flatMap fun b => b.findings.map fun f =>
    result f b.rule b.severity))
  named : ∀ b ∈ bs, ∀ f ∈ b.findings,
    (result f b.rule b.severity).at? ["ruleId"] = some (.text b.rule)

theorem listsRules (h : (bs.map (·.rule)).Nodup) : ListsRules bs (Batch.sarif bs) where
  rules := by
    rw [rules?_sarif, rules_ofBatches, Batch.firsts_eq_filter h, List.map_map]
    rfl
  told b _ := at?_ruleJson b.listed
  results := by
    rw [results?_sarif, results_ofBatches, Batch.notices, List.map_flatMap]
    simp only [List.map_map]
    rfl
  named _ _ _ _ := rfl

/-- Batches of different rules have a rule in the log just if they have findings. So there is a rule
for every batch only where none of them is without findings. -/
theorem writeReports_rules (h : (bs.map (·.rule)).Nodup) :
    WritesLog bs (Batch.sarif bs) ∧ ListsRules bs (Batch.sarif bs) ∧
      (rules? (Batch.sarif bs) = some (.list (bs.map fun b => ruleJson b.listed)) ↔
        ∀ b ∈ bs, b.findings ≠ []) := by
  have hlists := listsRules h
  refine ⟨writesLog bs, hlists, ?_⟩
  have hfindings (b : Batch) : b.hasFindings = true ↔ b.findings ≠ [] := by
    simp [Batch.hasFindings]
  rw [hlists.rules]
  constructor
  · intro heq b hb
    have hlength := congrArg List.length (Json.list.inj (Option.some.inj heq))
    rw [List.length_map, List.length_map] at hlength
    exact (hfindings b).mp (List.length_filter_eq_length_iff.mp hlength b hb)
  · intro hall
    rw [List.filter_eq_self.mpr fun b hb => (hfindings b).mpr (hall b hb)]

/-- Of two batches only the one with a finding has its rule in the log. -/
theorem writeReports_rules_sample :
    let found : Batch := { rule := "found".toList, findings := [.sample] }
    let clean : Batch := { rule := "clean".toList, findings := [] }
    let doc := Batch.sarif [found, clean]
    ([found, clean].map (·.rule)).Nodup ∧ WritesLog [found, clean] doc ∧
      rules? doc = some (.list [ruleJson ⟨"found".toList, "found".toList⟩]) ∧
      results? doc = some (.list [result .sample "found".toList .warning]) := by
  intro found clean doc
  have hdifferent : ([found, clean].map (·.rule)).Nodup := by decide
  obtain ⟨hwrites, hlists, -⟩ := writeReports_rules hdifferent
  exact ⟨hdifferent, hwrites, hlists.rules, hlists.results⟩

/-- One batch without findings: the log has no rule for it. -/
theorem writeReports_rules_clean :
    let clean : Batch := { rule := "clean".toList, findings := [] }
    let doc := Batch.sarif [clean]
    ([clean].map (·.rule)).Nodup ∧ WritesLog [clean] doc ∧ rules? doc = some (.list []) ∧
      rules? doc ≠ some (.list ([clean].map fun b => ruleJson b.listed)) := by
  intro clean doc
  exact ⟨by decide, writesLog [clean], rfl, by decide⟩

end CommandLine
end Lockstep
