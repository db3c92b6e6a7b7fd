import Lockstep.Proofs.Report.Rules
/-!
All formats report the same findings. The three forms of a report go through the batches in the same
order, each in its own way; so they are the blocks, the entries and the results of the same notices,
and in each of them a notice is told with its message, its rule, its severity and its ways.
-/

set_option autoImplicit false

namespace Lockstep

/-- A path node as a step of a thread flow. -/
def PathNode.flowJson (m : PathNode) : Json :=
  .object [("location".toList, .object (Sarif.location m m.node.caption))]

namespace Notice

def block (n : Notice) : Text := n.finding.plain n.batch.severity n.batch.rule

def entry (n : Notice) : Json := .object (n.finding.members ++ [
  ("rule".toList, .text n.batch.rule),
  ("severity".toList, .text n.batch.severity.label)])

/-- The first line of a block. -/
def headline (n : Notice) : Text :=
  '[' :: n.finding.quadruple.node1.node.location.display ++ "]: (".toList ++
    n.batch.severity.label ++ ") ".toList ++ n.finding.description ++ " [".toList ++ n.batch.rule ++
    [']']

/-- The path nodes on the way of one flow, and no others, are the steps of an entry and the locations
in a result. -/
structure TellsWay (way : List PathNode) (entry result : Json) (name : String) (flow : Nat) :
    Prop where
  step : ∀ i : Nat, entry.at? [name, .element i] = way[i]?.map (·.stepJson)
  location : ∀ i : Nat,
    result.at? ["codeFlows", 0, "threadFlows", .element flow, "locations", .element i, "location"] =
      way[i]?.map fun m => .object (Sarif.location m m.node.caption)

theorem tellsWay {way : List PathNode} {entry result : Json} {name : String} {flow : Nat}
    (hentry : entry.at? [name] = some (.list (way.map (·.stepJson))))
    (hresult : result.at? ["codeFlows", 0, "threadFlows", .element flow] =
      some (Sarif.threadFlow way)) : TellsWay way entry result name flow where
  step i := by
    have hstep : (Json.list (way.map (·.stepJson))).get? (.element i) = way[i]?.map (·.stepJson) :=
      List.getElem?_map
    refine (Json.at?_append hentry [.element i]).trans ?_
    rw [Json.at?, hstep]
    cases way[i]? <;> rfl
  location i := by
    have hlocations : (Sarif.threadFlow way).get? "locations" =
      some (.list (way.map (·.flowJson))) := rfl
    have hstep : (Json.list (way.map (·.flowJson))).get? (.element i) = way[i]?.map (·.flowJson) :=
      List.getElem?_map
    refine (Json.at?_append hresult ["locations", .element i, "location"]).trans ?_
    rw [Json.at?, hlocations, Option.bind_some, Json.at?, hstep]
    cases way[i]? <;> rfl

/-- A text block, an entry of a list and a result of a log tell the same notice: with its message, its
rule and its severity, and with the ways of the two flows. -/
structure Told (n : Notice) (text : Text) (entry result : Json) : Prop where
  block : text = Text.unlines [n.headline, "  flow A: ".toList ++ Finding.wayText n.finding.traceA,
    "  flow B: ".toList ++ Finding.wayText n.finding.traceB]
  message : entry.at? ["message"] = some (.text n.finding.description) ∧
    result.at? ["message", "text"] = some (.text n.finding.description)
  rule : entry.at? ["rule"] = some (.text n.batch.rule) ∧
    result.at? ["ruleId"] = some (.text n.batch.rule)
  severity : entry.at? ["severity"] = some (.text n.batch.severity.label) ∧
    result.at? ["level"] = some (.text n.batch.severity.label)
  wayA : TellsWay n.finding.traceA entry result "trace_a" 0
  wayB : TellsWay n.finding.traceB entry result "trace_b" 1

theorem told (n : Notice) : n.Told n.block n.entry n.result where
  block := rfl
  message := ⟨rfl, rfl⟩
  rule := ⟨rfl, rfl⟩
  severity := ⟨rfl, rfl⟩
  wayA := tellsWay rfl rfl
  wayB := tellsWay rfl rfl

end Notice

namespace Batch

theorem total_eq (bs : List Batch) : total bs = (notices bs).length := by
  induction bs with
  | nil => rfl
  | cons b bs ih => rw [total, ih, notices_cons, List.length_append, List.length_map]

theorem plain_eq (bs : List Batch) : plain bs =
    ((notices bs).flatMap fun n => n.block ++ ['\n']) ++
      "\n--- ".toList ++ Text.ofNat (notices bs).length ++ " finding(s) ---\n".toList := by
  rw [plain, total_eq, notices, List.flatMap_assoc]
  simp only [List.flatMap_map]
  rfl

/-- The rule of a notice is listed, as the first batch of it that has a finding tells it. -/
theorem exists_first {bs : List Batch} : ∀ n ∈ notices bs, ∃ r ∈ (firsts bs).map (·.listed),
    r.id = n.batch.rule ∧
    ∃ b, bs.find? (fun b => b.hasFindings && b.rule == n.batch.rule) = some b ∧
      r.description = if b.description.isEmpty then b.rule else b.description := by
  intro n hn
  obtain ⟨hbatch, hfinding⟩ := mem_notices.mp hn
  have hfindings : n.batch.hasFindings = true := by
    simpa [hasFindings] using List.ne_nil_of_mem hfinding
  have hsome : (bs.find? fun b => b.hasFindings && b.rule == n.batch.rule).isSome = true :=
    List.find?_isSome.mpr ⟨n.batch, hbatch, by simp [hfindings]⟩
  obtain ⟨b, hb⟩ := Option.isSome_iff_exists.mp hsome
  have hfirst : (firsts bs).find? (·.rule == n.batch.rule) = some b := (find?_firsts bs _).trans hb
  have hrule : b.rule = n.batch.rule := by simpa using List.find?_some hfirst
  exact ⟨b.listed, List.mem_map_of_mem (List.mem_of_find?_eq_some hfirst), hrule, b, hb, rfl⟩

theorem toJson_eq (bs : List Batch) : toJson bs = .list ((notices bs).map Notice.entry) := by
  rw [toJson, notices, List.map_flatMap]
  simp only [List.map_map]
  rfl

end Batch

namespace CommandLine

open Sarif

/-- A log of batches: a result for each notice, and a rule for each name, with the description of the
first batch of that name that has a finding. -/
structure Logs (bs : List Batch) (doc : Json) (listed : List Rule) : Prop where
  results : results? doc = some (.list ((Batch.notices bs).map Notice.result))
  rules : rules? doc = some (.list (listed.map Log.ruleJson))
  shown : ∀ r ∈ listed, (Log.ruleJson r).at? ["id"] = some (.text r.id) ∧
    (Log.ruleJson r).at? ["shortDescription", "text"] = some (.text r.description)
  distinct : (listed.map (·.id)).Nodup
  described : ∀ n ∈ Batch.notices bs, ∃ r ∈ listed, r.id = n.batch.rule ∧
    ∃ b, bs.find? (fun b => b.hasFindings && b.rule == n.batch.rule) = some b ∧
      r.description = if b.description.isEmpty then b.rule else b.description

theorem logs (bs : List Batch) : Logs bs (Batch.sarif bs) ((Batch.firsts bs).map (·.listed)) where
  results := by rw [results?_sarif, Log.results_ofBatches]
  rules := by rw [rules?_sarif, Log.rules_ofBatches]
  shown r _ := at?_ruleJson r
  distinct := by
    rw [List.map_map]
    exact Batch.nodup_firsts bs
  described := Batch.exists_first

/-- What the reports of some batches have to do with each other. The text has a block for each notice
and then a line that counts them, the list has an entry for each and the log a result, and they tell
the same. The notices are counted, unless the log cannot be saved where it was to be saved. -/
structure Agrees (bs : List Batch) (sidecar : Text) (files : Files) : Prop where
  returns : ∀ format, (∃ reported, (writeReports format sidecar bs files).2 = .ok reported) ↔
    sidecar = [] ∨ ∃ p, files.Admits sidecar p
  count : ∀ format reported, (writeReports format sidecar bs files).2 = .ok reported →
    reported.total = (Batch.notices bs).length
  text : (writeReports .text sidecar bs files).1 =
    ((Batch.notices bs).flatMap fun n => n.block ++ ['\n']) ++
      "\n--- ".toList ++ Text.ofNat (Batch.notices bs).length ++ " finding(s) ---\n".toList
  list : (writeReports .json sidecar bs files).1 =
    (Json.list ((Batch.notices bs).map Notice.entry)).layout ++ ['\n']
  log : WritesLog bs (Batch.sarif bs) ∧ ∃ listed, Logs bs (Batch.sarif bs) listed
  told : ∀ n ∈ Batch.notices bs, n.Told n.block n.entry n.result

/-- All formats report the same findings, whatever the batches are. -/
theorem writeReports_agree (bs : List Batch) (sidecar : Text) (files : Files) :
    Agrees bs sidecar files where
  returns _ := exists_writeReports
  count _ _ h := (writeReports_eq_ok.mp h).1.trans (Batch.total_eq bs)
  text := Batch.plain_eq bs
  list := congrArg (fun v : Json => v.layout ++ ['\n']) (Batch.toJson_eq bs)
  log := ⟨writesLog bs, _, logs bs⟩
  told n _ := n.told

end CommandLine
end Lockstep
