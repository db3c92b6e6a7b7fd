import Lockstep.Proofs.Catalogue.Telling
import Lockstep.Proofs.Pair.Answers
/-!
The meaning of a catalogue is that of its forms. A matcher form says something about one node, a form
of a rule about two nodes and a barrier about a node on one side; a pair is one, and a barrier stands,
if some form says so. Only what stands in a form counts for what it says, and not in which order.
-/

set_option autoImplicit false

namespace Lockstep

/-- Whether a test holds of a node. A pattern is searched in a label, which is a text. -/
def Test.Holds (n : FlowNode) : Test → Prop
  | .id t => n.id = t
  | .label t => n.label = .text t
  | .labelMatch p => ∃ label, n.label = .text label ∧ p.occursIn label = true
  | .kind k => n.kind = k
  | .routine t => n.routine.name = .text t
  | .call t => n.callee = .text t
  | .arg i => n.argIndex = i

/-- A question has an answer, and that is yes just if something holds. -/
def Decided (answer : Option Bool) (P : Prop) : Prop :=
  (answer = some true ↔ P) ∧ (answer = some false ↔ ¬ P)

theorem Decided.of_isSome {answer : Option Bool} {P : Prop} (hsome : answer.isSome = true)
    (h : answer = some true ↔ P) : Decided answer P := by
  refine ⟨h, ?_⟩
  obtain ⟨yes, rfl⟩ := Option.isSome_iff_exists.mp hsome
  rw [← h]
  cases yes <;> simp

/-! ### Short-circuit tests -/

section

variable {α : Type} {x : α} {ts : List (α → Option Bool)}

theorem allHold_eq_true : allHold x ts = some true ↔ ∀ t ∈ ts, t x = some true := by
  induction ts with
  | nil => simp [allHold]
  | cons t ts ih =>
    unfold allHold
    split <;> simp_all

theorem someHolds_eq_true (h : ∀ t ∈ ts, (t x).isSome = true) :
    someHolds x ts = some true ↔ ∃ t ∈ ts, t x = some true := by
  induction ts with
  | nil => simp [someHolds]
  | cons t ts ih =>
    obtain ⟨ht, hts⟩ := List.forall_mem_cons.mp h
    unfold someHolds
    obtain ⟨yes, hyes⟩ := Option.isSome_iff_exists.mp ht
    cases yes <;> simp [hyes, ih hts]

end

namespace Matcher

variable {n : FlowNode} {m : Matcher}

theorem given_eq_true {α : Type} {want : Option α} {test : α → FlowNode → Option Bool} :
    given want test n = some true ↔ ∀ w, want = some w → test w n = some true := by
  cases want <;> simp [given]

theorem searchLabel_eq_true {p : Pattern} :
    searchLabel p n = some true ↔ (Test.labelMatch p).Holds n := by
  unfold searchLabel
  cases hlabel : n.label <;> simp [Json.asText?, Test.Holds, hlabel]

theorem matches?_eq_true : m.matches? n = some true ↔ ∀ t, m.Has t → t.Holds n := by
  simp only [matches?, allHold_eq_true, tests, List.forall_mem_cons, given_eq_true,
    searchLabel_eq_true, Option.some.injEq, beq_iff_eq, List.not_mem_nil]
  constructor
  · rintro ⟨hid, hlabel, hmatch, hkind, hroutine, hcall, harg, -⟩ t ht
    cases t with
    | id t => exact hid t ht
    | label t => exact hlabel t ht
    | labelMatch p => exact hmatch p ht
    | kind k => exact hkind k ht
    | routine t => exact hroutine t ht
    | call t => exact hcall t ht
    | arg i => exact harg i ht
  · intro h
    exact ⟨fun t => h (.id t), fun t => h (.label t), fun p => h (.labelMatch p),
      fun k => h (.kind k), fun t => h (.routine t), fun t => h (.call t), fun i => h (.arg i),
      fun _ => False.elim⟩

end Matcher

theorem PairRule.matches?_eq_true {r : PairRule} {a b : FlowNode} :
    r.matches? a b = some true ↔ (r.distinct = true → a.id ≠ b.id) ∧
      (r.sameCall = true → shareCall a b = true) ∧
      r.first.matches? a = some true ∧ r.second.matches? b = some true := by
  unfold matches?
  split_ifs with hdistinct hsame
  · simp_all
  · simp_all
  · simp only [allHold_eq_true, List.forall_mem_cons]
    simp_all

namespace Catalogue

/-! ### What forms say -/

/-- What a matcher form says about a node: that the test it asks for holds. -/
def Says (x : Sexp) (n : FlowNode) : Prop := ∃ t : Test, t.Written x ∧ t.Holds n

/-- What a form of a rule says about two nodes. -/
structure RuleSays (args : List Sexp) (a b : FlowNode) : Prop where
  first : ∀ ms, .list (whole "first".toList ms) ∈ args → ∀ x ∈ ms, Says x a
  second : ∀ ms, .list (whole "second".toList ms) ∈ args → ∀ x ∈ ms, Says x b
  distinct : .list (whole "distinct".toList []) ∈ args → a.id ≠ b.id
  sameCall : .list (whole "same-call".toList []) ∈ args →
    a.callSite ≠ .null ∧ sameSite a.callSite.key b.callSite.key = true

def sideWord : Side → Text
  | .a => BarrierSide.first.word
  | .b => BarrierSide.second.word

/-- What a barrier form says about a node on one side. -/
structure BarrierSays (s : Side) (args : List Sexp) (n : FlowNode) : Prop where
  side : ∃ w, args.head? = some w ∧
    (w.word? = some (sideWord s) ∨ w.word? = some BarrierSide.both.word)
  tests : ∀ x ∈ args.tail, Says x n

variable {n a b : FlowNode} {ms args : List Sexp}

theorem matches?_of_tells {m : Matcher} (h : m.Tells ms) :
    m.matches? n = some true ↔ ∀ x ∈ ms, Says x n := by
  rw [Matcher.matches?_eq_true]
  constructor
  · intro hholds x hx
    obtain ⟨t, ht⟩ := h.known x hx
    exact ⟨t, ht, hholds t ((h.has t).mpr ⟨x, hx, ht⟩)⟩
  · intro hsays t ht
    obtain ⟨x, hx, hwritten⟩ := (h.has t).mp ht
    obtain ⟨u, hu, hholds⟩ := hsays x hx
    rwa [hwritten.unique hu]

theorem group_of_tells {tag : Text} {m : Matcher}
    (h : Option.Rel Matcher.Tells (some m) (formsOf tag args).getLast?)
    (hone : (formsOf tag args).length = 1) :
    m.matches? n = some true ↔ ∀ ms, .list (whole tag ms) ∈ args → ∀ x ∈ ms, Says x n := by
  obtain ⟨ms, hms⟩ := List.length_eq_one_iff.mp hone
  have hm : m.Tells ms := by simpa [hms] using h
  simp only [← mem_formsOf, hms, List.mem_singleton, forall_eq, matches?_of_tells hm]

theorem matches?_of_parts {r : PairRule} (h : (parts r).Tells args) (hone : OneEach args) :
    r.matches? a b = some true ↔ RuleSays args a b := by
  have hfirst := group_of_tells (n := a) h.first hone.1
  have hsecond := group_of_tells (n := b) h.second hone.2
  have hdistinct : r.distinct = true ↔ _ := h.distinct
  have hsame : r.sameCall = true ↔ _ := h.sameCall
  rw [PairRule.matches?_eq_true, hfirst, hsecond, hdistinct, hsame, PairRule.shareCall,
    Bool.and_eq_true, bne_iff_ne]
  exact ⟨fun ⟨hd, hs, h₁, h₂⟩ => ⟨h₁, h₂, hd, hs⟩, fun ⟨h₁, h₂, hd, hs⟩ => ⟨hd, hs, h₁, h₂⟩⟩

theorem barrierApplies_eq_true {s : Side} {side : BarrierSide} :
    barrierApplies s side = true ↔ side.word = sideWord s ∨ side.word = BarrierSide.both.word := by
  cases s <;> cases side <;> decide

theorem barrier_of_tells {s : Side} {r : BarrierRule} (h : BarrierTells r args) :
    barrierApplies s r.side = true ∧ r.matcher.matches? n = some true ↔ BarrierSays s args n := by
  obtain ⟨hw, -, hm⟩ := h
  rw [barrierApplies_eq_true, matches?_of_tells hm]
  constructor
  · rintro ⟨hside, htests⟩
    exact ⟨⟨_, rfl, by simpa [hw] using hside⟩, htests⟩
  · rintro ⟨⟨w, hhead, hside⟩, htests⟩
    obtain rfl := Option.some.inj hhead
    exact ⟨by simpa [hw] using hside, htests⟩

/-- Something is among the rules just if it is among the forms they were read from. -/
theorem exists_of_forall₂ {α β : Type} {R : α → β → Prop} {P : α → Prop} {Q : β → Prop}
    {as : List α} {bs : List β} (h : List.Forall₂ R as bs)
    (hPQ : ∀ a b, b ∈ bs → R a b → (P a ↔ Q b)) : (∃ a ∈ as, P a) ↔ ∃ b ∈ bs, Q b := by
  induction h with
  | nil => simp
  | cons hab _ ih =>
    have hhead := hPQ _ _ List.mem_cons_self hab
    have htail := ih fun a b hb => hPQ a b (List.mem_cons_of_mem _ hb)
    simp only [List.exists_mem_cons_iff, hhead, htail]

theorem pairHolds_decided {rules : List PairRule} {forms : List (List Sexp)}
    (h : List.Forall₂ (fun r args => (parts r).Tells args) rules forms)
    (hone : ∀ args ∈ forms, OneEach args) (ha : a.label.asText?.isSome = true)
    (hb : b.label.asText?.isSome = true) :
    Decided (pairHolds rules a b) (∃ args ∈ forms, RuleSays args a b) := by
  refine .of_isSome (isSome_pairHolds rules ha hb) ?_
  have hsome : ∀ t ∈ rules.map fun r (_ : Unit) => r.matches? a b, (t ()).isSome = true := by
    simpa using fun r _ => r.isSome_matches? ha hb
  rw [pairHolds, someHolds_eq_true hsome, ← exists_of_forall₂ h fun r args hargs hr =>
    matches?_of_parts (a := a) (b := b) hr (hone args hargs)]
  simp

theorem barrierHolds_decided {c : Catalogue} {forms : List (List Sexp)} (s : Side)
    (h : List.Forall₂ BarrierTells c.barriers forms) (hn : n.label.asText?.isSome = true) :
    Decided (c.barrierHolds s n) (∃ args ∈ forms, BarrierSays s args n) := by
  have hsome : ∀ t ∈ (c.barriers.filter fun r => barrierApplies s r.side).map
      (fun r : BarrierRule => r.matcher.matches?), (t n).isSome = true := by
    intro t ht
    obtain ⟨r, -, rfl⟩ := List.mem_map.mp ht
    exact r.matcher.isSome_matches? hn
  refine .of_isSome (isSome_someHolds hsome) ?_
  rw [barrierHolds, someHolds_eq_true hsome, ← exists_of_forall₂ h fun r args _ hr =>
    barrier_of_tells (s := s) (n := n) hr]
  simp [and_assoc]

/-- The questions that a catalogue answers are answered by its forms. -/
theorem config_decided {file : Text} {x : Sexp} {c : Catalogue} (h : ofSexp x file = .ok c)
    (hone : ∀ args, .list (whole "source-pair".toList args) ∈ itemsOf x ∨
      .list (whole "sink-pair".toList args) ∈ itemsOf x → OneEach args)
    (ha : ∃ t, a.label = .text t) (hb : ∃ t, b.label = .text t) :
    Decided (c.config.sourcePair a b)
      (∃ args, .list (whole "source-pair".toList args) ∈ itemsOf x ∧ RuleSays args a b) ∧
    Decided (c.config.sinkPair a b)
      (∃ args, .list (whole "sink-pair".toList args) ∈ itemsOf x ∧ RuleSays args a b) ∧
    ∀ s, Decided (c.config.barrier s a)
      (∃ args, .list (whole "barrier".toList args) ∈ itemsOf x ∧ BarrierSays s args a) := by
  obtain ⟨w, items, rfl, hc⟩ := ofSexp_tells h
  obtain ⟨ta, hta⟩ := ha
  obtain ⟨tb, htb⟩ := hb
  have ha : a.label.asText?.isSome = true := by rw [hta]; rfl
  have hb : b.label.asText?.isSome = true := by rw [htb]; rfl
  simp only [itemsOf_whole, ← mem_formsOf] at hone ⊢
  exact ⟨pairHolds_decided hc.sources (fun args hargs => hone args (.inl hargs)) ha hb,
    pairHolds_decided hc.sinks (fun args hargs => hone args (.inr hargs)) ha hb,
    fun s => barrierHolds_decided s hc.barriers ha⟩

theorem config_decided_sample :
    let form (tag : String) (args : List Sexp) : Sexp := .list (whole tag.toList args)
    let rule : List Sexp := [form "same-call" [], form "second" [form "arg" [.int 0]],
      form "first" [form "label" [.text []]]]
    let x : Sexp := form "catalogue" [.symbol ['c'], form "source-pair" rule]
    let a : FlowNode := { id := ['a'], routine := { name := .text ['f'] }, callSite := .text ['s'] }
    let b : FlowNode := { a with id := ['b'], argIndex := 0 }
    ∃ c, ofSexp x "c.sexp".toList = .ok c ∧
      (∀ args, form "source-pair" args ∈ itemsOf x ∨ form "sink-pair" args ∈ itemsOf x →
        OneEach args) ∧
      (∃ t, a.label = .text t) ∧ (∃ t, b.label = .text t) ∧ c.config.sourcePair a b = some true := by
  intro form rule x a b
  have hone : ∀ args, form "source-pair" args ∈ itemsOf x ∨ form "sink-pair" args ∈ itemsOf x →
      OneEach args := by
    rintro args (h | h)
    · obtain rfl : args = rule := by simpa [form, whole, itemsOf, x] using h
      exact ⟨rfl, rfl⟩
    · simp [form, whole, itemsOf, x] at h
  obtain ⟨c, hc⟩ : ∃ c, ofSexp x "c.sexp".toList = .ok c := ⟨_, rfl⟩
  refine ⟨c, hc, hone, ⟨[], rfl⟩, ⟨[], rfl⟩, ?_⟩
  have hrule : form "source-pair" rule ∈ itemsOf x := by simp [form, itemsOf, x, whole]
  refine (config_decided hc hone ⟨[], rfl⟩ ⟨[], rfl⟩).1.1.mpr ⟨rule, hrule, ?_⟩
  exact {
    first := by
      simpa [rule, form, whole] using ⟨.label [], ⟨.text [], rfl, rfl⟩, rfl⟩
    second := by
      simpa [rule, form, whole] using ⟨.arg 0, ⟨.int 0, rfl, rfl⟩, rfl⟩
    distinct := by simp [rule, form, whole]
    sameCall := fun _ => by decide }

end Catalogue
end Lockstep
