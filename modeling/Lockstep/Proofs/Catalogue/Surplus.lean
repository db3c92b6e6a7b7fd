import Lockstep.Proofs.Catalogue.Reading
import Lockstep.Proofs.Catalogue.Telling
/-!
Forms that a catalogue has more often than it has use for. A matcher that is given twice in a group
is refused, and an unknown form is. Of several groups of one kind in a rule, and of several
descriptions, messages or severities, the last one counts and the others are dropped.
-/

set_option autoImplicit false

namespace Lockstep.Catalogue

/-- The matchers that stand together in a catalogue: those of a group of a rule, and those of a
barrier. -/
inductive Group (items : List Sexp) : List Sexp → Prop
  | rule {tag kind : Text} {args ms : List Sexp} :
      tag = "source-pair".toList ∨ tag = "sink-pair".toList → .list (whole tag args) ∈ items →
      kind = "first".toList ∨ kind = "second".toList → .list (whole kind ms) ∈ args →
      Group items ms
  | barrier {w : Sexp} {ms : List Sexp} :
      .list (whole "barrier".toList (w :: ms)) ∈ items → Group items ms

/-- No form stands where another one of its kind does. -/
structure Frugal (items : List Sexp) : Prop where
  description : (formsOf "description".toList items).length ≤ 1
  message : (formsOf "message".toList items).length ≤ 1
  severity : (formsOf "severity".toList items).length ≤ 1
  groups : ∀ args, .list (whole "source-pair".toList args) ∈ items ∨
    .list (whole "sink-pair".toList args) ∈ items → OneEach args

/-- Every group of a form has its matchers in the rule, and every mark its flag. -/
structure KeepsRule (r : PairRule) (args : List Sexp) : Prop where
  first : ∀ ms, .list (whole "first".toList ms) ∈ args → r.first.Tells ms
  second : ∀ ms, .list (whole "second".toList ms) ∈ args → r.second.Tells ms
  sameCall : r.sameCall = true ↔ .list (whole "same-call".toList []) ∈ args
  distinct : r.distinct = true ↔ .list (whole "distinct".toList []) ∈ args

/-- Every form determines what it is for. -/
structure Keeps (c : Catalogue) (items : List Sexp) : Prop where
  description : ∀ w, .list (whole "description".toList [w]) ∈ items → w.word? = some c.description
  message : ∀ w, .list (whole "message".toList [w]) ∈ items → w.word? = some c.message
  severity : ∀ w, .list (whole "severity".toList [w]) ∈ items → w.word? = some c.severity.label
  sources : List.Forall₂ KeepsRule c.sourceRules (formsOf "source-pair".toList items)
  sinks : List.Forall₂ KeepsRule c.sinkRules (formsOf "sink-pair".toList items)
  barriers : List.Forall₂ BarrierTells c.barriers (formsOf "barrier".toList items)

section

variable {file tag : Text} {args ms items : List Sexp} {c : Catalogue} {w : Sexp} {r : PairRule}

theorem Part.tells (h : Part (.list (whole tag ms)))
    (htag : tag = "first".toList ∨ tag = "second".toList) : ∃ m : Matcher, m.Tells ms := by
  cases h with
  | group _ hm => exact ⟨_, hm⟩
  | mark hmark =>
    rcases htag with rfl | rfl <;> simp at hmark

theorem exists_of_mem_forall₂ {α β : Type} {R : α → β → Prop} {as : List α} {bs : List β} {b : β}
    (h : List.Forall₂ R as bs) (hb : b ∈ bs) : ∃ a ∈ as, R a b := by
  induction h with
  | nil => cases hb
  | cons hr _ ih =>
    rcases List.mem_cons.mp hb with rfl | hb
    · exact ⟨_, List.mem_cons_self, hr⟩
    · obtain ⟨a, ha, hab⟩ := ih hb
      exact ⟨a, List.mem_cons_of_mem _ ha, hab⟩

theorem Tells.group (hc : c.Tells file w items) (h : Group items ms) : ∃ m : Matcher, m.Tells ms := by
  cases h with
  | rule htag hargs hkind hms =>
    rcases htag with rfl | rfl
    · obtain ⟨r, -, hr⟩ := exists_of_mem_forall₂ hc.sources (mem_formsOf.mpr hargs)
      exact (hr.known _ hms).tells hkind
    · obtain ⟨r, -, hr⟩ := exists_of_mem_forall₂ hc.sinks (mem_formsOf.mpr hargs)
      exact (hr.known _ hms).tells hkind
  | barrier hitem =>
    cases hc.known _ hitem with
    | barrier hb =>
      obtain ⟨-, -, hm⟩ := hb
      exact ⟨_, hm⟩
    | word htag _ => simp at htag
    | rule htag _ => simp at htag

theorem Tells.word {t old : Text} (hc : c.Tells file w items)
    (htag : tag = "description".toList ∨ tag = "message".toList ∨ tag = "severity".toList)
    (h : t = (lastWord tag items).getD old)
    (hone : (formsOf tag items).length ≤ 1) {v : Sexp} (hv : .list (whole tag [v]) ∈ items) :
    v.word? = some t := by
  rw [lastWord, formsOf_single hone hv] at h
  cases hc.known _ hv with
  | word _ ht => simp [h, ht]
  | rule hrule _ => rcases htag with rfl | rfl | rfl <;> simp at hrule
  | barrier _ => simp at htag

theorem Parts.Tells.keeps (h : (parts r).Tells args) (hone : OneEach args) : KeepsRule r args where
  first ms hms := by
    have hfirst := h.first
    rw [formsOf_single (Nat.le_of_eq hone.1) hms] at hfirst
    simpa [parts] using hfirst
  second ms hms := by
    have hsecond := h.second
    rw [formsOf_single (Nat.le_of_eq hone.2) hms] at hsecond
    simpa [parts] using hsecond
  sameCall := h.sameCall
  distinct := h.distinct

theorem keeps_rules {rules : List PairRule} {forms : List (List Sexp)}
    (h : List.Forall₂ (fun r args => (parts r).Tells args) rules forms)
    (hone : ∀ args ∈ forms, OneEach args) : List.Forall₂ KeepsRule rules forms := by
  induction h with
  | nil => exact .nil
  | cons hr _ ih =>
    obtain ⟨hhead, htail⟩ := List.forall_mem_cons.mp hone
    exact .cons (hr.keeps hhead) (ih htail)

theorem Tells.keeps (hc : c.Tells file w items) (h : Frugal items) : c.Keeps items where
  description _ := hc.word (.inl rfl) hc.description h.description
  message _ := hc.word (.inr (.inl rfl)) hc.message h.message
  severity _ := hc.word (.inr (.inr rfl)) hc.severity h.severity
  sources := keeps_rules hc.sources fun args hargs => h.groups args (.inl (mem_formsOf.mp hargs))
  sinks := keeps_rules hc.sinks fun args hargs => h.groups args (.inr (mem_formsOf.mp hargs))
  barriers := hc.barriers

end

end Lockstep.Catalogue
