import Mathlib.Data.List.Forall2
import Mathlib.Data.Option.Basic
import Mathlib.Tactic.SplitIfs
import Lockstep.Catalogue.Reader
/-!
What the forms of a catalogue tell. A matcher form asks for one test, and a matcher has the tests that
the forms of its group ask for. A rule has the groups of its last `first` and `second` form, and a
catalogue the description, message and severity of the last form of each kind and a rule for each
form of a rule, in their order. Each form adds to what the forms before it tell.
-/

set_option autoImplicit false

namespace Lockstep

namespace Sexp

def tag? : Sexp → Option Text
  | .list (.symbol tag :: _) => some tag
  | _ => none

/-- What stands behind the tag, in a form with that tag. -/
def argsOf? (tag : Text) : Sexp → Option (List Sexp)
  | .list (.symbol t :: args) => if t = tag then some args else none
  | _ => none

theorem argsOf?_eq_some {tag : Text} {x : Sexp} {args : List Sexp} :
    x.argsOf? tag = some args ↔ x = .list (.symbol tag :: args) := by
  unfold argsOf?
  split
  · rename_i t rest
    by_cases h : t = tag <;> simp [h]
  · rename_i hx
    simpa using hx tag args

end Sexp

/-- What of a node is tested. -/
inductive Trait where
  | id | label | labelMatch | kind | routine | call | arg
  deriving DecidableEq, Repr

namespace Trait

def tag : Trait → Text
  | .id => "id".toList
  | .label => "label".toList
  | .labelMatch => "label-match".toList
  | .kind => "kind".toList
  | .routine => "routine".toList
  | .call => "call".toList
  | .arg => "arg".toList

theorem tag_injective : Function.Injective tag := by
  intro x y
  cases x <;> cases y <;> decide

end Trait

/-- A test of a node, as a matcher form asks for it. -/
inductive Test where
  | id (t : Text)
  | label (t : Text)
  | labelMatch (p : Pattern)
  | kind (k : NodeKind)
  | routine (t : Text)
  | call (t : Text)
  | arg (i : Int)

namespace Test

def trait : Test → Trait
  | .id _ => .id
  | .label _ => .label
  | .labelMatch _ => .labelMatch
  | .kind _ => .kind
  | .routine _ => .routine
  | .call _ => .call
  | .arg _ => .arg

def tag (t : Test) : Text := t.trait.tag

/-- The expression behind the tag is one for what is tested for. -/
def Argument : Test → Sexp → Prop
  | .id t, w => w.word? = some t
  | .label t, w => w.word? = some t
  | .labelMatch p, w => ∃ source, w.word? = some source ∧ Pattern.read source = .ok p
  | .kind k, w => w.word? = some k.word
  | .routine t, w => w.word? = some t
  | .call t, w => w.word? = some t
  | .arg i, w => w = .int i

def Written (t : Test) (x : Sexp) : Prop := ∃ w, x = .list [.symbol t.tag, w] ∧ t.Argument w

variable {t u : Test} {x y : Sexp}

theorem Written.tag (h : t.Written x) : x.tag? = some t.tag := by
  obtain ⟨w, rfl, -⟩ := h
  rfl

theorem Written.unique (ht : t.Written x) (hu : u.Written x) : t = u := by
  have htrait : t.trait = u.trait :=
    Trait.tag_injective (Option.some.inj (ht.tag.symm.trans hu.tag))
  obtain ⟨w, rfl, ht⟩ := ht
  obtain ⟨w', hw, hu⟩ := hu
  obtain rfl : w = w' := by simpa using (List.cons.inj (Sexp.list.inj hw)).2
  cases t <;> cases u <;> cases htrait
  case labelMatch.labelMatch p q =>
    obtain ⟨source, hsource, hp⟩ := ht
    obtain ⟨source', hsource', hq⟩ := hu
    obtain rfl := Option.some.inj (hsource.symm.trans hsource')
    rw [Except.ok.inj (hp.symm.trans hq)]
  case kind.kind k l =>
    have hword : k.word = l.word := Option.some.inj (ht.symm.trans hu)
    have := k.ofWord?_word.symm.trans (hword ▸ l.ofWord?_word)
    rw [Option.some.inj this]
  all_goals simp_all [Argument]

end Test

/-- A matcher has a test if it was given what to test for. -/
def Matcher.Has (m : Matcher) : Test → Prop
  | .id t => m.id = some t
  | .label t => m.label = some t
  | .labelMatch p => m.labelMatch = some p
  | .kind k => m.kind = some k
  | .routine t => m.routine = some t
  | .call t => m.callee = some t
  | .arg i => m.argIndex = some i

namespace Matcher

/-- Sets what one test tests for. -/
def put (m : Matcher) : Test → Matcher
  | .id t => { m with id := some t }
  | .label t => { m with label := some t }
  | .labelMatch p => { m with labelMatch := some p }
  | .kind k => { m with kind := some k }
  | .routine t => { m with routine := some t }
  | .call t => { m with callee := some t }
  | .arg i => { m with argIndex := some i }

/-- A matcher was not given what to test a trait for. -/
def Lacks (m : Matcher) : Trait → Prop
  | .id => m.id = none
  | .label => m.label = none
  | .labelMatch => m.labelMatch = none
  | .kind => m.kind = none
  | .routine => m.routine = none
  | .call => m.callee = none
  | .arg => m.argIndex = none

variable {m : Matcher} {t : Test}

theorem Has.not_lacks {u : Test} (hu : m.Has u) : ¬ m.Lacks u.trait := by
  cases u <;> simp_all [Has, Lacks, Test.trait]

theorem has_put (hm : m.Lacks t.trait) (u : Test) : (m.put t).Has u ↔ m.Has u ∨ u = t := by
  cases t <;> cases u <;> simp_all [put, Has, Lacks, Test.trait, eq_comm]

/-- A matcher has the tests that the forms of a group ask for; each of them asks for one, and no
two for tests of one trait. -/
structure Tells (m : Matcher) (ms : List Sexp) : Prop where
  has : ∀ t, m.Has t ↔ ∃ x ∈ ms, t.Written x
  known : ∀ x ∈ ms, ∃ t : Test, t.Written x
  once : (ms.map Sexp.tag?).Nodup

theorem Tells.none : Tells { } [] where
  has t := by cases t <;> simp [Has]
  known := by simp
  once := .nil

theorem Tells.put {ms : List Sexp} {x : Sexp} (h : m.Tells ms) (hx : t.Written x)
    (hm : m.Lacks t.trait) : (m.put t).Tells (ms ++ [x]) where
  has u := by
    have hu : u = t ↔ u.Written x := ⟨fun hu => hu ▸ hx, fun hu => hu.unique hx⟩
    simp [has_put hm, h.has, hu, or_and_right, exists_or]
  known y hy := by
    rcases List.mem_append.mp hy with hy | hy
    · exact h.known y hy
    · exact ⟨t, List.mem_singleton.mp hy ▸ hx⟩
  once := by
    have hfresh : ∀ y ∈ ms, y.tag? ≠ x.tag? := by
      intro y hy htag
      obtain ⟨u, hu⟩ := h.known y hy
      rw [hu.tag, hx.tag] at htag
      have htrait : u.trait = t.trait := Trait.tag_injective (Option.some.inj htag)
      exact ((h.has u).mpr ⟨y, hy, hu⟩).not_lacks (htrait ▸ hm)
    simpa [List.nodup_append, h.once] using hfresh

end Matcher

namespace Catalogue

/-- What stands in each form with a tag, in their order. -/
def formsOf (tag : Text) (xs : List Sexp) : List (List Sexp) := xs.filterMap (·.argsOf? tag)

theorem formsOf_whole (tag t : Text) (xs args : List Sexp) :
    formsOf tag (xs ++ [.list (whole t args)]) =
      formsOf tag xs ++ if t = tag then [args] else [] := by
  unfold formsOf
  rw [List.filterMap_append]
  by_cases h : t = tag <;> simp [Sexp.argsOf?, whole, h]

theorem mem_formsOf {tag : Text} {xs : List Sexp} {args : List Sexp} :
    args ∈ formsOf tag xs ↔ .list (whole tag args) ∈ xs := by
  simp [formsOf, List.mem_filterMap, Sexp.argsOf?_eq_some, whole]

theorem formsOf_single {tag : Text} {xs args : List Sexp} (h : (formsOf tag xs).length ≤ 1)
    (hx : .list (whole tag args) ∈ xs) : formsOf tag xs = [args] := by
  have hargs : args ∈ formsOf tag xs := mem_formsOf.mpr hx
  obtain ⟨other, hother⟩ := List.length_eq_one_iff.mp
    (Nat.le_antisymm h (List.length_pos_of_mem hargs))
  rw [hother] at hargs ⊢
  rw [List.mem_singleton.mp hargs]

/-! ### Rules -/

/-- What can stand in the form of a rule: a group whose matchers are known, and a mark. -/
inductive Part : Sexp → Prop
  | group {tag : Text} {ms : List Sexp} {m : Matcher} :
      tag = "first".toList ∨ tag = "second".toList → m.Tells ms → Part (.list (whole tag ms))
  | mark {tag : Text} :
      tag = "same-call".toList ∨ tag = "distinct".toList → Part (.list (whole tag []))

/-- What has been read of a rule is told by the last group of each kind and by the marks. -/
structure Parts.Tells (p : Parts) (xs : List Sexp) : Prop where
  first : Option.Rel Matcher.Tells p.first (formsOf "first".toList xs).getLast?
  second : Option.Rel Matcher.Tells p.second (formsOf "second".toList xs).getLast?
  sameCall : p.sameCall = true ↔ .list (whole "same-call".toList []) ∈ xs
  distinct : p.distinct = true ↔ .list (whole "distinct".toList []) ∈ xs
  known : ∀ x ∈ xs, Part x

/-- A form of a rule has one group of each kind. -/
def OneEach (args : List Sexp) : Prop :=
  (formsOf "first".toList args).length = 1 ∧ (formsOf "second".toList args).length = 1

/-- A rule as what has been read of it. -/
def parts (r : PairRule) : Parts := ⟨some r.first, some r.second, r.sameCall, r.distinct⟩

section

variable {p : Parts} {m : Matcher} {xs ms : List Sexp}

theorem Parts.Tells.none : Parts.Tells { } [] := ⟨.none, .none, by simp, by simp, by simp⟩

theorem Parts.Tells.addFirst (h : p.Tells xs) (hm : m.Tells ms) :
    Parts.Tells { p with first := some m } (xs ++ [.list (whole "first".toList ms)]) where
  first := by simpa [formsOf_whole] using hm
  second := by simpa [formsOf_whole] using h.second
  sameCall := by simpa [whole] using h.sameCall
  distinct := by simpa [whole] using h.distinct
  known := by simpa [or_imp, forall_and] using ⟨h.known, .group (.inl rfl) hm⟩

theorem Parts.Tells.addSecond (h : p.Tells xs) (hm : m.Tells ms) :
    Parts.Tells { p with second := some m } (xs ++ [.list (whole "second".toList ms)]) where
  first := by simpa [formsOf_whole] using h.first
  second := by simpa [formsOf_whole] using hm
  sameCall := by simpa [whole] using h.sameCall
  distinct := by simpa [whole] using h.distinct
  known := by simpa [or_imp, forall_and] using ⟨h.known, .group (.inr rfl) hm⟩

theorem Parts.Tells.addSameCall (h : p.Tells xs) :
    Parts.Tells { p with sameCall := true } (xs ++ [.list (whole "same-call".toList [])]) where
  first := by simpa [formsOf_whole] using h.first
  second := by simpa [formsOf_whole] using h.second
  sameCall := by simp
  distinct := by simpa [whole] using h.distinct
  known := by simpa [or_imp, forall_and] using ⟨h.known, .mark (.inl rfl)⟩

theorem Parts.Tells.addDistinct (h : p.Tells xs) :
    Parts.Tells { p with distinct := true } (xs ++ [.list (whole "distinct".toList [])]) where
  first := by simpa [formsOf_whole] using h.first
  second := by simpa [formsOf_whole] using h.second
  sameCall := by simpa [whole] using h.sameCall
  distinct := by simp
  known := by simpa [or_imp, forall_and] using ⟨h.known, .mark (.inr rfl)⟩

end

/-! ### Items -/

/-- A barrier has the side that its form names first and the tests of the matchers behind that. -/
inductive BarrierTells (b : BarrierRule) : List Sexp → Prop
  | mk {w : Sexp} {ms : List Sexp} :
      w.word? = some b.side.word → ms ≠ [] → b.matcher.Tells ms → BarrierTells b (w :: ms)

/-- What can stand in a catalogue. -/
inductive Item : Sexp → Prop
  | word {tag t : Text} {w : Sexp} :
      tag = "description".toList ∨ tag = "message".toList ∨ tag = "severity".toList →
      w.word? = some t → Item (.list (whole tag [w]))
  | rule {tag : Text} {args : List Sexp} {r : PairRule} :
      tag = "source-pair".toList ∨ tag = "sink-pair".toList → (parts r).Tells args →
      Item (.list (whole tag args))
  | barrier {args : List Sexp} {b : BarrierRule} :
      BarrierTells b args → Item (.list (whole "barrier".toList args))

/-- What stands in a catalogue behind its name. -/
def itemsOf : Sexp → List Sexp
  | .list (_ :: _ :: items) => items
  | _ => []

theorem itemsOf_whole (tag : Text) (w : Sexp) (items : List Sexp) :
    itemsOf (.list (whole tag (w :: items))) = items := rfl

/-- The word in the last form with a tag. -/
def lastWord (tag : Text) (xs : List Sexp) : Option Text :=
  (formsOf tag xs).getLast?.bind fun args => args.head?.bind Sexp.word?

theorem lastWord_whole (tag t : Text) (xs args : List Sexp) :
    lastWord tag (xs ++ [.list (whole t args)]) =
      if t = tag then args.head?.bind Sexp.word? else lastWord tag xs := by
  unfold lastWord
  rw [formsOf_whole]
  split_ifs <;> simp

/-- A catalogue has its name, the description, the message and the severity of the last form of each
kind, and a rule for each form of a rule. -/
structure Tells (c : Catalogue) (file : Text) (w : Sexp) (items : List Sexp) : Prop where
  name : w.word? = some c.name
  loc : c.loc = { file }
  description : c.description = (lastWord "description".toList items).getD []
  message : c.message = (lastWord "message".toList items).getD []
  severity : c.severity.label = (lastWord "severity".toList items).getD Severity.warning.label
  sources : List.Forall₂ (fun r args => (parts r).Tells args) c.sourceRules
    (formsOf "source-pair".toList items)
  sinks : List.Forall₂ (fun r args => (parts r).Tells args) c.sinkRules
    (formsOf "sink-pair".toList items)
  barriers : List.Forall₂ BarrierTells c.barriers (formsOf "barrier".toList items)
  known : ∀ x ∈ items, Item x

section

variable {c : Catalogue} {file t : Text} {w v : Sexp} {xs args : List Sexp}

theorem Tells.addDescription (h : c.Tells file w xs) (hv : v.word? = some t) :
    Tells { c with description := t } file w (xs ++ [.list (whole "description".toList [v])]) where
  name := h.name
  loc := h.loc
  description := by simp [lastWord_whole, hv]
  message := by simpa [lastWord_whole] using h.message
  severity := by simpa [lastWord_whole] using h.severity
  sources := by simpa [formsOf_whole] using h.sources
  sinks := by simpa [formsOf_whole] using h.sinks
  barriers := by simpa [formsOf_whole] using h.barriers
  known := by simpa [or_imp, forall_and] using ⟨h.known, .word (.inl rfl) hv⟩

theorem Tells.addMessage (h : c.Tells file w xs) (hv : v.word? = some t) :
    Tells { c with message := t } file w (xs ++ [.list (whole "message".toList [v])]) where
  name := h.name
  loc := h.loc
  description := by simpa [lastWord_whole] using h.description
  message := by simp [lastWord_whole, hv]
  severity := by simpa [lastWord_whole] using h.severity
  sources := by simpa [formsOf_whole] using h.sources
  sinks := by simpa [formsOf_whole] using h.sinks
  barriers := by simpa [formsOf_whole] using h.barriers
  known := by simpa [or_imp, forall_and] using ⟨h.known, .word (.inr (.inl rfl)) hv⟩

theorem Tells.addSeverity (h : c.Tells file w xs) {s : Severity} (hv : v.word? = some s.label) :
    Tells { c with severity := s } file w (xs ++ [.list (whole "severity".toList [v])]) where
  name := h.name
  loc := h.loc
  description := by simpa [lastWord_whole] using h.description
  message := by simpa [lastWord_whole] using h.message
  severity := by simp [lastWord_whole, hv]
  sources := by simpa [formsOf_whole] using h.sources
  sinks := by simpa [formsOf_whole] using h.sinks
  barriers := by simpa [formsOf_whole] using h.barriers
  known := by simpa [or_imp, forall_and] using ⟨h.known, .word (.inr (.inr rfl)) hv⟩

theorem Tells.addSource (h : c.Tells file w xs) {r : PairRule} (hr : (parts r).Tells args) :
    Tells { c with sourceRules := c.sourceRules ++ [r] } file w
      (xs ++ [.list (whole "source-pair".toList args)]) where
  name := h.name
  loc := h.loc
  description := by simpa [lastWord_whole] using h.description
  message := by simpa [lastWord_whole] using h.message
  severity := by simpa [lastWord_whole] using h.severity
  sources := by simpa [formsOf_whole] using List.rel_append h.sources (.cons hr .nil)
  sinks := by simpa [formsOf_whole] using h.sinks
  barriers := by simpa [formsOf_whole] using h.barriers
  known := by simpa [or_imp, forall_and] using ⟨h.known, .rule (.inl rfl) hr⟩

theorem Tells.addSink (h : c.Tells file w xs) {r : PairRule} (hr : (parts r).Tells args) :
    Tells { c with sinkRules := c.sinkRules ++ [r] } file w
      (xs ++ [.list (whole "sink-pair".toList args)]) where
  name := h.name
  loc := h.loc
  description := by simpa [lastWord_whole] using h.description
  message := by simpa [lastWord_whole] using h.message
  severity := by simpa [lastWord_whole] using h.severity
  sources := by simpa [formsOf_whole] using h.sources
  sinks := by simpa [formsOf_whole] using List.rel_append h.sinks (.cons hr .nil)
  barriers := by simpa [formsOf_whole] using h.barriers
  known := by simpa [or_imp, forall_and] using ⟨h.known, .rule (.inr rfl) hr⟩

theorem Tells.addBarrier (h : c.Tells file w xs) {b : BarrierRule} (hb : BarrierTells b args) :
    Tells { c with barriers := c.barriers ++ [b] } file w
      (xs ++ [.list (whole "barrier".toList args)]) where
  name := h.name
  loc := h.loc
  description := by simpa [lastWord_whole] using h.description
  message := by simpa [lastWord_whole] using h.message
  severity := by simpa [lastWord_whole] using h.severity
  sources := by simpa [formsOf_whole] using h.sources
  sinks := by simpa [formsOf_whole] using h.sinks
  barriers := by simpa [formsOf_whole] using List.rel_append h.barriers (.cons hb .nil)
  known := by simpa [or_imp, forall_and] using ⟨h.known, .barrier hb⟩

end

end Catalogue
end Lockstep
