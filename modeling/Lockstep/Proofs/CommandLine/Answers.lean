import Mathlib.Data.List.Forall2
import Lockstep.CommandLine.Stop
/-!
What a computation that logs can answer. Lines that were logged before play no part in it, so each
computation has its own answers, and those of a longer one follow from the answers of its parts.
-/

set_option autoImplicit false

namespace Lockstep.CommandLine.Logged

variable {α β : Type} {x : Logged α} {f : α → Logged β} {P : α → Prop} {Q : α → β → Prop}

/-- Whatever was logged before, these are the answers with which the computation comes to its end; it
stops where there is none. -/
def Answers (x : Logged α) (P : α → Prop) : Prop :=
  ∀ before a, (x.run.run before).1 = .ok a ↔ P a

theorem Answers.congr {P' : α → Prop} (hx : x.Answers P) (h : ∀ a, P a ↔ P' a) : x.Answers P' :=
  fun before a => (hx before a).trans (h a)

theorem answers_pure (a : α) : (pure a : Logged α).Answers (a = ·) :=
  fun _ _ => ⟨Except.ok.inj, congrArg Except.ok⟩

theorem answers_lines (ls : List LogLine) : (lines ls).Answers fun _ => True :=
  fun _ _ => ⟨fun _ => trivial, fun _ => rfl⟩

/-- The second part is tried with the answer of the first. That lines were added in between is of no
consequence for it. -/
theorem Answers.bind (hx : x.Answers P) (hf : ∀ a, P a → (f a).Answers (Q a)) :
    (x >>= f).Answers fun b => ∃ a, P a ∧ Q a b := by
  intro before b
  have hrun : (x >>= f).run.run before =
      (ExceptT.bindCont f (x.run.run before).1).run (x.run.run before).2 := rfl
  rw [hrun]
  cases hfirst : (x.run.run before).1 with
  | ok a =>
    have ha : P a := (hx before a).mp hfirst
    have hsecond : (((ExceptT.bindCont f (.ok a)).run (x.run.run before).2).1 = .ok b) ↔ Q a b :=
      hf a ha _ b
    refine hsecond.trans ⟨fun hb => ⟨a, ha, hb⟩, ?_⟩
    rintro ⟨a', ha', hb⟩
    obtain rfl : a = a' := Except.ok.inj (hfirst.symm.trans ((hx before a').mpr ha'))
    exact hb
  | error s =>
    refine ⟨nofun, ?_⟩
    rintro ⟨a, ha, -⟩
    cases hfirst.symm.trans ((hx before a).mpr ha)

/-- Lines alone change no answer. -/
theorem Answers.after {ls : List LogLine} {y : Logged α} (hy : y.Answers P) :
    (lines ls >>= fun _ => y).Answers P := by
  refine ((answers_lines ls).bind fun _ _ => hy).congr fun a => ⟨?_, fun ha => ⟨(), trivial, ha⟩⟩
  rintro ⟨-, -, ha⟩
  exact ha

/-- One after another, each has to be answered. -/
theorem Answers.mapM (h : ∀ a, (f a).Answers (Q a)) (as : List α) :
    (as.mapM f).Answers (List.Forall₂ Q as) := by
  induction as with
  | nil =>
    rw [List.mapM_nil]
    exact (answers_pure []).congr fun bs => by rw [List.forall₂_nil_left_iff, eq_comm]
  | cons a as ih =>
    rw [List.mapM_cons]
    refine ((h a).bind fun b _ => ih.bind fun bs _ => answers_pure (b :: bs)).congr fun bs => ?_
    rw [List.forall₂_cons_left_iff]
    constructor
    · rintro ⟨b, hb, rest, hrest, rfl⟩
      exact ⟨b, rest, hb, hrest, rfl⟩
    · rintro ⟨b, rest, hb, hrest, rfl⟩
      exact ⟨b, hb, rest, hrest, rfl⟩

end Lockstep.CommandLine.Logged
