import Mathlib.Data.List.DropRight
import Lockstep.Flow.CallString
/-!
Calls that are closed again. Edges are balanced if every call is closed by a return to its own site,
one call inside of another. Such edges can be gone along in every context, and afterward the context
holds again what it held before, but for the oldest sites: those that had to be given up while so many
calls were open.
-/

set_option autoImplicit false

namespace Lockstep

section Latest

variable {α β : Type} {xs : List α} {n : Nat}

theorem length_rtake (xs : List α) (n : Nat) : (xs.rtake n).length = min n xs.length := by
  rw [List.rtake, List.length_drop]
  omega

theorem rtake_of_length_le (h : xs.length ≤ n) : xs.rtake n = xs := by
  rw [List.rtake, Nat.sub_eq_zero_of_le h, List.drop_zero]

theorem rtake_rtake (xs : List α) (m n : Nat) : (xs.rtake m).rtake n = xs.rtake (min n m) := by
  simp only [List.rtake_eq_reverse_take_reverse, List.reverse_reverse, List.take_take]

theorem rtake_min_length (xs : List α) (n : Nat) : xs.rtake (min xs.length n) = xs.rtake n := by
  rw [List.rtake, List.rtake]
  congr 1
  omega

theorem map_rtake (f : α → β) (xs : List α) (n : Nat) :
    (xs.rtake n).map f = (xs.map f).rtake n := by
  rw [List.rtake, List.rtake, List.map_drop, List.length_map]

/-- What is kept of a list with one more at its end are the latest. -/
theorem pushBounded_eq_rtake (bound : Int) (xs : List α) (x : α) :
    pushBounded bound xs x = (xs ++ [x]).rtake bound.toNat := by
  rw [pushBounded, List.rtake, List.length_append, List.length_singleton]
  by_cases hbound : 0 ≤ bound
  · congr 1
    omega
  · rw [List.drop_of_length_le (by simp; omega), List.drop_of_length_le (by simp; omega)]

end Latest

/-- Local steps, and calls that are closed again by a return to the same site, with edges of this kind
in between. The number is that of the calls that are open at once where they are most. -/
inductive Balanced : Nat → List FlowEdge → Prop
  | done : Balanced 0 []
  | stay {d : Nat} {e : FlowEdge} {es : List FlowEdge} : e.kind = .internal → Balanced d es →
      Balanced d (e :: es)
  | visit {d d' : Nat} {enter leave : FlowEdge} {inside after : List FlowEdge} :
      enter.kind = .call → leave.kind = .return → sameSite enter.site leave.site = true →
      Balanced d inside → Balanced d' after →
      Balanced (max (d + 1) d') (enter :: (inside ++ leave :: after))

namespace CallString

variable {k : Int} {sites : List Json} {site : Json} {e : FlowEdge} {es : List FlowEdge} {d : Nat}

theorem extend_ofSites (k : Int) (sites : List Json) (site : Json) :
    (ofSites sites k).extend site = ofSites ((sites ++ [site]).rtake k.toNat) k := by
  simp [extend, ofSites, pushBounded_eq_rtake, map_rtake]

theorem closeCall_ofSites_nil (k : Int) (site : Json) :
    (ofSites [] k).closeCall site = some (ofSites [] k) := rfl

theorem closeCall_ofSites_concat {latest : Json} (h : sameSite latest.key site.key = true) :
    (ofSites (sites ++ [latest]) k).closeCall site = some (ofSites sites k) := by
  simp [closeCall, ofSites, h, pop]

/-- A return from the last of the calls that are known leaves the others, and where none is known it
changes nothing. -/
theorem closeCall_rtake (h : sameSite site.key e.site = true) (n : Nat) :
    (ofSites ((sites ++ [site]).rtake n) k).closeCall e.callSite =
      some (ofSites (sites.rtake (n - 1)) k) := by
  cases n with
  | zero => rw [List.rtake_zero, closeCall_ofSites_nil, List.rtake_zero]
  | succ n => rw [List.rtake_concat_succ, closeCall_ofSites_concat h, Nat.add_sub_cancel]

/-- Each step is taken by itself; within a call one site more is known, and one place less is left for
those from before. -/
theorem foldlM_balanced (h : Balanced d es) (hlength : sites.length ≤ k.toNat) :
    es.foldlM along (ofSites sites k) = some (ofSites (sites.rtake (k - d).toNat) k) := by
  induction h generalizing sites with
  | done =>
    rw [rtake_of_length_le (by simpa using hlength)]
    rfl
  | @stay d e es hkind _ ih =>
    have hstep : (ofSites sites k).along e = some (ofSites sites k) := by simp [along, step, hkind]
    rw [List.foldlM_cons, hstep]
    exact ih hlength
  | @visit d d' enter leave inside after henter hleave hsame _ _ ihInside ihAfter =>
    have hin : (ofSites sites k).along enter =
        some (ofSites ((sites ++ [enter.callSite]).rtake k.toNat) k) := by
      simp [along, step, henter, extend_ofSites]
    -- the call goes back to where it came from, if its site is still known
    have hinside : inside.foldlM along (ofSites ((sites ++ [enter.callSite]).rtake k.toNat) k) =
        some (ofSites ((sites ++ [enter.callSite]).rtake (k - d).toNat) k) := by
      rw [ihInside (by rw [length_rtake]; omega), rtake_rtake]
      congr 3
      omega
    have hout : (ofSites ((sites ++ [enter.callSite]).rtake (k - d).toNat) k).along leave =
        some (ofSites (sites.rtake ((k - d).toNat - 1)) k) := by
      simp [along, step, hleave, closeCall_rtake hsame]
    have hafter : after.foldlM along (ofSites (sites.rtake ((k - d).toNat - 1)) k) =
        some (ofSites (sites.rtake (k - max (d + 1) d' : Int).toNat) k) := by
      rw [ihAfter (by rw [length_rtake]; omega), rtake_rtake]
      congr 3
      omega
    calc (enter :: (inside ++ leave :: after)).foldlM along (ofSites sites k)
        = inside.foldlM along (ofSites ((sites ++ [enter.callSite]).rtake k.toNat) k) >>=
            fun c => c.along leave >>= after.foldlM along := by
          rw [List.foldlM_cons, hin, Option.bind_eq_bind, Option.bind_some, List.foldlM_append]
          rfl
      _ = after.foldlM along (ofSites (sites.rtake ((k - d).toNat - 1)) k) := by
          rw [hinside, Option.bind_eq_bind, Option.bind_some, hout]
          rfl
      _ = some (ofSites (sites.rtake (k - max (d + 1) d' : Int).toNat) k) := hafter

/-- Balanced edges can be gone along wherever one is, and of the sites that were known the latest are
known again: as many as there was room for beside the calls that were open at once. -/
theorem along_balanced (h : Balanced d es) (hlength : sites.length ≤ k.toNat) :
    es.foldlM along (ofSites sites k) =
      some (ofSites (sites.rtake (min sites.length (k - d).toNat)) k) := by
  rw [foldlM_balanced h hlength, ← rtake_min_length]

/-- Two calls, one inside of the other, where three sites have room: of the three that were known the
last one is left. -/
theorem along_balanced_sample :
    let call (name : Char) : FlowEdge := ⟨[], [], .call, .text [name]⟩
    let back (name : Char) : FlowEdge := ⟨[], [], .return, .text [name]⟩
    let sites := [Json.text ['a'], .text ['b'], .text ['c']]
    let es := [call 'd', call 'e', back 'e', ⟨[], [], .internal, .null⟩, back 'd']
    Balanced 2 es ∧ sites.length ≤ (3 : Int).toNat ∧
      es.foldlM along (ofSites sites 3) = some (ofSites [.text ['c']] 3) := by
  intro call back sites es
  have hinner : Balanced 1 [call 'e', back 'e', ⟨[], [], .internal, .null⟩] :=
    .visit rfl rfl (by decide) .done (.stay rfl .done)
  have hbalanced : Balanced 2 es := .visit rfl rfl (by decide) hinner .done
  exact ⟨hbalanced, by decide, along_balanced hbalanced (by decide)⟩

end CallString
end Lockstep
