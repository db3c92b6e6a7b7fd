import Lockstep.Graph.Node
/-!
Calling contexts. A call string holds the sites of the calls that are open, the latest one last,
and never more than its bound: the oldest sites are given up first. Sites are compared by their
keys; as they were first written they are kept beside them.
-/

set_option autoImplicit false

namespace Lockstep

/-- Adds to the end, and gives up the front of what is more than the bound. -/
def pushBounded {α : Type} (bound : Int) (xs : List α) (x : α) : List α :=
  (xs ++ [x]).drop ((xs.length : Int) + 1 - bound).toNat

theorem length_pushBounded {α : Type} (bound : Int) (xs : List α) (x : α) :
    (pushBounded bound xs x).length = min (xs.length + 1) bound.toNat := by
  simp only [pushBounded, List.length_drop, List.length_append, List.length_singleton]
  omega

/-- Both name the same call: a number that is none differs even from itself. -/
def sameSite (a b : Json) : Bool := a == b && a != .float .nan

theorem sameSite_text (s t : Text) : sameSite (.text s) (.text t) = (s == t) := by
  by_cases h : s = t
  · subst h; simp [sameSite]
  · have : (Json.text s == Json.text t) = false := by simpa using h
    simp [sameSite, this, h]

structure CallString where
  sites : List Json
  shown : List Json
  bound : Int
  deriving DecidableEq, Repr

namespace CallString

def empty (bound : Int) : CallString := ⟨[], [], bound⟩

/-- The call string of sites as they are written, however many they are. -/
def ofSites (sites : List Json) (bound : Int) : CallString := ⟨sites.map Json.key, sites, bound⟩

def isEmpty (c : CallString) : Bool := c.sites.isEmpty

def top? (c : CallString) : Option Json := c.shown.getLast?

def extend (c : CallString) (site : Json) : CallString :=
  ⟨pushBounded c.bound c.sites site.key, pushBounded c.bound c.shown site, c.bound⟩

def pop (c : CallString) : CallString := ⟨c.sites.dropLast, c.shown.dropLast, c.bound⟩

/-- A return closes the latest call if it goes back to that call's site. Where no call is known to
be open it may go anywhere. -/
def closeCall (c : CallString) (site : Json) : Option CallString :=
  match c.sites.getLast? with
  | none => some c
  | some latest => if sameSite latest site.key then some c.pop else none

/-- The context after a step, if the step can be taken in this one. -/
def step (c : CallString) (kind : EdgeKind) (site : Json) : Option CallString :=
  match kind with
  | .internal => some c
  | .call => some (c.extend site)
  | .return => c.closeCall site
  | .jump => some (empty c.bound)

def along (c : CallString) (e : FlowEdge) : Option CallString := c.step e.kind e.callSite

/-- Only sites that are texts can be shown. -/
def display? (c : CallString) : Option Text :=
  (c.shown.mapM Json.asText?).map fun sites => "CS<".toList ++ Text.join ", ".toList sites ++ ['>']

@[simp] theorem bound_extend (c : CallString) (site : Json) : (c.extend site).bound = c.bound := rfl
@[simp] theorem bound_pop (c : CallString) : c.pop.bound = c.bound := rfl

theorem bound_closeCall {c d : CallString} {site : Json} (h : c.closeCall site = some d) :
    d.bound = c.bound := by
  unfold closeCall at h
  cases hl : c.sites.getLast? with
  | none => simp [hl] at h; simp [h]
  | some latest =>
    by_cases hs : sameSite latest site.key = true
    · simp [hl, hs] at h; simp [← h]
    · simp [hl, hs] at h

theorem bound_step {c d : CallString} {kind : EdgeKind} {site : Json}
    (h : c.step kind site = some d) : d.bound = c.bound := by
  cases kind with
  | internal => simp [step] at h; simp [h]
  | call => simp [step] at h; simp [← h]
  | «return» => exact bound_closeCall h
  | jump => simp [step] at h; simp [← h, empty]

end CallString
end Lockstep
