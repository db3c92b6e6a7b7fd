import Lockstep.Graph.Basic
/-!
The tables a flow graph is kept in while it is built. Routines are found by name and nodes by
identifier; the nodes of a routine, and the edges that leave and enter a node, stand in tables of
their own next to the list of all edges. An addition writes one table after the other, and what it
has written when it fails stays.
-/

set_option autoImplicit false

namespace Lockstep

/-- Values under keys, in the order in which the keys came. -/
abbrev Table (κ ν : Type) := List (κ × ν)

namespace Table

variable {κ ν : Type} [DecidableEq κ]

def get? (t : Table κ ν) (k : κ) : Option ν := List.lookup k t

/-- Replaces what stands under a key, or comes last if nothing does. -/
def put : Table κ ν → κ → ν → Table κ ν
  | [], k, v => [(k, v)]
  | (l, w) :: t, k, v => if k = l then (k, v) :: t else (l, w) :: put t k v

def keys (t : Table κ ν) : List κ := t.map (·.1)
def values (t : Table κ ν) : List ν := t.map (·.2)

/-- The list under a key, which is empty as long as nothing was put there. -/
def row (t : Table κ (List ν)) (k : κ) : List ν := (t.get? k).getD []

def push (t : Table κ (List ν)) (k : κ) (v : ν) : Table κ (List ν) := t.put k (t.row k ++ [v])

@[simp] theorem get?_nil (k : κ) : get? ([] : Table κ ν) k = none := rfl

@[simp] theorem get?_cons (t : Table κ ν) (k l : κ) (v : ν) :
    get? ((k, v) :: t) l = if l = k then some v else t.get? l := by
  by_cases h : l = k
  · simp [get?, h]
  · simp [get?, List.lookup_cons, h, beq_eq_false_iff_ne.mpr h]

@[simp] theorem row_nil (k : κ) : row ([] : Table κ (List ν)) k = [] := rfl

theorem get?_put (t : Table κ ν) (k l : κ) (v : ν) :
    (t.put k v).get? l = if l = k then some v else t.get? l := by
  induction t with
  | nil => simp [put]
  | cons e t ih =>
    obtain ⟨m, w⟩ := e
    by_cases hk : k = m
    · subst hk
      by_cases hl : l = k <;> simp [put, hl]
    · by_cases hl : l = m
      · subst hl
        simp [put, hk, Ne.symm hk]
      · simp [put, hk, hl, ih]

theorem put_of_get?_eq_none {t : Table κ ν} {k : κ} (v : ν) (h : t.get? k = none) :
    t.put k v = t ++ [(k, v)] := by
  induction t with
  | nil => rfl
  | cons e t ih =>
    obtain ⟨m, w⟩ := e
    by_cases hk : k = m
    · simp [hk] at h
    · rw [get?_cons, if_neg hk] at h
      simp [put, hk, ih h]

theorem row_push (t : Table κ (List ν)) (k l : κ) (v : ν) :
    (t.push k v).row l = if l = k then t.row l ++ [v] else t.row l := by
  unfold push
  by_cases h : l = k
  · subst h
    simp [row, get?_put]
  · simp [row, get?_put, h]

end Table

/-- What two spellings of one routine have in common. -/
def Routine.key (r : Routine) : Json × Json := (r.name.key, r.file.key)

structure GraphStore where
  routineTable : Table Json Routine
  nodeTable : Table Text FlowNode
  members : Table (Json × Json) (List FlowNode)
  leaving : Table Text (List FlowEdge)
  entering : Table Text (List FlowEdge)
  edges : List FlowEdge
  deriving DecidableEq, Repr

/-- What can be added to a graph. -/
inductive GraphPart where
  | routine (r : Routine)
  | node (n : FlowNode)
  | edge (e : FlowEdge)
  deriving DecidableEq, Repr

namespace GraphStore

inductive Fault where
  | graph (e : GraphError)
  /-- A list or an object cannot name anything. -/
  | notName (v : Json)
  deriving DecidableEq, Repr

def empty : GraphStore := ⟨[], [], [], [], [], []⟩

def allRoutines (s : GraphStore) : List Routine := s.routineTable.values
def allNodes (s : GraphStore) : List FlowNode := s.nodeTable.values
def contains (s : GraphStore) (id : Text) : Bool := (s.nodeTable.get? id).isSome
def outEdges (s : GraphStore) (id : Text) : List FlowEdge := s.leaving.row id
def inEdges (s : GraphStore) (id : Text) : List FlowEdge := s.entering.row id

def node (s : GraphStore) (id : Text) : Except Fault FlowNode :=
  match s.nodeTable.get? id with
  | some n => .ok n
  | none => .error (.graph (.unknownNode id))

def named (v : Json) : Except Fault Unit := if v.isScalar then .ok () else .error (.notName v)

def routine (s : GraphStore) (name : Json) : Except Fault Routine := do
  named name
  match s.routineTable.get? name.key with
  | some r => .ok r
  | none => .error (.graph (.unknownRoutine name))

def nodesIn (s : GraphStore) (r : Routine) : Except Fault (List FlowNode) := do
  named r.name
  named r.file
  return s.members.row r.key

/-- The graph that the tables hold. -/
def graph (s : GraphStore) : FlowGraph := ⟨s.allRoutines, s.allNodes, s.edges⟩

abbrev Addition := ExceptT Fault (StateM GraphStore)

/-- The answer of an addition, and the store after it. -/
def perform {α : Type} (x : Addition α) (s : GraphStore) : Except Fault α × GraphStore := x.run s

section

variable {α β : Type} (s : GraphStore)

@[simp] theorem perform_pure (a : α) : perform (pure a) s = (.ok a, s) := rfl

@[simp] theorem perform_get : perform get s = (.ok s, s) := rfl

@[simp] theorem perform_modify (f : GraphStore → GraphStore) :
    perform (modify f) s = (.ok (), f s) := rfl

@[simp] theorem perform_throw (e : Fault) : perform (throw e : Addition α) s = (.error e, s) := rfl

@[simp] theorem perform_lift (x : Except Fault α) : perform (liftM x) s = (x, s) := rfl

@[simp] theorem perform_ite (c : Prop) [Decidable c] (x y : Addition α) :
    perform (if c then x else y) s = if c then perform x s else perform y s := by
  split <;> rfl

@[simp] theorem perform_bind (x : Addition α) (f : α → Addition β) :
    perform (x >>= f) s = match perform x s with
      | (.ok a, s) => perform (f a) s
      | (.error e, s) => (.error e, s) := by
  have h : perform (x >>= f) s = (fun (a, s) => ExceptT.bindCont f a s) (perform x s) := rfl
  rw [h]
  rcases perform x s with ⟨e | a, t⟩ <;> rfl

@[simp] theorem perform_map (f : α → β) (x : Addition α) :
    perform (f <$> x) s = ((perform x s).1.map f, (perform x s).2) := by
  rw [← bind_pure_comp, perform_bind]
  rcases perform x s with ⟨e | a, t⟩ <;> rfl

end

/-- Registers a routine, unless it is known; the registered one comes back. -/
def addRoutine (r : Routine) : Addition Routine := do
  named r.name
  match (← get).routineTable.get? r.name.key with
  | some known =>
    if known.agrees r then return known
    else throw (.graph (.conflictingRoutine r.name))
  | none =>
    modify fun s => { s with routineTable := s.routineTable.put r.name.key r }
    return r

/-- Adds a node. Its routine is registered before it, and looked into only after it. -/
def addNode (n : FlowNode) : Addition FlowNode := do
  if (← get).contains n.id then throw (.graph (.duplicateNode n.id))
  let _ ← addRoutine n.routine
  modify fun s => { s with nodeTable := s.nodeTable.put n.id n }
  named n.routine.file
  modify fun s => { s with members := s.members.push n.routine.key n }
  return n

def addEdge (e : FlowEdge) : Addition FlowEdge := do
  let source ← (← get).node e.source
  let target ← (← get).node e.target
  if e.kind.needsSite && !e.callSite.holds then
    throw (.graph (.missingCallSite e.kind e.source e.target))
  if e.kind == .internal && !source.routine.agrees target.routine then
    throw (.graph (.crossesRoutines e.source e.target source.routine.name target.routine.name))
  modify fun s => { s with leaving := s.leaving.push e.source e }
  modify fun s => { s with entering := s.entering.push e.target e }
  modify fun s => { s with edges := s.edges ++ [e] }
  return e

def add : GraphPart → Addition GraphPart
  | .routine r => .routine <$> addRoutine r
  | .node n => .node <$> addNode n
  | .edge e => .edge <$> addEdge e

/-- Adds one part after the other, also after those that fail. -/
def addAll : List GraphPart → GraphStore → List (Except Fault GraphPart) × GraphStore
  | [], s => ([], s)
  | p :: ps, s =>
    let (answer, s) := perform (add p) s
    let (answers, s) := addAll ps s
    (answer :: answers, s)

end GraphStore
end Lockstep
