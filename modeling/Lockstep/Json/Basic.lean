import Lockstep.Number.Shortest
import Lockstep.Text.Quoted
/-!
JSON values. An object keeps its members in the order in which their names first came. Whole
numbers and floats are told apart, since a document is written back as it was read; `key` is the
form in which values that count as equal (`1`, `1.0` and `true`) are the same.
-/

set_option autoImplicit false

namespace Lockstep

inductive Json where
  | null
  | bool (b : Bool)
  | int (i : Int)
  | float (f : Binary64)
  | text (t : Text)
  | list (xs : List Json)
  | object (members : List (Text × Json))
  deriving Repr

namespace Json

mutual

def beq : Json → Json → Bool
  | .null, .null => true
  | .bool a, .bool b => a == b
  | .int a, .int b => a == b
  | .float a, .float b => a == b
  | .text a, .text b => a == b
  | .list a, .list b => beqList a b
  | .object a, .object b => beqMembers a b
  | _, _ => false

def beqList : List Json → List Json → Bool
  | [], [] => true
  | a :: as, b :: bs => beq a b && beqList as bs
  | _, _ => false

def beqMembers : List (Text × Json) → List (Text × Json) → Bool
  | [], [] => true
  | (m, a) :: as, (n, b) :: bs => m == n && (beq a b && beqMembers as bs)
  | _, _ => false

end

mutual

theorem beq_iff : ∀ a b : Json, beq a b = true ↔ a = b
  | .null, b => by cases b <;> simp [beq]
  | .bool _, b => by cases b <;> simp [beq]
  | .int _, b => by cases b <;> simp [beq]
  | .float _, b => by cases b <;> simp [beq]
  | .text _, b => by cases b <;> simp [beq]
  | .list xs, b => by cases b <;> simp [beq, beqList_iff xs]
  | .object ms, b => by cases b <;> simp [beq, beqMembers_iff ms]

theorem beqList_iff : ∀ a b : List Json, beqList a b = true ↔ a = b
  | [], b => by cases b <;> simp [beqList]
  | x :: xs, b => by cases b <;> simp [beqList, beq_iff x, beqList_iff xs]

theorem beqMembers_iff : ∀ a b : List (Text × Json), beqMembers a b = true ↔ a = b
  | [], b => by cases b <;> simp [beqMembers]
  | (m, x) :: xs, b => by
    cases b with
    | nil => simp [beqMembers]
    | cons y ys =>
      obtain ⟨n, y⟩ := y
      simp [beqMembers, beq_iff x, beqMembers_iff xs, and_assoc]

end

instance : DecidableEq Json := fun a b => decidable_of_iff _ (beq_iff a b)

/-- False, zero and what is empty do not hold. -/
def holds : Json → Bool
  | .null => false
  | .bool b => b
  | .int i => i != 0
  | .float f => !f.isZero
  | .text t => !t.isEmpty
  | .list xs => !xs.isEmpty
  | .object ms => !ms.isEmpty

/-- Lists and objects cannot name a thing. -/
def isScalar : Json → Bool
  | .list _ => false
  | .object _ => false
  | _ => true

def asText? : Json → Option Text
  | .text t => some t
  | _ => none

def kindName : Json → Text
  | .null => "NoneType".toList
  | .bool _ => "bool".toList
  | .int _ => "int".toList
  | .float _ => "float".toList
  | .text _ => "str".toList
  | .list _ => "list".toList
  | .object _ => "dict".toList

def member? (name : Text) (ms : List (Text × Json)) : Option Json := ms.lookup name

/-- Sets a member: a new name goes to the end, a known one keeps its place. -/
def put (name : Text) (value : Json) : List (Text × Json) → List (Text × Json)
  | [] => [(name, value)]
  | (n, v) :: ms => if n = name then (n, value) :: ms else (n, v) :: put name value ms

theorem lookup_put (name : Text) (value : Json) (ms : List (Text × Json)) :
    member? name (put name value ms) = some value := by
  induction ms with
  | nil => simp [put, member?]
  | cons m ms ih =>
    obtain ⟨n, v⟩ := m
    by_cases h : n = name
    · simp [put, member?, h]
    · have : (name == n) = false := by simpa using fun e => h e.symm
      simpa [put, h, member?, List.lookup_cons, this] using ih

def insertMember (m : Text × Json) : List (Text × Json) → List (Text × Json)
  | [] => [m]
  | n :: ns => if Text.precedes m.1 n.1 then m :: n :: ns else n :: insertMember m ns

mutual

/-- The representative of the values equal to a given one: truth values and whole floats are whole
numbers, and the members of an object stand in the order of their names. -/
def key : Json → Json
  | .bool b => .int (if b then 1 else 0)
  | .float f => match f.toInt? with
    | some i => .int i
    | none => .float f
  | .list xs => .list (keyList xs)
  | .object ms => .object (keyMembers ms)
  | v => v

def keyList : List Json → List Json
  | [] => []
  | x :: xs => key x :: keyList xs

def keyMembers : List (Text × Json) → List (Text × Json)
  | [] => []
  | (n, x) :: ms => insertMember (n, key x) (keyMembers ms)

end

theorem isScalar_key (v : Json) : v.key.isScalar = v.isScalar := by
  cases v with
  | float f => cases h : f.toInt? <;> simp [key, h, isScalar]
  | _ => rfl

@[simp] theorem key_text (t : Text) : key (.text t) = .text t := rfl
@[simp] theorem key_null : key .null = .null := rfl

mutual

/-- A value between other text, with texts quoted. -/
def quoted : Json → Text
  | .null => "None".toList
  | .bool true => "True".toList
  | .bool false => "False".toList
  | .int i => Text.ofInt i
  | .float f => f.display
  | .text t => Text.quoted t
  | .list xs => '[' :: quotedList xs ++ [']']
  | .object ms => '\x7b' :: quotedMembers ms ++ ['\x7d']

def quotedList : List Json → Text
  | [] => []
  | [x] => quoted x
  | x :: y :: xs => quoted x ++ (',' :: ' ' :: quotedList (y :: xs))

def quotedMembers : List (Text × Json) → Text
  | [] => []
  | [(n, x)] => Text.quoted n ++ (':' :: ' ' :: quoted x)
  | (n, x) :: m :: ms =>
    Text.quoted n ++ (':' :: ' ' :: quoted x) ++ (',' :: ' ' :: quotedMembers (m :: ms))

end

/-- A value by itself: a text stands for itself. -/
def display : Json → Text
  | .text t => t
  | v => quoted v

@[simp] theorem display_text (t : Text) : display (.text t) = t := rfl

/-- The first value that holds, or else the second one. -/
def orElse (a b : Json) : Json := if a.holds then a else b

end Json
end Lockstep
