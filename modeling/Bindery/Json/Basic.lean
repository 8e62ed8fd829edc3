import Bindery.SortedMap

/-!
# JSON values

A value keeps the members of its objects in the order in which they are written, repeated keys
included. `lastWins` settles repetitions: the last value of a key stays, at the key's first place.
-/

namespace Bindery

/-- Integers of 64 bits stay exact; every other number is a double, given by its bits. -/
inductive Json.Number where
  | integer (i : Int)
  | double (bits : UInt64)
deriving DecidableEq

inductive Json where
  | null
  | bool (b : Bool)
  | number (n : Json.Number)
  | string (s : String)
  | array (items : List Json)
  | object (members : List (String × Json))

namespace Json

instance : Inhabited Json := ⟨.null⟩

def nat (n : Nat) : Json := .number (.integer n)

def strings (l : List String) : Json := .array (l.map .string)

def optional {α : Type} (f : α → Json) : Option α → Json
  | none => .null
  | some a => f a

def text? : Json → Option String
  | .string s => some s
  | _ => none

/-- The value of the first member with this key. -/
def member? (key : String) : Json → Option Json
  | .object members => (members.find? (·.1 == key)).map (·.2)
  | _ => none

/-- Gives a key its new value where it stands, or puts it at the end. -/
def putMember (key : String) (value : Json) : List (String × Json) → List (String × Json)
  | [] => [(key, value)]
  | e :: rest => if e.1 = key then (key, value) :: rest else e :: putMember key value rest

def putAll (members : List (String × Json)) : List (String × Json) :=
  members.foldl (fun acc e => putMember e.1 e.2 acc) []

mutual

/-- The value with repeated keys settled at every level. -/
def lastWins : Json → Json
  | .array items => .array (lastWinsItems items)
  | .object members => .object (putAll (lastWinsMembers members))
  | v => v

def lastWinsItems : List Json → List Json
  | [] => []
  | v :: rest => lastWins v :: lastWinsItems rest

def lastWinsMembers : List (String × Json) → List (String × Json)
  | [] => []
  | (key, v) :: rest => (key, lastWins v) :: lastWinsMembers rest

end

mutual

/-- Whether no object in the value repeats a key. -/
def distinctKeys : Json → Bool
  | .array items => distinctKeysItems items
  | .object members => distinctKeysMembers members
  | _ => true

def distinctKeysItems : List Json → Bool
  | [] => true
  | v :: rest => distinctKeys v && distinctKeysItems rest

def distinctKeysMembers : List (String × Json) → Bool
  | [] => true
  | (key, v) :: rest =>
    distinctKeys v && !(rest.any (·.1 == key)) && distinctKeysMembers rest

end

theorem any_putMember (key k : String) (value : Json) (l : List (String × Json)) :
    (putMember key value l).any (·.1 == k) = (l.any (·.1 == k) || key == k) := by
  induction l with
  | nil => simp [putMember]
  | cons e rest ih =>
    rw [putMember]
    split
    next h =>
      subst h
      simp only [List.any_cons]
      cases rest.any (·.1 == k) <;> cases e.1 == k <;> rfl
    next h => rw [List.any_cons, ih, List.any_cons, Bool.or_assoc]

theorem distinctKeysMembers_putMember {key : String} {value : Json} {l : List (String × Json)}
    (hl : distinctKeysMembers l = true) (hv : distinctKeys value = true) :
    distinctKeysMembers (putMember key value l) = true := by
  induction l with
  | nil => simp [putMember, distinctKeysMembers, hv]
  | cons e rest ih =>
    obtain ⟨k, v⟩ := e
    simp only [distinctKeysMembers, Bool.and_eq_true] at hl
    rw [putMember]
    split
    next h =>
      subst h
      simp only [distinctKeysMembers, Bool.and_eq_true]
      exact ⟨⟨hv, hl.1.2⟩, hl.2⟩
    next h =>
      simp only [distinctKeysMembers, Bool.and_eq_true, any_putMember]
      refine ⟨⟨hl.1.1, ?_⟩, ih hl.2⟩
      have hk : (key == k) = false := by simpa using fun h' => h h'.symm
      rw [hk, Bool.or_false]
      exact hl.1.2

theorem distinctKeysMembers_putAll {l : List (String × Json)}
    (h : ∀ e ∈ l, distinctKeys e.2 = true) : distinctKeysMembers (putAll l) = true := by
  suffices ∀ acc, distinctKeysMembers acc = true →
      distinctKeysMembers (l.foldl (fun acc e => putMember e.1 e.2 acc) acc) = true from
    this [] rfl
  induction l with
  | nil => exact fun _ hacc => hacc
  | cons e rest ih =>
    exact fun acc hacc => ih (fun e' he' => h e' (List.mem_cons_of_mem _ he')) _
      (distinctKeysMembers_putMember hacc (h e (List.mem_cons_self ..)))

mutual

/-- Once repetitions are settled, no object repeats a key. -/
theorem distinctKeys_lastWins (v : Json) : distinctKeys (lastWins v) = true := by
  cases v with
  | array items => exact distinctKeysItems_lastWins items
  | object members =>
    exact distinctKeysMembers_putAll fun e he => distinctKeys_of_mem_lastWins members e he
  | _ => rfl

theorem distinctKeysItems_lastWins (l : List Json) :
    distinctKeysItems (lastWinsItems l) = true := by
  cases l with
  | nil => rfl
  | cons v rest =>
    rw [lastWinsItems, distinctKeysItems, distinctKeys_lastWins v, distinctKeysItems_lastWins rest]
    rfl

theorem distinctKeys_of_mem_lastWins (l : List (String × Json)) (e : String × Json)
    (he : e ∈ lastWinsMembers l) : distinctKeys e.2 = true := by
  cases l with
  | nil => simp [lastWinsMembers] at he
  | cons m rest =>
    obtain ⟨k, v⟩ := m
    rw [lastWinsMembers, List.mem_cons] at he
    rcases he with rfl | he
    · exact distinctKeys_lastWins v
    · exact distinctKeys_of_mem_lastWins rest e he

end

end Json

/-- Members without repeated keys at any level, in the order of their first writing. -/
structure JsonObject where
  members : List (String × Json)
  distinct : Json.distinctKeysMembers members = true

namespace JsonObject

def ofMembers (members : List (String × Json)) : JsonObject :=
  ⟨Json.putAll (Json.lastWinsMembers members),
    Json.distinctKeysMembers_putAll (Json.distinctKeys_of_mem_lastWins members)⟩

def get? (o : JsonObject) (key : String) : Option Json :=
  (o.members.find? (·.1 == key)).map (·.2)

end JsonObject

end Bindery
