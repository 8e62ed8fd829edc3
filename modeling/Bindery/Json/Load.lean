import Bindery.Json.Reading
import Bindery.Text.Pieces

/-!
# Loading values from a reading

Loaders walk a reading in the order of its text and stop at the first thing that is wrong. A wrong
value is reported with its place; a fault of the text itself has none.

A record may be written as an object, whose unknown members are passed over, or as an array of its
fields in their order, whose last fields may be left out when they have defaults.
-/

namespace Bindery.Json

inductive Step where
  | key (name : String)
  | index (i : Nat)
deriving DecidableEq

inductive Mismatch where
  | wrongType
  | missingField (name : String)
  | duplicateField (name : String)
  | unknownVariant (name : String)
  | wrongLength
  | noTypeTerm
deriving DecidableEq

inductive LoadError where
  /-- The text is not JSON, or JSON that cannot be held. -/
  | malformed
  | mismatch (path : List Step) (what : Mismatch)
deriving DecidableEq

namespace LoadError

def wrong (what : Mismatch) : LoadError := .mismatch [] what

/-- The same error seen from one level further out. -/
def under (s : Step) : LoadError → LoadError
  | .malformed => .malformed
  | .mismatch path what => .mismatch (s :: path) what

end LoadError

/-- Keys are separated by dots, indices stand in brackets. -/
def pathTail : List Step → String
  | [] => ""
  | .key name :: rest => "." ++ name ++ pathTail rest
  | .index i :: rest => "[" ++ toString i ++ "]" ++ pathTail rest

/-- The text of a place; the whole value is `.`. -/
def pathText : List Step → String
  | [] => "."
  | .key name :: rest => name ++ pathTail rest
  | .index i :: rest => "[" ++ toString i ++ "]" ++ pathTail rest

def Mismatch.message : Mismatch → String
  | .wrongType => "invalid type"
  | .missingField name => "missing field `" ++ name ++ "`"
  | .duplicateField name => "duplicate field `" ++ name ++ "`"
  | .unknownVariant name => "unknown variant `" ++ name ++ "`"
  | .wrongLength => "invalid length"
  | .noTypeTerm => "data did not match any variant of untagged enum TypeTerm"

def LoadError.message : LoadError → String
  | .malformed => "at JSON → syntax"
  | .mismatch path what => "at JSON path " ++ pathText path ++ " → " ++ what.message

abbrev Load (α : Type) := Except LoadError α

def Load.under {α : Type} (s : Step) (x : Load α) : Load α := x.mapError (LoadError.under s)

namespace Reading
variable {α σ : Type}

/-- What is reported of a reading that is none of the expected. -/
def refuse : Reading → Load α
  | .flawed _ => throw .malformed
  | _ => throw (.wrong .wrongType)

def loadString : Reading → Load String
  | .string s => pure s
  | r => r.refuse

def loadBool : Reading → Load Bool
  | .bool b => pure b
  | r => r.refuse

/-- `null` stands for nothing. -/
def loadOptional (f : Reading → Load α) : Reading → Load (Option α)
  | .null => pure none
  | r => some <$> f r

/-- Any value without a fault. -/
def loadJson (r : Reading) : Load Json :=
  match r.toJson? with
  | some v => pure v
  | none => throw .malformed

def loadItems (f : Reading → Load α) : Nat → List Reading → Load (List α)
  | _, [] => pure []
  | i, r :: rest => do
    let a ← Load.under (.index i) (f r)
    let as ← loadItems f (i + 1) rest
    pure (a :: as)

def checkClosed (closed : Bool) (a : α) : Load α := if closed then pure a else throw .malformed

def loadList (f : Reading → Load α) : Reading → Load (List α)
  | .array items closed => do checkClosed closed (← loadItems f 0 items)
  | r => r.refuse

def loadMembers (f : Reading → Load α) : List (Option String × Reading) → Load (List (String × α))
  | [] => pure []
  | (none, _) :: _ => throw .malformed
  | (some key, r) :: rest => do
    let a ← Load.under (.key key) (f r)
    let as ← loadMembers f rest
    pure ((key, a) :: as)

/-- The members of an object as they stand, repeated keys included. -/
def loadObject (f : Reading → Load α) : Reading → Load (List (String × α))
  | .object members closed => do checkClosed closed (← loadMembers f members)
  | r => r.refuse

end Reading

/-- The fields of a record type, in their order, and how the value of one is put into a record. -/
structure Fields (σ : Type) where
  names : List String
  /-- Those without a default. -/
  required : List String
  put : String → Reading → σ → Load σ

namespace Fields
variable {σ : Type}

/-- Puts in the known members after those already seen. -/
def loadMembers (F : Fields σ) (seen : List String) (s : σ) :
    List (Option String × Reading) → Load (List String × σ)
  | [] => pure (seen, s)
  | (none, _) :: _ => throw .malformed
  | (some key, r) :: rest =>
    if F.names.contains key then
      if seen.contains key then throw (.wrong (.duplicateField key))
      else do
        let s ← Load.under (.key key) (F.put key r s)
        loadMembers F (key :: seen) s rest
    else if r.skippable then loadMembers F seen s rest
    else throw .malformed

def checkRequired (F : Fields σ) (seen : List String) (s : σ) : Load σ :=
  match F.required.find? fun name => !seen.contains name with
  | some name => throw (.wrong (.missingField name))
  | none => pure s

/-- Puts in the items of an array for the fields `names`, the first of them being number `i`. -/
def loadItems (F : Fields σ) (closed : Bool) (s : σ) : Nat → List String → List Reading → Load σ
  | _, [], [] => Reading.checkClosed closed s
  | _, [], _ :: _ => throw .malformed
  | _, name :: names, [] =>
    if !closed then throw .malformed
    else if (name :: names).any F.required.contains then throw (.wrong .wrongLength)
    else pure s
  | i, name :: names, r :: rest => do
    let s ← Load.under (.index i) (F.put name r s)
    loadItems F closed s (i + 1) names rest

/-- Loads a record, `init` having the defaults of its fields. -/
def load (F : Fields σ) (init : σ) : Reading → Load σ
  | .object members closed => do
    let (seen, s) ← F.loadMembers [] init members
    Reading.checkClosed closed ()
    F.checkRequired seen s
  | .array items closed => F.loadItems closed init 0 F.names items
  | r => r.refuse

end Fields

end Bindery.Json
