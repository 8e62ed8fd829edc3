import Bindery.Ast.Basic
import Bindery.Error
import Bindery.Text.Pieces

/-!
# Resolving references

A resolver looks nodes up by id, the first of an id standing for all, and may be restricted to
records from certain files. Walking outwards through contexts takes at most as many steps as there
are ids, so it ends on cyclic contexts too.
-/

namespace Bindery.Ast

def firstOfEachId : List Node → List Node
  | [] => []
  | n :: rest => n :: (firstOfEachId rest).filter fun m => m.id != n.id

structure Resolver where
  /-- One node for each id, in the order of the document. -/
  nodes : List Node
  /-- The ids of the files that records may come from; none at all stands for any. -/
  allowed : List NodeId

namespace Resolver

def ofDocument (d : Document) : Resolver := ⟨firstOfEachId d.nodes, []⟩

/-- Adds the first file with this name or id to the allowed ones. -/
def allow (r : Resolver) (entry : String) : Except Error Resolver :=
  match r.nodes.find? (·.isFileNamed entry) with
  | some n => pure { r with allowed := n.id :: r.allowed }
  | none => throw (.unknownOriginFile entry)

def restrict (r : Resolver) : List String → Except Error Resolver
  | [] => pure r
  | entry :: rest => do (← r.allow entry).restrict rest

def isRestricted (r : Resolver) : Bool := !r.allowed.isEmpty

def resolve (r : Resolver) (id : NodeId) : Except Error Node :=
  match r.nodes.find? (·.id == id) with
  | some n => pure n
  | none => throw (.unresolvedReference id)

/-- What is found under an id is a node with that id. -/
theorem of_resolve_eq_ok {r : Resolver} {id : NodeId} {n : Node} (h : r.resolve id = .ok n) :
    n ∈ r.nodes ∧ n.id = id := by
  unfold resolve at h
  split at h
  next hfind =>
    cases h
    exact ⟨List.mem_of_find?_eq_some hfind, by simpa using List.find?_some hfind⟩
  next => cases h

def allows (r : Resolver) (file? : Option NodeId) : Bool :=
  r.allowed.isEmpty || file?.any r.allowed.contains

/-- Whether the node comes from an allowed file. -/
def inScope (r : Resolver) (n : Node) : Bool := r.allows n.file?

/-- The complete records of this name. -/
def recordsNamed (r : Resolver) (name : String) : List (NodeId × Record) :=
  r.nodes.filterMap fun n =>
    match n.record? with
    | some c => if c.name = name && !c.incomplete then some (n.id, c) else none
    | none => none

def resolveAll (r : Resolver) : List NodeId → Except Error (List Node)
  | [] => pure []
  | id :: rest => do
    let n ← r.resolve id
    let ns ← r.resolveAll rest
    pure (n :: ns)

def members (r : Resolver) (c : Record) : Except Error (List Node) := r.resolveAll c.members

/-- The members that are declared public. All members have to exist. -/
def publicMembers (r : Resolver) (c : Record) : Except Error (List Node) := do
  return (← r.members c).filter (·.access? == some .publicAccess)

/-- Whether the name of a scope is part of paths; the global scope and unnamed ones are not. -/
def isNamedScope (name : String) : Bool := name != "::" && !name.isEmpty

/-- The named scopes around a context, innermost first, in at most `steps` steps outwards. -/
def scopesAround (r : Resolver) : Nat → Option NodeId → Except Error (List String)
  | _, none => pure []
  | 0, some _ => pure []
  | steps + 1, some id => do
    let n ← r.resolve id
    match n.kind with
    | .scope s =>
      let outer ← r.scopesAround steps s.context?
      pure (if isNamedScope s.name then s.name :: outer else outer)
    | .record _ c => r.scopesAround steps c.context?
    | _ => pure []

/-- The names of the scopes around a context, joined with `::`, if there are any. -/
def scopePath (r : Resolver) (context? : Option NodeId) : Except Error (Option String) := do
  let scopes ← r.scopesAround r.nodes.length context?
  return if scopes.isEmpty then none else some (Text.join "::" scopes.reverse)

end Resolver

end Bindery.Ast
