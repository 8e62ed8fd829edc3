import Bindery.Ast.Classify
import Bindery.Description.Basic

/-!
# Describing a class

A class is described from its record: its bases, the scopes around it, and what each public member
contributes. A member contributes an attribute, an overload, or nothing; an overload with a
parameter that has no name or no expressible type contributes nothing at all.

The record is visited like any node. A record among its own public members is therefore visited once
more, and so on without an end, unless an error turns up: there is no other result
(`Resolver.contributions`).
-/

namespace Bindery.Ast

/-- What one node adds to a description. -/
inductive Contribution where
  | outline (parents : List TypeTerm) (scope? : Option String)
  | attr (name : String) (type : TypeTerm)
  | method (key : MethodKey) (returns : Option TypeTerm)

def Contribution.addTo (d : Description) : Contribution → Description
  | .outline parents scope? => { d with parents? := some parents, scope? := scope? }
  | .attr name type => d.insertAttr name type
  | .method key returns => d.insertMethod key returns

/-- The results for the items of a list, in order, where there are any. -/
def gather {ε α β : Type} (f : α → Except ε (Option β)) : List α → Except ε (List β)
  | [] => pure []
  | a :: rest => do
    let b? ← f a
    let bs ← gather f rest
    pure (b?.toList ++ bs)

/-- A destructor's name starts with a tilde. -/
def destructorName (name : String) : String :=
  if name.toList.head? == some '~' then name else "~" ++ name

namespace Resolver

/-- The argument that a parameter stands for. The type of an unnamed one is never looked at. -/
def argument (r : Resolver) (p : Parameter) (depth : Nat) : Except Error (Option Argument) :=
  match p.name? with
  | none => pure none
  | some name =>
    if name.isEmpty then pure none
    else do
      match ← r.classify p.type depth with
      | none => pure none
      | some type => pure (some ⟨name, type, p.default?⟩)

/-- The arguments of a signature; none at all as soon as one cannot be recorded. -/
def arguments (r : Resolver) (depth : Nat) : List Parameter → Except Error (Option (List Argument))
  | [] => pure (some [])
  | p :: rest => do
    match ← r.argument p depth with
    | none => pure none
    | some a => return (← r.arguments depth rest).map (a :: ·)

/-- The return type of a method, `void` when none is given. -/
def returnType (r : Resolver) (f : Function) (depth : Nat) : Except Error (Option TypeTerm) :=
  match f.returns? with
  | none => pure (some .void)
  | some id => r.classify id depth

/-- An overload, unless its name makes it private or its arguments cannot be recorded. -/
def overload (r : Resolver) (f : Function) (depth : Nat) (name : String)
    (returns : Except Error (Option (Option TypeTerm))) : Except Error (Option Contribution) :=
  if MethodKey.isPrivateName f.name then pure none
  else do
    match ← r.arguments (depth + 1) f.parameters with
    | none => pure none
    | some args => return (← returns).map fun t? => .method ⟨name, args⟩ t?

/-- A field contributes an attribute if the target itself declares it. -/
def fieldAttr (r : Resolver) (target : NodeId) (f : Field) (depth : Nat) :
    Except Error (Option Contribution) :=
  if f.context = target then do
    return (← r.classify f.type depth).map (.attr f.name)
  else pure none

/-- A function contributes an overload, for which only methods have a return type. -/
def signature (r : Resolver) (role : FunctionRole) (f : Function) (depth : Nat) :
    Except Error (Option Contribution) :=
  match role with
  | .constructor => r.overload f depth f.name (pure (some none))
  | .destructor => r.overload f depth (destructorName f.name) (pure (some none))
  | .method => r.overload f depth f.name do return (← r.returnType f depth).map some

/-- The bases of a record and the scopes around it. An instantiation has to classify besides. -/
def outline (r : Resolver) (id : NodeId) (c : Record) (depth : Nat) :
    Except Error Contribution := do
  let parents ← gather (r.classify · (depth + 1)) c.bases
  let scope? ← r.scopePath c.context?
  if Catalog.isInstantiation c.name then
    let _ ← r.classify id depth
  pure (.outline parents scope?)

/-- The answer of a node that adds at most one thing. -/
def alone (x : Except Error (Option Contribution)) : Except Halt (Option (List Contribution)) :=
  (·.map ([·])) <$> x.mapError .failed

/-- What nodes contribute to the record under `target`. Of records only this one contributes, as
`describe` has it; others add nothing. -/
def describer (r : Resolver) (target : NodeId)
    (describe : Record → Nat → Except Halt (List Contribution)) :
    Visitor Halt Nat (List Contribution) where
  classDef id c depth := if id = target then some <$> describe c depth else pure none
  field _ f depth := alone (r.fieldAttr target f depth)
  constructor _ f depth := alone (r.signature .constructor f depth)
  destructor _ f depth := alone (r.signature .destructor f depth)
  method _ f depth := alone (r.signature .method f depth)

/-- What a record and its public members contribute, with room for so many records inside of each
other. -/
def contributions (r : Resolver) (target : NodeId) :
    (room : Nat) → Record → (depth : Nat) → Except Halt (List Contribution)
  | 0, _, _ => throw .overflow
  | room + 1, c, depth => do
    let outline ← (r.outline target c depth).mapError .failed
    let members ← (r.publicMembers c).mapError .failed
    let visitor := r.describer target (r.contributions target room)
    let added ← gather (visitor.visit · (depth + 1)) members
    pure (outline :: added.flatten)

/-- Room for records inside of each other. More of it would not change anything. -/
def maxNesting : Nat := 100

/-- The only complete record of this name within the allowed files. -/
def locate (r : Resolver) (name : String) : Except Error (NodeId × Record) :=
  match r.recordsNamed name with
  | [] => throw (.classNotFound name)
  | found =>
    match found.filter fun c => r.allows c.2.file? with
    | [c] => pure c
    | l => throw (.ambiguousOrigin name l.length)

end Resolver

/-- Describes a class, looking only at records from the given files, by name or id; no files stand
for any. -/
def describe (d : Document) (name : String) (onlyIn : List String) : Except Halt Description := do
  let r ← ((Resolver.ofDocument d).restrict onlyIn).mapError .failed
  let (id, _) ← (r.locate name).mapError .failed
  let n ← (r.resolve id).mapError .failed
  let visitor := r.describer id (r.contributions id Resolver.maxNesting)
  let added? ← visitor.visit n 0
  pure ((added?.getD []).foldl Contribution.addTo (.named name))

end Bindery.Ast
