import Bindery.Ast.Resolver
import Bindery.Ast.Visitor
import Bindery.TypeTerm.Basic
import Bindery.TypeTerm.Catalog

/-!
# Classifying types

The term that a type node stands for. Function types and unknown kinds stand for none, and so does
a node from which the references go on for too long, as they do on a cycle.
-/

namespace Bindery.Ast

/-- What a derived type is to the type it is derived from: arrays decay to pointers, and qualifiers
are not kept. -/
def DerivedForm.apply : DerivedForm → TypeTerm → TypeTerm
  | .pointer, t => t.pointer
  | .array, t => t.pointer
  | .reference, t => t.reference
  | .qualified, t => t

namespace Resolver

def isConstructorNamed (name : String) (n : Node) : Bool :=
  match n.kind with
  | .function .constructor f => f.name == name
  | _ => false

/-- The argument that the member with the role's name stands for. -/
def roleArgument (className : String) (classify : NodeId → Except Error (Option TypeTerm))
    (members : List Node) (role : Catalog.Role) : Except Error TypeTerm := do
  let fail (fault : InstantiationFault) := throw (.malformedInstantiation className fault)
  match members.find? (·.name? == some role.memberName) with
  | none => fail (.missingMember role.memberName)
  | some n =>
    match ← classify n.id with
    | none => fail (.notAType role.memberName)
    | some t => pure t

def roleArguments (className : String) (classify : NodeId → Except Error (Option TypeTerm))
    (members : List Node) : List Catalog.Role → Except Error (List TypeTerm)
  | [] => pure []
  | role :: rest => do
    let t ← roleArgument className classify members role
    let ts ← roleArguments className classify members rest
    pure (t :: ts)

/-- The term of a record that is spelled like an instantiation. Its constructor shows which
template it is of; a template that is not in the catalogue keeps its spelling. -/
def instantiation (r : Resolver) (c : Record)
    (classify : NodeId → Except Error (Option TypeTerm)) : Except Error TypeTerm := do
  let members ← r.members c
  let template := Catalog.templateName c.name
  if !members.any (isConstructorNamed template) then
    throw (.malformedInstantiation c.name (.noConstructor template))
  else if template = Catalog.stringTemplate then pure .str
  else
    match Catalog.roles? template with
    | none => pure (.atomic c.name)
    | some roles => return .template template (← roleArguments c.name classify members roles)

/-- The terms of nodes, where `next` has those of the nodes they refer to. -/
def classifier (r : Resolver) (next : NodeId → Except Error (Option TypeTerm)) :
    Visitor Error Unit TypeTerm where
  fundamental _ name _ :=
    match Catalog.primitive? name with
    | some t => pure (some (.atomic t))
    | none => throw (.unknownPrimitive name)
  derived form _ type _ := return (← next type).map form.apply
  typedef _ t _ := if t.name = "string" then pure (some .str) else next t.type
  classDef _ c _ :=
    if Catalog.isInstantiation c.name then return some (← r.instantiation c next)
    else pure (some (.atomic c.name))
  enumeration _ e _ := pure (some (.atomic e.name))

/-- The term of a node, on a chain of at most `room` nodes. -/
def classifyWithin (r : Resolver) : (room : Nat) → NodeId → Except Error (Option TypeTerm)
  | 0, _ => pure none
  | room + 1, id => do (r.classifier (r.classifyWithin room)).visit (← r.resolve id) ()

/-- By kinds: classes and structs are alike, and what stands for no type has no term. -/
theorem classifyWithin_succ (r : Resolver) (room : Nat) (id : NodeId) :
    r.classifyWithin (room + 1) id = (do
      let n ← r.resolve id
      match n.kind with
      | .fundamental name =>
        match Catalog.primitive? name with
        | some t => pure (some (.atomic t))
        | none => throw (.unknownPrimitive name)
      | .derived form type => return (← r.classifyWithin room type).map form.apply
      | .typedef t => if t.name = "string" then pure (some .str) else r.classifyWithin room t.type
      | .record _ c =>
        if Catalog.isInstantiation c.name then
          return some (← r.instantiation c (r.classifyWithin room))
        else pure (some (.atomic c.name))
      | .enumeration e => pure (some (.atomic e.name))
      | _ => pure none) := by
  refine congrArg (r.resolve id >>= ·) (funext fun n => ?_)
  unfold Visitor.visit
  cases n.kind with
  | record tag c => cases tag <;> rfl
  | function role f => cases role <;> rfl
  | _ => rfl

/-- The longest chain of nodes that is followed from the outermost type. -/
def maxChain : Nat := 65

/-- The term of a node that is met after `depth` others. -/
def classify (r : Resolver) (id : NodeId) (depth : Nat) : Except Error (Option TypeTerm) :=
  r.classifyWithin (maxChain - depth) id

end Resolver

end Bindery.Ast
