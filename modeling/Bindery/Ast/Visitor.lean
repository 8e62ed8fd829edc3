import Bindery.Ast.Basic
import Bindery.Error

/-!
# Visitors

A visitor answers for each kind of node. It says only what it has to say: a kind without an answer
of its own contributes nothing, but structs are answered like classes.
-/

namespace Bindery.Ast

/-- Answers by kind, each given the node's id and the context that the caller hands down. -/
structure Visitor (ε κ α : Type) where
  scope : NodeId → Scope → κ → Except ε (Option α) := fun _ _ _ => pure none
  file : NodeId → String → κ → Except ε (Option α) := fun _ _ _ => pure none
  classDef : NodeId → Record → κ → Except ε (Option α) := fun _ _ _ => pure none
  structDef : NodeId → Record → κ → Except ε (Option α) := classDef
  field : NodeId → Field → κ → Except ε (Option α) := fun _ _ _ => pure none
  constructor : NodeId → Function → κ → Except ε (Option α) := fun _ _ _ => pure none
  destructor : NodeId → Function → κ → Except ε (Option α) := fun _ _ _ => pure none
  method : NodeId → Function → κ → Except ε (Option α) := fun _ _ _ => pure none
  typedef : NodeId → Typedef → κ → Except ε (Option α) := fun _ _ _ => pure none
  fundamental : NodeId → String → κ → Except ε (Option α) := fun _ _ _ => pure none
  derived : DerivedForm → NodeId → NodeId → κ → Except ε (Option α) := fun _ _ _ _ => pure none
  enumeration : NodeId → Enumeration → κ → Except ε (Option α) := fun _ _ _ => pure none

/-- The visitor's answer for a node. -/
def Visitor.visit {ε κ α : Type} (v : Visitor ε κ α) (n : Node) (cx : κ) : Except ε (Option α) :=
  match n.kind with
  | .scope s => v.scope n.id s cx
  | .file name => v.file n.id name cx
  | .record .ofClass c => v.classDef n.id c cx
  | .record .ofStruct c => v.structDef n.id c cx
  | .field f => v.field n.id f cx
  | .function .constructor f => v.constructor n.id f cx
  | .function .destructor f => v.destructor n.id f cx
  | .function .method f => v.method n.id f cx
  | .typedef t => v.typedef n.id t cx
  | .fundamental name => v.fundamental n.id name cx
  | .derived form type => v.derived form n.id type cx
  | .enumeration e => v.enumeration n.id e cx
  | .other => pure none

end Bindery.Ast
