/-!
# Abstract syntax of a class library

A document is a flat list of nodes that refer to each other by id. Classes and structs are records;
constructors, destructors and methods are functions; pointers, references, arrays and qualified
types are derived from one other type.
-/

namespace Bindery.Ast

abbrev NodeId := String

inductive Access where
  | publicAccess
  | protectedAccess
  | privateAccess
deriving DecidableEq

def Access.name : Access → String
  | .publicAccess => "public"
  | .protectedAccess => "protected"
  | .privateAccess => "private"

structure Scope where
  name : String
  context? : Option NodeId
deriving DecidableEq

structure Record where
  name : String
  context? : Option NodeId
  file? : Option NodeId
  access? : Option Access
  members : List NodeId
  bases : List NodeId
  /-- A forward declaration, which has no members. -/
  incomplete : Bool
deriving DecidableEq

structure Field where
  name : String
  type : NodeId
  context : NodeId
  access? : Option Access
  file? : Option NodeId
deriving DecidableEq

structure Parameter where
  name? : Option String
  type : NodeId
  default? : Option String
deriving DecidableEq

structure Function where
  name : String
  context? : Option NodeId
  access? : Option Access
  returns? : Option NodeId
  parameters : List Parameter
  file? : Option NodeId
deriving DecidableEq

structure Typedef where
  name : String
  type : NodeId
  context? : Option NodeId
  access? : Option Access
deriving DecidableEq

structure Enumeration where
  name : String
  context? : Option NodeId
  access? : Option Access
deriving DecidableEq

inductive RecordTag where
  | ofClass
  | ofStruct
deriving DecidableEq

inductive FunctionRole where
  | constructor
  | destructor
  | method
deriving DecidableEq

inductive DerivedForm where
  | pointer
  | reference
  | array
  | qualified
deriving DecidableEq

inductive NodeKind where
  | scope (s : Scope)
  | file (name : String)
  | record (tag : RecordTag) (r : Record)
  | field (f : Field)
  | function (role : FunctionRole) (f : Function)
  | typedef (t : Typedef)
  | fundamental (name : String)
  | derived (form : DerivedForm) (type : NodeId)
  | enumeration (e : Enumeration)
  /-- A kind that no one here has a use for. -/
  | other
deriving DecidableEq

structure Node where
  id : NodeId
  kind : NodeKind
deriving DecidableEq

/-- The name of the kind. -/
def NodeKind.tag : NodeKind → String
  | .scope _ => "Namespace"
  | .file _ => "File"
  | .record .ofClass _ => "Class"
  | .record .ofStruct _ => "Struct"
  | .field _ => "Field"
  | .function .constructor _ => "Constructor"
  | .function .destructor _ => "Destructor"
  | .function .method _ => "Method"
  | .typedef _ => "Typedef"
  | .fundamental _ => "FundamentalType"
  | .derived .pointer _ => "PointerType"
  | .derived .reference _ => "ReferenceType"
  | .derived .array _ => "ArrayType"
  | .derived .qualified _ => "CvQualifiedType"
  | .enumeration _ => "Enumeration"
  | .other => "Unknown"

namespace Node

def name? (n : Node) : Option String :=
  match n.kind with
  | .scope s => some s.name
  | .file name => some name
  | .record _ r => some r.name
  | .field f => some f.name
  | .function _ f => some f.name
  | .typedef t => some t.name
  | .fundamental name => some name
  | .derived .. => none
  | .enumeration e => some e.name
  | .other => none

def access? (n : Node) : Option Access :=
  match n.kind with
  | .record _ r => r.access?
  | .field f => f.access?
  | .function _ f => f.access?
  | .typedef t => t.access?
  | .enumeration e => e.access?
  | _ => none

def file? (n : Node) : Option NodeId :=
  match n.kind with
  | .record _ r => r.file?
  | .field f => f.file?
  | .function _ f => f.file?
  | _ => none

def record? (n : Node) : Option Record :=
  match n.kind with
  | .record _ r => some r
  | _ => none

/-- Whether the node is the file with this name or id. -/
def isFileNamed (n : Node) (entry : String) : Bool :=
  match n.kind with
  | .file name => name == entry || n.id == entry
  | _ => false

end Node

structure Document where
  nodes : List Node
deriving DecidableEq

def Document.hasFile (d : Document) (entry : String) : Bool := d.nodes.any (·.isFileNamed entry)

end Bindery.Ast
