import Bindery.Ast.Basic
import Bindery.Json.Load

/-!
# Documents as JSON

A node is an object with an `id`, a `kind` and the fields of that kind. The `id` is looked at where
it stands; the kind and its fields are settled once the whole node has been read, so what is wrong
with them is reported at the node. A kind may be given by its number.
-/

namespace Bindery.Ast
open Json (Fields Load LoadError Reading Step)

def Access.ofName? : String → Option Access
  | "public" => some .publicAccess
  | "protected" => some .protectedAccess
  | "private" => some .privateAccess
  | _ => none

def Access.named (name : String) : Load Access :=
  match ofName? name with
  | some a => pure a
  | none => throw (.wrong (.unknownVariant name))

/-- A name, or an object with the name for its only key, over nothing. -/
def Access.load : Reading → Load Access
  | .string name => named name
  | .object [(some name, v)] _ => do
    let a ← named name
    match v with
    | .null => pure a
    | .object [] _ => pure a
    | _ => throw (.wrong .wrongType)
  | _ => throw (.wrong .wrongType)

def loadIds : Reading → Load (List NodeId) := Reading.loadList Reading.loadString

def loadId? : Reading → Load (Option NodeId) := Reading.loadOptional Reading.loadString

def Scope.fields : Fields Scope where
  names := ["name", "context"]
  required := ["name"]
  put
    | "name", r, s => return { s with name := ← r.loadString }
    | "context", r, s => return { s with context? := ← loadId? r }
    | _, _, s => pure s

def Record.fields : Fields Record where
  names := ["name", "context", "file", "access", "members", "bases", "incomplete"]
  required := ["name"]
  put
    | "name", r, c => return { c with name := ← r.loadString }
    | "context", r, c => return { c with context? := ← loadId? r }
    | "file", r, c => return { c with file? := ← loadId? r }
    | "access", r, c => return { c with access? := ← r.loadOptional Access.load }
    | "members", r, c => return { c with members := ← loadIds r }
    | "bases", r, c => return { c with bases := ← loadIds r }
    | "incomplete", r, c => return { c with incomplete := ← r.loadBool }
    | _, _, c => pure c

def Field.fields : Fields Field where
  names := ["name", "type", "context", "access", "file"]
  required := ["name", "type", "context"]
  put
    | "name", r, f => return { f with name := ← r.loadString }
    | "type", r, f => return { f with type := ← r.loadString }
    | "context", r, f => return { f with context := ← r.loadString }
    | "access", r, f => return { f with access? := ← r.loadOptional Access.load }
    | "file", r, f => return { f with file? := ← loadId? r }
    | _, _, f => pure f

def Parameter.fields : Fields Parameter where
  names := ["name", "type", "default"]
  required := ["type"]
  put
    | "name", r, p => return { p with name? := ← loadId? r }
    | "type", r, p => return { p with type := ← r.loadString }
    | "default", r, p => return { p with default? := ← loadId? r }
    | _, _, p => pure p

def Function.fields : Fields Function where
  names := ["name", "context", "access", "returns", "arguments", "file"]
  required := ["name"]
  put
    | "name", r, f => return { f with name := ← r.loadString }
    | "context", r, f => return { f with context? := ← loadId? r }
    | "access", r, f => return { f with access? := ← r.loadOptional Access.load }
    | "returns", r, f => return { f with returns? := ← loadId? r }
    | "arguments", r, f =>
      return { f with parameters := ← r.loadList (Parameter.fields.load ⟨none, "", none⟩) }
    | "file", r, f => return { f with file? := ← loadId? r }
    | _, _, f => pure f

def Typedef.fields : Fields Typedef where
  names := ["name", "type", "context", "access"]
  required := ["name", "type"]
  put
    | "name", r, t => return { t with name := ← r.loadString }
    | "type", r, t => return { t with type := ← r.loadString }
    | "context", r, t => return { t with context? := ← loadId? r }
    | "access", r, t => return { t with access? := ← r.loadOptional Access.load }
    | _, _, t => pure t

def Enumeration.fields : Fields Enumeration where
  names := ["name", "context", "access"]
  required := ["name"]
  put
    | "name", r, e => return { e with name := ← r.loadString }
    | "context", r, e => return { e with context? := ← loadId? r }
    | "access", r, e => return { e with access? := ← r.loadOptional Access.load }
    | _, _, e => pure e

/-- The only field of kinds that are given by one text. -/
def soleField (name : String) : Fields String where
  names := [name]
  required := [name]
  put _ r _ := r.loadString

/-- The known kinds; a number stands for the kind at that place. -/
def kindNames : List String :=
  ["Namespace", "File", "Class", "Struct", "Field", "Constructor", "Destructor", "Method",
    "Typedef", "FundamentalType", "PointerType", "ReferenceType", "ArrayType", "CvQualifiedType",
    "Enumeration"]

def loadKindName : Json → Load String
  | .string name => pure name
  | .number (.integer i) =>
    if 0 ≤ i then pure (kindNames[i.toNat]?.getD "") else throw (.wrong .wrongType)
  | _ => throw (.wrong .wrongType)

namespace NodeKind

def loadNamed (kind : String) (r : Reading) : Load NodeKind :=
  let function (role : FunctionRole) :=
    .function role <$> Function.fields.load ⟨"", none, none, none, [], none⟩ r
  let record (tag : RecordTag) :=
    .record tag <$> Record.fields.load ⟨"", none, none, none, [], [], false⟩ r
  let derived (form : DerivedForm) := .derived form <$> (soleField "type").load "" r
  match kind with
  | "Namespace" => .scope <$> Scope.fields.load ⟨"", none⟩ r
  | "File" => .file <$> (soleField "name").load "" r
  | "Class" => record .ofClass
  | "Struct" => record .ofStruct
  | "Field" => .field <$> Field.fields.load ⟨"", "", "", none, none⟩ r
  | "Constructor" => function .constructor
  | "Destructor" => function .destructor
  | "Method" => function .method
  | "Typedef" => .typedef <$> Typedef.fields.load ⟨"", "", none, none⟩ r
  | "FundamentalType" => .fundamental <$> (soleField "name").load "" r
  | "PointerType" => derived .pointer
  | "ReferenceType" => derived .reference
  | "ArrayType" => derived .array
  | "CvQualifiedType" => derived .qualified
  | "Enumeration" => .enumeration <$> Enumeration.fields.load ⟨"", none, none⟩ r
  | _ => pure .other

/-- An error inside a node, seen from the node. Values at hand have no faults of their text, so
only an array with too many items is left to be refused as one. -/
def atNode : LoadError → LoadError
  | .malformed => .wrong .wrongLength
  | .mismatch _ what => .wrong what

/-- The kind that the members of a node give, the `id` apart. -/
def ofMembers (members : List (String × Json)) : Load NodeKind :=
  match members.filter (·.1 == "kind") with
  | [] => throw (.wrong (.missingField "kind"))
  | (_, v) :: rest => do
    let name ← loadKindName v
    if rest.isEmpty then
      let others := members.filter (·.1 != "kind")
      (loadNamed name (.ofJson (.object others))).mapError atNode
    else throw (.wrong (.duplicateField "kind"))

end NodeKind

namespace Node

/-- The `id`, if one has been met, and the other members. -/
def loadMembers (id? : Option NodeId) : List (Option String × Reading) →
    Load (Option NodeId × List (String × Json))
  | [] => pure (id?, [])
  | (none, _) :: _ => throw .malformed
  | (some key, r) :: rest =>
    if key = "id" then
      if id?.isSome then throw (.wrong (.duplicateField "id"))
      else do
        let id ← Load.under (.key "id") r.loadString
        loadMembers (some id) rest
    else do
      let v ← r.loadJson
      let (id?, others) ← loadMembers id? rest
      pure (id?, (key, v) :: others)

def load : Reading → Load Node
  | .object members closed => do
    let (id?, others) ← loadMembers none members
    Reading.checkClosed closed ()
    match id? with
    | none => throw (.wrong (.missingField "id"))
    | some id => return ⟨id, ← NodeKind.ofMembers others⟩
  | r => r.refuse

end Node

namespace Document

def fields : Fields Document where
  names := ["nodes"]
  required := []
  put
    | "nodes", r, d => return { d with nodes := ← r.loadList Node.load }
    | _, _, d => pure d

def load : Reading → Load Document := fields.load ⟨[]⟩

end Document

end Bindery.Ast
