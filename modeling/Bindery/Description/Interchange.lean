import Bindery.Description.Basic
import Bindery.Method.Interchange

/-!
# Descriptions as JSON

Absent parts are left out; `attrs` and `methods` are always written, docstrings by name only when
there are some. Overloads stand in a list of entries in key order, since the key of a JSON object
cannot hold arguments. A list that repeats an overload keeps the last entry.
-/

namespace Bindery
open Json (Fields Load Reading)

def SortedMap.toJson {β : Type} (f : β → Json) (m : SortedMap String compare β) : Json :=
  .object (m.entries.map fun e => (e.1, f e.2))

/-- Loads an object; of a repeated key the last value stays. -/
def SortedMap.load {β : Type} (f : Reading → Load β) (r : Reading) :
    Load (SortedMap String compare β) :=
  SortedMap.ofList <$> r.loadObject f

/-- One field of an object, if there is something to write. -/
def Json.field? {α : Type} (key : String) (f : α → Json) : Option α → List (String × Json)
  | some a => [(key, f a)]
  | none => []

namespace Docstrings

def toJson (d : Docstrings) : Json :=
  .object <| Json.field? "module" .string d.module? ++ Json.field? "class" .string d.class? ++
    (if d.attrs.isEmpty then [] else [("attrs", d.attrs.toJson .string)]) ++
    (if d.methods.isEmpty then [] else [("methods", d.methods.toJson .string)])

def fields : Fields Docstrings where
  names := ["module", "class", "attrs", "methods"]
  required := []
  put
    | "module", r, d => return { d with module? := ← r.loadOptional Reading.loadString }
    | "class", r, d => return { d with class? := ← r.loadOptional Reading.loadString }
    | "attrs", r, d => return { d with attrs := ← SortedMap.load Reading.loadString r }
    | "methods", r, d => return { d with methods := ← SortedMap.load Reading.loadString r }
    | _, _, d => pure d

def load : Reading → Load Docstrings := fields.load empty

end Docstrings

/-- An overload as an entry of the list of methods. -/
structure MethodEntry where
  key : MethodKey
  returns : Option TypeTerm

namespace MethodEntry

def toJson (e : MethodEntry) : Json :=
  .object [("name", .string e.key.name), ("args", .array (e.key.args.map Argument.toJson)),
    ("returns", Json.optional TypeTerm.toJson e.returns)]

def fields : Fields MethodEntry where
  names := ["name", "args", "returns"]
  required := ["name"]
  put
    | "name", r, e => return { e with key := { e.key with name := ← r.loadString } }
    | "args", r, e => return { e with key := { e.key with args := ← r.loadList Argument.load } }
    | "returns", r, e => return { e with returns := ← r.loadOptional TypeTerm.load }
    | _, _, e => pure e

def load : Reading → Load MethodEntry := fields.load ⟨⟨"", []⟩, none⟩

end MethodEntry

namespace Methods

def toJson (m : Methods) : Json :=
  .array (m.entries.map fun e => MethodEntry.toJson ⟨e.1, e.2⟩)

/-- Enters the entries of a list one by one. -/
def load (r : Reading) : Load Methods :=
  (fun entries => SortedMap.ofList (entries.map fun e => (e.key, e.returns))) <$>
    r.loadList MethodEntry.load

end Methods

namespace Description

def toJson (d : Description) : Json :=
  .object <| Json.field? "name" .string d.name? ++
    Json.field? "parents" (fun l => .array (l.map TypeTerm.toJson)) d.parents? ++
    Json.field? "namespace" .string d.scope? ++
    [("attrs", d.attrs.toJson TypeTerm.toJson), ("methods", Methods.toJson d.methods)] ++
    Json.field? "docstrings" Docstrings.toJson d.docstrings? ++
    Json.field? "extra" (fun o => .object o.members) d.extra?

def loadExtra (r : Reading) : Load JsonObject := JsonObject.ofMembers <$> r.loadObject Reading.loadJson

def fields : Fields Description where
  names := ["name", "parents", "namespace", "attrs", "methods", "docstrings", "extra"]
  required := []
  put
    | "name", r, d => return { d with name? := ← r.loadOptional Reading.loadString }
    | "parents", r, d =>
      return { d with parents? := ← r.loadOptional (Reading.loadList TypeTerm.load) }
    | "namespace", r, d => return { d with scope? := ← r.loadOptional Reading.loadString }
    | "attrs", r, d => return { d with attrs := ← SortedMap.load TypeTerm.load r }
    | "methods", r, d => return { d with methods := ← Methods.load r }
    | "docstrings", r, d => return { d with docstrings? := ← r.loadOptional Docstrings.load }
    | "extra", r, d => return { d with extra? := ← r.loadOptional loadExtra }
    | _, _, d => pure d

def load : Reading → Load Description := fields.load empty

end Description

end Bindery
