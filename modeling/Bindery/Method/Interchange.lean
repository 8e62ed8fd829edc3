import Bindery.Method.Key
import Bindery.TypeTerm.Interchange

/-!
# Method keys as JSON

An argument is written with its name, its type and, if it has one, its default literal.
-/

namespace Bindery
open Json (Fields Load Reading)

namespace Argument

def toJson (a : Argument) : Json :=
  .object <| [("name", .string a.name), ("type", a.type.toJson)] ++
    match a.default? with
    | some text => [("default", .string text)]
    | none => []

def fields : Fields Argument where
  names := ["name", "type", "default"]
  required := ["name", "type"]
  put
    | "name", r, a => return { a with name := ← r.loadString }
    | "type", r, a => return { a with type := ← TypeTerm.load r }
    | "default", r, a => return { a with default? := ← r.loadOptional Reading.loadString }
    | _, _, a => pure a

def load : Reading → Load Argument := fields.load ⟨"", default, none⟩

end Argument

namespace MethodKey

def toJson (k : MethodKey) : Json :=
  .object [("name", .string k.name), ("args", .array (k.args.map Argument.toJson))]

def fields : Fields MethodKey where
  names := ["name", "args"]
  required := ["name"]
  put
    | "name", r, k => return { k with name := ← r.loadString }
    | "args", r, k => return { k with args := ← r.loadList Argument.load }
    | _, _, k => pure k

def load : Reading → Load MethodKey := fields.load ⟨"", []⟩

end MethodKey

end Bindery
