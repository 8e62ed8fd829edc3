import Bindery.Json.Load
import Bindery.TypeTerm.Order

/-!
# Type terms as JSON

A name is a string, a template is an object with its name under `template` and its arguments under
`args`, and a refinement is an object with its kind under `refine` and its base under `base`.
`ofJson?_toJson` says that nothing is lost. A field that is written twice fits no shape.
-/

namespace Bindery

namespace Refinement

def name : Refinement → String
  | .pointer => "pointer"
  | .reference => "reference"

def ofName? : String → Option Refinement
  | "pointer" => some .pointer
  | "reference" => some .reference
  | _ => none

/-- A kind is written as its name, or as an object with the name for its only key, over `null`. -/
def ofJson? : Json → Option Refinement
  | .string s => ofName? s
  | .object [(s, .null)] => ofName? s
  | _ => none

end Refinement

namespace TypeTerm

mutual

def toJson : TypeTerm → Json
  | .atomic name => .string name
  | .template name args => .object [("template", .string name), ("args", .array (toJsonAll args))]
  | .refined refine base => .object [("refine", .string refine.name), ("base", toJson base)]

def toJsonAll : List TypeTerm → List Json
  | [] => []
  | t :: rest => toJson t :: toJsonAll rest

end

/-- What an object gives for the fields of the two shapes, each time it gives it. -/
structure Given where
  names : List (Option String)
  args : List (Option (List TypeTerm))
  kinds : List (Option Refinement)
  bases : List (Option TypeTerm)

def Given.template? (g : Given) : Option TypeTerm :=
  match g.names, g.args with
  | [some name], [some args] => some (.template name args)
  | _, _ => none

def Given.refined? (g : Given) : Option TypeTerm :=
  match g.kinds, g.bases with
  | [some kind], [some base] => some (.refined kind base)
  | _, _ => none

mutual

/-- The term that a value is the writing of, the template shape being tried first. -/
def ofJson? : Json → Option TypeTerm
  | .string name => some (.atomic name)
  | .object members => (given members).template? <|> (given members).refined?
  | _ => none

def ofItems? : List Json → Option (List TypeTerm)
  | [] => some []
  | v :: rest =>
    match ofJson? v, ofItems? rest with
    | some t, some ts => some (t :: ts)
    | _, _ => none

def ofList? : Json → Option (List TypeTerm)
  | .array items => ofItems? items
  | _ => none

def given : List (String × Json) → Given
  | [] => ⟨[], [], [], []⟩
  | (key, v) :: rest =>
    let g := given rest
    match key with
    | "template" => { g with names := v.text? :: g.names }
    | "args" => { g with args := ofList? v :: g.args }
    | "refine" => { g with kinds := Refinement.ofJson? v :: g.kinds }
    | "base" => { g with bases := ofJson? v :: g.bases }
    | _ => g

end

mutual

/-- Reading a written term gives it back. -/
theorem ofJson?_toJson (t : TypeTerm) : ofJson? t.toJson = some t := by
  cases t with
  | atomic name => rfl
  | template name args =>
    simp [toJson, ofJson?, given, Json.text?, ofList?, ofItems?_toJsonAll args, Given.template?]
  | refined kind base =>
    have hk : Refinement.ofJson? (.string kind.name) = some kind := by cases kind <;> rfl
    simp [toJson, ofJson?, given, hk, ofJson?_toJson base, Given.template?, Given.refined?]

theorem ofItems?_toJsonAll (l : List TypeTerm) : ofItems? (toJsonAll l) = some l := by
  cases l with
  | nil => rfl
  | cons t rest => simp [toJsonAll, ofItems?, ofJson?_toJson t, ofItems?_toJsonAll rest]

end

def load (r : Json.Reading) : Json.Load TypeTerm := do
  match ofJson? (← r.loadJson) with
  | some t => pure t
  | none => throw (.wrong .noTypeTerm)

end TypeTerm

end Bindery
