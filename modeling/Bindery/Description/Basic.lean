import Bindery.Error
import Bindery.Json.Basic
import Bindery.Method.Key

/-!
# Descriptions

What is known of one class, independent of the language it is bound to. Every part is optional, so
that library defaults and hand-written corrections are descriptions too. A part that is present but
empty differs from one that is absent.
-/

namespace Bindery

/-- Texts by the name of what they document. -/
abbrev Notes := SortedMap String compare String

structure Docstrings where
  module? : Option String
  class? : Option String
  attrs : Notes
  methods : Notes

def Docstrings.empty : Docstrings := ⟨none, none, ∅, ∅⟩

abbrev Attrs := SortedMap String compare TypeTerm

/-- The return type of each overload; constructors and destructors have none. -/
abbrev Methods := SortedMap MethodKey MethodKey.cmp (Option TypeTerm)

structure Description where
  name? : Option String
  /-- Immediate bases only. -/
  parents? : Option (List TypeTerm)
  /-- The enclosing namespaces, joined by `::`. -/
  scope? : Option String
  attrs : Attrs
  methods : Methods
  docstrings? : Option Docstrings
  /-- Fragments for a backend, passed through untouched. -/
  extra? : Option JsonObject

namespace Description

def empty : Description := ⟨none, none, none, ∅, ∅, none, none⟩

instance : Inhabited Description := ⟨empty⟩

def named (name : String) : Description := { empty with name? := some name }

/-- Records an overload. One with the same identity gives way together with its default literals. -/
def insertMethod (d : Description) (key : MethodKey) (returns : Option TypeTerm) : Description :=
  { d with methods := d.methods.insert key returns }

def insertAttr (d : Description) (name : String) (type : TypeTerm) : Description :=
  { d with attrs := d.attrs.insert name type }

/-- The class name, which must not be empty. -/
def className (d : Description) : Except Error String :=
  match d.name? with
  | none => throw (.invalidDescription .nameMissing)
  | some name => if name.isEmpty then throw (.invalidDescription .nameEmpty) else pure name

/-- Faults of a single overload: an empty name, or a default outside the trailing run. -/
def keyFault? (k : MethodKey) : Option DescriptionFault :=
  if k.name.isEmpty then some .emptyMethodName
  else if (k.args.take k.firstDefaulted).any (·.default?.isSome) then
    some (.defaultBeforeMandatory k)
  else none

/-- The first fault that even a partial description must not have. -/
def partialFault? (d : Description) : Option DescriptionFault :=
  if d.name? = some "" then some .nameEmpty
  else if d.attrs.keys.any (·.isEmpty) then some .emptyAttrName
  else d.methods.keys.findSome? keyFault?

def validatePartial (d : Description) : Except Error Unit :=
  match d.partialFault? with
  | some fault => throw (.invalidDescription fault)
  | none => pure ()

/-- Partial validity and a name. -/
def validate (d : Description) : Except Error Unit := do
  let _ ← d.className
  d.validatePartial

def extraText? (d : Description) (key : String) : Option String := do
  (← (← d.extra?).get? key).text?

end Description

end Bindery
