import Bindery.Description.Basic

/-!
# Merging descriptions

Descriptions are merged from low to high precedence. Attributes, overloads and docstrings by name
are united, the higher entry winning; every other part is taken whole from the highest description
that has it. Last, constructors and destructors of other classes are removed.
-/

namespace Bindery

/-- What the higher layer says, or else the lower. -/
def Docstrings.overlay (low high : Docstrings) : Docstrings where
  module? := high.module? <|> low.module?
  class? := high.class? <|> low.class?
  attrs := low.attrs.overlay high.attrs
  methods := low.methods.overlay high.methods

namespace Description

def overlayDocstrings (low? high? : Option Docstrings) : Option Docstrings :=
  match high? with
  | none => low?
  | some high => some ((low?.getD .empty).overlay high)

/-- One layer over another. -/
def overlay (low high : Description) : Description where
  name? := high.name? <|> low.name?
  parents? := high.parents? <|> low.parents?
  scope? := high.scope? <|> low.scope?
  attrs := low.attrs.overlay high.attrs
  methods := low.methods.overlay high.methods
  docstrings? := overlayDocstrings low.docstrings? high.docstrings?
  extra? := high.extra? <|> low.extra?

end Description

/-- Whether an overload may stay in a class: it has a return type, or the class's name ends its
own. -/
def Methods.belongs (className : String) (key : MethodKey) (returns : Option TypeTerm) : Bool :=
  returns.isSome || className.toList.isSuffixOf key.name.toList

/-- The overloads without the constructors and destructors of other classes. -/
def Methods.sanitize (m : Methods) (className : String) : Methods :=
  m.filter (Methods.belongs className)

/-- The keys that `sanitize` removes, in order. -/
def Methods.foreign (m : Methods) (className : String) : List MethodKey :=
  (m.filter fun key returns => !Methods.belongs className key returns).keys

namespace Description

/-- Puts each further layer on top, the first layer that is not valid ending the work. -/
def overlayAll (low : Description) : List Description → Except Error Description
  | [] => pure low
  | d :: rest => do
    d.validatePartial
    overlayAll (low.overlay d) rest

def sanitize (d : Description) (className : String) : Description :=
  { d with methods := d.methods.sanitize className }

/-- Merges layers, the lowest first. -/
def merge : List Description → Except Error Description
  | [] => throw (.invalidDescription .nothingToMerge)
  | d :: rest => do
    d.validatePartial
    let merged ← overlayAll d rest
    let merged := merged.sanitize (← merged.className)
    merged.validate
    pure merged

/-- A description between the layers below it and those above. -/
def layered (d : Description) (base overrides : List Description) : Except Error Description :=
  merge (base ++ d :: overrides)

end Description

end Bindery
