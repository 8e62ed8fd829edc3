import Bindery.Text.Pieces

/-!
# Type terms

A type is a name, a template with arguments, or a pointer or reference to a type. Terms are plain
values: two spellings of one type are one term.
-/

namespace Bindery

inductive Refinement where
  | pointer
  | reference
deriving DecidableEq

inductive TypeTerm where
  | atomic (name : String)
  | template (name : String) (args : List TypeTerm)
  | refined (refine : Refinement) (base : TypeTerm)

namespace TypeTerm

instance : Inhabited TypeTerm := ⟨.atomic ""⟩

/-- The name of the string type. -/
def str : TypeTerm := .atomic "str"

def void : TypeTerm := .atomic "void"

abbrev pointer (base : TypeTerm) : TypeTerm := .refined .pointer base

abbrev reference (base : TypeTerm) : TypeTerm := .refined .reference base

def isVoid : TypeTerm → Bool
  | .atomic name => name == "void"
  | _ => false

def isPointer : TypeTerm → Bool
  | .refined .pointer _ => true
  | _ => false

/-- The innermost term once every refinement is taken off. -/
def stripRefinements : TypeTerm → TypeTerm
  | .refined _ base => base.stripRefinements
  | t => t

end TypeTerm

def Refinement.mark : Refinement → String
  | .pointer => "*"
  | .reference => "&"

namespace TypeTerm

mutual

/-- The spelling of a term in messages: `map<int32, float64> &`. -/
def display : TypeTerm → String
  | .atomic name => name
  | .template name args => name ++ "<" ++ Text.join ", " (displayAll args) ++ ">"
  | .refined refine base => base.display ++ " " ++ refine.mark

def displayAll : List TypeTerm → List String
  | [] => []
  | t :: rest => t.display :: displayAll rest

end

mutual

/-- The term itself and the terms that it is made of, at any depth. -/
def parts : TypeTerm → List TypeTerm
  | .atomic name => [.atomic name]
  | .template name args => .template name args :: partsAll args
  | .refined refine base => .refined refine base :: base.parts

def partsAll : List TypeTerm → List TypeTerm
  | [] => []
  | t :: rest => t.parts ++ partsAll rest

end

@[simp]
theorem displayAll_eq (l : List TypeTerm) : displayAll l = l.map display := by
  induction l with
  | nil => rfl
  | cons t rest ih => rw [displayAll, ih]; rfl

@[simp]
theorem partsAll_eq (l : List TypeTerm) : partsAll l = l.flatMap parts := by
  induction l with
  | nil => rfl
  | cons t rest ih => rw [partsAll, ih, List.flatMap_cons]

section
variable {p : TypeTerm} {name : String} {args : List TypeTerm} {refine : Refinement}
  {base : TypeTerm}

@[simp]
theorem mem_parts_atomic : p ∈ (atomic name).parts ↔ p = .atomic name := by
  rw [parts, List.mem_singleton]

@[simp]
theorem mem_parts_template :
    p ∈ (template name args).parts ↔ p = .template name args ∨ ∃ t ∈ args, p ∈ t.parts := by
  rw [parts, partsAll_eq, List.mem_cons, List.mem_flatMap]

@[simp]
theorem mem_parts_refined :
    p ∈ (refined refine base).parts ↔ p = .refined refine base ∨ p ∈ base.parts := by
  rw [parts, List.mem_cons]

end

theorem self_mem_parts (t : TypeTerm) : t ∈ t.parts := by
  cases t <;> simp

/-- What holds of a template when it holds of every argument holds of every term. -/
@[elab_as_elim]
theorem induction {motive : TypeTerm → Prop} (atomic : ∀ name, motive (.atomic name))
    (template : ∀ name args, (∀ t ∈ args, motive t) → motive (.template name args))
    (refined : ∀ refine base, motive base → motive (.refined refine base)) :
    ∀ t, motive t
  | .atomic name => atomic name
  | .template name args => template name args fun t _ => induction atomic template refined t
  | .refined refine base => refined refine base (induction atomic template refined base)

end TypeTerm

end Bindery
