import Bindery.SortedMap

/-!
# Imports

What a generated file has to import: a module, or a symbol of it, under another name if need be.
-/

namespace Bindery

structure Import where
  source : String
  symbol? : Option String
  alias? : Option String
deriving DecidableEq

namespace Import

def ofModule (source : String) : Import := ⟨source, none, none⟩

def ofSymbol (source symbol : String) : Import := ⟨source, some symbol, none⟩

def aliased (source symbol localName : String) : Import := ⟨source, some symbol, some localName⟩

/-- The name that the import binds where it stands; a whole module binds none. -/
def binds? (i : Import) : Option String := i.alias? <|> i.symbol?

def provides (i : Import) (name : String) : Bool := i.binds? == some name

/-- Module, then symbol, then alias; what is absent comes first. -/
def cmp : Import → Import → Ordering :=
  compareLex (compareOn source) (compareLex (compareOn symbol?) (compareOn alias?))

instance : Std.TransCmp cmp := by
  unfold cmp
  infer_instance

instance : Std.LawfulEqCmp cmp where
  compare_self := Std.ReflCmp.compare_self
  eq_of_compare {a b} h := by
    simp only [cmp, compareLex, Ordering.then_eq_eq, compareOn,
      Std.LawfulEqCmp.compare_eq_iff_eq] at h
    cases a; cases b
    simp_all

end Import

end Bindery
