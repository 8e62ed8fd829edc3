import Bindery.TypeTerm.Order

/-!
# What a hasher is fed

A value is hashed by feeding a hasher the texts and numbers that it is made of, one after another.
A term starts with the number of its form, and a list with its length, so that what is fed can be
told apart again.
-/

namespace Bindery

inductive HashInput where
  | text (s : String)
  | number (n : Nat)
deriving DecidableEq

namespace HashInput

def code : HashInput → UInt64
  | .text s => mixHash 0 (hash s)
  | .number n => mixHash 1 (hash n)

/-- The hash of all that was fed. -/
def digest (l : List HashInput) : UInt64 := l.foldl (fun h i => mixHash h i.code) 7

end HashInput

namespace TypeTerm

mutual

def feed : TypeTerm → List HashInput
  | .atomic name => [.number 0, .text name]
  | .template name args => .number 1 :: .text name :: .number args.length :: feedAll args
  | .refined refine base => .number 2 :: .number refine.rank :: base.feed

def feedAll : List TypeTerm → List HashInput
  | [] => []
  | t :: rest => t.feed ++ feedAll rest

end

instance : Hashable TypeTerm := ⟨fun t => HashInput.digest t.feed⟩

end TypeTerm

end Bindery
