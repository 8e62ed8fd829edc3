import Bindery.Description.Basic

/-!
# Expanded signatures

A default argument stands for overloads without it. Expansion spells these out, takes the default
literals away, and of equal overloads keeps the one with the least return type.
-/

namespace Bindery

namespace MethodKey

/-- The overload with only the first `n` arguments, and no defaults. -/
def shortened (k : MethodKey) (n : Nat) : MethodKey :=
  { k with args := (k.args.take n).map Argument.withoutDefault }

/-- The overloads that the trailing defaults stand for, the longest first. -/
def expand (k : MethodKey) : List MethodKey :=
  (List.range (k.args.length - k.firstDefaulted + 1)).map fun i => k.shortened (k.args.length - i)

end MethodKey

/-- No return type comes before every type. -/
def cmpReturns : Option TypeTerm → Option TypeTerm → Ordering
  | none, none => .eq
  | none, some _ => .lt
  | some _, none => .gt
  | some s, some t => TypeTerm.cmp s t

/-- An overload without defaults and its return type. -/
abbrev Signature := MethodKey × Option TypeTerm

namespace Signature

def cmp (a b : Signature) : Ordering := (MethodKey.cmp a.1 b.1).then (cmpReturns a.2 b.2)

/-- Drops every signature whose key is that of the one before it. -/
def dropRepeated : List Signature → List Signature
  | [] => []
  | a :: rest => a :: dropAfter a rest
where
  dropAfter (a : Signature) : List Signature → List Signature
    | [] => []
    | b :: rest => if b.1.same a.1 then dropAfter a rest else b :: dropAfter b rest

end Signature

/-- All overloads spelled out, in key order and each once. -/
def Methods.signatures (m : Methods) : List Signature :=
  let all := m.entries.flatMap fun e => e.1.expand.map fun k => (k, e.2)
  Signature.dropRepeated (all.mergeSort fun a b => (Signature.cmp a b).isLE)

end Bindery
