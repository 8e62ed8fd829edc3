import Mathlib.Data.List.Perm.Subperm
import Mathlib.Logic.Relation
import Bindery.Proofs.Persistence

/-!
# The scopes around a record

The walk through the contexts is cut off after as many steps as there are nodes. If the contexts do
not go round in a circle, it has come to its end by then, because it meets no node twice; so in a
larger document, where it may go on for longer, it finds the same scopes (`scopePath_persists`).
-/

namespace Bindery.Ast
open Relation

namespace Node

/-- The context that the walk goes on to from here. -/
def outer? (n : Node) : Option NodeId :=
  match n.kind with
  | .scope s => s.context?
  | .record _ c => c.context?
  | _ => none

/-- What the walk takes along from here. -/
def scopeName? (n : Node) : Option String :=
  match n.kind with
  | .scope s => if Resolver.isNamedScope s.name then some s.name else none
  | _ => none

theorem outer?_of_record? {n : Node} {c : Record} (h : n.record? = some c) :
    n.outer? = c.context? := by
  unfold record? at h
  split at h
  next hkind =>
    cases h
    simp only [outer?, hkind]
  next => cases h

end Node

/-- Both are among these nodes, and `m` is the context of `n`. -/
def Outward (nodes : List Node) (n m : Node) : Prop :=
  n ∈ nodes ∧ m ∈ nodes ∧ n.outer? = some m.id

/-- The contexts around `n` do not go round in a circle, from wherever on. -/
def Acyclic (nodes : List Node) (n : Node) : Prop :=
  ∀ m, ReflTransGen (Outward nodes) n m → ¬ TransGen (Outward nodes) m m

theorem Acyclic.outward {nodes : List Node} {n m : Node} (h : Acyclic nodes n)
    (hm : Outward nodes n m) : Acyclic nodes m :=
  fun k hk => h k (hk.head hm)

/-- If each context is ranked below what lies in it, there is no circle. -/
theorem Acyclic.of_rank {nodes : List Node} {n : Node} (rank : Node → Nat)
    (h : ∀ n ∈ nodes, ∀ m ∈ nodes, n.outer? = some m.id → rank m < rank n) :
    Acyclic nodes n := by
  have hdown : ∀ {a b : Node}, TransGen (Outward nodes) a b → rank b < rank a := by
    intro a b hab
    induction hab with
    | single hstep => exact h _ hstep.1 _ hstep.2.1 hstep.2.2
    | tail _ hstep ih => exact Nat.lt_trans (h _ hstep.1 _ hstep.2.1 hstep.2.2) ih
  exact fun m _ hm => Nat.lt_irrefl _ (hdown hm)

namespace Resolver
variable {gone : Error → Prop} {r r' : Resolver} {n m : Node} {id : NodeId}

theorem scopesAround_none (r : Resolver) (steps : Nat) : r.scopesAround steps none = pure [] := by
  cases steps <;> rfl

theorem scopesAround_succ (r : Resolver) (steps : Nat) (id : NodeId) :
    r.scopesAround (steps + 1) (some id) = (do
      let n ← r.resolve id
      let outer ← r.scopesAround steps n.outer?
      pure (n.scopeName?.toList ++ outer)) := by
  rw [scopesAround]
  congr 1
  funext n
  unfold Node.outer? Node.scopeName?
  cases n.kind with
  | scope s =>
    cases hnamed : isNamedScope s.name <;> simp only [hnamed] <;> rfl
  | record _ c => exact (bind_pure _).symm
  | _ => rw [scopesAround_none]; rfl

/-- With enough steps for all nodes that are not visited yet, more steps add nothing. Each of the
visited nodes lies inside `n`, and the walk cannot come back to it. -/
theorem scopesAround_add {visited : List Node} {steps : Nat} (hacyclic : Acyclic r.nodes n)
    (hnodup : (n :: visited).Nodup) (hmem : ∀ v ∈ n :: visited, v ∈ r.nodes)
    (hinside : ∀ v ∈ visited, TransGen (Outward r.nodes) v n)
    (hsteps : r.nodes.length ≤ visited.length + steps) (more : Nat) :
    r.scopesAround (steps + more) n.outer? = r.scopesAround steps n.outer? := by
  induction steps generalizing n visited with
  | zero =>
    have hlength := (hnodup.subperm hmem).length_le
    rw [List.length_cons] at hlength
    omega
  | succ steps ih =>
    cases houter : n.outer? with
    | none => rw [scopesAround_none, scopesAround_none]
    | some id =>
      rw [Nat.add_right_comm, scopesAround_succ, scopesAround_succ]
      cases hresolve : r.resolve id with
      | error e => rfl
      | ok m =>
        obtain ⟨hm, rfl⟩ := of_resolve_eq_ok hresolve
        have hstep : Outward r.nodes n m := ⟨hmem n (List.mem_cons_self ..), hm, houter⟩
        have hinside : ∀ v ∈ n :: visited, TransGen (Outward r.nodes) v m :=
          List.forall_mem_cons.2 ⟨.single hstep, fun v hv => (hinside v hv).tail hstep⟩
        have hfresh : m ∉ n :: visited := fun h => hacyclic m (.single hstep) (hinside m h)
        have hrest := ih (hacyclic.outward hstep) (List.nodup_cons.2 ⟨hfresh, hnodup⟩)
          (List.forall_mem_cons.2 ⟨hm, hmem⟩) hinside (by rw [List.length_cons]; omega)
        exact congrArg (· >>= fun outer => pure (m.scopeName?.toList ++ outer)) hrest

/-- The walk from a node has come to its end when it is cut off. -/
theorem scopesAround_of_le {steps : Nat} (hacyclic : Acyclic r.nodes n) (hn : n ∈ r.nodes)
    (hsteps : r.nodes.length ≤ steps) :
    r.scopesAround steps n.outer? = r.scopesAround r.nodes.length n.outer? := by
  obtain ⟨more, rfl⟩ := Nat.exists_eq_add_of_le hsteps
  exact scopesAround_add hacyclic (List.pairwise_singleton ..) (List.forall_mem_singleton.2 hn)
    nofun (by simp) more

theorem scopesAround_persists (h : Within gone r r') (steps : Nat) (context? : Option NodeId) :
    Persists gone (r.scopesAround steps context?) (r'.scopesAround steps context?) := by
  induction steps generalizing context? with
  | zero => cases context? <;> exact .refl _
  | succ steps ih =>
    cases context? with
    | none => exact .refl _
    | some id =>
      rw [scopesAround_succ, scopesAround_succ]
      exact (h id).bind fun n _ => (ih n.outer?).bind_left _

/-- More nodes leave the path of a record as it is. -/
theorem scopePath_persists (h : Within gone r r') (hlength : r.nodes.length ≤ r'.nodes.length)
    (hn : n ∈ r.nodes) (hacyclic : Acyclic r.nodes n) :
    Persists gone (r.scopePath n.outer?) (r'.scopePath n.outer?) := by
  have hscopes := scopesAround_persists h r'.nodes.length n.outer?
  rw [scopesAround_of_le hacyclic hn hlength] at hscopes
  exact hscopes.bind_left _

end Resolver

end Bindery.Ast
