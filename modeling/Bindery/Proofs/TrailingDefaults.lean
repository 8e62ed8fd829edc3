import Bindery.Proofs.Validity

/-!
# Trailing defaults

The arguments that may be left out of a call are those at the end that have defaults. `mandatory`
finds where they begin (`mandatory_le_iff`), and an overload is without fault if and only if it has a
name and no default outside of that run (`keyFault?_eq_none_iff`).
-/

namespace Bindery

/-- What may be left out stands at the end: after a default there are only defaults. -/
def DefaultsTrail (defaults : List (Option String)) : Prop :=
  defaults.Pairwise fun a b => a.isSome = true → b.isSome = true

namespace MethodKey

/-- The run has begun after `n` arguments if all the rest have defaults. -/
theorem mandatory_le_iff {l : List Argument} {n : Nat} :
    mandatory l ≤ n ↔ ∀ a ∈ l.drop n, a.default?.isSome = true := by
  induction l generalizing n with
  | nil => simp [mandatory]
  | cons a rest ih =>
    have hzero : mandatory rest = 0 ↔ ∀ b ∈ rest, b.default?.isSome = true := by
      rw [← Nat.le_zero, ih, List.drop_zero]
    rw [mandatory]
    cases n with
    | zero =>
      rw [List.drop_zero, List.forall_mem_cons, ← hzero, Nat.le_zero]
      split
      next h => simpa using h
      next h => simpa using h
    | succ n =>
      rw [List.drop_succ_cons, ← ih]
      split
      next h =>
        have hrest : mandatory rest = 0 := by simp_all
        omega
      next => omega

theorem mandatory_eq_zero_iff {l : List Argument} :
    mandatory l = 0 ↔ ∀ a ∈ l, a.default?.isSome = true := by
  rw [← Nat.le_zero, mandatory_le_iff, List.drop_zero]

/-- No default stands before the run if and only if all of them trail. -/
theorem any_take_mandatory {l : List Argument} :
    (l.take (mandatory l)).any (·.default?.isSome) = false ↔
      DefaultsTrail (l.map (·.default?)) := by
  induction l with
  | nil => simp [mandatory, DefaultsTrail]
  | cons a rest ih =>
    rw [DefaultsTrail, List.map_cons, List.pairwise_cons, List.forall_mem_map, ← DefaultsTrail,
      ← ih, mandatory]
    cases ha : a.default?.isSome with
    | false => simp [ha]
    | true =>
      by_cases hrest : mandatory rest = 0
      · simpa [hrest] using mandatory_eq_zero_iff.1 hrest
      · simp [ha, hrest, ← mandatory_eq_zero_iff]

end MethodKey

theorem Description.keyFault?_eq_none_iff {k : MethodKey} :
    keyFault? k = none ↔ k.name ≠ "" ∧ DefaultsTrail (k.args.map (·.default?)) := by
  rw [← MethodKey.any_take_mandatory, keyFault?, MethodKey.firstDefaulted]
  split
  next hempty => simp [String.isEmpty_iff.1 hempty]
  next hempty =>
    have hname : k.name ≠ "" := fun h => hempty (String.isEmpty_iff.2 h)
    rw [and_iff_right hname]
    split
    next hany => simp [hany]
    next hany => simpa using hany

end Bindery
