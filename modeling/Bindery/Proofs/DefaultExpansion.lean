import Mathlib.Data.List.DropRight
import Bindery.Proofs.ExpandedSignatures

/-!
# Leaving out defaults

The arguments of an overload are the required ones and, at the end, the optional ones: the longest
run of arguments with defaults. An overload stands for one call without defaults for each number of
optional arguments, and it is accepted in a description if no required argument has a default
(`expand_exhaustive`).
-/

namespace Bindery

namespace MethodKey
variable {k k' : MethodKey}

/-- The longest run of arguments with defaults at the end. -/
def optional (k : MethodKey) : List Argument := k.args.rtakeWhile (·.default?.isSome)

/-- The arguments before that run. -/
def required (k : MethodKey) : List Argument := k.args.rdropWhile (·.default?.isSome)

theorem required_append_optional (k : MethodKey) : k.required ++ k.optional = k.args :=
  List.rdropWhile_append_rtakeWhile

theorem length_required_add_optional (k : MethodKey) :
    k.required.length + k.optional.length = k.args.length := by
  rw [← List.length_append, required_append_optional]

/-- The search finds where the longest run begins. -/
theorem firstDefaulted_eq (k : MethodKey) : k.firstDefaulted = k.required.length := by
  refine Nat.le_antisymm (mandatory_le_iff.2 fun a ha => ?_) (Nat.le_of_not_lt fun hlt => ?_)
  · rw [← k.required_append_optional, List.drop_left] at ha
    exact List.mem_rtakeWhile_imp (p := fun a : Argument => a.default?.isSome) ha
  · -- the last required argument would have a default
    have hne : k.required ≠ [] := List.ne_nil_of_length_pos (by omega)
    have hdrop : k.required.drop k.firstDefaulted ≠ [] := by simpa using hlt
    have hlast : k.required.getLast hne ∈ k.args.drop k.firstDefaulted := by
      rw [← List.getLast_drop hdrop, ← k.required_append_optional,
        List.drop_append_of_le_length (Nat.le_of_lt hlt)]
      exact List.mem_append_left _ (List.getLast_mem hdrop)
    exact List.rdropWhile_last_not _ _ hne (mandatory_le_iff.1 (Nat.le_refl _) _ hlast)

theorem take_firstDefaulted (k : MethodKey) : k.args.take k.firstDefaulted = k.required := by
  rw [firstDefaulted_eq, ← k.required_append_optional, List.take_left]

/-! ### Shortened overloads -/

theorem isBare_shortened (k : MethodKey) (n : Nat) : (k.shortened n).IsBare := by
  intro a ha
  obtain ⟨b, -, rfl⟩ := List.mem_map.1 ha
  rfl

theorem length_args_shortened (k : MethodKey) (n : Nat) :
    (k.shortened n).args.length = min n k.args.length := by
  rw [shortened, List.length_map, List.length_take]

theorem expand_eq (k : MethodKey) :
    k.expand = (List.range (k.optional.length + 1)).map fun i =>
      k.shortened (k.args.length - i) := by
  rw [expand, firstDefaulted_eq, ← length_required_add_optional, Nat.add_sub_cancel_left]

theorem length_expand (k : MethodKey) : k.expand.length = k.optional.length + 1 := by
  rw [expand_eq, List.length_map, List.length_range]

theorem getElem?_expand {i : Nat} (h : i ≤ k.optional.length) :
    k.expand[i]? = some (k.shortened (k.args.length - i)) := by
  rw [expand_eq, List.getElem?_map, List.getElem?_range (Nat.lt_succ_of_le h)]
  rfl

/-- Without defaults there is nothing to leave out. -/
theorem expand_of_bare (h : k.IsBare) : k.expand = [k] := by
  have hoptional : k.optional = [] := by
    refine List.rtakeWhile_eq_nil_iff.2 fun hne => ?_
    rw [h _ (List.getLast_mem hne)]
    exact Bool.false_ne_true
  rw [expand_eq, hoptional]
  show [k.shortened (k.args.length - 0)] = [k]
  rw [shortened, Nat.sub_zero, List.take_length, h.map_withoutDefault]

theorem same_eq_false_of_length_ne (h : k.args.length ≠ k'.args.length) : k.same k' = false := by
  refine Bool.eq_false_iff.2 fun hsame => h ?_
  have hidentity := congrArg (·.2.length) (cmp_eq_iff.1 (beq_iff_eq.1 hsame))
  simpa [identity] using hidentity

theorem pairwise_expand (k : MethodKey) : k.expand.Pairwise fun a b => a.same b = false := by
  have hlength := k.length_required_add_optional
  rw [expand_eq, List.pairwise_map]
  refine List.pairwise_lt_range.imp_of_mem fun {i j} hi hj hij => same_eq_false_of_length_ne ?_
  rw [List.mem_range] at hi hj
  rw [length_args_shortened, length_args_shortened]
  omega

end MethodKey

namespace Description
variable {d : Description} {k : MethodKey}

theorem keyFault?_eq_none_iff_required :
    keyFault? k = none ↔ k.name ≠ "" ∧ ∀ a ∈ k.required, a.default? = none := by
  rw [keyFault?_eq_none_iff, ← MethodKey.any_take_mandatory, ← MethodKey.firstDefaulted,
    MethodKey.take_firstDefaulted]
  simp

/-- A new overload is the only thing that can be at fault. -/
theorem validatePartial_insertMethod_iff (h : d.validatePartial = .ok ())
    (returns : Option TypeTerm) :
    (d.insertMethod k returns).validatePartial = .ok () ↔ keyFault? k = none := by
  rw [validatePartial_eq_ok_iff] at h ⊢
  constructor
  · intro hinserted
    have hfound : (d.insertMethod k returns).methods.find? k = some (k, returns) := by
      rw [insertMethod, SortedMap.find?_insert, if_pos Std.ReflCmp.compare_self]
    exact hinserted.methods _ (SortedMap.mem_of_find? hfound).1
  · intro hk
    refine ⟨h.name, h.attrs, fun e he => ?_⟩
    rcases SortedMap.mem_insertEntry he with rfl | he
    · exact hk
    · exact h.methods e he

end Description

/-- An overload stands for one call more than it has optional arguments, from all of its arguments
down to the required ones. These calls differ and stand for nothing but themselves. A description
accepts the overload unless it has no name or a default outside the run of optional arguments. -/
theorem expand_exhaustive (k : MethodKey) :
    k.expand.length = k.optional.length + 1 ∧
      (∀ i ≤ k.optional.length, ∃ k', k.expand[i]? = some k' ∧ k'.name = k.name ∧
        k'.args.length = k.args.length - i ∧
        k'.args = (k.args.take (k.args.length - i)).map Argument.withoutDefault) ∧
      k.expand.Pairwise (fun a b => a.same b = false) ∧
      (∀ k' ∈ k.expand, k'.expand = [k']) ∧
      ∀ (d : Description) (returns : Option TypeTerm), d.validatePartial = .ok () →
        ((d.insertMethod k returns).validatePartial = .ok () ↔
          k.name ≠ "" ∧ ∀ a ∈ k.required, a.default? = none) := by
  refine ⟨k.length_expand, fun i hi => ?_, k.pairwise_expand, fun k' hk' => ?_,
    fun d returns hd => ?_⟩
  · refine ⟨_, MethodKey.getElem?_expand hi, rfl, ?_, rfl⟩
    rw [MethodKey.length_args_shortened, Nat.min_eq_left (Nat.sub_le ..)]
  · rw [MethodKey.expand_eq] at hk'
    obtain ⟨i, -, rfl⟩ := List.mem_map.1 hk'
    exact MethodKey.expand_of_bare (k.isBare_shortened _)
  · exact (Description.validatePartial_insertMethod_iff hd returns).trans
      Description.keyFault?_eq_none_iff_required

/-- The heat may not be left out, because the dish must be given. -/
def roastKey : MethodKey :=
  ⟨"roast", [⟨"heat", .atomic "int32", some "180"⟩, ⟨"dish", .str, none⟩,
    ⟨"minutes", .atomic "int32", some "30"⟩, ⟨"fan", .atomic "bool", some "true"⟩]⟩

theorem expand_exhaustive_roast :
    roastKey.expand.length = 3 ∧
      (∃ k', roastKey.expand[2]? = some k' ∧ k'.expand = [k'] ∧
        k'.args = [⟨"heat", .atomic "int32", none⟩, ⟨"dish", .str, none⟩]) ∧
      Description.empty.validatePartial = .ok () ∧
      (Description.empty.insertMethod roastKey (some .void)).validatePartial ≠ .ok () := by
  obtain ⟨hlength, hkeys, -, halone, haccepted⟩ := expand_exhaustive roastKey
  obtain ⟨k', hk', -, -, hargs⟩ := hkeys 2 (by decide)
  refine ⟨hlength, ⟨k', hk', halone k' (List.mem_of_getElem? hk'), hargs⟩, rfl, fun h => ?_⟩
  obtain ⟨-, hrequired⟩ := (haccepted .empty (some .void) rfl).1 h
  cases hrequired _ (List.mem_cons_self ..)

end Bindery
