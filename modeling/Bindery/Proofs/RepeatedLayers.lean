import Bindery.Proofs.LastWriter
import Bindery.Proofs.MergeOutcome

/-!
# Layers that come again

To put a layer over itself changes nothing, and neither does a whole stack that comes twice
(`stack_append_self`). What a merge removed comes to light again below its own result, but under the
same name, so it is removed again: `merge_idempotent`.
-/

namespace Bindery

theorem SortedMap.overlay_self {κ β : Type} {cmp : κ → κ → Ordering} [Std.TransCmp cmp]
    (m : SortedMap κ cmp β) : m.overlay m = m := by
  refine SortedMap.ext_find? fun k => ?_
  rw [SortedMap.find?_overlay, Option.or_self]

theorem Docstrings.overlay_self (docs : Docstrings) : docs.overlay docs = docs := by
  simp only [overlay, SortedMap.overlay_self, Option.orElse_eq_orElse, Option.orElse_eq_or,
    Option.or_self]

/-- Removed early from the upper of two equal layers, an overload uncovers only itself. -/
theorem Methods.not_uncovers_self (name : String) (m : Methods) : ¬ Uncovers name m m := by
  rintro ⟨e, he, hgone, e', he', hid, hreturns⟩
  have hsame : e = e' := SortedMap.eq_of_mem_of_cmp he he' (MethodKey.cmp_eq_iff.2 hid.symm)
  have hbelongs : belongs name e.1 e.2 = true := by rw [belongs, hsame, hreturns, Bool.true_or]
  rw [hgone] at hbelongs
  cases hbelongs

namespace Description
variable {xs : List Description} {d m : Description} {name : String}

theorem overlayDocstrings_self (docs? : Option Docstrings) :
    overlayDocstrings docs? docs? = docs? := by
  cases docs? with
  | none => rfl
  | some docs => exact congrArg some docs.overlay_self

theorem overlay_self (d : Description) : d.overlay d = d := by
  simp only [overlay, SortedMap.overlay_self, overlayDocstrings_self, Option.orElse_eq_orElse,
    Option.orElse_eq_or, Option.or_self]

theorem stack_append_self (xs : List Description) : stack (xs ++ xs) = stack xs := by
  rw [stack_append, overlay_self]

/-- Once the name has been applied there is nothing left for it to remove. -/
theorem sanitize_sanitize (d : Description) (name : String) :
    (d.sanitize name).sanitize name = d.sanitize name := by
  have h : ((d.sanitize name).overlay empty).sanitize name = (d.overlay empty).sanitize name :=
    sanitize_sanitize_overlay (List.suffix_refl name.toList)
  rwa [overlay_empty, overlay_empty] at h

/-- A sanitized layer over the same layer comes to no more than itself once all is sanitized. -/
theorem sanitize_overlay_sanitize (d : Description) (name : String) :
    (d.overlay (d.sanitize name)).sanitize name = d.sanitize name := by
  rw [sanitize_overlay_eq_iff.2 (Methods.not_uncovers_self name d.methods), overlay_self]

theorem merge_append_self (xs : List Description) : merge (xs ++ xs) = merge xs := by
  by_cases hne : xs = []
  · subst hne
    rfl
  rw [merge_eq (List.append_ne_nil_of_left_ne_nil hne xs), merge_eq hne, List.forM_append,
    stack_append_self]
  -- checks that pass once pass again, and the first to fail is the same
  cases forM xs validatePartial with
  | error e => rfl
  | ok _ => rfl

theorem merge_merged (h : merge xs = .ok m) : merge [m] = .ok m := by
  obtain ⟨-, -, name, hname, rfl, hvalid⟩ := merge_eq_ok_iff.1 h
  have hclass : (stack [(stack xs).sanitize name]).className = .ok name := by
    rw [stack_singleton]
    exact hname
  rw [merge_eq_ok (List.forall_mem_singleton.2 (validate_eq_ok_iff.1 hvalid).2) hclass,
    stack_singleton, sanitize_sanitize]

theorem merge_append_merged (h : merge xs = .ok m) : merge (xs ++ [m]) = .ok m := by
  obtain ⟨-, hchecked, name, hname, rfl, hvalid⟩ := merge_eq_ok_iff.1 h
  have hclass : (stack [(stack xs).sanitize name]).className = .ok name := by
    rw [stack_singleton]
    exact hname
  rw [merge_append_eq_ok hchecked (List.forall_mem_singleton.2 (validate_eq_ok_iff.1 hvalid).2)
    hclass, stack_singleton, sanitize_overlay_sanitize]

/-- Layers that all come twice merge to the same as once, be it an error or a description; what they
merge to is not changed by merging it again, alone, with itself or on top of them. -/
theorem merge_idempotent (xs : List Description) :
    merge (xs ++ xs) = merge xs ∧
      ∀ m, merge xs = .ok m →
        merge [m] = .ok m ∧ merge [m, m] = .ok m ∧ merge (xs ++ [m]) = .ok m := by
  refine ⟨merge_append_self xs, fun m hm => ?_⟩
  have hone : merge [m] = .ok m := merge_merged hm
  have htwo : merge ([m] ++ [m]) = .ok m := (merge_append_self [m]).trans hone
  exact ⟨hone, htwo, merge_append_merged hm⟩

/-- The constructor of a toaster, which an oven loses, is below the merged oven again. -/
theorem merge_idempotent_oven :
    merge [toasterLayer, ovenLayer] = .ok ((toasterLayer.overlay ovenLayer).sanitize "Oven") ∧
      merge ([toasterLayer, ovenLayer] ++ [toasterLayer, ovenLayer]) =
        merge [toasterLayer, ovenLayer] ∧
      merge ([toasterLayer, ovenLayer] ++ [(toasterLayer.overlay ovenLayer).sanitize "Oven"]) =
        .ok ((toasterLayer.overlay ovenLayer).sanitize "Oven") := by
  have hmerged : merge [toasterLayer, ovenLayer] =
      .ok ((toasterLayer.overlay ovenLayer).sanitize "Oven") := rfl
  obtain ⟨htwice, hagain⟩ := merge_idempotent [toasterLayer, ovenLayer]
  obtain ⟨-, -, htop⟩ := hagain _ hmerged
  exact ⟨hmerged, htwice, htop⟩

end Description

end Bindery
