import Bindery.Proofs.LastWriter
import Bindery.Proofs.MergeOutcome

/-!
# Merging in stages

Layers need not be merged all at once. The lower ones may go first when the name in the end still
ends with the name that they have among themselves (`merge_low_first`). The upper ones may go first
except in one case, which `merge_high_first_iff` tells exactly: what they remove too early would
have covered a method below.
-/

namespace Bindery.Description
variable {xs ys : List Description} {m : Description}

/-- The last name among a description and the layers above it ends with the description's own. -/
def NameStays (m : Description) (above : List Description) : Prop :=
  ∃ name last, m.name? = some name ∧ lastSaid (·.name?) (m :: above) = some last ∧
    name.toList <:+ last.toList

theorem nameStays_of_unrenamed {name : String} (hname : m.name? = some name)
    (h : ∀ d ∈ ys, d.name? = none ∨ d.name? = m.name?) : NameStays m ys := by
  refine ⟨name, name, hname, ?_, List.suffix_rfl⟩
  cases hlast : lastSaid (·.name?) (m :: ys) with
  | none =>
    have hnone : m.name? = none := lastSaid_eq_none_iff.1 hlast m (List.mem_cons_self ..)
    rw [hname] at hnone
    cases hnone
  | some last =>
    obtain ⟨low, d, high, hlayers, hd, -⟩ := lastSaid_eq_some_iff.1 hlast
    have hmem : d ∈ m :: ys := by rw [hlayers]; simp
    rcases List.mem_cons.1 hmem with rfl | hmem
    · rw [← hname, hd]
    · rcases h d hmem with h | h
      · rw [hd] at h
        cases h
      · rw [← hname, ← h, hd]

/-- A merge of the lower layers may stand for them, whatever comes of the whole, as long as the name
stays; it does when no layer above gives another. -/
theorem merge_low_first (hxs : merge xs = .ok m) :
    (NameStays m ys → merge (xs ++ ys) = merge (m :: ys)) ∧
      ((∀ d ∈ ys, d.name? = none ∨ d.name? = m.name?) → merge (xs ++ ys) = merge (m :: ys)) := by
  obtain ⟨hne, hchecked, name, hname, hm, hvalid⟩ := merge_eq_ok_iff.1 hxs
  have hmname : m.name? = some name := hm ▸ (className_eq_ok_iff.1 hname).1
  have hstays : NameStays m ys → merge (xs ++ ys) = merge (m :: ys) := by
    rintro ⟨name', last, hname', hlast, hsuffix⟩
    obtain rfl : name = name' := Option.some.inj (hmname.symm.trans hname')
    rw [merge_eq (List.append_ne_nil_of_left_ne_nil hne ys), merge_eq (List.cons_ne_nil m ys),
      List.forM_append, List.forM_cons, Outcome.forM_eq_ok.2 hchecked,
      (validate_eq_ok_iff.1 hvalid).2, stack_append, stack_cons]
    have hclass : (m.overlay (stack ys)).className = ((stack xs).overlay (stack ys)).className :=
      hm ▸ rfl
    rw [hclass]
    refine bind_congr fun _ => ?_
    cases hresult : ((stack xs).overlay (stack ys)).className with
    | error e => rfl
    | ok last' =>
      have hlast' : (stack (m :: ys)).name? = some last' := by
        rw [stack_cons]
        exact (className_eq_ok_iff.1 (hclass.trans hresult)).1
      rw [isSlot_name.stack rfl, hlast] at hlast'
      obtain rfl : last = last' := Option.some.inj hlast'
      show Except.ok _ = Except.ok _
      rw [hm, sanitize_sanitize_overlay hsuffix]
  exact ⟨hstays, fun h => hstays (nameStays_of_unrenamed hmname h)⟩

/-- An oven under a longer name, which takes the plain oven's constructor away. -/
def microOvenLayer : Description := (named "MicroOven").insertMethod ⟨"~MicroOven", []⟩ none

/-- A layer at fault, without a name. -/
def faultyLayer : Description := empty.insertAttr "" .void

theorem merge_low_first_oven :
    merge [toasterLayer, ovenLayer] = .ok ((toasterLayer.overlay ovenLayer).sanitize "Oven") ∧
      NameStays ((toasterLayer.overlay ovenLayer).sanitize "Oven") [microOvenLayer] ∧
      merge ([toasterLayer, ovenLayer] ++ [microOvenLayer]) =
        merge [(toasterLayer.overlay ovenLayer).sanitize "Oven", microOvenLayer] ∧
      merge ([toasterLayer, ovenLayer] ++ [faultyLayer]) =
        merge [(toasterLayer.overlay ovenLayer).sanitize "Oven", faultyLayer] := by
  have hstays : NameStays ((toasterLayer.overlay ovenLayer).sanitize "Oven") [microOvenLayer] :=
    ⟨"Oven", "MicroOven", rfl, rfl, by decide⟩
  refine ⟨rfl, hstays, (merge_low_first rfl).1 hstays, (merge_low_first rfl).2 ?_⟩
  exact List.forall_mem_singleton.2 (.inl rfl)

/-- The upper layers may be merged first unless they remove an overload that alone covers one with
a return type below. -/
theorem merge_high_first_iff (hxs : ∀ d ∈ xs, d.validatePartial = .ok ()) (hys : merge ys = .ok m) :
    merge (xs ++ ys) = merge (xs ++ [m]) ↔
      ¬ ∃ high low, LastEntry ys high ∧ ¬ m.Keeps high ∧
        LastEntry xs low ∧ low.1.identity = high.1.identity ∧ low.2.isSome = true := by
  obtain ⟨-, hchecked, name, hname, hm, hvalid⟩ := merge_eq_ok_iff.1 hys
  obtain ⟨hstack, hnonempty⟩ := className_eq_ok_iff.1 hname
  have hmname : m.name? = some name := hm ▸ hstack
  have hflat : merge (xs ++ ys) = .ok (((stack xs).overlay (stack ys)).sanitize name) :=
    merge_append_eq_ok hxs hchecked hname
  have hstaged : merge (xs ++ [m]) = .ok (((stack xs).overlay m).sanitize name) := by
    have hmvalid : ∀ d ∈ [m], d.validatePartial = .ok () :=
      List.forall_mem_singleton.2 (validate_eq_ok_iff.1 hvalid).2
    have hmclass : (stack [m]).className = .ok name := by
      rw [stack_singleton]
      exact className_eq_ok_iff.2 ⟨hmname, hnonempty⟩
    rw [merge_append_eq_ok hxs hmvalid hmclass, stack_singleton]
  rw [hflat, hstaged, Except.ok.injEq, eq_comm, hm, sanitize_overlay_eq_iff, ← hm]
  refine not_congr ?_
  simp only [Methods.Uncovers, mem_stack_methods, ← belongs_iff hmname, Bool.not_eq_true]
  constructor
  · rintro ⟨high, hhigh, hgone, low, hlow, hid, hreturns⟩
    exact ⟨high, low, hhigh, hgone, hlow, hid, hreturns⟩
  · rintro ⟨high, low, hhigh, hgone, hlow, hid, hreturns⟩
    exact ⟨high, hhigh, hgone, low, hlow, hid, hreturns⟩

/-- A library in which `Toaster` is the name of a method. -/
def kitchenLayer : Description := empty.insertMethod ⟨"Toaster", []⟩ (some (.atomic "int32"))

/-- The oven's name removes the constructor of a toaster, under which the method comes to light if
the two are merged ahead of the library. -/
theorem merge_high_first_iff_kitchen :
    (∀ d ∈ [kitchenLayer], d.validatePartial = .ok ()) ∧
      merge [toasterLayer, ovenLayer] = .ok ((toasterLayer.overlay ovenLayer).sanitize "Oven") ∧
      merge ([kitchenLayer] ++ [toasterLayer, ovenLayer]) ≠
        merge ([kitchenLayer] ++ [(toasterLayer.overlay ovenLayer).sanitize "Oven"]) := by
  have hchecked : ∀ d ∈ [kitchenLayer], d.validatePartial = .ok () :=
    List.forall_mem_singleton.2 rfl
  refine ⟨hchecked, rfl, fun h => ?_⟩
  refine (merge_high_first_iff hchecked rfl).1 h
    ⟨(⟨"Toaster", []⟩, none), (⟨"Toaster", []⟩, some (.atomic "int32")), ?_, ?_, ?_, rfl, rfl⟩
  · exact ⟨[], toasterLayer, [ovenLayer], rfl, by decide, by decide⟩
  · rintro (h | ⟨name, hname, hsuffix⟩)
    · cases h
    · cases hname
      exact absurd hsuffix (by decide)
  · exact ⟨[], kitchenLayer, [], rfl, by decide, nofun⟩

end Bindery.Description
