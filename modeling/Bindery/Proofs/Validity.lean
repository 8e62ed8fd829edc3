import Bindery.Description.Basic
import Bindery.Proofs.Outcome

/-!
# Valid descriptions

What the checks of a description mean when they pass.
-/

namespace Bindery.Description

theorem className_eq_ok_iff {d : Description} {name : String} :
    d.className = .ok name ↔ d.name? = some name ∧ name ≠ "" := by
  unfold className
  split
  next hn => simp [hn]
  next n hn =>
    rw [hn]
    split
    next he =>
      obtain rfl : n = "" := String.isEmpty_iff.1 he
      constructor
      · intro h; cases h
      · rintro ⟨h, hne⟩; exact absurd (Option.some.inj h).symm hne
    next he =>
      constructor
      · intro h; cases h; exact ⟨rfl, fun h0 => he (String.isEmpty_iff.2 h0)⟩
      · rintro ⟨h, -⟩; cases h; rfl

theorem validate_eq_ok_iff {d : Description} :
    d.validate = .ok () ↔ (∃ name, d.className = .ok name) ∧ d.validatePartial = .ok () := by
  rw [validate, Outcome.bind_eq_ok, exists_and_right]

/-- Nothing in a description is at fault, though its name may be missing. -/
structure Faultless (d : Description) : Prop where
  name : d.name? ≠ some ""
  attrs : ∀ e ∈ d.attrs.entries, e.1 ≠ ""
  methods : ∀ e ∈ d.methods.entries, keyFault? e.1 = none

theorem partialFault?_eq_none_iff {d : Description} : d.partialFault? = none ↔ d.Faultless := by
  unfold partialFault?
  constructor
  · intro h
    split at h
    next => cases h
    next hname =>
      split at h
      next => cases h
      next hattrs =>
        refine ⟨hname, fun e he h0 => hattrs ?_, fun e he => ?_⟩
        · exact List.any_eq_true.2 ⟨e.1, List.mem_map_of_mem he, String.isEmpty_iff.2 h0⟩
        · exact List.findSome?_eq_none_iff.1 h e.1 (List.mem_map_of_mem he)
  · rintro ⟨hname, hattrs, hmethods⟩
    have hany : ¬ d.attrs.keys.any (·.isEmpty) = true := by
      intro h
      obtain ⟨n, hn, hempty⟩ := List.any_eq_true.1 h
      obtain ⟨e, he, rfl⟩ := List.mem_map.1 hn
      exact hattrs e he (String.isEmpty_iff.1 hempty)
    rw [if_neg hname, if_neg hany, List.findSome?_eq_none_iff]
    intro k hk
    obtain ⟨e, he, rfl⟩ := List.mem_map.1 hk
    exact hmethods e he

theorem validatePartial_eq_ok_iff {d : Description} :
    d.validatePartial = .ok () ↔ d.Faultless := by
  rw [← partialFault?_eq_none_iff, validatePartial]
  cases d.partialFault? with
  | none => simp
  | some fault => exact ⟨nofun, nofun⟩

end Bindery.Description
