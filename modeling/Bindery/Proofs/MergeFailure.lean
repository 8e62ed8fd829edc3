import Bindery.Proofs.LastWriter
import Bindery.Proofs.MergeOutcome
import Bindery.Proofs.RenderedContext

/-!
# When merging fails

Merging fails for three reasons: there is no layer, a layer is not valid, or no layer has a name.
Laying the layers over each other adds none, since it makes nothing faulty out of what is not
(`Faultless.stack`). What merging gives is therefore valid, keeps only constructors and destructors
of its own, and can be generated by every backend.
-/

namespace Bindery.Description
variable {layers : List Description} {m : Description} {e : Error}

theorem className_eq_error_iff {d : Description} :
    d.className = .error e ↔
      d.name? = none ∧ e = .invalidDescription .nameMissing ∨
        d.name? = some "" ∧ e = .invalidDescription .nameEmpty := by
  unfold className
  split
  next hnone =>
    constructor
    · intro h
      cases h
      exact .inl ⟨hnone, rfl⟩
    · rintro (⟨-, rfl⟩ | ⟨hname, -⟩)
      · rfl
      · rw [hnone] at hname
        cases hname
  next name hname =>
    rw [hname]
    by_cases hempty : name = ""
    · subst hempty
      constructor
      · intro h
        cases h
        exact .inr ⟨rfl, rfl⟩
      · rintro (⟨hnone, -⟩ | ⟨-, rfl⟩)
        · cases hnone
        · rfl
    · rw [if_neg fun h => hempty (String.isEmpty_iff.1 h)]
      constructor
      · nofun
      · rintro (⟨hnone, -⟩ | ⟨hsome, -⟩)
        · cases hnone
        · exact absurd (Option.some.inj hsome) hempty

/-- A stack has no name if none of its layers has one. -/
theorem stack_name_eq_none_iff : (stack layers).name? = none ↔ ∀ d ∈ layers, d.name? = none := by
  have hslot : (stack layers).name? = lastSaid (·.name?) layers := isSlot_name.stack rfl
  rw [hslot, lastSaid_eq_none_iff]

/-- Why layers are not merged, and the error that says so. -/
inductive Refused (layers : List Description) : Error → Prop where
  | noLayer : layers = [] → Refused layers (.invalidDescription .nothingToMerge)
  /-- The first layer that is not valid tells the error. -/
  | invalidLayer {before after : List Description} {d : Description} {e : Error} :
      layers = before ++ d :: after → (∀ x ∈ before, x.validatePartial = .ok ()) →
        d.validatePartial = .error e → Refused layers e
  | nameless : layers ≠ [] → (∀ d ∈ layers, d.validatePartial = .ok ()) →
      (∀ d ∈ layers, d.name? = none) → Refused layers (.invalidDescription .nameMissing)

/-- What everything that works on a merged description relies on. -/
structure Fit (m : Description) : Prop where
  valid : m.validate = .ok ()
  /-- Constructors and destructors go by a name that the class's ends. -/
  own : ∀ e ∈ m.methods.entries, e.2 = none →
    ∃ name, m.name? = some name ∧ name.toList <:+ e.1.name.toList
  generates : ∀ (b : Backend) (marker? : Option String), ∃ files, b.generate m marker? = .ok files

/-- Once the layers have passed their checks, all that can be missing is a name. -/
theorem className_stack_eq_error_iff (hvalid : ∀ d ∈ layers, d.validatePartial = .ok ()) :
    (stack layers).className = .error e ↔
      (∀ d ∈ layers, d.name? = none) ∧ e = .invalidDescription .nameMissing := by
  have hsound : Faultless (stack layers) :=
    .stack fun d hd => validatePartial_eq_ok_iff.1 (hvalid d hd)
  rw [className_eq_error_iff, stack_name_eq_none_iff, or_iff_left]
  rintro ⟨hempty, -⟩
  exact hsound.name hempty

theorem merge_eq_error_iff : merge layers = .error e ↔ Refused layers e := by
  constructor
  · intro h
    by_cases hne : layers = []
    · subst hne
      cases h
      exact .noLayer rfl
    rw [merge_eq hne] at h
    rcases Outcome.bind_eq_error.1 h with h | ⟨_, hchecked, h⟩
    · obtain ⟨before, d, after, hl, hbefore, hd⟩ := Outcome.forM_eq_error.1 h
      exact .invalidLayer hl hbefore hd
    · have hvalid := Outcome.forM_eq_ok.1 hchecked
      rcases Outcome.bind_eq_error.1 h with h | ⟨name, -, h⟩
      · obtain ⟨hnone, rfl⟩ := (className_stack_eq_error_iff hvalid).1 h
        exact .nameless hne hvalid hnone
      · cases h
  · intro h
    cases h with
    | noLayer hnil =>
      subst hnil
      rfl
    | invalidLayer hl hbefore hd =>
      have hne : layers ≠ [] := by
        rw [hl]
        exact List.append_ne_nil_of_right_ne_nil _ (List.cons_ne_nil _ _)
      rw [merge_eq hne]
      exact Outcome.bind_eq_error.2 (.inl (Outcome.forM_eq_error.2 ⟨_, _, _, hl, hbefore, hd⟩))
    | nameless hne hvalid hnone =>
      have hclass := (className_stack_eq_error_iff hvalid).2 ⟨hnone, rfl⟩
      rw [merge_eq hne, Outcome.forM_eq_ok.2 hvalid]
      exact Outcome.bind_eq_error.2 (.inr ⟨(), rfl, Outcome.bind_eq_error.2 (.inl hclass)⟩)

theorem fit_of_merge (h : merge layers = .ok m) : Fit m := by
  obtain ⟨-, -, name, hname, rfl, hvalid⟩ := merge_eq_ok_iff.1 h
  have hname : (stack layers).name? = some name := (className_eq_ok_iff.1 hname).1
  exact {
    valid := hvalid
    own := fun e he hnone => by
      obtain ⟨-, hkeeps⟩ := (mem_sanitize_methods hname).1 he
      refine hkeeps.resolve_left fun hsome => ?_
      rw [hnone] at hsome
      cases hsome
    generates := fun b marker? => by
      obtain ⟨_, -, hfiles⟩ := Backend.exists_generate hvalid
      exact ⟨_, hfiles⟩ }

/-- Merging fails for one of the three reasons and for no other; whatever it gives instead is fit
for use. -/
theorem merge_fails_iff (layers : List Description) :
    (∀ e, merge layers = .error e ↔ Refused layers e) ∧ ∀ m, merge layers = .ok m → Fit m :=
  ⟨fun _ => merge_eq_error_iff, fun _ => fit_of_merge⟩

/-- A merge that drops a constructor and swaps a default literal, and one that fails on its second
layer although the first has no name. -/
theorem merge_fails_iff_oven :
    (merge [toasterLayer, ovenLayer] = .ok ((toasterLayer.overlay ovenLayer).sanitize "Oven") ∧
        Fit ((toasterLayer.overlay ovenLayer).sanitize "Oven")) ∧
      merge [empty, named "", ovenLayer] = .error (.invalidDescription .nameEmpty) ∧
        Refused [empty, named "", ovenLayer] (.invalidDescription .nameEmpty) :=
  ⟨⟨rfl, (merge_fails_iff [toasterLayer, ovenLayer]).2 _ rfl⟩,
    rfl, ((merge_fails_iff [empty, named "", ovenLayer]).1 _).1 rfl⟩

end Bindery.Description
