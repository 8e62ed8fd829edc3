import Bindery.Proofs.LayerComposition

/-!
# What merging comes to

Layers without a fault make a stack without a fault, so the checks that merging begins with are the
only ones that matter: `merge_eq` has them first, then the name, and nothing fails after that.
-/

namespace Bindery.Description
variable {d low high : Description} {layers : List Description}

namespace Faultless

theorem empty : Faultless empty := ⟨nofun, nofun, nofun⟩

theorem overlay (hlow : Faultless low) (hhigh : Faultless high) : Faultless (low.overlay high) where
  name := by
    intro h
    rcases Option.or_eq_some_iff.1 ((isSlot_name low high).symm.trans h) with h | ⟨-, h⟩
    · exact hhigh.name h
    · exact hlow.name h
  attrs e he := (SortedMap.mem_overlay he).elim (hlow.attrs e) (hhigh.attrs e)
  methods e he := (SortedMap.mem_overlay he).elim (hlow.methods e) (hhigh.methods e)

theorem sanitize (h : Faultless d) (name : String) : Faultless (d.sanitize name) :=
  ⟨h.name, h.attrs, fun e he => h.methods e (SortedMap.mem_filter.1 he).1⟩

theorem stack (h : ∀ d ∈ layers, Faultless d) : Faultless (stack layers) := by
  induction layers with
  | nil => exact empty
  | cons d rest ih =>
    rw [List.forall_mem_cons] at h
    rw [stack_cons]
    exact h.1.overlay (ih h.2)

end Faultless

/-- The upper layer's name is the name of both. -/
theorem className_overlay {name : String} (h : high.className = .ok name) :
    (low.overlay high).className = .ok name := by
  obtain ⟨hname, hne⟩ := className_eq_ok_iff.1 h
  have hslot : (low.overlay high).name? = high.name?.or low.name? := isSlot_name low high
  refine className_eq_ok_iff.2 ⟨?_, hne⟩
  rw [hslot, hname, Option.some_or]

theorem overlayAll_eq (low : Description) (layers : List Description) :
    overlayAll low layers = (do
      forM layers validatePartial
      pure (low.overlay (stack layers))) := by
  induction layers generalizing low with
  | nil => rfl
  | cons d rest ih =>
    rw [overlayAll, List.forM_cons, bind_assoc, stack_cons, ← overlay_assoc]
    simp only [ih]

/-- The layers are checked in their order. After that only the name may be missing. -/
theorem merge_eq (h : layers ≠ []) :
    merge layers = (do
      forM layers validatePartial
      let name ← (stack layers).className
      pure ((stack layers).sanitize name)) := by
  obtain ⟨d, rest, rfl⟩ := List.exists_cons_of_ne_nil h
  rw [merge, List.forM_cons, bind_assoc, stack_cons]
  cases hd : d.validatePartial with
  | error e => rfl
  | ok _ =>
    simp only [overlayAll_eq, bind_assoc, pure_bind]
    cases hrest : forM rest validatePartial with
    | error e => rfl
    | ok _ =>
      cases hname : (d.overlay (stack rest)).className with
      | error e => rfl
      | ok name =>
        have hchecked : ∀ x ∈ d :: rest, Faultless x :=
          List.forall_mem_cons.2 ⟨validatePartial_eq_ok_iff.1 hd, fun x hx =>
            validatePartial_eq_ok_iff.1 (Outcome.forM_eq_ok.1 hrest x hx)⟩
        have hsound := Faultless.stack hchecked
        rw [stack_cons] at hsound
        have hvalid : ((d.overlay (stack rest)).sanitize name).validate = .ok () :=
          validate_eq_ok_iff.2 ⟨⟨name, hname⟩, validatePartial_eq_ok_iff.2 (hsound.sanitize name)⟩
        show ((d.overlay (stack rest)).sanitize name).validate >>= _ = _
        rw [hvalid]
        rfl

/-- Layers that are each valid merge to their stack, sanitized by the name it has. -/
theorem merge_eq_ok {name : String} (hvalid : ∀ d ∈ layers, d.validatePartial = .ok ())
    (hname : (stack layers).className = .ok name) :
    merge layers = .ok ((stack layers).sanitize name) := by
  have hne : layers ≠ [] := by
    rintro rfl
    cases hname
  rw [merge_eq hne, Outcome.forM_eq_ok.2 hvalid]
  show (stack layers).className >>= _ = _
  rw [hname]
  rfl

/-- Over layers that are valid too, the name stays. -/
theorem merge_append_eq_ok {below : List Description} {name : String}
    (hbelow : ∀ d ∈ below, d.validatePartial = .ok ())
    (hvalid : ∀ d ∈ layers, d.validatePartial = .ok ())
    (hname : (stack layers).className = .ok name) :
    merge (below ++ layers) = .ok (((stack below).overlay (stack layers)).sanitize name) := by
  rw [← stack_append]
  refine merge_eq_ok (List.forall_mem_append.2 ⟨hbelow, hvalid⟩) ?_
  rw [stack_append]
  exact className_overlay hname

end Bindery.Description
