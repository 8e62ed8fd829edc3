import Bindery.Description.Merge
import Bindery.Proofs.MapLookup
import Bindery.Proofs.Validity

/-!
# Layers on top of each other

A slot is a part of a description that a layer hands over from below unless it has one itself.
Every part that merging looks at is a slot, single entries of maps included, so one induction
(`IsSlot.foldl`) tells what a whole stack has. `merge_eq_ok_iff` says when merging succeeds and
with what.
-/

namespace Bindery

namespace Docstrings

theorem empty_overlay (d : Docstrings) : empty.overlay d = d := by
  simp only [overlay, empty, SortedMap.empty_overlay, Option.orElse_eq_orElse,
    Option.orElse_eq_or, Option.or_none]

end Docstrings

namespace Description

/-- What the last layer that has something in a slot has there. -/
def lastSaid {α : Type} (slot : Description → Option α) (layers : List Description) : Option α :=
  layers.reverse.findSome? slot

/-- A layer over another shows its own, if it has any, and else what is below. -/
def IsSlot {α : Type} (slot : Description → Option α) : Prop :=
  ∀ low high, slot (low.overlay high) = (slot high).or (slot low)

/-- All layers, the lowest first, over a description that says nothing. -/
def stack (layers : List Description) : Description := layers.foldl overlay empty

section
variable {α : Type} {slot : Description → Option α} {layers : List Description} {a : α}

theorem lastSaid_eq_none_iff : lastSaid slot layers = none ↔ ∀ d ∈ layers, slot d = none := by
  simp [lastSaid]

theorem lastSaid_eq_some_iff :
    lastSaid slot layers = some a ↔
      ∃ low d high, layers = low ++ d :: high ∧ slot d = some a ∧ ∀ h ∈ high, slot h = none := by
  rw [lastSaid, List.findSome?_eq_some_iff]
  constructor
  · rintro ⟨above, d, below, hl, hd, habove⟩
    refine ⟨below.reverse, d, above.reverse, ?_, hd, fun h hh => ?_⟩
    · simpa using congrArg List.reverse hl
    · exact habove h (List.mem_reverse.1 hh)
  · rintro ⟨low, d, high, rfl, hd, hhigh⟩
    exact ⟨high.reverse, d, low.reverse, by simp, hd,
      fun h hh => hhigh h (List.mem_reverse.1 hh)⟩

/-- A stack has in a slot what its last layer to say something there says. -/
theorem IsSlot.foldl (hs : IsSlot slot) (low : Description) (layers : List Description) :
    slot (layers.foldl overlay low) = (lastSaid slot layers).or (slot low) := by
  induction layers generalizing low with
  | nil => rfl
  | cons d rest ih =>
    rw [List.foldl_cons, ih, hs low d, ← Option.or_assoc]
    congr 1
    simp [lastSaid, List.findSome?_append]

theorem IsSlot.stack (hs : IsSlot slot) (hnone : slot empty = none) :
    slot (stack layers) = lastSaid slot layers := by
  rw [Description.stack, hs.foldl, hnone, Option.or_none]

end

/-! ### The slots -/

theorem isSlot_name : IsSlot (·.name?) := fun _ _ => Option.orElse_eq_or

theorem isSlot_parents : IsSlot (·.parents?) := fun _ _ => Option.orElse_eq_or

theorem isSlot_scope : IsSlot (·.scope?) := fun _ _ => Option.orElse_eq_or

theorem isSlot_extra : IsSlot (·.extra?) := fun _ _ => Option.orElse_eq_or

theorem isSlot_attr (name : String) : IsSlot (·.attrs.get? name) :=
  fun low high => SortedMap.get?_overlay low.attrs high.attrs name

theorem isSlot_method (key : MethodKey) : IsSlot (·.methods.find? key) :=
  fun low high => SortedMap.find?_overlay low.methods high.methods key

theorem overlayDocstrings_some (low? : Option Docstrings) (high : Docstrings) :
    overlayDocstrings low? (some high) = some ((low?.getD .empty).overlay high) := rfl

/-- A part of the docstrings is a slot if it is one of any two docstrings over each other. -/
theorem isSlot_docstrings {α : Type} {part : Docstrings → Option α} (hempty : part .empty = none)
    (hpart : ∀ low high, part (low.overlay high) = (part high).or (part low)) :
    IsSlot (·.docstrings?.bind part) := by
  intro low high
  show (overlayDocstrings low.docstrings? high.docstrings?).bind part =
    (high.docstrings?.bind part).or (low.docstrings?.bind part)
  cases high.docstrings? with
  | none => rfl
  | some h =>
    rw [overlayDocstrings_some, Option.bind_some, Option.bind_some, hpart]
    cases low.docstrings? with
    | none => rw [Option.getD_none, hempty, Option.bind_none]
    | some l => rfl

theorem isSlot_docModule : IsSlot (·.docstrings?.bind (·.module?)) :=
  isSlot_docstrings rfl fun _ _ => Option.orElse_eq_or

theorem isSlot_docClass : IsSlot (·.docstrings?.bind (·.class?)) :=
  isSlot_docstrings rfl fun _ _ => Option.orElse_eq_or

theorem isSlot_docAttr (name : String) : IsSlot (·.docstrings?.bind (·.attrs.get? name)) :=
  isSlot_docstrings rfl fun low high => SortedMap.get?_overlay low.attrs high.attrs name

theorem isSlot_docMethod (name : String) : IsSlot (·.docstrings?.bind (·.methods.get? name)) :=
  isSlot_docstrings rfl fun low high => SortedMap.get?_overlay low.methods high.methods name

/-- Whether there are docstrings at all. -/
theorem isSlot_hasDocstrings : IsSlot (·.docstrings?.map fun _ => ()) := by
  intro low high
  show (overlayDocstrings low.docstrings? high.docstrings?).map (fun _ => ()) =
    (high.docstrings?.map fun _ => ()).or (low.docstrings?.map fun _ => ())
  cases high.docstrings? <;> rfl

theorem stack_docstrings_eq_none_iff {layers : List Description} :
    (stack layers).docstrings? = none ↔ ∀ d ∈ layers, d.docstrings? = none := by
  have hslot : (stack layers).docstrings?.map (fun _ => ()) =
      lastSaid (·.docstrings?.map fun _ => ()) layers := isSlot_hasDocstrings.stack rfl
  rw [← Option.map_eq_none_iff, hslot, lastSaid_eq_none_iff]
  simp only [Option.map_eq_none_iff]

/-! ### Merging -/

theorem empty_overlay (d : Description) : empty.overlay d = d := by
  have hdocs : overlayDocstrings none d.docstrings? = d.docstrings? := by
    cases d.docstrings? with
    | none => rfl
    | some docs => rw [overlayDocstrings_some, Option.getD_none, Docstrings.empty_overlay]
  simp only [overlay, empty, SortedMap.empty_overlay, hdocs, Option.orElse_eq_orElse,
    Option.orElse_eq_or, Option.or_none]

theorem overlayAll_eq_ok_iff {low m : Description} {layers : List Description} :
    overlayAll low layers = .ok m ↔
      (∀ d ∈ layers, d.validatePartial = .ok ()) ∧ m = layers.foldl overlay low := by
  induction layers generalizing low with
  | nil => simp [overlayAll, eq_comm (a := low)]
  | cons d rest ih =>
    rw [overlayAll, Outcome.check_eq_ok, ih, List.forall_mem_cons, and_assoc]
    rfl

/-- Merging succeeds on layers that are each valid, with a name among them, and gives their stack
without the constructors and destructors of other classes. -/
theorem merge_eq_ok_iff {layers : List Description} {m : Description} :
    merge layers = .ok m ↔
      layers ≠ [] ∧ (∀ d ∈ layers, d.validatePartial = .ok ()) ∧
        ∃ name, (stack layers).className = .ok name ∧ m = (stack layers).sanitize name ∧
          m.validate = .ok () := by
  cases layers with
  | nil => simp [merge]
  | cons d rest =>
    have hstack : stack (d :: rest) = rest.foldl overlay d := by
      rw [stack, List.foldl_cons, empty_overlay]
    rw [merge, Outcome.check_eq_ok, hstack]
    simp only [Outcome.bind_eq_ok, overlayAll_eq_ok_iff, Outcome.pure_eq_ok, List.forall_mem_cons]
    constructor
    · rintro ⟨hd, _, ⟨hrest, rfl⟩, name, hname, _, hvalid, rfl⟩
      exact ⟨List.cons_ne_nil d rest, ⟨hd, hrest⟩, name, hname, rfl, hvalid⟩
    · rintro ⟨-, ⟨hd, hrest⟩, name, hname, rfl, hvalid⟩
      exact ⟨hd, _, ⟨hrest, rfl⟩, name, hname, (), hvalid, rfl⟩

end Description

end Bindery
