import Bindery.Proofs.Layers

/-!
# Layers over layers

To put one layer over another is associative, so a stack may be built in parts (`stack_append`).
Sanitizing touches the overloads alone. `sanitize_sanitize_overlay` and `sanitize_overlay_eq_iff`
say when a lower or an upper part may be sanitized before the whole is.
-/

namespace Bindery

namespace Docstrings

theorem overlay_assoc (low mid high : Docstrings) :
    (low.overlay mid).overlay high = low.overlay (mid.overlay high) := by
  simp only [overlay, SortedMap.overlay_assoc, Option.orElse_eq_orElse, Option.orElse_eq_or,
    Option.or_assoc]

end Docstrings

/-- To filter the first choice beforehand makes a difference where it alone is filtered away. -/
theorem filter_or_eq_iff {α : Type} {p : α → Bool} {first second : Option α} :
    ((first.filter p).or second).filter p = (first.or second).filter p ↔
      ¬ ∃ a b, first = some a ∧ second = some b ∧ p a = false ∧ p b = true := by
  cases first with
  | none => simp
  | some a =>
    cases second with
    | none => simp
    | some b => cases ha : p a <;> cases hb : p b <;> simp [Option.filter_some, ha, hb]

namespace Methods
variable {name last : String} {low high : Methods} {k : MethodKey}

/-- A longer class name lets fewer overloads stay. -/
theorem belongs_of_suffix {returns : Option TypeTerm} (h : name.toList <:+ last.toList)
    (hb : belongs last k returns = true) : belongs name k returns = true := by
  rw [belongs, Bool.or_eq_true, List.isSuffixOf_iff_suffix] at hb ⊢
  exact hb.imp_right h.trans

theorem find?_sanitize : (sanitize low name).find? k =
    (low.find? k).filter fun e => belongs name e.1 e.2 :=
  SortedMap.find?_filter _ low k

/-- What the shorter name removes from the lower overloads ahead of time, the longer name would have
removed, unless it was covered. -/
theorem sanitize_sanitize_overlay (h : name.toList <:+ last.toList) :
    sanitize ((sanitize low name).overlay high) last = sanitize (low.overlay high) last := by
  refine SortedMap.ext_find? fun k => ?_
  rw [find?_sanitize, find?_sanitize, SortedMap.find?_overlay, SortedMap.find?_overlay,
    find?_sanitize]
  cases high.find? k with
  | some e => rfl
  | none =>
    cases low.find? k with
    | none => rfl
    | some e =>
      rw [Option.none_or, Option.none_or, Option.filter_some]
      split
      next => rfl
      next hname =>
        have hlast : ¬ belongs last e.1 e.2 = true := fun hb => hname (belongs_of_suffix h hb)
        rw [Option.filter_some, if_neg hlast, Option.filter_none]

/-- An upper overload that the name removes, over one that has a return type. Removed too early it
uncovers the lower one. -/
def Uncovers (name : String) (low high : Methods) : Prop :=
  ∃ e ∈ high.entries, belongs name e.1 e.2 = false ∧
    ∃ e' ∈ low.entries, e'.1.identity = e.1.identity ∧ e'.2.isSome = true

/-- Of two overloads with one name, the first of which does not belong to the class, the second
belongs to it only through its return type. -/
theorem belongs_iff_isSome {e e' : MethodKey × Option TypeTerm} (h : belongs name e.1 e.2 = false)
    (hid : e'.1.identity = e.1.identity) : belongs name e'.1 e'.2 = true ↔ e'.2.isSome = true := by
  have hname : e'.1.name = e.1.name := congrArg Prod.fst hid
  rw [belongs, Bool.or_eq_false_iff] at h
  rw [belongs, hname, h.2, Bool.or_false]

theorem sanitize_overlay_eq_iff :
    sanitize (low.overlay (sanitize high name)) name = sanitize (low.overlay high) name ↔
      ¬ Uncovers name low high := by
  constructor
  · rintro heq ⟨e, he, hgone, e', he', hid, hreturns⟩
    have hcmp : MethodKey.cmp e.1 e'.1 = .eq := MethodKey.cmp_eq_iff.2 hid.symm
    have hlook := congrArg (SortedMap.find? · e.1) heq
    simp only [find?_sanitize, SortedMap.find?_overlay, filter_or_eq_iff] at hlook
    exact hlook ⟨e, e', SortedMap.find?_of_mem he, SortedMap.find?_eq_some_iff.2 ⟨he', hcmp⟩, hgone,
      (belongs_iff_isSome hgone hid).2 hreturns⟩
  · intro hcovered
    refine SortedMap.ext_find? fun k => ?_
    rw [find?_sanitize, find?_sanitize, SortedMap.find?_overlay, SortedMap.find?_overlay,
      find?_sanitize, filter_or_eq_iff]
    rintro ⟨e, e', he, he', hgone, hbelongs⟩
    obtain ⟨he, hk⟩ := SortedMap.find?_eq_some_iff.1 he
    obtain ⟨he', hk'⟩ := SortedMap.find?_eq_some_iff.1 he'
    have hid : e'.1.identity = e.1.identity :=
      (MethodKey.cmp_eq_iff.1 hk').symm.trans (MethodKey.cmp_eq_iff.1 hk)
    exact hcovered ⟨e, he, hgone, e', he', hid, (belongs_iff_isSome hgone hid).1 hbelongs⟩

end Methods

namespace Description

theorem overlayDocstrings_assoc (low? mid? high? : Option Docstrings) :
    overlayDocstrings (overlayDocstrings low? mid?) high? =
      overlayDocstrings low? (overlayDocstrings mid? high?) := by
  cases high? with
  | none => rfl
  | some high =>
    cases mid? with
    | none =>
      show overlayDocstrings low? (some high) =
        overlayDocstrings low? (some (Docstrings.empty.overlay high))
      rw [Docstrings.empty_overlay]
    | some mid => exact congrArg some (Docstrings.overlay_assoc _ mid high)

theorem overlay_assoc (low mid high : Description) :
    (low.overlay mid).overlay high = low.overlay (mid.overlay high) := by
  simp only [overlay, SortedMap.overlay_assoc, overlayDocstrings_assoc, Option.orElse_eq_orElse,
    Option.orElse_eq_or, Option.or_assoc]

theorem overlay_empty (d : Description) : d.overlay empty = d := rfl

theorem stack_cons (d : Description) (rest : List Description) :
    stack (d :: rest) = d.overlay (stack rest) := by
  suffices ∀ low, rest.foldl overlay low = low.overlay (stack rest) by
    rw [stack, List.foldl_cons, this, empty_overlay]
  induction rest with
  | nil => exact fun low => (overlay_empty low).symm
  | cons e rest ih =>
    intro low
    rw [stack, List.foldl_cons, List.foldl_cons, ih, ih, empty_overlay, overlay_assoc]

theorem stack_append (low high : List Description) :
    stack (low ++ high) = (stack low).overlay (stack high) := by
  induction low with
  | nil => exact (empty_overlay _).symm
  | cons d rest ih => rw [List.cons_append, stack_cons, stack_cons, ih, overlay_assoc]

theorem sanitize_eq_self_iff {d : Description} {name : String} :
    d.sanitize name = d ↔ ∀ e ∈ d.methods.entries, Methods.belongs name e.1 e.2 = true := by
  rw [← List.filter_eq_self]
  constructor
  · intro h
    exact congrArg (fun d : Description => d.methods.entries) h
  · intro h
    have hmethods : d.methods.sanitize name = d.methods := SortedMap.ext h
    exact congrArg (fun ms => { d with methods := ms }) hmethods

theorem stack_singleton (d : Description) : stack [d] = d := by
  rw [stack_cons]
  exact overlay_empty d

section
variable {name last : String} {low high : Description}

theorem sanitize_sanitize_overlay (h : name.toList <:+ last.toList) :
    ((low.sanitize name).overlay high).sanitize last = (low.overlay high).sanitize last :=
  congrArg (fun ms => { low.overlay high with methods := ms }) (Methods.sanitize_sanitize_overlay h)

theorem sanitize_overlay_eq_iff :
    (low.overlay (high.sanitize name)).sanitize name = (low.overlay high).sanitize name ↔
      ¬ Methods.Uncovers name low.methods high.methods := by
  rw [← Methods.sanitize_overlay_eq_iff]
  constructor
  · exact congrArg Description.methods
  · exact congrArg fun ms => { low.overlay high with methods := ms }

end

end Description

end Bindery
