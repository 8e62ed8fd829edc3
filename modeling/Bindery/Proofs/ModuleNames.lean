import Bindery.Binding.Cython
import Mathlib.Data.List.TakeWhile

/-!
# Names that imports bind

An import binds its alias or its symbol, and a whole module the first part of its path. The module
that declares a class has a longer name than the class, since lower case takes no character away, so
importing it never binds the class's name (`localName_ofModule_ne`).
-/

namespace Bindery

/-- The name by which what is imported is known where the import stands. -/
def Import.localName (i : Import) : String :=
  i.binds?.getD (String.ofList (i.source.toList.takeWhile (· != '.')))

theorem Import.localName_ofSymbol (source symbol : String) :
    (Import.ofSymbol source symbol).localName = symbol := rfl

namespace Text

/-! ### Lower case -/

theorem toNat_ofNat (n : Nat) : (Char.ofNat n).toNat = n ∨ (Char.ofNat n).toNat = 0 := by
  by_cases h : n.isValidChar
  · rw [Char.ofNat, dif_pos h]
    exact .inl (UInt32.toNat_ofNatLT ..)
  · rw [Char.ofNat, dif_neg h]
    exact .inr rfl

/-- What has a lower-case form of its own turns into something above the digits and stops. -/
theorem lower_above : ∀ row ∈ CaseTable.lower, 64 < (row.1 : Int) + row.2.2.2 := by
  decide +kernel

theorem lowerChar_ne_nil (c : Char) : lowerChar c ≠ [] := by
  unfold lowerChar
  split
  next => exact List.cons_ne_nil _ _
  next => split <;> exact List.cons_ne_nil _ _

/-- Digits and stops have no other upper-case form. -/
theorem eq_of_mem_lowerChar {a c : Char} (hpos : 0 < a.toNat) (ha : a.toNat ≤ 64)
    (h : a ∈ lowerChar c) : c = a := by
  unfold lowerChar at h
  split at h
  next =>
    simp only [List.mem_cons, List.not_mem_nil, or_false] at h
    rcases h with rfl | rfl <;> exact absurd ha (by decide)
  next =>
    split at h
    next first last step shift hrow =>
      have habove := lower_above _ (List.mem_of_find?_eq_some hrow)
      have hfirst := List.find?_some hrow
      simp only [Bool.and_eq_true, decide_eq_true_eq] at hfirst
      have hvalue := congrArg Char.toNat (List.mem_singleton.1 h)
      rcases toNat_ofNat ((c.toNat : Int) + shift).toNat with hcode | hcode <;>
        · simp only at habove
          omega
    next => exact (List.mem_singleton.1 h).symm

theorem length_le_length_lowerAfter (before l : List Char) :
    l.length ≤ (lowerAfter before l).length := by
  induction l generalizing before with
  | nil => exact Nat.le_refl 0
  | cons c rest ih =>
    have hfirst : 0 < (if c = 'Σ'
        then [if startsCased before && !startsCased rest then 'ς' else 'σ']
        else lowerChar c).length := by
      split
      next => exact Nat.one_pos
      next => exact List.length_pos_iff.2 (lowerChar_ne_nil c)
    have hrest := ih (c :: before)
    rw [lowerAfter, List.length_append, List.length_cons]
    omega

theorem mem_of_mem_lowerAfter {a : Char} {before l : List Char} (hpos : 0 < a.toNat)
    (ha : a.toNat ≤ 64) (h : a ∈ lowerAfter before l) : a ∈ l := by
  induction l generalizing before with
  | nil => exact h
  | cons c rest ih =>
    rw [lowerAfter, List.mem_append] at h
    rcases h with h | h
    · split at h
      next =>
        have hsigma := List.mem_singleton.1 h
        split at hsigma <;> exact absurd (hsigma ▸ ha) (by decide)
      next => exact eq_of_mem_lowerChar hpos ha h ▸ List.mem_cons_self ..
    · exact List.mem_cons_of_mem _ (ih h)

end Text

namespace Cython
open Text (lowerCase lowerAfter)

/-! ### The module of a class -/

theorem toList_classModule (name : String) :
    (classModule name).toList = 'c' :: 'p' :: 'p' :: '_' :: lowerAfter [] name.toList := by
  simp [classModule, lowerCase]

theorem classModule_ne_lowerCase (name : String) : classModule name ≠ lowerCase name := by
  intro h
  have hlength := congrArg (·.toList.length) h
  simp only [toList_classModule, List.length_cons, lowerCase, String.toList_ofList] at hlength
  omega

theorem localName_ofModule (name : String) :
    (Import.ofModule (classModule name)).localName = String.ofList
      ('c' :: 'p' :: 'p' :: '_' :: (lowerAfter [] name.toList).takeWhile (· != '.')) := by
  rw [Import.localName, Import.ofModule, toList_classModule]
  rfl

theorem localName_ofModule_ne (name : String) :
    (Import.ofModule (classModule name)).localName ≠ name := by
  intro h
  rw [localName_ofModule] at h
  have hlist := congrArg String.toList h
  rw [String.toList_ofList] at hlist
  -- the name begins like a module without full stop, so lower case has none to cut it at
  have hdot : '.' ∉ name.toList := by
    rw [← hlist]
    simp only [List.mem_cons, not_or]
    refine ⟨by decide, by decide, by decide, by decide, fun hmem => ?_⟩
    simpa using List.mem_takeWhile_imp hmem
  have hwhole : (lowerAfter [] name.toList).takeWhile (· != '.') = lowerAfter [] name.toList := by
    refine List.takeWhile_eq_self_iff.2 fun c hc => ?_
    rw [bne_iff_ne]
    rintro rfl
    exact hdot (Text.mem_of_mem_lowerAfter (by decide) (by decide) hc)
  have hlength := Text.length_le_length_lowerAfter [] name.toList
  rw [hwhole] at hlist
  have hsame := congrArg List.length hlist
  simp only [List.length_cons] at hsame
  omega

theorem localName_ofModule_ne_free (name : String) :
    (Import.ofModule (classModule name)).localName ≠ "free" := by
  intro h
  rw [localName_ofModule] at h
  have hlist := congrArg String.toList h
  rw [String.toList_ofList] at hlist
  exact absurd (List.cons.inj hlist).1 (by decide)

end Cython

end Bindery
