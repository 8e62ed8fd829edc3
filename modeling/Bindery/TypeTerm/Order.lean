import Bindery.TypeTerm.Basic

/-!
# The order of type terms

Names come before templates and templates before refinements; templates go by name, then by their
arguments from the left, a list before its extensions; refinements go by kind, pointers first, then
by base. `TypeTerm.cmp` is a linear order, and terms that compare equal are the same term.
-/

namespace Bindery

namespace Refinement

def rank : Refinement → Nat
  | .pointer => 0
  | .reference => 1

theorem rank_inj {r q : Refinement} (h : r.rank = q.rank) : r = q := by
  cases r <;> cases q <;> simp_all [rank]

end Refinement

namespace TypeTerm

mutual

def cmp : TypeTerm → TypeTerm → Ordering
  | .atomic a, .atomic b => compare a b
  | .template a as, .template b bs => (compare a b).then (cmpAll as bs)
  | .refined r s, .refined q t => (compare r.rank q.rank).then (cmp s t)
  | .atomic _, _ => .lt
  | .template .., .atomic _ => .gt
  | .template .., .refined .. => .lt
  | .refined .., _ => .gt

def cmpAll : List TypeTerm → List TypeTerm → Ordering
  | [], [] => .eq
  | [], _ :: _ => .lt
  | _ :: _, [] => .gt
  | s :: l, t :: r => (cmp s t).then (cmpAll l r)

end

theorem cmpAll_eq (l r : List TypeTerm) : cmpAll l r = List.compareLex cmp l r := by
  induction l generalizing r with
  | nil => cases r <;> rfl
  | cons s l ih =>
    cases r with
    | nil => rfl
    | cons t r =>
      rw [cmpAll, List.compareLex_cons_cons, ih]

mutual

theorem cmp_swap (s t : TypeTerm) : cmp s t = (cmp t s).swap := by
  cases s with
  | atomic a => cases t <;> simp [cmp, ← Std.OrientedCmp.eq_swap]
  | template a as =>
    cases t with
    | template b bs =>
      rw [cmp, cmp, Ordering.swap_then, ← cmpAll_swap as bs, ← Std.OrientedCmp.eq_swap]
    | _ => simp [cmp]
  | refined r s =>
    cases t with
    | refined q t =>
      rw [cmp, cmp, Ordering.swap_then, ← cmp_swap s t, ← Std.OrientedCmp.eq_swap]
    | _ => simp [cmp]

theorem cmpAll_swap (l r : List TypeTerm) : cmpAll l r = (cmpAll r l).swap := by
  cases l with
  | nil => cases r <;> simp [cmpAll]
  | cons s l =>
    cases r with
    | nil => simp [cmpAll]
    | cons t r => rw [cmpAll, cmpAll, Ordering.swap_then, ← cmp_swap s t, ← cmpAll_swap l r]

end

mutual

/-- Terms compare equal exactly when they are the same term. -/
theorem cmp_eq_iff (s t : TypeTerm) : cmp s t = .eq ↔ s = t := by
  cases s with
  | atomic a => cases t <;> simp [cmp]
  | template a as =>
    cases t with
    | template b bs => simp [cmp, Ordering.then_eq_eq, cmpAll_eq_iff as bs]
    | _ => simp [cmp]
  | refined r s =>
    cases t with
    | refined q t =>
      simp only [cmp, Ordering.then_eq_eq, cmp_eq_iff s t, Nat.compare_eq_eq, refined.injEq]
      exact and_congr_left' ⟨Refinement.rank_inj, fun h => h ▸ rfl⟩
    | _ => simp [cmp]

theorem cmpAll_eq_iff (l r : List TypeTerm) : cmpAll l r = .eq ↔ l = r := by
  cases l with
  | nil => cases r <;> simp [cmpAll]
  | cons s l =>
    cases r with
    | nil => simp [cmpAll]
    | cons t r => simp [cmpAll, Ordering.then_eq_eq, cmp_eq_iff s t, cmpAll_eq_iff l r]

end

/-- A comparison by a first and then by a second key passes "less" on when both do, equality of
the first key meaning that the keys are the same. -/
theorem then_lt_trans {α : Type} {c : α → α → Ordering} [Std.TransCmp c] [Std.LawfulEqCmp c]
    {a b d : α} {o p q : Ordering} (ih : o = .lt → p = .lt → q = .lt)
    (h₁ : (c a b).then o = .lt) (h₂ : (c b d).then p = .lt) : (c a d).then q = .lt := by
  rw [Ordering.then_eq_lt] at *
  rcases h₁ with h₁ | ⟨h₁, ho⟩
  · rcases h₂ with h₂ | ⟨h₂, -⟩
    · exact .inl (Std.TransCmp.lt_trans h₁ h₂)
    · exact .inl (Std.LawfulEqCmp.eq_of_compare h₂ ▸ h₁)
  · rcases h₂ with h₂ | ⟨h₂, hp⟩
    · exact .inl (Std.LawfulEqCmp.eq_of_compare h₁ ▸ h₂)
    · exact .inr ⟨Std.LawfulEqCmp.eq_of_compare h₁ ▸ h₂, ih ho hp⟩

mutual

theorem cmp_lt_trans (s t u : TypeTerm) (h₁ : cmp s t = .lt) (h₂ : cmp t u = .lt) :
    cmp s u = .lt := by
  cases s with
  | atomic a =>
    cases u with
    | atomic c =>
      cases t with
      | atomic b =>
        rw [cmp] at h₁ h₂ ⊢
        exact Std.TransCmp.lt_trans h₁ h₂
      | _ => simp [cmp] at h₂
    | _ => simp [cmp]
  | template a as =>
    cases t with
    | atomic b => simp [cmp] at h₁
    | template b bs =>
      cases u with
      | atomic c => simp [cmp] at h₂
      | template c cs =>
        rw [cmp] at h₁ h₂ ⊢
        exact then_lt_trans (cmpAll_lt_trans as bs cs) h₁ h₂
      | refined p u => simp [cmp]
    | refined q t =>
      cases u with
      | refined p u => simp [cmp]
      | _ => simp [cmp] at h₂
  | refined r s =>
    cases t with
    | refined q t =>
      cases u with
      | refined p u =>
        rw [cmp] at h₁ h₂ ⊢
        exact then_lt_trans (cmp_lt_trans s t u) h₁ h₂
      | _ => simp [cmp] at h₂
    | _ => simp [cmp] at h₁

theorem cmpAll_lt_trans (l m r : List TypeTerm) (h₁ : cmpAll l m = .lt) (h₂ : cmpAll m r = .lt) :
    cmpAll l r = .lt := by
  cases l with
  | nil =>
    cases r with
    | nil => cases m <;> simp [cmpAll] at h₁ h₂
    | cons u r => rfl
  | cons s l =>
    cases m with
    | nil => simp [cmpAll] at h₁
    | cons t m =>
      cases r with
      | nil => simp [cmpAll] at h₂
      | cons u r =>
        rw [cmpAll, Ordering.then_eq_lt] at *
        rcases h₁ with h₁ | ⟨h₁, hl⟩
        · rcases h₂ with h₂ | ⟨h₂, -⟩
          · exact .inl (cmp_lt_trans s t u h₁ h₂)
          · exact .inl ((cmp_eq_iff t u).1 h₂ ▸ h₁)
        · rcases h₂ with h₂ | ⟨h₂, hm⟩
          · exact .inl ((cmp_eq_iff s t).1 h₁ ▸ h₂)
          · exact .inr ⟨(cmp_eq_iff s t).1 h₁ ▸ h₂, cmpAll_lt_trans l m r hl hm⟩

end

instance : Std.LawfulEqCmp cmp where
  compare_self := (cmp_eq_iff _ _).2 rfl
  eq_of_compare h := (cmp_eq_iff _ _).1 h

instance : Std.TransCmp cmp where
  eq_swap := cmp_swap _ _
  isLE_trans {a b c} h₁ h₂ := by
    rw [Ordering.isLE_iff_eq_lt_or_eq_eq] at *
    rcases h₁ with h₁ | h₁
    · rcases h₂ with h₂ | h₂
      · exact .inl (cmp_lt_trans a b c h₁ h₂)
      · exact .inl ((cmp_eq_iff b c).1 h₂ ▸ h₁)
    · exact (cmp_eq_iff a b).1 h₁ ▸ h₂

instance : DecidableEq TypeTerm := fun s t => decidable_of_iff _ (cmp_eq_iff s t)

end TypeTerm

end Bindery
