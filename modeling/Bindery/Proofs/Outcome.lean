/-!
# Outcomes

A computation that may end in an error is taken apart by what it means for it to succeed: each of
its steps succeeds, with the value that the next one is given.
-/

namespace Bindery.Outcome
variable {ε α β : Type} {x : Except ε α} {a : α} {b : β}

/-- Outcomes with the same error, or with values that are related. -/
inductive Agree (R : α → β → Prop) : Except ε α → Except ε β → Prop where
  | ok {a : α} {b : β} : R a b → Agree R (.ok a) (.ok b)
  | error (e : ε) : Agree R (.error e) (.error e)

/-- What a computation gives, if it succeeds and gives anything. -/
def given? : Except ε (Option α) → Option α
  | .ok a? => a?
  | .error _ => none

/-- The error that a computation ends in, if it does. -/
def fault? : Except ε α → Option ε
  | .ok _ => none
  | .error e => some e

@[simp]
theorem given?_eq_some {x : Except ε (Option α)} : given? x = some a ↔ x = .ok (some a) := by
  cases x <;> simp [given?]

theorem toOption_eq_some : x.toOption = some a ↔ x = .ok a := by
  cases x <;> simp [Except.toOption]

@[simp]
theorem pure_eq_ok {a' : α} : (pure a : Except ε α) = .ok a' ↔ a = a' := by
  simp [pure, Except.pure]

@[simp]
theorem bind_eq_ok {f : α → Except ε β} :
    (x >>= f) = .ok b ↔ ∃ a, x = .ok a ∧ f a = .ok b := by
  cases x <;> simp [bind, Except.bind]

@[simp]
theorem mapError_eq_ok {ε' : Type} {f : ε → ε'} : x.mapError f = .ok a ↔ x = .ok a := by
  cases x with
  | ok => constructor <;> (intro h; cases h; rfl)
  | error => exact ⟨nofun, nofun⟩

theorem bind_eq_error {f : α → Except ε β} {e : ε} :
    (x >>= f) = .error e ↔ x = .error e ∨ ∃ a, x = .ok a ∧ f a = .error e := by
  cases x <;> simp [bind, Except.bind]

/-- A check passes nothing on. -/
theorem check_eq_ok {x : Except ε Unit} {y : Except ε β} :
    (x >>= fun _ => y) = .ok b ↔ x = .ok () ∧ y = .ok b := by
  cases x <;> simp [bind, Except.bind]

@[simp]
theorem map_eq_ok {f : α → β} : (f <$> x) = .ok b ↔ ∃ a, x = .ok a ∧ f a = b := by
  cases x <;> simp [Functor.map, Except.map]

/-- A list of checks passes when every one does. -/
theorem forM_eq_ok {l : List α} {f : α → Except ε Unit} :
    forM l f = .ok () ↔ ∀ a ∈ l, f a = .ok () := by
  induction l with
  | nil => simp
  | cons a rest ih => rw [List.forM_cons, check_eq_ok, ih, List.forall_mem_cons]

/-- It fails with the first that does not. -/
theorem forM_eq_error {l : List α} {f : α → Except ε Unit} {e : ε} :
    forM l f = .error e ↔
      ∃ before a after, l = before ++ a :: after ∧ (∀ b ∈ before, f b = .ok ()) ∧
        f a = .error e := by
  induction l with
  | nil =>
    constructor
    · nofun
    · rintro ⟨before, a, after, hl, -⟩
      exact absurd hl.symm (List.append_ne_nil_of_right_ne_nil _ (List.cons_ne_nil a after))
  | cons c rest ih =>
    rw [List.forM_cons, bind_eq_error]
    constructor
    · rintro (hc | ⟨_, hc, hrest⟩)
      · exact ⟨[], c, rest, rfl, nofun, hc⟩
      · obtain ⟨before, a, after, rfl, hbefore, ha⟩ := ih.1 hrest
        exact ⟨c :: before, a, after, rfl, List.forall_mem_cons.2 ⟨hc, hbefore⟩, ha⟩
    · rintro ⟨before, a, after, hl, hbefore, ha⟩
      rcases List.cons_eq_append_iff.1 hl with ⟨rfl, hcons⟩ | ⟨before', rfl, rfl⟩
      · obtain ⟨rfl, -⟩ := List.cons.inj hcons
        exact .inl ha
      · obtain ⟨hc, hbefore'⟩ := List.forall_mem_cons.1 hbefore
        exact .inr ⟨(), hc, ih.2 ⟨before', a, after, rfl, hbefore', ha⟩⟩

/-! ### Two outcomes side by side -/

section
variable {γ δ : Type} {R : α → β → Prop} {S : γ → δ → Prop} {y : Except ε β}

theorem Agree.bind {f : α → Except ε γ} {g : β → Except ε δ} (h : Agree R x y)
    (hfg : ∀ a b, R a b → Agree S (f a) (g b)) : Agree S (x >>= f) (y >>= g) := by
  cases h with
  | ok hab => exact hfg _ _ hab
  | error e => exact .error e

theorem Agree.bind_eq {f : α → Except ε γ} {g : β → Except ε γ} (h : Agree R x y)
    (hfg : ∀ a b, R a b → f a = g b) : (x >>= f) = (y >>= g) := by
  cases h with
  | ok hab => exact hfg _ _ hab
  | error e => rfl

theorem Agree.mono {R' : α → β → Prop} (h : Agree R x y) (hR : ∀ a b, R a b → R' a b) :
    Agree R' x y := by
  cases h with
  | ok hab => exact .ok (hR _ _ hab)
  | error e => exact .error e

theorem Agree.mapError {ε' : Type} (h : Agree R x y) (f : ε → ε') :
    Agree R (x.mapError f) (y.mapError f) := by
  cases h with
  | ok hab => exact .ok hab
  | error e => exact .error (f e)

theorem Agree.eq_ok (h : Agree R x y) (hx : x = .ok a) : ∃ b, y = .ok b ∧ R a b := by
  subst hx
  cases h with
  | ok hab => exact ⟨_, rfl, hab⟩

end

end Bindery.Outcome
