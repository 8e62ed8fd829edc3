import Bindery.Description.Interchange
import Bindery.Proofs.WrittenValues

/-!
# Written records

A record is written as an object that gives its fields in their order and leaves out some that have
a default. The relation `Written` follows the names of the fields and says how each of them takes
the record one step on; `load_of_written` says that loading the object then succeeds and ends where
the steps end.
-/

namespace Bindery.Json.Fields
variable {σ : Type}

/-- The members give the fields `names` and, put in one after the other, take `s` to `s'`. -/
inductive Written (F : Fields σ) : List String → σ → List (String × Json) → σ → Prop
  | nil {s : σ} : Written F [] s [] s
  | leave {key : String} {names : List String} {s s' : σ} {members : List (String × Json)} :
      key ∉ F.required → Written F names s members s' → Written F (key :: names) s members s'
  | put {key : String} {v : Json} {names : List String} {s t s' : σ}
      {rest : List (String × Json)} : F.put key (.ofJson v) s = .ok t →
      Written F names t rest s' → Written F (key :: names) s ((key, v) :: rest) s'

variable {F : Fields σ} {names seen : List String} {key : String} {s t s' : σ}
  {members rest : List (String × Json)}

namespace Written

theorem mem_of_required (h : Written F names s members s') (hkey : key ∈ names)
    (hrequired : key ∈ F.required) : key ∈ members.map Prod.fst := by
  induction h with
  | nil => cases hkey
  | leave hopt _ ih =>
    rcases List.mem_cons.mp hkey with rfl | hkey
    · exact absurd hrequired hopt
    · exact ih hkey
  | put _ _ ih =>
    rw [List.map_cons, List.mem_cons]
    exact (List.mem_cons.mp hkey).imp id ih

theorem of_append_nil (h : Written F names s (members ++ []) s') :
    Written F names s members s' := by
  rwa [List.append_nil] at h

/-- A field that is left out when there is nothing to say. -/
theorem part {part : List (String × Json)} (hopt : key ∉ F.required)
    (hpart : part = [] ∧ s = t ∨ ∃ v, part = [(key, v)] ∧ F.put key (.ofJson v) s = .ok t)
    (hrest : Written F names t rest s') : Written F (key :: names) s (part ++ rest) s' := by
  obtain ⟨rfl, rfl⟩ | ⟨v, rfl, hput⟩ := hpart
  · exact .leave hopt hrest
  · exact .put hput hrest

theorem field? {α : Type} {f : Reading → Load α} {g : α → Json} {o : Option α} {u : Option α → σ}
    (hopt : key ∉ F.required) (hput : ∀ r, F.put key r s = do return u (← r.loadOptional f))
    (hnone : u none = s) (hnull : ∀ a, g a ≠ .null) (hload : ∀ a, f (.ofJson (g a)) = .ok a)
    (hrest : Written F names (u o) rest s') :
    Written F (key :: names) s (Json.field? key g o ++ rest) s' := by
  refine part hopt ?_ hrest
  cases o with
  | none => exact .inl ⟨rfl, hnone.symm⟩
  | some a =>
    refine .inr ⟨g a, rfl, ?_⟩
    rw [hput, Reading.loadOptional_ofJson (hnull a) (hload a)]
    rfl

/-- Every member is new when its turn comes, so that none is refused as a repetition. -/
theorem loadMembers (h : Written F names s members s') (hnames : names ⊆ F.names)
    (hnodup : names.Nodup) (hseen : ∀ key ∈ seen, key ∉ names) :
    F.loadMembers seen s (Reading.ofMembers members) =
      .ok ((members.map Prod.fst).reverse ++ seen, s') := by
  induction h generalizing seen with
  | nil => rfl
  | leave _ _ ih =>
    rw [List.nodup_cons] at hnodup
    rw [List.cons_subset] at hnames
    exact ih hnames.2 hnodup.2 fun k hk hmem => hseen k hk (List.mem_cons_of_mem _ hmem)
  | @put key v names s t rest s' hput _ ih =>
    rw [List.nodup_cons] at hnodup
    rw [List.cons_subset] at hnames
    have hknown : F.names.contains key = true := List.contains_iff_mem.mpr hnames.1
    have hnew : seen.contains key = false := by
      have hout : key ∉ seen := fun hmem => hseen key hmem (List.mem_cons_self ..)
      simpa using hout
    have hseen' : ∀ k ∈ key :: seen, k ∉ names := by
      intro k hk
      rcases List.mem_cons.mp hk with rfl | hk
      · exact hnodup.1
      · exact fun hmem => hseen k hk (List.mem_cons_of_mem _ hmem)
    have hrest := ih hnames.2 hnodup.2 hseen'
    rw [Reading.ofMembers, Fields.loadMembers, if_pos hknown, hnew, hput, Load.under_ok]
    simpa using hrest

end Written

theorem load_of_written (hnodup : F.names.Nodup) (hrequired : F.required ⊆ F.names)
    (h : F.Written F.names s members s') : F.load s (.ofJson (.object members)) = .ok s' := by
  have hmembers : F.loadMembers [] s (Reading.ofMembers members) =
      .ok ((members.map Prod.fst).reverse ++ [], s') :=
    h.loadMembers (List.Subset.refl _) hnodup nofun
  have hthere : F.required.find?
      (fun name => !((members.map Prod.fst).reverse ++ []).contains name) = none := by
    rw [List.find?_eq_none]
    intro name hname
    simpa using h.mem_of_required (hrequired hname) hname
  rw [Reading.ofJson, Fields.load, hmembers]
  simp only [bind, Except.bind, Reading.checkClosed, if_pos, checkRequired, hthere]
  rfl

end Bindery.Json.Fields
