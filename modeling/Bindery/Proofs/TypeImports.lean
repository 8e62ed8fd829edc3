import Bindery.Proofs.ModuleNames

/-!
# What a type asks to be imported

`Asks` has one rule for each place in a term that needs an import: a primitive that is a library
type, a class, a container, and whatever stands inside of a term. There is no rule for a name that
is not plain, so the spelling of an instantiation or a qualified name asks for nothing.
-/

namespace Bindery.Cython

inductive Asks : TypeTerm → Import → Prop where
  | primitive {name text : String} {i : Import} :
      primitive? name = some (text, some i) → Asks (.atomic name) i
  | className {name : String} :
      primitive? name = none → isPlainName name = true →
      Asks (.atomic name) (.ofSymbol (classModule name) name)
  | container {name source localName : String} {args : List TypeTerm} :
      container? name = some (source, localName) →
      Asks (.template name args) (.aliased source name localName)
  | argument {name : String} {args : List TypeTerm} {t : TypeTerm} {i : Import} :
      t ∈ args → Asks t i → Asks (.template name args) i
  | base {refine : Refinement} {base : TypeTerm} {i : Import} :
      Asks base i → Asks (.refined refine base) i

theorem asks_atomic_iff {name : String} {i : Import} :
    Asks (.atomic name) i ↔ i ∈ atomImports name := by
  unfold atomImports
  constructor
  · intro h
    cases h with
    | primitive h => simp [h]
    | className hnone hplain => simp [hnone, hplain]
  · intro h
    split at h
    next text found hfound =>
      obtain rfl := Option.mem_toList.1 h
      exact .primitive hfound
    next hnone =>
      split at h
      next hplain => exact List.mem_singleton.1 h ▸ .className hnone hplain
      next => cases h

theorem importsAll_eq (l : List TypeTerm) : importsAll l = l.flatMap imports := by
  induction l with
  | nil => rfl
  | cons t rest ih => rw [importsAll, ih, List.flatMap_cons]

mutual

theorem asks_of_mem_imports {i : Import} : ∀ {t : TypeTerm}, i ∈ imports t → Asks t i
  | .atomic _, h => asks_atomic_iff.2 h
  | .template name args, h => by
    rw [imports, List.mem_append] at h
    rcases h with h | h
    · unfold containerImports at h
      split at h
      next hfound => exact List.mem_singleton.1 h ▸ .container hfound
      next => cases h
    · obtain ⟨t, ht, hasks⟩ := asks_of_mem_importsAll h
      exact .argument ht hasks
  | .refined _ _, h => .base (asks_of_mem_imports h)

theorem asks_of_mem_importsAll {i : Import} :
    ∀ {l : List TypeTerm}, i ∈ importsAll l → ∃ t ∈ l, Asks t i
  | t :: rest, h => by
    rw [importsAll, List.mem_append] at h
    rcases h with h | h
    · exact ⟨t, List.mem_cons_self .., asks_of_mem_imports h⟩
    · obtain ⟨u, hu, hasks⟩ := asks_of_mem_importsAll h
      exact ⟨u, List.mem_cons_of_mem _ hu, hasks⟩

end

theorem mem_imports_iff {t : TypeTerm} {i : Import} : i ∈ imports t ↔ Asks t i := by
  refine ⟨asks_of_mem_imports, fun h => ?_⟩
  induction h with
  | primitive h => exact asks_atomic_iff.1 (.primitive h)
  | className hnone hplain => exact asks_atomic_iff.1 (.className hnone hplain)
  | container h =>
    rw [imports, containerImports, h]
    exact List.mem_append_left _ (List.mem_singleton_self _)
  | argument ht _ ih =>
    rw [imports, importsAll_eq]
    exact List.mem_append_right _ (List.mem_flatMap.2 ⟨_, ht, ih⟩)
  | base _ ih => exact ih

/-! ### What the imports bind -/

/-- A symbol with a plain name, known by a plain name that is no primitive's. -/
structure IsPlainImport (i : Import) : Prop where
  symbol : ∃ s, i.symbol? = some s ∧ isPlainName s = true
  binds : i.binds? = some i.localName
  localName : isPlainName i.localName = true
  notPrimitive : primitive? i.localName = none

theorem isPlainImport_primitive {name text : String} {i : Import}
    (h : primitive? name = some (text, some i)) : IsPlainImport i := by
  unfold primitive? at h
  split at h <;> cases h <;> exact ⟨⟨_, rfl, by decide⟩, rfl, by decide, by decide⟩

theorem isPlainImport_container {name source localName : String}
    (h : container? name = some (source, localName)) :
    IsPlainImport (.aliased source name localName) := by
  unfold container? at h
  split at h <;> cases h <;> exact ⟨⟨_, rfl, by decide⟩, rfl, by decide, by decide⟩

theorem Asks.isPlainImport {t : TypeTerm} {i : Import} (h : Asks t i) : IsPlainImport i := by
  induction h with
  | primitive h => exact isPlainImport_primitive h
  | className hnone hplain => exact ⟨⟨_, rfl, hplain⟩, rfl, hplain, hnone⟩
  | container h => exact isPlainImport_container h
  | argument _ _ ih => exact ih
  | base _ ih => exact ih

/-- A name that is not plain is no primitive's either, so it asks for nothing. -/
theorem not_asks_of_not_plain {name : String} (h : isPlainName name = false) (i : Import) :
    ¬ Asks (.atomic name) i := by
  intro hasks
  cases hasks with
  | primitive hfound =>
    unfold primitive? at hfound
    split at hfound <;> first | exact absurd h (by decide) | cases hfound
  | className _ hplain => exact absurd hplain (by simp [h])

end Bindery.Cython
