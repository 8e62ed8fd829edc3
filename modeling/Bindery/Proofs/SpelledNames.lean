import Bindery.Proofs.TypeImports
import Mathlib.Data.Set.Defs

/-!
# The names in a type's text

The text of a term spells a name for each name and each template in it (`Spells`), and the imports
of the term are there to bind those names. Both go through the term on their own, by the same
tables, so `spelled_names_imported` compares them: every name that needs an import has one, and
every import has a name. A class that is called like something the backend imports from the library
spoils this, because both are then bound by one name.
-/

namespace Bindery.Cython
open Text (join)

/-! ### What is imported from the library -/

def libraryImports : List Import :=
  ["bool", "str"].flatMap atomImports ++
    ["vector", "map", "set", "list", "deque", "pair", "unordered_map", "unordered_set"].flatMap
      containerImports

/-- The backend itself has an import that binds the name. -/
def IsLocalAlias (name : String) : Prop := ∃ i ∈ libraryImports, i.binds? = some name

instance : DecidablePred IsLocalAlias := fun _ => List.decidableBEx ..

example : libraryImports.filterMap Import.binds? =
    ["cpp_bool", "std_string", "cpp_vector", "cpp_map", "cpp_set", "cpp_list", "cpp_deque",
      "cpp_pair", "cpp_unordered_map", "cpp_unordered_set"] := by
  decide

theorem library_primitive {name text : String} {i : Import}
    (h : primitive? name = some (text, some i)) : i ∈ libraryImports ∧ i.binds? = some text := by
  unfold primitive? at h
  split at h <;> cases h <;> decide

theorem library_container {name source localName : String}
    (h : container? name = some (source, localName)) :
    .aliased source name localName ∈ libraryImports := by
  unfold container? at h
  split at h <;> cases h <;> decide

theorem eq_of_binds_library : ∀ i ∈ libraryImports, ∀ j ∈ libraryImports,
    i.binds? = j.binds? → i = j := by
  decide

/-! ### What is spelled -/

theorem typeTexts_eq (l : List TypeTerm) : typeTexts l = l.map typeText := by
  induction l with
  | nil => rfl
  | cons t rest ih => rw [typeTexts, ih, List.map_cons]

/-- The text of a part gives this name for the part itself, before the texts of its arguments if it
is a template. A refinement has a mark and no name. -/
inductive Spells : TypeTerm → String → Prop where
  | leaf {name x : String} : typeText (.atomic name) = x → Spells (.atomic name) x
  | template {name x : String} {args : List TypeTerm} :
      typeText (.template name args) = x ++ "[" ++ join ", " (args.map typeText) ++ "]" →
        Spells (.template name args) x

/-- The name of the part is not imported. -/
inductive NeedsNone : TypeTerm → Prop where
  /-- A type of C. -/
  | builtin {name text : String} : primitive? name = some (text, none) → NeedsNone (.atomic name)
  /-- The spelling of an instantiation, a qualified name, or whatever else is no identifier. -/
  | notPlain {name : String} : isPlainName name = false → NeedsNone (.atomic name)
  /-- A template that the backend has no module for. -/
  | unlisted {name : String} {args : List TypeTerm} :
      container? name = none → NeedsNone (.template name args)

/-- No class in the term is called like something that is imported from the library. -/
def AvoidsAliases (t : TypeTerm) : Prop := ∀ name, .atomic name ∈ t.parts → ¬ IsLocalAlias name

section
variable {t p : TypeTerm} {name x : String} {args : List TypeTerm} {i : Import}

theorem spells_template_iff :
    Spells (.template name args) x ↔ x = ((container? name).map (·.2)).getD name := by
  have htext : typeText (.template name args) =
      ((container? name).map (·.2)).getD name ++ "[" ++ join ", " (args.map typeText) ++ "]" := by
    rw [typeText, typeTexts_eq]
  constructor
  · intro h
    cases h with
    | template h =>
      rw [htext] at h
      have hlist := congrArg String.toList h
      simp only [String.toList_append, List.append_assoc, List.append_cancel_right_eq] at hlist
      exact (String.toList_injective hlist).symm
  · rintro rfl
    exact .template htext

theorem infix_join {sep : String} {l : List String} (h : x ∈ l) :
    x.toList <:+: (join sep l).toList := by
  induction l with
  | nil => cases h
  | cons a rest ih =>
    by_cases hrest : rest = []
    · subst hrest
      rw [List.mem_singleton.1 h]
      exact List.infix_rfl
    · rw [Text.join_cons_of_ne_nil sep a hrest, String.toList_append]
      rcases List.mem_cons.1 h with rfl | h
      · rw [String.toList_append, List.append_assoc]
        exact (List.prefix_append _ _).isInfix
      · exact (ih h).trans (List.suffix_append _ _).isInfix

theorem infix_typeText (hp : p ∈ t.parts) : (typeText p).toList <:+: (typeText t).toList := by
  induction t using TypeTerm.induction with
  | atomic name =>
    obtain rfl := TypeTerm.mem_parts_atomic.1 hp
    exact List.infix_rfl
  | template name args ih =>
    rcases TypeTerm.mem_parts_template.1 hp with rfl | ⟨u, hu, hp⟩
    · exact List.infix_rfl
    · refine (ih u hu hp).trans ?_
      rw [typeText, typeTexts_eq, String.toList_append, String.toList_append]
      refine .trans ?_ (List.prefix_append _ _).isInfix
      exact (infix_join (List.mem_map_of_mem hu)).trans (List.suffix_append _ _).isInfix
  | refined refine base ih =>
    rcases TypeTerm.mem_parts_refined.1 hp with rfl | hp
    · exact List.infix_rfl
    · refine (ih hp).trans ?_
      rw [typeText, String.toList_append, String.toList_append, List.append_assoc]
      exact (List.prefix_append _ _).isInfix

theorem Spells.infix_typeText (h : Spells p x) : x.toList <:+: (typeText p).toList := by
  cases h with
  | leaf h => exact h ▸ List.infix_rfl
  | template h =>
    rw [h]
    simp only [String.toList_append, List.append_assoc]
    exact (List.prefix_append _ _).isInfix

/-! ### The name of an import, and the import of a name -/

theorem Asks.of_mem_parts (hp : p ∈ t.parts) (h : Asks p i) : Asks t i := by
  induction t using TypeTerm.induction with
  | atomic name => exact TypeTerm.mem_parts_atomic.1 hp ▸ h
  | template name args ih =>
    rcases TypeTerm.mem_parts_template.1 hp with rfl | ⟨u, hu, hp⟩
    · exact h
    · exact .argument hu (ih u hu hp)
  | refined refine base ih =>
    rcases TypeTerm.mem_parts_refined.1 hp with rfl | hp
    · exact h
    · exact .base (ih hp)

/-- What is asked for is asked for by a name in the text that needs it. -/
theorem Asks.spelled (h : Asks t i) :
    ∃ p ∈ t.parts, ∃ x, Spells p x ∧ ¬ NeedsNone p ∧ i.binds? = some x := by
  induction h with
  | @primitive name text i h =>
    refine ⟨_, TypeTerm.self_mem_parts _, text, .leaf (by rw [typeText, h]; rfl), fun hnone => ?_,
      (library_primitive h).2⟩
    cases hnone with
    | builtin hbuiltin =>
      rw [h] at hbuiltin
      cases hbuiltin
    | notPlain hplain => exact not_asks_of_not_plain hplain i (.primitive h)
  | @className name hnone hplain =>
    refine ⟨_, TypeTerm.self_mem_parts _, name, .leaf (by rw [typeText, hnone]; rfl),
      fun hneeds => ?_, rfl⟩
    cases hneeds with
    | builtin hbuiltin =>
      rw [hnone] at hbuiltin
      cases hbuiltin
    | notPlain hnotPlain =>
      rw [hplain] at hnotPlain
      cases hnotPlain
  | @container name source localName args h =>
    refine ⟨_, TypeTerm.self_mem_parts _, localName, spells_template_iff.2 (by rw [h]; rfl),
      fun hneeds => ?_, rfl⟩
    cases hneeds with
    | unlisted hnone =>
      rw [h] at hnone
      cases hnone
  | argument ht _ ih =>
    obtain ⟨p, hp, hspelled⟩ := ih
    exact ⟨p, TypeTerm.mem_parts_template.2 (.inr ⟨_, ht, hp⟩), hspelled⟩
  | base _ ih =>
    obtain ⟨p, hp, hspelled⟩ := ih
    exact ⟨p, TypeTerm.mem_parts_refined.2 (.inr hp), hspelled⟩

theorem Spells.exists_asks (h : Spells p x) (hneeds : ¬ NeedsNone p) :
    ∃ i, Asks p i ∧ i.binds? = some x := by
  cases h with
  | @leaf name _ h =>
    rw [typeText] at h
    cases hfound : primitive? name with
    | none =>
      rw [hfound] at h
      cases hplain : isPlainName name with
      | false => exact absurd (.notPlain hplain) hneeds
      | true => exact ⟨_, .className hfound hplain, congrArg some h⟩
    | some found =>
      obtain ⟨text, i?⟩ := found
      rw [hfound] at h
      cases i? with
      | none => exact absurd (.builtin hfound) hneeds
      | some i => exact ⟨i, .primitive hfound, h ▸ (library_primitive hfound).2⟩
  | @template name _ args h =>
    have hx := spells_template_iff.1 (.template h)
    cases hfound : container? name with
    | none => exact absurd (.unlisted hfound) hneeds
    | some found =>
      obtain ⟨source, localName⟩ := found
      rw [hfound] at hx
      exact ⟨_, .container hfound, congrArg some hx.symm⟩

/-- A term asks for something of the library, or for a class that it names. -/
theorem Asks.origin (h : Asks t i) : i ∈ libraryImports ∨
    ∃ n, .atomic n ∈ t.parts ∧ i = .ofSymbol (classModule n) n := by
  induction h with
  | primitive h => exact .inl (library_primitive h).1
  | className => exact .inr ⟨_, TypeTerm.self_mem_parts _, rfl⟩
  | container h => exact .inl (library_container h)
  | argument ht _ ih =>
    refine ih.imp_right ?_
    rintro ⟨n, hn, hi⟩
    exact ⟨n, TypeTerm.mem_parts_template.2 (.inr ⟨_, ht, hn⟩), hi⟩
  | base _ ih =>
    refine ih.imp_right ?_
    rintro ⟨n, hn, hi⟩
    exact ⟨n, TypeTerm.mem_parts_refined.2 (.inr hn), hi⟩

theorem Asks.eq_of_binds {s : TypeTerm} {j : Import} (hs : AvoidsAliases s) (ht : AvoidsAliases t)
    (hi : Asks s i) (hj : Asks t j) (h : i.binds? = j.binds?) : i = j := by
  rcases hi.origin with hi | ⟨m, hm, rfl⟩
  · rcases hj.origin with hj | ⟨n, hn, rfl⟩
    · exact eq_of_binds_library i hi j hj h
    · exact absurd ⟨i, hi, h⟩ (ht n hn)
  · rcases hj.origin with hj | ⟨n, hn, rfl⟩
    · exact absurd ⟨j, hj, h.symm⟩ (hs m hm)
    · obtain rfl : m = n := Option.some.inj h
      rfl

end

/-- In terms whose classes have names of their own, every name in the text that needs an import has
exactly one, every import binds such a name, no two imports bind the same one, and a class comes
from the module that its header is. -/
theorem spelled_names_imported {S : Set TypeTerm} (h : ∀ t ∈ S, AvoidsAliases t) :
    (∀ t ∈ S,
      (∀ p ∈ t.parts, ∀ x, Spells p x → x.toList <:+: (typeText t).toList ∧
        (¬ NeedsNone p → ∃! i, i ∈ imports t ∧ i.binds? = some x)) ∧
      (∀ i ∈ imports t, ∃ p ∈ t.parts, ∃ x, Spells p x ∧ ¬ NeedsNone p ∧ i.binds? = some x) ∧
      ∀ n, .atomic n ∈ t.parts → primitive? n = none → isPlainName n = true →
        ∃ i ∈ imports t, i.binds? = some n ∧ i.source ++ ".pxd" = fileName .header n) ∧
    ∀ s ∈ S, ∀ t ∈ S, ∀ i ∈ imports s, ∀ j ∈ imports t, i.binds? = j.binds? → i = j := by
  have hunique : ∀ s ∈ S, ∀ t ∈ S, ∀ i ∈ imports s, ∀ j ∈ imports t,
      i.binds? = j.binds? → i = j := by
    intro s hs t ht i hi j hj
    exact (mem_imports_iff.1 hi).eq_of_binds (h s hs) (h t ht) (mem_imports_iff.1 hj)
  refine ⟨fun t ht => ⟨fun p hp x hx => ⟨?_, fun hneeds => ?_⟩, fun i hi => ?_, ?_⟩, hunique⟩
  · exact hx.infix_typeText.trans (infix_typeText hp)
  · obtain ⟨i, hasks, hbinds⟩ := hx.exists_asks hneeds
    have hi := mem_imports_iff.2 (hasks.of_mem_parts hp)
    refine ⟨i, ⟨hi, hbinds⟩, ?_⟩
    rintro j ⟨hj, hjbinds⟩
    exact hunique t ht t ht j hj i hi (hjbinds.trans hbinds.symm)
  · exact (mem_imports_iff.1 hi).spelled
  · intro n hn hnone hplain
    exact ⟨_, mem_imports_iff.2 (.of_mem_parts hn (.className hnone hplain)), rfl, rfl⟩

theorem spelled_names_imported_materials :
    let materials := TypeTerm.reference (.template "map" [.str, .atomic "Material"])
    let flags := TypeTerm.template "vector" [.pointer (.atomic "bool")]
    let S : Set TypeTerm := {t | t ∈ [materials, flags]}
    typeText materials = "cpp_map[std_string, Material] &" ∧ (∀ t ∈ S, AvoidsAliases t) ∧
      (∃! i, i ∈ imports materials ∧ i.binds? = some "std_string") ∧
      (∃ i ∈ imports materials, i.binds? = some "Material" ∧
        i.source ++ ".pxd" = fileName .header "Material") ∧
      ∀ i ∈ imports materials, ∀ j ∈ imports flags, i.binds? = j.binds? → i = j := by
  intro materials flags S
  have hmaterials : materials ∈ S := List.mem_cons_self ..
  have hflags : flags ∈ S := List.mem_cons_of_mem _ (List.mem_cons_self ..)
  have havoids : ∀ t ∈ S, AvoidsAliases t := by
    refine List.forall_mem_cons.2 ⟨fun name hname => ?_, List.forall_mem_singleton.2 ?_⟩
    · have hcases : name = "str" ∨ name = "Material" := by
        simpa [materials, TypeTerm.str] using hname
      rcases hcases with rfl | rfl <;> decide
    · intro name hname
      obtain rfl : name = "bool" := by simpa [flags] using hname
      decide
  obtain ⟨hterms, hunique⟩ := spelled_names_imported havoids
  obtain ⟨hspelled, -, hclasses⟩ := hterms materials hmaterials
  have hstr : .atomic "str" ∈ materials.parts := by simp [materials, TypeTerm.str]
  have hmaterial : .atomic "Material" ∈ materials.parts := by simp [materials, TypeTerm.str]
  have hneeds : ¬ NeedsNone (.atomic "str") := by
    intro h
    cases h with
    | builtin h => cases h
    | notPlain h => exact absurd h (by decide)
  exact ⟨by decide, havoids, (hspelled _ hstr _ (.leaf rfl)).2 hneeds,
    hclasses _ hmaterial (by decide) (by decide), hunique _ hmaterials _ hflags⟩

/-- A class that is called like the string type is bound by the name of the string type. -/
example : ∃ i ∈ imports .str, ∃ j ∈ imports (.atomic "std_string"),
    i.binds? = j.binds? ∧ i ≠ j := by
  decide

end Bindery.Cython
