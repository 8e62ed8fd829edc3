import Bindery.Proofs.FileImports

/-!
# The names that the files of a class bind

The header and the implementation import what types ask for, less what binds the class's own name;
the declaration imports a class for every parent that is a name, whatever the name is. So a parent's
name is what may go wrong: it can be the class's own (`own_name_bound_iff`), it need not be plain
(`plain_symbols_iff`), and the implementation binds it, if it binds it at all, to something else
than the declaration does (`names_agree_iff`).
-/

namespace Bindery.Cython
open Text (lowerCase)
variable {d : Description} {name : String} {marker? : Option String}

/-! ### The class's own name -/

theorem exists_localName_header : ¬ ∃ i ∈ fileImports d name .header, i.localName = name := by
  rintro ⟨i, hi, hbinds⟩
  exact (mem_headerImports.1 hi).2 hbinds

theorem exists_localName_declaration :
    (∃ i ∈ fileImports d name .declaration, i.localName = name) ↔
      .atomic name ∈ d.parents?.getD [] := by
  constructor
  · rintro ⟨i, hi, hbinds⟩
    rcases mem_declarationImports.1 hi with rfl | ⟨n, hn, rfl⟩
    · exact absurd hbinds (localName_ofModule_ne name)
    · obtain rfl : n = name := hbinds
      exact hn
  · intro hparent
    exact ⟨_, parent_mem_declarationImports hparent, rfl⟩

theorem exists_localName_implementation :
    (∃ i ∈ fileImports d name .implementation, i.localName = name) ↔ name = "free" := by
  constructor
  · rintro ⟨i, hi, hbinds⟩
    rcases mem_implementationImports.1 hi with hi | rfl | rfl
    · exact absurd hbinds hi.2
    · exact hbinds.symm
    · exact absurd hbinds (localName_ofModule_ne name)
  · rintro rfl
    exact ⟨_, free_mem_implementationImports, rfl⟩

/-- Every valid description is written, and the only files that bind the class's own name are the
declaration of a class that has its own name for a parent, and the implementation of a class named
like the function that frees it. -/
theorem own_name_bound_iff (marker? : Option String) (h : d.validate = .ok ()) :
    ∃ name files, Writes d marker? name files ∧ ∀ kind,
      (∃ i ∈ fileImports d name kind, i.localName = name) ↔
        kind = .declaration ∧ .atomic name ∈ d.parents?.getD [] ∨
          kind = .implementation ∧ name = "free" := by
  obtain ⟨name, files, hwrites⟩ := generate_writes marker? h
  refine ⟨name, files, hwrites, fun kind => ?_⟩
  cases kind with
  | header => simpa using exists_localName_header
  | declaration => simpa using exists_localName_declaration
  | implementation => simpa using exists_localName_implementation

def derivedOven : Description :=
  { Description.named "Oven" with
    parents? := some [.atomic "Oven"]
    scope? := some "kitchen" }

theorem own_name_bound_iff_derived :
    derivedOven.validate = .ok () ∧
      ∃ name files, Writes derivedOven (some defaultMarker) name files ∧ ∀ kind,
        (∃ i ∈ fileImports derivedOven name kind, i.localName = name) ↔
          kind = .declaration ∧ .atomic name ∈ derivedOven.parents?.getD [] ∨
            kind = .implementation ∧ name = "free" :=
  have hvalid : derivedOven.validate = .ok () := rfl
  ⟨hvalid, own_name_bound_iff (some defaultMarker) hvalid⟩

theorem own_name_bound : ¬ ∀ (d : Description) (marker? : Option String) (name : String)
    (files : Artifacts), Writes d marker? name files →
      ∀ kind, ∀ i ∈ fileImports d name kind, i.localName ≠ name := by
  intro h
  obtain ⟨name, files, hwrites⟩ := generate_writes (d := derivedOven) (some defaultMarker) rfl
  obtain rfl : "Oven" = name := Option.some.inj hwrites.named
  have hparent : .atomic "Oven" ∈ derivedOven.parents?.getD [] := List.mem_singleton_self _
  exact h _ _ _ _ hwrites .declaration _ (parent_mem_declarationImports hparent) rfl

/-! ### Plain symbols -/

def PlainSymbols (l : List Import) : Prop :=
  ∀ i ∈ l, ∀ s, i.symbol? = some s → isPlainName s = true

theorem plainSymbols_header : PlainSymbols (fileImports d name .header) := by
  intro i hi s hs
  obtain ⟨s', hs', hplain⟩ := (mem_headerImports.1 hi).1.isPlainImport.symbol
  rw [hs] at hs'
  exact Option.some.inj hs' ▸ hplain

theorem plainSymbols_implementation : PlainSymbols (fileImports d name .implementation) := by
  intro i hi s hs
  rcases mem_implementationImports.1 hi with hi | rfl | rfl
  · exact plainSymbols_header i (mem_headerImports.2 hi) s hs
  · cases hs
    decide
  · cases hs

theorem plainSymbols_declaration :
    PlainSymbols (fileImports d name .declaration) ↔
      ∀ n, .atomic n ∈ d.parents?.getD [] → isPlainName n = true := by
  constructor
  · intro h n hn
    exact h _ (parent_mem_declarationImports hn) n rfl
  · intro h i hi s hs
    rcases mem_declarationImports.1 hi with rfl | ⟨n, hn, rfl⟩
    · cases hs
    · obtain rfl : n = s := Option.some.inj hs
      exact h n hn

/-- Every valid description is written. The header and the implementation import what a type on show
asks for, so plain symbols only and nothing for a name that is not plain, wherever it stands; the
declaration imports plain symbols only if every parent that is a name has a plain one. -/
theorem plain_symbols_iff (marker? : Option String) (h : d.validate = .ok ()) :
    ∃ name files, Writes d marker? name files ∧
      (∀ kind, PlainSymbols (fileImports d name kind) ↔
        (kind = .declaration → ∀ n, .atomic n ∈ d.parents?.getD [] → isPlainName n = true)) ∧
      (∀ i, i ∈ fileImports d name .header ↔ Asked d i ∧ i.localName ≠ name) ∧
      (∀ i, i ∈ fileImports d name .implementation ↔
        Asked d i ∧ i.localName ≠ name ∨
          i = .ofSymbol "libc.stdlib" "free" ∨ i = .ofModule (classModule name)) ∧
      ∀ n, isPlainName n = false → ∀ i, ¬ Asks (.atomic n) i := by
  obtain ⟨name, files, hwrites⟩ := generate_writes marker? h
  refine ⟨name, files, hwrites, fun kind => ?_, fun i => mem_headerImports,
    fun i => mem_implementationImports, fun n => not_asks_of_not_plain⟩
  cases kind with
  | header => simpa using plainSymbols_header
  | declaration => simpa using plainSymbols_declaration
  | implementation => simpa using plainSymbols_implementation

def sharedSession : Description :=
  { Description.named "Session" with
    parents? := some [.atomic "enable_shared_from_this<Session>"] }

theorem plain_symbols_iff_session :
    sharedSession.validate = .ok () ∧
      ∃ name files, Writes sharedSession (some defaultMarker) name files ∧
        (∀ kind, PlainSymbols (fileImports sharedSession name kind) ↔
          (kind = .declaration →
            ∀ n, .atomic n ∈ sharedSession.parents?.getD [] → isPlainName n = true)) ∧
        (∀ i, i ∈ fileImports sharedSession name .header ↔
          Asked sharedSession i ∧ i.localName ≠ name) ∧
        (∀ i, i ∈ fileImports sharedSession name .implementation ↔
          Asked sharedSession i ∧ i.localName ≠ name ∨
            i = .ofSymbol "libc.stdlib" "free" ∨ i = .ofModule (classModule name)) ∧
        ∀ n, isPlainName n = false → ∀ i, ¬ Asks (.atomic n) i :=
  have hvalid : sharedSession.validate = .ok () := rfl
  ⟨hvalid, plain_symbols_iff (some defaultMarker) hvalid⟩

theorem opaque_name_imported : ¬ ∀ (d : Description) (marker? : Option String) (name : String)
    (files : Artifacts), Writes d marker? name files →
      ∀ kind, PlainSymbols (fileImports d name kind) := by
  intro h
  obtain ⟨name, files, hwrites⟩ := generate_writes (d := sharedSession) (some defaultMarker) rfl
  have hplain := plainSymbols_declaration.1 (h _ _ _ _ hwrites .declaration)
    "enable_shared_from_this<Session>" (List.mem_singleton_self _)
  exact absurd hplain (by decide)

/-! ### Names in both files of the wrapper -/

/-- A name that the declaration and the implementation both bind is the same symbol of the same
module in both. -/
def NamesAgree (d : Description) (name : String) : Prop :=
  ∀ i ∈ fileImports d name .declaration, ∀ j ∈ fileImports d name .implementation,
    i.localName = j.localName → i.source = j.source ∧ i.symbol? = j.symbol?

/-- The name by which the files know the module that declares the class. -/
def moduleName (name : String) : String := (Import.ofModule (classModule name)).localName

/-- The implementation of the class binds the name of a parent too: to a function, to a module, or
to the class that the parent wraps. -/
inductive BoundElsewhere (name : String) : String → Prop where
  | free : BoundElsewhere name "free"
  | module : BoundElsewhere name (moduleName name)
  | wrapped {n : String} :
      isPlainName n = true → primitive? n = none → n ≠ name → BoundElsewhere name n

theorem asked_parent {n : String} (hn : .atomic n ∈ d.parents?.getD [])
    (hplain : isPlainName n = true) (hnone : primitive? n = none) :
    Asked d (.ofSymbol (classModule n) n) := by
  refine ⟨.atomic n, ?_, .className hnone hplain⟩
  rw [Backend.shownTypes, List.append_assoc]
  exact List.mem_append_left _ hn

theorem not_boundElsewhere_of_namesAgree {n : String} (h : NamesAgree d name)
    (hn : .atomic n ∈ d.parents?.getD []) : ¬ BoundElsewhere name n := by
  intro hbound
  have hparent : Import.ofSymbol (lowerCase n) n ∈ fileImports d name .declaration :=
    parent_mem_declarationImports hn
  cases hbound with
  | free =>
    have hsame := h _ hparent _ free_mem_implementationImports rfl
    exact absurd hsame.1 (by decide)
  | module =>
    have hsame := h _ hparent _ module_mem_implementationImports (Import.localName_ofSymbol ..)
    cases hsame.2
  | wrapped hplain hnone hne =>
    have hasked : Import.ofSymbol (classModule n) n ∈ fileImports d name .implementation :=
      asked_mem_implementationImports (asked_parent hn hplain hnone) hne
    have hsame := h _ hparent _ hasked (Import.localName_ofSymbol ..)
    exact classModule_ne_lowerCase n hsame.1.symm

theorem localName_ne_of_namesAgree {i : Import} (h : NamesAgree d name) (hi : Asked d i) :
    i.localName ≠ moduleName name := by
  intro hlocal
  -- an import that binds the module's name does not bind the class's, so it was not left out
  have hne : i.localName ≠ name := hlocal ▸ localName_ofModule_ne name
  have hsame := h _ module_mem_declarationImports _ (asked_mem_implementationImports hi hne)
    hlocal.symm
  obtain ⟨s, hs, -⟩ := hi.isPlainImport.symbol
  rw [hs] at hsame
  cases hsame.2

theorem namesAgree_of (hparents : ∀ n, .atomic n ∈ d.parents?.getD [] → ¬ BoundElsewhere name n)
    (hasked : ∀ i, Asked d i → i.localName ≠ moduleName name) : NamesAgree d name := by
  intro i hi j hj hlocal
  -- the class's module or a parent, each beside what is asked for, the function and the module
  rcases mem_declarationImports.1 hi with rfl | ⟨n, hn, rfl⟩ <;>
    rcases mem_implementationImports.1 hj with ⟨hj, hne⟩ | rfl | rfl
  · exact absurd hlocal.symm (hasked j hj)
  · exact absurd hlocal (localName_ofModule_ne_free name)
  · exact ⟨rfl, rfl⟩
  · obtain rfl : n = j.localName := hlocal
    have hplain := hj.isPlainImport
    exact absurd (.wrapped hplain.localName hplain.notPrimitive hne) (hparents _ hn)
  · obtain rfl : n = "free" := hlocal
    exact absurd .free (hparents _ hn)
  · obtain rfl : n = moduleName name := hlocal
    exact absurd .module (hparents _ hn)

/-- Every valid description is written, and the declaration and the implementation mean the same by
each name if and only if no parent's name is bound elsewhere and no type on show asks for the name
of the module that declares the class, as a vector does in a class `Vector`. -/
theorem names_agree_iff (marker? : Option String) (h : d.validate = .ok ()) :
    ∃ name files, Writes d marker? name files ∧
      (NamesAgree d name ↔
        (∀ n, .atomic n ∈ d.parents?.getD [] → ¬ BoundElsewhere name n) ∧
          ∀ i, Asked d i → i.localName ≠ moduleName name) := by
  obtain ⟨name, files, hwrites⟩ := generate_writes marker? h
  refine ⟨name, files, hwrites, ?_, ?_⟩
  · intro hagree
    exact ⟨fun n => not_boundElsewhere_of_namesAgree hagree,
      fun i => localName_ne_of_namesAgree hagree⟩
  · rintro ⟨hparents, hasked⟩
    exact namesAgree_of hparents hasked

theorem names_agree_iff_oven :
    Backend.ovenDescription.validate = .ok () ∧
      ∃ name files, Writes Backend.ovenDescription (some defaultMarker) name files ∧
        (NamesAgree Backend.ovenDescription name ↔
          (∀ n, .atomic n ∈ Backend.ovenDescription.parents?.getD [] → ¬ BoundElsewhere name n) ∧
            ∀ i, Asked Backend.ovenDescription i → i.localName ≠ moduleName name) :=
  have hvalid : Backend.ovenDescription.validate = .ok () := rfl
  ⟨hvalid, names_agree_iff (some defaultMarker) hvalid⟩

/-- The appliance is the wrapper's parent in the declaration and the C++ class in the
implementation. -/
theorem names_disagree : ¬ ∀ (d : Description) (marker? : Option String) (name : String)
    (files : Artifacts), Writes d marker? name files → NamesAgree d name := by
  intro h
  obtain ⟨name, files, hwrites⟩ :=
    generate_writes (d := Backend.ovenDescription) (some defaultMarker) rfl
  obtain rfl : "Oven" = name := Option.some.inj hwrites.named
  have hparent : .atomic "Appliance" ∈ Backend.ovenDescription.parents?.getD [] :=
    List.mem_singleton_self _
  exact not_boundElsewhere_of_namesAgree (h _ _ _ _ hwrites) hparent
    (.wrapped (by decide) rfl (by decide))

end Bindery.Cython
