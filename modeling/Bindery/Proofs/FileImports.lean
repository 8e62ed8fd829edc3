import Bindery.Proofs.FilledTemplates
import Bindery.Proofs.RenderedContext
import Bindery.Proofs.TypeImports

/-!
# The imports of each file

`fileImports` lists what a file of a class imports: the header what the types on show ask for, the
implementation that and two modules more, and the declaration the class's own module and a class for
each parent that is a name. `generate_writes` says of every valid description that its three files
are written with just these imports, each line once and in order.
-/

namespace Bindery

def Artifacts.get (files : Artifacts) : ArtifactKind → Artifact
  | .header => files.header
  | .declaration => files.declaration
  | .implementation => files.implementation

namespace Cython
open Text (join fill lowerCase)
variable {d : Description} {name : String} {marker? : Option String} {i : Import}

/-- Some type on show asks for the import. -/
def Asked (d : Description) (i : Import) : Prop := ∃ t ∈ Backend.shownTypes d, Asks t i

/-- What the types on show ask for, without what would bind the class's own name. -/
def typeImports (d : Description) (name : String) : List Import :=
  ((Backend.shownTypes d).flatMap imports).filter fun i => !i.provides name

def fileImports (d : Description) (name : String) : ArtifactKind → List Import
  | .header => typeImports d name
  | .declaration => .ofModule (classModule name) :: (d.parents?.getD []).filterMap parentImport?
  | .implementation =>
    typeImports d name ++ [.ofSymbol "libc.stdlib" "free", .ofModule (classModule name)]

/-- The files that the generator writes for a class, each with the lines of its imports in a block
below the opening, and the rest of the file from the template's body. -/
structure Writes (d : Description) (marker? : Option String) (name : String) (files : Artifacts) :
    Prop where
  named : d.name? = some name
  generated : backend.generate d marker? = .ok files
  text : ∀ kind, (files.get kind).text =
    opening (backend.context d name marker?) kind ++
      join "\n" (sortedDistinct compare ((fileImports d name kind).map importText)) ++ "\n\n" ++
        fill (body kind) (values (backend.context d name marker?) kind)

/-! ### Membership -/

theorem Asked.isPlainImport (h : Asked d i) : IsPlainImport i := by
  obtain ⟨t, -, hasks⟩ := h
  exact hasks.isPlainImport

theorem mem_headerImports :
    i ∈ fileImports d name .header ↔ Asked d i ∧ i.localName ≠ name := by
  rw [fileImports, typeImports, List.mem_filter, List.mem_flatMap]
  simp only [mem_imports_iff, Import.provides, Bool.not_eq_true', beq_eq_false_iff_ne]
  refine and_congr_right fun hasked => ?_
  rw [(Asked.isPlainImport hasked).binds, ne_eq, Option.some_inj]

theorem mem_declarationImports :
    i ∈ fileImports d name .declaration ↔
      i = .ofModule (classModule name) ∨
        ∃ n, .atomic n ∈ d.parents?.getD [] ∧ i = .ofSymbol (lowerCase n) n := by
  rw [fileImports, List.mem_cons, List.mem_filterMap]
  refine or_congr_right ⟨?_, ?_⟩
  · rintro ⟨t, ht, hi⟩
    cases t with
    | atomic n => exact ⟨n, ht, (Option.some.inj hi).symm⟩
    | template _ _ => cases hi
    | refined _ _ => cases hi
  · rintro ⟨n, hn, rfl⟩
    exact ⟨_, hn, rfl⟩

theorem mem_implementationImports :
    i ∈ fileImports d name .implementation ↔
      Asked d i ∧ i.localName ≠ name ∨
        i = .ofSymbol "libc.stdlib" "free" ∨ i = .ofModule (classModule name) := by
  rw [fileImports, List.mem_append, List.mem_cons, List.mem_singleton]
  exact or_congr_left mem_headerImports

theorem parent_mem_declarationImports {n : String} (hn : .atomic n ∈ d.parents?.getD []) :
    .ofSymbol (lowerCase n) n ∈ fileImports d name .declaration :=
  mem_declarationImports.2 (.inr ⟨n, hn, rfl⟩)

theorem module_mem_declarationImports :
    .ofModule (classModule name) ∈ fileImports d name .declaration :=
  mem_declarationImports.2 (.inl rfl)

theorem asked_mem_implementationImports (h : Asked d i) (hne : i.localName ≠ name) :
    i ∈ fileImports d name .implementation :=
  mem_implementationImports.2 (.inl ⟨h, hne⟩)

theorem free_mem_implementationImports :
    .ofSymbol "libc.stdlib" "free" ∈ fileImports d name .implementation :=
  mem_implementationImports.2 (.inr (.inl rfl))

theorem module_mem_implementationImports :
    .ofModule (classModule name) ∈ fileImports d name .implementation :=
  mem_implementationImports.2 (.inr (.inr rfl))

/-! ### Files -/

theorem importBlock_context (kind : ArtifactKind) :
    importBlock (backend.context d name marker?) kind =
      sortedDistinct compare ((fileImports d name kind).map importText) := by
  cases kind with
  | header => rfl
  | declaration => rfl
  | implementation =>
    refine sortedDistinct_congr fun line => ?_
    rw [fileImports, List.map_append, List.mem_append, List.mem_append]
    exact or_congr_left mem_sortedDistinct

theorem text_written (kind : ArtifactKind) (cx : RenderContext) :
    ((backend.written cx).get kind).text = file kind cx := by
  cases kind <;> rfl

/-- Every valid description is written. -/
theorem generate_writes (marker? : Option String) (h : d.validate = .ok ()) :
    ∃ name files, Writes d marker? name files := by
  obtain ⟨⟨name, hname⟩, -⟩ := Description.validate_eq_ok_iff.1 h
  refine ⟨name, backend.written (backend.context d name marker?),
    (Description.className_eq_ok_iff.1 hname).1,
    Backend.generate_eq_ok_iff.2 ⟨h, name, hname, rfl⟩, fun kind => ?_⟩
  rw [text_written, file_eq, importBlock_context]

end Cython

end Bindery
