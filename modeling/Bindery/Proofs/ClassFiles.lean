import Bindery.Proofs.ModuleNames

/-!
# Names of files

Each of a class's three files has a name of its own, and so have the files of two classes that are
apart: neither the same in lower case nor one the module that declares the other (`fileName_ne`).
-/

namespace Bindery.Cython
open Text (lowerCase)

variable {name m n : String} {kind kind' : ArtifactKind}

/-- No file of one class has the name of a file of the other. -/
structure Apart (n m : String) : Prop where
  lower : lowerCase n ≠ lowerCase m
  after : lowerCase m ≠ "cpp_" ++ lowerCase n
  before : lowerCase n ≠ "cpp_" ++ lowerCase m

/-- The name of a file before its extension. -/
def fileStem : ArtifactKind → String → String
  | .header, name => classModule name
  | _, name => lowerCase name

theorem fileStem_cases (kind : ArtifactKind) (name : String) :
    fileStem kind name = classModule name ∨ fileStem kind name = lowerCase name := by
  cases kind with
  | header => exact .inl rfl
  | declaration | implementation => exact .inr rfl

def fileExtension : ArtifactKind → String
  | .implementation => ".pyx"
  | _ => ".pxd"

theorem fileName_eq (kind : ArtifactKind) (name : String) :
    fileName kind name = fileStem kind name ++ fileExtension kind := by
  cases kind <;> rfl

theorem length_fileExtension (kind : ArtifactKind) : (fileExtension kind).toList.length = 4 := by
  cases kind <;> rfl

/-- Stem and extension are in the name. -/
theorem fileName_inj (h : fileName kind n = fileName kind' m) :
    fileStem kind n = fileStem kind' m ∧ fileExtension kind = fileExtension kind' := by
  rw [fileName_eq, fileName_eq, ← String.toList_inj, String.toList_append, String.toList_append] at h
  obtain ⟨hstem, hextension⟩ := List.append_inj' h
    ((length_fileExtension kind).trans (length_fileExtension kind').symm)
  exact ⟨String.toList_inj.1 hstem, String.toList_inj.1 hextension⟩

theorem fileName_ne_of_kind (h : kind ≠ kind') (name : String) :
    fileName kind name ≠ fileName kind' name := by
  intro heq
  obtain ⟨hstem, hextension⟩ := fileName_inj heq
  have hmodule := classModule_ne_lowerCase name
  match kind, kind' with
  | .header, .header | .declaration, .declaration | .implementation, .implementation =>
    exact h rfl
  | .header, .declaration => exact hmodule hstem
  | .declaration, .header => exact hmodule hstem.symm
  | .header, .implementation | .declaration, .implementation | .implementation, .header
  | .implementation, .declaration => exact absurd hextension (by decide)

theorem fileName_ne (h : Apart n m) (kind kind' : ArtifactKind) :
    fileName kind n ≠ fileName kind' m := by
  intro heq
  obtain ⟨hstem, -⟩ := fileName_inj heq
  have hmodules : classModule n ≠ classModule m := fun hsame => by
    rw [classModule, classModule, ← String.toList_inj, String.toList_append, String.toList_append,
      List.append_cancel_left_eq, String.toList_inj] at hsame
    exact h.lower hsame
  rcases fileStem_cases kind n with hn | hn <;> rcases fileStem_cases kind' m with hm | hm <;>
    rw [hn, hm] at hstem
  · exact hmodules hstem
  · exact h.after hstem.symm
  · exact h.before hstem
  · exact h.lower hstem

/-! ### Places of files -/

theorem fileName_ne_empty (kind : ArtifactKind) (name : String) : fileName kind name ≠ "" := by
  intro h
  have hlength := congrArg (·.toList.length) h
  simp [fileName_eq, length_fileExtension] at hlength

/-- No file of a class is the sink. -/
theorem fileName_ne_null (kind : ArtifactKind) (name : String) : fileName kind name ≠ "null" := by
  intro h
  have hlast := congrArg (·.toList.getLast?) h
  cases kind <;> simp [fileName] at hlast

/-- Lower case makes no slashes. -/
theorem slash_not_mem_fileName (h : '/' ∉ name.toList) (kind : ArtifactKind) :
    '/' ∉ (fileName kind name).toList := by
  have hlower : '/' ∉ (lowerCase name).toList := by
    rw [lowerCase, String.toList_ofList]
    exact fun hmem => h (Text.mem_of_mem_lowerAfter (by decide) (by decide) hmem)
  cases kind <;> simp [fileName, classModule, hlower]

end Bindery.Cython
