import Bindery.Binding.Cython
import Bindery.Proofs.MapLookup

/-!
# Templates read piece by piece

`fill` copies text without an opening brace and puts a value in the place of a slot, and goes on
with the rest of the template either way. So a template that is written as one piece after another
is filled piece by piece (`fill_text`, `fill_slot`).
-/

namespace Bindery

namespace Text
variable {vars : Vars} {rest : List Char}

theorem fillFrom_text {l : List Char} (h : '{' ∉ l) :
    fillFrom vars none (l ++ rest) = l ++ fillFrom vars none rest := by
  induction l with
  | nil => rfl
  | cons c l ih =>
    obtain ⟨hc, hl⟩ := List.ne_and_not_mem_of_not_mem_cons h
    rw [List.cons_append, fillFrom, if_neg (Ne.symm hc), ih hl, List.cons_append]

theorem fillFrom_word {word : List Char} (h : ∀ c ∈ word, isWordChar c = true)
    (pending : List Char) :
    fillFrom vars (some pending) (word ++ rest) =
      fillFrom vars (some (word.reverse ++ pending)) rest := by
  induction word generalizing pending with
  | nil => rfl
  | cons c word ih =>
    obtain ⟨hc, hword⟩ := List.forall_mem_cons.1 h
    rw [List.cons_append, fillFrom, if_pos hc, ih hword, List.reverse_cons, List.append_assoc]
    rfl

theorem fillFrom_placeholder {word : List Char} (hne : word ≠ [])
    (h : ∀ c ∈ word, isWordChar c = true) :
    fillFrom vars none ('{' :: word ++ '}' :: rest) =
      placeholderText vars word ++ fillFrom vars none rest := by
  rw [List.cons_append, fillFrom, if_pos rfl, fillFrom_word h, List.append_nil, fillFrom,
    if_neg (by decide), if_pos (by simp [hne]), List.reverse_reverse]

theorem fill_empty (vars : Vars) : fill "" vars = "" := rfl

theorem fill_text {s t : String} (h : '{' ∉ s.toList) :
    fill (s ++ t) vars = s ++ fill t vars := by
  rw [fill, String.toList_append, fillFrom_text h, String.ofList_append, String.ofList_toList]
  rfl

end Text

namespace Cython
open Text (join fill fill_text)

theorem fill_slot {word t : String} {vars : Text.Vars} (hne : word.toList ≠ [])
    (h : word.toList.all Text.isWordChar = true) :
    fill (slot word ++ t) vars = (vars.get? word).getD (slot word) ++ fill t vars := by
  have hslot : (slot word ++ t).toList = '{' :: word.toList ++ '}' :: t.toList := by
    simp [slot]
  have hvalue : String.ofList (Text.placeholderText vars word.toList) =
      (vars.get? word).getD (slot word) := by
    rw [Text.placeholderText, String.ofList_toList]
    cases vars.get? word with
    | some value => exact String.ofList_toList
    | none =>
      refine String.toList_inj.1 ?_
      simp [slot]
  rw [fill, hslot, Text.fillFrom_placeholder hne (List.all_eq_true.1 h), String.ofList_append,
    hvalue]
  rfl

/-- Of a word that is given twice the last value counts. -/
theorem get?_vars (l : List (String × String)) (word : String) :
    (vars l).get? word = (l.reverse.find? (·.1 == word)).map (·.2) := by
  have hkey : (fun e : String × String => compare word e.1 == .eq) = fun e => e.1 == word := by
    funext e
    rw [Bool.eq_iff_iff, beq_iff_eq, beq_iff_eq, Std.LawfulEqCmp.compare_eq_iff_eq]
    exact eq_comm
  rw [vars, SortedMap.get?, SortedMap.find?_ofList, hkey]

theorem get?_of_vars {values : Text.Vars} {l : List (String × String)} {word value : String}
    (hl : values = vars l) (hvalue : (l.reverse.find? (·.1 == word)).map (·.2) = some value) :
    values.get? word = some value := by
  rw [hl, get?_vars, hvalue]

/-! ### Import blocks -/

/-- What a file has before its imports. -/
def opening (cx : RenderContext) : ArtifactKind → String
  | .implementation =>
    warning ++ "\"\"\"" ++
      docstring (cx.desc.docstrings?.bind (·.module?)) ("module " ++ Text.lowerCase cx.name) ++
      "\n\"\"\"\n"
  | _ => warning

def importBlock (cx : RenderContext) : ArtifactKind → List String
  | .header => cx.imports
  | .declaration => declarationImports cx
  | .implementation => implementationImports cx

def values (cx : RenderContext) : ArtifactKind → Text.Vars
  | .header => headerVars cx
  | .declaration => declarationVars cx
  | .implementation => implementationVars cx

/-- The template of what stands below the imports. -/
def body : ArtifactKind → String
  | .header => join "\n"
    ["cdef extern from \"" ++ slot "header_filename" ++ "\"" ++ slot "scope_clause" ++ ":",
      "",
      "    cdef cppclass " ++ slot "name" ++ slot "parents_clause" ++ ":",
      "        # constructors",
      slot "constructors_block",
      "",
      "        # attributes",
      slot "attrs_block",
      "",
      "        # methods",
      slot "methods_block",
      slot "extra"]
  | .declaration => join "\n"
    ["cdef class " ++ slot "name" ++ slot "parents_clause" ++ ":",
      "    cdef " ++ slot "cpp_module" ++ "." ++ slot "name" ++ " * _inst",
      "    cdef public bint _free_inst",
      slot "extra"]
  | .implementation => join "\n"
    ["cdef class " ++ slot "name" ++ slot "parents_clause" ++ ":",
      "    \"\"\"" ++ slot "class_docstring" ++ "\"\"\"",
      "",
      "    # constructors",
      "    def __cinit__(self, *args, **kwargs):",
      "        self._inst = NULL",
      "        self._free_inst = True",
      "",
      slot "init_block",
      "",
      "    def __dealloc__(self):",
      "        if self._free_inst:",
      "            free(self._inst)",
      "",
      "    # attributes",
      slot "attrs_block",
      "",
      "    # methods",
      slot "methods_block",
      slot "extra"]

/-- Puts a line break, a line and another line break together. -/
theorem append_line {line whole : String} (h : "\n" ++ line ++ "\n" = whole) (below : String) :
    "\n" ++ (line ++ ("\n" ++ below)) = whole ++ below := by
  rw [← h, String.append_assoc, String.append_assoc]

theorem append_empty_line (below : String) :
    "\n" ++ ("" ++ ("\n" ++ below)) = "\n\n" ++ below :=
  append_line rfl below

theorem headerTemplate_eq :
    headerTemplate = slot "warning" ++ (slot "imports" ++ ("\n\n" ++ body .header)) := by
  simp only [headerTemplate, body, join, String.append_assoc]
  rw [append_empty_line]

theorem declarationTemplate_eq :
    declarationTemplate = slot "warning" ++ (slot "imports" ++ ("\n\n" ++ body .declaration)) := by
  simp only [declarationTemplate, body, join, String.append_assoc]
  rw [append_empty_line]

theorem implementationTemplate_eq :
    implementationTemplate = slot "warning" ++ ("\"\"\"" ++ (slot "module_docstring" ++
      ("\n\"\"\"\n" ++ (slot "imports" ++ ("\n\n" ++ body .implementation))))) := by
  have hend : "\n" ++ "\"\"\"" ++ "\n" = "\n\"\"\"\n" := rfl
  simp only [implementationTemplate, body, join, String.append_assoc]
  rw [append_line hend, append_empty_line]

theorem get?_warning (cx : RenderContext) (kind : ArtifactKind) :
    (values cx kind).get? "warning" = some warning := by
  cases kind <;> exact get?_of_vars rfl rfl

theorem get?_imports (cx : RenderContext) (kind : ArtifactKind) :
    (values cx kind).get? "imports" = some (join "\n" (importBlock cx kind)) := by
  cases kind <;> exact get?_of_vars rfl rfl

theorem fill_warning_imports {vars : Text.Vars} {lines : List String} {below : String}
    (hwarning : vars.get? "warning" = some warning)
    (himports : vars.get? "imports" = some (join "\n" lines)) :
    fill (slot "warning" ++ (slot "imports" ++ ("\n\n" ++ below))) vars =
      warning ++ join "\n" lines ++ "\n\n" ++ fill below vars := by
  rw [fill_slot (by decide) (by decide), fill_slot (by decide) (by decide), fill_text (by decide),
    hwarning, himports]
  simp only [Option.getD_some, String.append_assoc]

/-- Each file has its imports in one block, with nothing but the opening before it and an empty line
after it. -/
theorem file_eq (kind : ArtifactKind) (cx : RenderContext) :
    file kind cx = opening cx kind ++ join "\n" (importBlock cx kind) ++ "\n\n" ++
      fill (body kind) (values cx kind) := by
  have hwarning := get?_warning cx kind
  have himports := get?_imports cx kind
  cases kind with
  | header =>
    rw [file, headerTemplate_eq]
    exact fill_warning_imports hwarning himports
  | declaration =>
    rw [file, declarationTemplate_eq]
    exact fill_warning_imports hwarning himports
  | implementation =>
    have hdocstring : (implementationVars cx).get? "module_docstring" =
        some (docstring (cx.desc.docstrings?.bind (·.module?))
          ("module " ++ Text.lowerCase cx.name)) := get?_of_vars rfl rfl
    rw [values] at hwarning himports
    rw [file, implementationTemplate_eq, fill_slot (by decide) (by decide), fill_text (by decide),
      fill_slot (by decide) (by decide), fill_text (by decide),
      fill_slot (by decide) (by decide), fill_text (by decide), hwarning, hdocstring, himports]
    simp only [Option.getD_some, opening, values, String.append_assoc]

end Cython

end Bindery
