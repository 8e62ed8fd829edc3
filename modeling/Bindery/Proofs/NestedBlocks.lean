import Bindery.Proofs.ArityDispatch

/-!
# Blocks inside blocks

`placed` says which lines an indented block has: those of its texts, each non-empty one moved to the
right. A block in a block stands at the sum of the widths, and so does every line of a function in
the implementation of a class (`indent_composes`).
-/

namespace Bindery

namespace Text
variable {line : String} {texts : List String} {a b width : Nat}

/-- The lines of the texts, each non-empty one after so many spaces. -/
def placed (width : Nat) (texts : List String) : List String :=
  (texts.flatMap lines).map fun line =>
    if line = "" then "" else String.ofList (List.replicate width ' ') ++ line

/-- The lines of a block that may have none: the text is empty then, and that is one line. -/
def orBlank : List String → List String
  | [] => [""]
  | l => l

theorem orBlank_of_ne_nil {l : List String} (h : l ≠ []) : orBlank l = l := by
  cases l with
  | nil => exact absurd rfl h
  | cons => rfl

theorem placed_append (width : Nat) (l l' : List String) :
    placed width (l ++ l') = placed width l ++ placed width l' := by
  simp [placed]

theorem placed_flatMap {α : Type} (width : Nat) (f : α → List String) (l : List α) :
    placed width (l.flatMap f) = l.flatMap fun x => placed width (f x) := by
  simp [placed, List.flatMap_assoc, List.map_flatMap]

theorem placed_ne_nil (hne : texts ≠ []) : placed width texts ≠ [] := by
  obtain ⟨s, rest, rfl⟩ := List.exists_cons_of_ne_nil hne
  simp [placed, lines_ne_nil]

/-- Spaces do not break a line. -/
theorem lines_of_mem_placed (h : line ∈ placed width texts) : lines line = [line] := by
  obtain ⟨l, hl, rfl⟩ := List.mem_map.1 h
  obtain ⟨s, -, hs⟩ := List.mem_flatMap.1 hl
  refine lines_of_not_mem ?_
  split
  next => simp
  next => simpa using not_mem_of_mem_lines hs

theorem flatMap_lines_placed (width : Nat) (texts : List String) :
    (placed width texts).flatMap lines = placed width texts := by
  have hsingle : (placed width texts).map lines = (placed width texts).map fun line => [line] :=
    List.map_congr_left fun _ => lines_of_mem_placed
  rw [List.flatMap_def, hsingle, ← List.flatMap_def]
  exact List.flatMap_singleton' _

/-- What stands in place already is moved further. -/
theorem placed_placed (a b : Nat) (texts : List String) :
    placed b (placed a texts) = placed (a + b) texts := by
  rw [placed, flatMap_lines_placed, placed, List.map_map, placed]
  refine List.map_congr_left fun line _ => ?_
  by_cases hline : line = ""
  · simp [hline]
  · simp [hline, ← String.append_assoc, ← String.ofList_append, Nat.add_comm]

theorem indent_eq_join (width : Nat) (texts : List String) :
    indent width texts = join "\n" (placed width texts) := by
  have hline : indentLine width = fun line =>
      if line = "" then "" else String.ofList (List.replicate width ' ') ++ line := by
    have hspaces : "".pushn ' ' width = String.ofList (List.replicate width ' ') :=
      String.toList_inj.1 (by simp [toList_pushn])
    funext line
    simp only [indentLine, String.isEmpty_iff, hspaces]
  rw [indent, placed, hline]

theorem lines_indent (hne : texts ≠ []) : lines (indent width texts) = placed width texts := by
  rw [indent_eq_join, lines_join (placed_ne_nil hne), flatMap_lines_placed]

theorem lines_block (width : Nat) (texts : List String) :
    lines (indent width texts) = orBlank (placed width texts) := by
  by_cases hne : texts = []
  · subst hne
    rfl
  · rw [lines_indent hne, orBlank_of_ne_nil (placed_ne_nil hne)]

theorem placed_indent (hne : texts ≠ []) : placed b [indent a texts] = placed (a + b) texts := by
  have hlines : [indent a texts].flatMap lines = (placed a texts).flatMap lines := by
    rw [List.flatMap_singleton, lines_indent hne, flatMap_lines_placed]
  rw [← placed_placed, placed, hlines, ← placed]

theorem indent_indent (a b : Nat) (texts : List String) :
    indent b [indent a texts] = indent (a + b) texts := by
  by_cases hne : texts = []
  · subst hne
    rfl
  · rw [indent_eq_join b, placed_indent hne, indent_eq_join]

end Text

namespace Cython
open Text (join lines indent placed orBlank lines_append_break)

/-- The lines of a function in a class: its head and its docstring stand in the class, what it runs
stands in the function. -/
def placedFunction (name doc : String) (run : List String) : List String :=
  placed 4 ["def " ++ name ++ "(self, *args):", "    \"\"\"" ++ doc ++ "\"\"\""] ++
    placed (4 + 4) run

def constructorLines (cx : RenderContext) : List String :=
  placedFunction "__init__" (docstring (notes cx Docstrings.methods cx.name) cx.name)
    (dispatchBlock (declared cx)
      (fun _ args => "self._inst = new " ++ classModule cx.name ++ "." ++ cx.name ++
        "(" ++ args ++ ")") cx.name)

/-- A method is followed by an empty line. -/
def methodLines (cx : RenderContext) (group : String × List RenderedSignature) : List String :=
  placedFunction group.1 (docstring (notes cx Docstrings.methods group.1) group.1)
    (dispatchBlock group.2 (methodCall group.1) group.1) ++ [""]

def deallocLines : List String :=
  ["", "    def __dealloc__(self):", "        if self._free_inst:", "            free(self._inst)",
    "", "    # attributes"]

theorem placed_defBlock (name doc : String) {run : List String} (h : run ≠ []) :
    placed 4 (defBlock name doc run) = placedFunction name doc run := by
  have hparts : defBlock name doc run =
      ["def " ++ name ++ "(self, *args):", "    \"\"\"" ++ doc ++ "\"\"\""] ++ [indent 4 run] := rfl
  rw [hparts, Text.placed_append, Text.placed_indent h, placedFunction]

/-- There is always something to run. -/
theorem dispatchBlock_ne_nil (l : List RenderedSignature)
    (call : RenderedSignature → String → String) (what : String) :
    dispatchBlock l call what ≠ [] := by
  rw [dispatchBlock]
  split
  next => exact List.cons_ne_nil _ _
  next => exact List.cons_ne_nil _ _

theorem placed_initBlock (cx : RenderContext) : placed 4 (initBlock cx) = constructorLines cx :=
  placed_defBlock "__init__" _ (dispatchBlock_ne_nil _ _ _)

theorem initBlock_ne_nil (cx : RenderContext) : initBlock cx ≠ [] := by
  rw [initBlock]
  exact List.cons_ne_nil _ _

theorem placed_methodBlock (cx : RenderContext) (group : String × List RenderedSignature) :
    placed 4 (methodBlock cx group) = methodLines cx group := by
  have hparts : methodBlock cx group = defBlock group.1
      (docstring (notes cx Docstrings.methods group.1) group.1)
      (dispatchBlock group.2 (methodCall group.1) group.1) ++ [""] := rfl
  rw [hparts, Text.placed_append, placed_defBlock _ _ (dispatchBlock_ne_nil _ _ _)]
  rfl

theorem implementationHead_ends (cx : RenderContext) :
    ∃ before, implementationHead cx = before ++ "\n" := by
  have hopening : initOpening = "\"\"\"\n\n    # constructors\n    def __cinit__(self, *args, " ++
      "**kwargs):\n        self._inst = NULL\n        self._free_inst = True\n" ++ "\n" := by
    decide +kernel
  exact ⟨_, by rw [implementationHead, hopening, ← String.append_assoc]⟩

/-- The implementation line by line. -/
theorem lines_implementation (cx : RenderContext) :
    lines (file .implementation cx) =
      (lines (implementationHead cx)).dropLast ++ constructorLines cx ++ deallocLines ++
        orBlank (placed 4 (cx.attrs.flatMap (propertyBlock cx))) ++ ["", "    # methods"] ++
        orBlank ((byName cx.methods).flatMap (methodLines cx)) ++
        lines (extraFragment cx "pyx") := by
  obtain ⟨before, hhead⟩ := implementationHead_ends cx
  have hdealloc : dealloc = "\n" ++ join "\n" deallocLines ++ "\n" := by decide +kernel
  have hmethods : "\n\n    # methods\n" = "\n" ++ "\n    # methods" ++ "\n" := by decide +kernel
  -- every part begins on a line of its own
  rw [file_implementation, hdealloc, hmethods]
  simp only [← String.append_assoc]
  rw [lines_append_break, lines_append_break, lines_append_break, lines_append_break,
    lines_append_break, Text.lines_append_of_break hhead]
  have hlines : lines (join "\n" deallocLines) = deallocLines := by decide +kernel
  have hmarks : lines "\n    # methods" = ["", "    # methods"] := by decide +kernel
  rw [hlines, hmarks, Text.lines_indent (initBlock_ne_nil cx), placed_initBlock, Text.lines_block,
    Text.lines_block, Text.placed_flatMap (f := methodBlock cx)]
  simp only [placed_methodBlock]

/-- A text is its lines, and none of them is broken. What is indented twice stands at the sum of the
widths, and an indented block has the lines of its texts. So every line that the constructors or a
method run stands eight spaces from the margin, whatever the names and the docstrings are. -/
theorem indent_composes :
    (∀ s, join "\n" (lines s) = s ∧ ∀ line ∈ lines s, '\n' ∉ line.toList) ∧
    (∀ a b texts, indent b [indent a texts] = indent (a + b) texts) ∧
    (∀ a texts, texts ≠ [] → lines (indent a texts) = placed a texts) ∧
    ∀ cx, lines (file .implementation cx) =
      (lines (implementationHead cx)).dropLast ++ constructorLines cx ++ deallocLines ++
        orBlank (placed 4 (cx.attrs.flatMap (propertyBlock cx))) ++ ["", "    # methods"] ++
        orBlank ((byName cx.methods).flatMap (methodLines cx)) ++
        lines (extraFragment cx "pyx") :=
  ⟨fun s => ⟨Text.join_lines s, fun _ => Text.not_mem_of_mem_lines⟩, Text.indent_indent,
    fun _ _ => Text.lines_indent, lines_implementation⟩

theorem indent_composes_broken :
    ["a", "b\n\nc"] ≠ [] ∧
      lines (indent 4 ["a", "b\n\nc"]) = ["    a", "    b", "", "    c"] := by
  have hne : ["a", "b\n\nc"] ≠ [] := List.cons_ne_nil _ _
  refine ⟨hne, (indent_composes.2.2.1 4 _ hne).trans ?_⟩
  decide +kernel

end Cython

end Bindery
