import Bindery.Binding.Generate
import Bindery.Text.Block
import Bindery.Text.LowerCase
import Bindery.Text.Template

/-!
# The Cython backend

A class `Name` gets three files: `cpp_name.pxd` declares the C++ class, `name.pxd` the extension
type that wraps it, and `name.pyx` implements the wrapper. Each file is a template whose
placeholders are filled from the render context.
-/

namespace Bindery.Cython
open Text (join indent fill lowerCase)

/-! ### Types and imports -/

/-- How a primitive is spelled, and the import it needs. -/
def primitive? : String → Option (String × Option Import)
  | "bool" => some ("cpp_bool", some (.aliased "libcpp" "bool" "cpp_bool"))
  | "str" => some ("std_string", some (.aliased "libcpp.string" "string" "std_string"))
  | "char" => some ("char", none)
  | "uchar" => some ("unsigned char", none)
  | "int16" => some ("short", none)
  | "uint16" => some ("unsigned short", none)
  | "int32" => some ("int", none)
  | "uint32" => some ("unsigned int", none)
  | "int64" => some ("long", none)
  | "uint64" => some ("unsigned long", none)
  | "float32" => some ("float", none)
  | "float64" => some ("double", none)
  | "complex128" => some ("double complex", none)
  | "void" => some ("void", none)
  | _ => none

/-- The module and the local name of a container. -/
def container? : String → Option (String × String)
  | "vector" => some ("libcpp.vector", "cpp_vector")
  | "map" => some ("libcpp.map", "cpp_map")
  | "set" => some ("libcpp.set", "cpp_set")
  | "list" => some ("libcpp.list", "cpp_list")
  | "deque" => some ("libcpp.deque", "cpp_deque")
  | "pair" => some ("libcpp.utility", "cpp_pair")
  | "unordered_map" => some ("libcpp.unordered_map", "cpp_unordered_map")
  | "unordered_set" => some ("libcpp.unordered_set", "cpp_unordered_set")
  | _ => none

/-- Whether a name is an identifier; spellings of instantiations and qualified names are not. -/
def isPlainName (name : String) : Bool :=
  !name.isEmpty && name.toList.all fun c => c.isAlphanum || c == '_'

/-- The module that declares a C++ class. -/
def classModule (name : String) : String := "cpp_" ++ lowerCase name

mutual

def typeText : TypeTerm → String
  | .atomic name => ((primitive? name).map (·.1)).getD name
  | .template name args =>
    ((container? name).map (·.2)).getD name ++ "[" ++ join ", " (typeTexts args) ++ "]"
  | .refined refine base => typeText base ++ " " ++ refine.mark

def typeTexts : List TypeTerm → List String
  | [] => []
  | t :: rest => typeText t :: typeTexts rest

end

def atomImports (name : String) : List Import :=
  match primitive? name with
  | some (_, i) => i.toList
  | none => if isPlainName name then [.ofSymbol (classModule name) name] else []

def containerImports (name : String) : List Import :=
  match container? name with
  | some (source, localName) => [.aliased source name localName]
  | none => []

mutual

/-- The imports for every name in a term. -/
def imports : TypeTerm → List Import
  | .atomic name => atomImports name
  | .template name args => containerImports name ++ importsAll args
  | .refined _ base => imports base

def importsAll : List TypeTerm → List Import
  | [] => []
  | t :: rest => imports t ++ importsAll rest

end

def importText (i : Import) : String :=
  match i.symbol?, i.alias? with
  | none, _ => "cimport " ++ i.source
  | some symbol, none => "from " ++ i.source ++ " cimport " ++ symbol
  | some symbol, some localName =>
    "from " ++ i.source ++ " cimport " ++ symbol ++ " as " ++ localName

def attrText (name typeText : String) : String := typeText ++ " " ++ name

def signatureText (name : String) (args : List String) (returns marker : Option String) : String :=
  let exception := (marker.map (" except " ++ ·)).getD ""
  let call := name ++ "(" ++ join ", " args ++ ")" ++ exception
  match returns with
  | some type => type ++ " " ++ call
  | none => call

def fileName (kind : ArtifactKind) (className : String) : String :=
  match kind with
  | .header => classModule className ++ ".pxd"
  | .declaration => lowerCase className ++ ".pxd"
  | .implementation => lowerCase className ++ ".pyx"

/-! ### Templates -/

def warning : String :=
  "################################################\n" ++
  "#                 Warning!                     #\n" ++
  "# This file was generated by apigen.           #\n" ++
  "# Edit the description, not this file.        #\n" ++
  "################################################\n"

/-- The placeholder with this word. -/
def slot (word : String) : String := "\x7b" ++ word ++ "\x7d"

def headerTemplate : String := join "\n"
  [slot "warning" ++ slot "imports",
    "",
    "cdef extern from \"" ++ slot "header_filename" ++ "\"" ++ slot "scope_clause" ++ ":",
    "",
    "    cdef cppclass " ++ slot "name" ++ slot "parents_clause" ++ ":",
    "        # constructors",
    slot "constructors_block",
    "",
    "        # attributes",
    slot "attrs_block",
    "",
    "        # methods",
    slot "methods_block",
    slot "extra"]

def declarationTemplate : String := join "\n"
  [slot "warning" ++ slot "imports",
    "",
    "cdef class " ++ slot "name" ++ slot "parents_clause" ++ ":",
    "    cdef " ++ slot "cpp_module" ++ "." ++ slot "name" ++ " * _inst",
    "    cdef public bint _free_inst",
    slot "extra"]

def implementationTemplate : String := join "\n"
  [slot "warning" ++ "\"\"\"" ++ slot "module_docstring",
    "\"\"\"",
    slot "imports",
    "",
    "cdef class " ++ slot "name" ++ slot "parents_clause" ++ ":",
    "    \"\"\"" ++ slot "class_docstring" ++ "\"\"\"",
    "",
    "    # constructors",
    "    def __cinit__(self, *args, **kwargs):",
    "        self._inst = NULL",
    "        self._free_inst = True",
    "",
    slot "init_block",
    "",
    "    def __dealloc__(self):",
    "        if self._free_inst:",
    "            free(self._inst)",
    "",
    "    # attributes",
    slot "attrs_block",
    "",
    "    # methods",
    slot "methods_block",
    slot "extra"]

/-! ### Parts of files -/

def parentsClause (parents : List String) : String :=
  if parents.isEmpty then "" else "(" ++ join ", " parents ++ ")"

/-- How a parent of an extension type is spelled: a class by its own name. -/
def parentText : TypeTerm → String
  | .atomic name => name
  | t => typeText t

def docstring (text? : Option String) (what : String) : String :=
  text?.getD ("no docstring for " ++ what ++ ", please file a bug report!")

/-- A fragment of the description, on lines of its own. -/
def extraFragment (cx : RenderContext) (key : String) : String :=
  match cx.desc.extraText? key with
  | some text => "\n" ++ text ++ "\n"
  | none => ""

def arity (s : RenderedSignature) : Nat := s.key.args.length

/-- Of the signatures with equally many arguments only the first. -/
def firstPerArity : List RenderedSignature → List RenderedSignature
  | [] => []
  | s :: rest => s :: (firstPerArity rest).filter fun t => arity t != arity s

def argList (n : Nat) : String :=
  join ", " ((List.range n).map fun i => "args[" ++ toString i ++ "]")

def branch (keyword : String) (call : RenderedSignature → String → String)
    (s : RenderedSignature) : List String :=
  [keyword ++ " len(args) == " ++ toString (arity s) ++ ":", "    " ++ call s (argList (arity s))]

/-- Chooses an overload by the number of arguments; the first of each number is taken. -/
def dispatchBlock (signatures : List RenderedSignature)
    (call : RenderedSignature → String → String) (what : String) : List String :=
  match firstPerArity signatures with
  | [] => ["pass"]
  | s :: rest =>
    branch "if" call s ++ rest.flatMap (branch "elif" call) ++
      ["else:", "    raise TypeError(\"no overload of " ++ what ++
        " takes \x7b0\x7d arguments\".format(len(args)))"]

/-- Neighbours of one name together. -/
def byName : List RenderedSignature → List (String × List RenderedSignature)
  | [] => []
  | s :: rest =>
    match byName rest with
    | [] => [(s.key.name, [s])]
    | (name, group) :: more =>
      if name = s.key.name then (name, s :: group) :: more
      else (s.key.name, [s]) :: (name, group) :: more

/-- The signatures that are declared and called; destructors run by themselves. -/
def declared (cx : RenderContext) : List RenderedSignature :=
  cx.constructors.filter fun s => !s.key.isDestructor

def notes (cx : RenderContext) (part : Docstrings → Notes) (name : String) : Option String := do
  (part (← cx.desc.docstrings?)).get? name

def initBlock (cx : RenderContext) : List String :=
  ["def __init__(self, *args):",
    "    \"\"\"" ++ docstring (notes cx Docstrings.methods cx.name) cx.name ++ "\"\"\"",
    indent 4 (dispatchBlock (declared cx)
      (fun _ args => "self._inst = new " ++ classModule cx.name ++ "." ++ cx.name ++
        "(" ++ args ++ ")") cx.name)]

def propertyBlock (cx : RenderContext) (a : RenderedAttr) : List String :=
  ["property " ++ a.name ++ ":",
    "    \"\"\"" ++ docstring (notes cx Docstrings.attrs a.name) a.name ++ "\"\"\"",
    "    def __get__(self):",
    "        return self._inst." ++ a.name,
    "",
    "    def __set__(self, value):",
    "        self._inst." ++ a.name ++ " = value",
    ""]

def methodCall (name : String) (s : RenderedSignature) (args : String) : String :=
  let call := "self._inst." ++ name ++ "(" ++ args ++ ")"
  if s.returns.any (!·.isVoid) then "return " ++ call else call

def methodBlock (cx : RenderContext) (group : String × List RenderedSignature) : List String :=
  ["def " ++ group.1 ++ "(self, *args):",
    "    \"\"\"" ++ docstring (notes cx Docstrings.methods group.1) group.1 ++ "\"\"\"",
    indent 4 (dispatchBlock group.2 (methodCall group.1) group.1),
    ""]

/-! ### Files -/

def vars (l : List (String × String)) : Text.Vars := SortedMap.ofList l

def headerVars (cx : RenderContext) : Text.Vars := vars
  [("warning", warning),
    ("imports", join "\n" cx.imports),
    ("header_filename", cx.headerFile),
    ("scope_clause", (cx.scope?.map fun s => " namespace \"" ++ s ++ "\"").getD ""),
    ("name", cx.name),
    ("parents_clause", parentsClause (cx.parents.map typeText)),
    ("constructors_block", indent 8 ((declared cx).map (·.line))),
    ("attrs_block", indent 8 (cx.attrs.map (·.line))),
    ("methods_block", indent 8 (cx.methods.map (·.line))),
    ("extra", extraFragment cx "cpppxd")]

/-- The extension type of an atomic parent is imported from the parent's own declaration. -/
def parentImport? : TypeTerm → Option Import
  | .atomic name => some (.ofSymbol (lowerCase name) name)
  | _ => none

def declarationImports (cx : RenderContext) : List String :=
  sortedDistinct compare <|
    (Import.ofModule (classModule cx.name) :: cx.parents.filterMap parentImport?).map importText

def declarationVars (cx : RenderContext) : Text.Vars := vars
  [("warning", warning),
    ("imports", join "\n" (declarationImports cx)),
    ("name", cx.name),
    ("parents_clause", parentsClause (cx.parents.map parentText)),
    ("cpp_module", classModule cx.name),
    ("extra", extraFragment cx "pxd")]

def implementationImports (cx : RenderContext) : List String :=
  sortedDistinct compare <| cx.imports ++
    [importText (.ofSymbol "libc.stdlib" "free"), importText (.ofModule (classModule cx.name))]

def implementationVars (cx : RenderContext) : Text.Vars := vars
  [("warning", warning),
    ("module_docstring",
      docstring (cx.desc.docstrings?.bind (·.module?)) ("module " ++ lowerCase cx.name)),
    ("imports", join "\n" (implementationImports cx)),
    ("name", cx.name),
    ("parents_clause", parentsClause (cx.parents.map parentText)),
    ("class_docstring", docstring (cx.desc.docstrings?.bind (·.class?)) cx.name),
    ("init_block", indent 4 (initBlock cx)),
    ("attrs_block", indent 4 (cx.attrs.flatMap (propertyBlock cx))),
    ("methods_block", indent 4 ((byName cx.methods).flatMap (methodBlock cx))),
    ("extra", extraFragment cx "pyx")]

def file : ArtifactKind → RenderContext → String
  | .header, cx => fill headerTemplate (headerVars cx)
  | .declaration, cx => fill declarationTemplate (declarationVars cx)
  | .implementation, cx => fill implementationTemplate (implementationVars cx)

def backend : Backend where
  typeText := typeText
  imports := imports
  importText := importText
  attrText := attrText
  signatureText := signatureText
  fileName := fileName
  file := file

end Bindery.Cython
