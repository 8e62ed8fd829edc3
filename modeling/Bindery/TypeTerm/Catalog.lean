import Bindery.Text.Pieces

/-!
# The catalogue of known types

Which name a fundamental spelling stands for, and which standard containers are taken apart into
their arguments. An argument is found through a member type of the instantiated class, its role.
-/

namespace Bindery.Catalog

/-- The name of the fundamental type with this spelling. -/
def primitive? : String → Option String
  | "char" | "signed char" => some "char"
  | "unsigned char" => some "uchar"
  | "short int" => some "int16"
  | "short unsigned int" => some "uint16"
  | "int" => some "int32"
  | "unsigned int" => some "uint32"
  | "long int" | "long long int" => some "int64"
  | "long unsigned int" | "long long unsigned int" => some "uint64"
  | "float" => some "float32"
  | "double" => some "float64"
  | "complex" | "complex double" => some "complex128"
  | "void" => some "void"
  | "bool" => some "bool"
  | _ => none

inductive Role where
  | value
  | key
  | mapped
  | first
  | second
deriving DecidableEq

/-- The member type that holds the argument. -/
def Role.memberName : Role → String
  | .value => "value_type"
  | .key => "key_type"
  | .mapped => "mapped_type"
  | .first => "first_type"
  | .second => "second_type"

/-- The roles of a container's arguments, in order; `none` for a template that stays opaque. -/
def roles? : String → Option (List Role)
  | "array" | "deque" | "forward_list" | "list" | "vector" => some [.value]
  | "map" | "multimap" | "unordered_map" | "unordered_multimap" => some [.key, .mapped]
  | "set" | "multiset" | "unordered_set" | "unordered_multiset" => some [.key]
  | "pair" => some [.first, .second]
  | _ => none

def arity? (name : String) : Option Nat := (roles? name).map List.length

/-- The template whose instantiation is the string type. -/
def stringTemplate : String := "basic_string"

/-- Whether a name is spelled like an instantiation: `map<int, double>`. -/
def isInstantiation (name : String) : Bool :=
  name.toList.contains '<' && name.toList.getLast? == some '>'

/-- The characters before the first `::`. -/
def upToScope : List Char → List Char
  | [] => []
  | ':' :: ':' :: _ => []
  | c :: rest => c :: upToScope rest

/-- The template's own name in an instantiation: `map` in `std::map<int, double>`. -/
def templateName (name : String) : String :=
  let head := name.toList.takeWhile (· != '<')
  String.ofList (Text.trimChars (upToScope head.reverse).reverse)

end Bindery.Catalog
