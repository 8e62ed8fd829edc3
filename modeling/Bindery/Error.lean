import Bindery.Json.Load
import Bindery.Method.Key

/-!
# Errors

Everything that can end the work on a class, by its cause. `Error.message` words it.
-/

namespace Bindery

/-- Why a class spelled like an instantiation cannot be taken apart. -/
inductive InstantiationFault where
  | noConstructor (template : String)
  | missingMember (role : String)
  | notAType (role : String)
deriving DecidableEq

inductive DescriptionFault where
  | nameMissing
  | nameEmpty
  | emptyAttrName
  | emptyMethodName
  | defaultBeforeMandatory (key : MethodKey)
  | nothingToMerge
deriving DecidableEq

/-- What the file system answers in place of a result. -/
inductive FileFault where
  | notFound
  | notPermitted
  | exists
  | notAFolder
  | isAFolder
  | nameTooLong
  | wordsTooLong
  /-- A path holds the character NUL, which ends a path for the system. -/
  | nulInPath
  /-- As `nulInPath`, in a word of a command. -/
  | nulInWord
  | other (number : Nat) (reason : String)
deriving DecidableEq

/-- How a program ends: on its own, or by a signal, whose description is given. -/
inductive ProgramEnd where
  | exited (status : Nat)
  | killed (signal : String)
deriving DecidableEq

inductive ParserFault where
  | emptyCommand
  | cannotRun (program : String) (fault : FileFault)
  | failed (program : String) (ending : ProgramEnd) (source : String) (complaint : String)
  | unreadable (program : String) (fault : Json.LoadError)
deriving DecidableEq

inductive Error where
  | classNotFound (name : String)
  | ambiguousOrigin (name : String) (found : Nat)
  | unresolvedReference (id : String)
  | unknownOriginFile (entry : String)
  | unknownPrimitive (spelling : String)
  | malformedInstantiation (name : String) (fault : InstantiationFault)
  | parserFailed (fault : ParserFault)
  | invalidDescription (fault : DescriptionFault)
  | unreadableFile (path : String) (fault : FileFault)
  /-- A value that could not be loaded, from a file if one is given. -/
  | badJson (path? : Option String) (fault : Json.LoadError)
deriving DecidableEq

/-- Why there is no result. -/
inductive Halt where
  | failed (cause : Error)
  /-- Calls go on inside of each other until there is no room for another one, and that ends the
  program with everything it was about to do. -/
  | overflow
deriving DecidableEq

def InstantiationFault.message : InstantiationFault → String
  | .noConstructor template => "no synthetic `" ++ template ++ "` constructor"
  | .missingMember role => "missing `" ++ role ++ "` member"
  | .notAType role => "`" ++ role ++ "` does not name a type"

def DescriptionFault.message : DescriptionFault → String
  | .nameMissing => "class name is missing"
  | .nameEmpty => "class name is empty"
  | .emptyAttrName => "attribute with empty name"
  | .emptyMethodName => "method with empty name"
  | .defaultBeforeMandatory key =>
    "`" ++ key.display ++ "` has a defaulted argument followed by a mandatory one"
  | .nothingToMerge => "nothing to merge"

def FileFault.reason : FileFault → String
  | .notFound => "No such file or directory"
  | .wordsTooLong => "Argument list too long"
  | .notPermitted => "Permission denied"
  | .exists => "File exists"
  | .notAFolder => "Not a directory"
  | .isAFolder => "Is a directory"
  | .nameTooLong => "File name too long"
  | .nulInPath => "file name contained an unexpected NUL byte"
  | .nulInWord => "nul byte found in provided data"
  | .other _ reason => reason

/-- The number of a fault among those of the system, which is never asked when there is a NUL. -/
def FileFault.number? : FileFault → Option Nat
  | .notFound => some 2
  | .wordsTooLong => some 7
  | .notPermitted => some 13
  | .exists => some 17
  | .notAFolder => some 20
  | .isAFolder => some 21
  | .nameTooLong => some 36
  | .nulInPath | .nulInWord => none
  | .other number _ => some number

def FileFault.ofNumber (number : Nat) (reason : String) : FileFault :=
  match number with
  | 2 => .notFound
  | 7 => .wordsTooLong
  | 13 => .notPermitted
  | 17 => .exists
  | 20 => .notAFolder
  | 21 => .isAFolder
  | 36 => .nameTooLong
  | _ => .other number reason

def FileFault.message (f : FileFault) : String :=
  match f.number? with
  | some n => f.reason ++ " (os error " ++ toString n ++ ")"
  | none => f.reason

def ProgramEnd.message : ProgramEnd → String
  | .exited status => "exit status: " ++ toString status
  | .killed signal => "signal: " ++ signal

def ParserFault.message : ParserFault → String
  | .emptyCommand => "empty parser command"
  | .cannotRun program fault => "could not run `" ++ program ++ "`: " ++ fault.message
  | .failed program ending source complaint =>
    "`" ++ program ++ "` exited with " ++ ending.message ++ " on " ++ source ++ ": " ++ complaint
  | .unreadable program fault =>
    "`" ++ program ++ "` produced an unreadable AST: " ++ fault.message

def Error.message : Error → String
  | .classNotFound name => "class or struct `" ++ name ++ "` not found in the AST document"
  | .ambiguousOrigin name found =>
    "class `" ++ name ++ "` is not uniquely defined within the allowed files (" ++ toString found ++
      " matching definitions)"
  | .unresolvedReference id => "unresolved node reference `" ++ id ++ "`"
  | .unknownOriginFile entry =>
    "only-in entry `" ++ entry ++ "` does not name a file of the AST document"
  | .unknownPrimitive spelling => "unknown primitive type spelling `" ++ spelling ++ "`"
  | .malformedInstantiation name fault =>
    "malformed template instantiation `" ++ name ++ "`: " ++ fault.message
  | .parserFailed fault => "external parser failed: " ++ fault.message
  | .invalidDescription fault => "invalid description: " ++ fault.message
  | .unreadableFile path fault => "I/O error on " ++ path ++ ": " ++ fault.message
  | .badJson none fault => fault.message
  | .badJson (some path) fault => path ++ ": " ++ fault.message

end Bindery
