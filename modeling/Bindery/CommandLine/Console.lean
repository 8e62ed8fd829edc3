import Bindery.Disk.Glob
import Bindery.Parsing.Command

/-!
# Consoles

What a run does to the world around it, it does through a console: it reads files, looks for
matches of patterns, has programs run, makes folders, writes files, prints, and notes lines on the
error stream. A run is a sequence of such steps, of which any may end it.
-/

namespace Bindery

/-- A folder that could not be listed. -/
structure Unlisted where
  path : String
  fault : FileFault
deriving DecidableEq

namespace CommandLine

/-- What a run fails with. -/
inductive RunFault where
  | noClass
  | noDocument
  | nothingToGenerate
  | badPattern (pattern : String)
  | unlisted (folder : Unlisted)
  | noMatch (pattern : String)
  | badDocument (path : String) (cause : Error)
  | badDescription (path : String) (cause : Error)
  | failed (cause : Error)
  | cannotCreate (folder : String) (fault : FileFault)
  | cannotWrite (path : String) (fault : FileFault)
  | incomplete (failures total : Nat)

/-- An error after what it was, with what the file system said once more. -/
def trace : Error → String
  | .unreadableFile path fault =>
    (Error.unreadableFile path fault).message ++ ": " ++ fault.message
  | e => e.message

def RunFault.message : RunFault → String
  | .noClass => "no --class given"
  | .noDocument => "no AST documents given (use --ast or --source)"
  | .nothingToGenerate => "nothing to generate (use --desc, --ast or --source)"
  | .badPattern pattern => "invalid glob pattern: " ++ pattern
  | .unlisted folder =>
    "attempting to read `" ++ folder.path ++ "` resulted in an error: " ++ folder.fault.message
  | .noMatch pattern => "glob pattern matched no files: " ++ pattern
  | .badDocument path cause => "failed to load AST document " ++ path ++ ": " ++ trace cause
  | .badDescription path cause => "failed to load description " ++ path ++ ": " ++ trace cause
  | .failed cause => trace cause
  | .cannotCreate folder fault => "failed to create " ++ folder ++ ": " ++ fault.message
  | .cannotWrite path fault => "failed to write " ++ path ++ ": " ++ fault.message
  | .incomplete failures total =>
    toString failures ++ " of " ++ toString total ++ " classes failed"

/-- What ends a run before it is through. -/
inductive Ending where
  | fault (cause : RunFault)
  /-- There is no room for another call, and the program is gone. -/
  | overflow

structure Console (m : Type → Type) where
  /-- The text of a file, up to the first octet that belongs to no character. -/
  read : (path : String) → m (Except FileFault String)
  /-- The matches in order; the folders that cannot be listed stand where their matches would. -/
  glob : Glob.Pattern → m (List (Except Unlisted String))
  execute : (program : String) → (words : List String) → m (Except FileFault Finished)
  createFolders : (folder : String) → m (Except FileFault Unit)
  write : (path text : String) → m (Except FileFault Unit)
  print : String → m Unit
  note : String → m Unit

section
variable {m : Type → Type} [Monad m] {α ε : Type}

/-- Ends the run with a fault. -/
def fail (fault : RunFault) : ExceptT Ending m α := throw (.fault fault)

/-- Goes on with what there is, or ends the run with the fault for what is wrong. -/
def demand (fault : ε → RunFault) : Except ε α → ExceptT Ending m α
  | .ok a => pure a
  | .error e => fail (fault e)

end

end CommandLine

end Bindery
