import Bindery.Binding.Cython
import Bindery.CommandLine.Inputs
import Bindery.Description.Merge
import Bindery.Json.Writer

/-!
# Running a command

Each command is a sequence of steps on a console. A step that fails ends the run where it stands:
what was written or printed before is not taken back.
-/

namespace Bindery.CommandLine

/-- The text of a value. Nothing fails here, as the keys of all objects are texts. -/
def serialize (v : Json) : Except Error String := pure v.pretty

/-- The given descriptions with the layers below and above them. -/
def layerAll (base overrides descs : List Description) : BatchReport Description :=
  .ofOutcomes (descs.zipIdx.map fun (x, i) => (x.label i, x.layered base overrides))

/-- How a run ends for those who started it. -/
inductive Exit where
  | status (code : Nat)
  | killed
deriving DecidableEq

namespace Console
variable {m : Type → Type} [Monad m] (c : Console m)

/-! ### Results -/

/-- Writes a file, with the folders on the way to it. -/
def save (path text : String) : ExceptT Ending m Unit := do
  match Path.parent? path with
  | some folder => demand (.cannotCreate folder) (← c.createFolders folder)
  | none => pure ()
  demand (.cannotWrite path) (← c.write path text)

/-- Says that the files of a class are written. -/
def announce (name : String) (paths : List String) : m Unit :=
  c.note ("✓ " ++ name ++ " → " ++ Text.join ", " paths)

/-- A description goes to a file named for the class, or is printed. -/
def deliverDescriptions (out? : Option String) :
    List (String × Description) → ExceptT Ending m Unit
  | [] => pure ()
  | (name, d) :: rest => do
    let text ← demand .failed (serialize d.toJson)
    match out? with
    | some folder =>
      let path := Path.join folder (name ++ ".json")
      c.save path text
      c.announce name [path]
    | none => c.print (text ++ "\n")
    deliverDescriptions out? rest

/-- Writes files and answers with their paths. -/
def saveArtifacts (out : String) : List Artifact → ExceptT Ending m (List String)
  | [] => pure []
  | x :: rest => do
    let path := Path.join out x.fileName
    c.save path x.text
    let more ← saveArtifacts out rest
    pure (path :: more)

def deliverArtifacts (out : String) : List (String × Artifacts) → ExceptT Ending m Unit
  | [] => pure ()
  | (name, files) :: rest => do
    let written ← c.saveArtifacts out files.toList
    c.announce name written
    deliverArtifacts out rest

def noteFailures : List (String × Error) → m Unit
  | [] => pure ()
  | (name, e) :: rest => do
    c.note ("✗ " ++ name ++ ": " ++ e.message)
    noteFailures rest

/-- Says what has failed. If anything has, the run has, too. -/
def finish {α : Type} (report : BatchReport α) : ExceptT Ending m Unit := do
  c.noteFailures report.failed
  if report.isClean then pure () else fail (.incomplete report.failed.length report.total)

/-! ### Commands -/

def describe (input : ClassInput) (out? : Option String) : ExceptT Ending m Unit := do
  let report ← c.describeClasses input
  c.deliverDescriptions out? report.succeeded
  c.finish report

def merge (paths : List String) (out? : Option String) : ExceptT Ending m Unit := do
  let descs ← c.loadDescriptions paths
  let merged ← demand .failed (Description.merge descs)
  let text ← demand .failed (serialize merged.toJson)
  match out? with
  | some path => c.save path text
  | none => c.print (text ++ "\n")

def generate (input : ClassInput) (paths base overrides : List String) (marker? : Option String)
    (out : String) : ExceptT Ending m Unit := do
  if input.isEmpty && paths.isEmpty then fail .nothingToGenerate
  else
    let base ← c.loadDescriptions base
    let overrides ← c.loadDescriptions overrides
    let described ← c.describeIfGiven input
    let loaded ← c.loadDescriptions (← c.expand paths)
    let layered := layerAll base overrides (described.succeeded.map (·.2) ++ loaded)
    let generated := generateAll Cython.backend (layered.succeeded.map (·.2)) marker?
    c.deliverArtifacts out generated.succeeded
    let failed := described.failed ++ layered.failed ++ generated.failed
    c.finish { generated with failed := failed }

def work : Command → ExceptT Ending m Unit
  | .describe input out? => c.describe input out?
  | .merge paths out? => c.merge paths out?
  | .generate input paths base overrides marker? out =>
    c.generate input paths base overrides marker? out

/-- Runs a command to its end. Faults are told, but a program that is killed says no more. -/
def run (command : Command) : m Exit := do
  match ← (c.work command).run with
  | .ok () => pure (.status 0)
  | .error (.fault f) =>
    c.note ("error: " ++ f.message)
    pure (.status 1)
  | .error .overflow => pure .killed

end Console

end Bindery.CommandLine
