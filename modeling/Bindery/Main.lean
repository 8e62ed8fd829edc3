import Bindery.CommandLine.Run
import Bindery.Parsing.Tool
import Bindery.Text.Octets

/-!
# The program

Works a command out on the files and folders around it. The programs that it has run are the tools.
-/

namespace Bindery.Program
open CommandLine

def usage : String :=
  "usage: bindery [-v] describe --ast <path>... --class <name>... [--only-in <file>...] [-o <folder>]
       bindery [-v] merge --desc <path>... [-o <path>]
       bindery [-v] generate [--desc <path>...] [--ast <path>... --class <name>...]
               [--base <path>...] [--override <path>...]
               [--exception-marker <text> | --no-except] -o <folder>
documents may also be made of sources: --source <path>... --parser-cmd <command>"

/-- The number that the system gives a fault. -/
def errorNumber : IO.Error → Nat
  | .noFileOrDirectory _ n _ | .permissionDenied _ n _ | .alreadyExists _ n _
  | .inappropriateType _ n _ | .invalidArgument _ n _ | .resourceExhausted _ n _
  | .otherError n _ => n.toNat
  | _ => 0

def faultOf (e : IO.Error) : FileFault := .ofNumber (errorNumber e) (toString e)

/-- What an action on a path comes to. -/
def attempt {α : Type} (path : String) (action : IO α) : IO (Except FileFault α) := do
  match Disk.checkPath path with
  | .error fault => return .error fault
  | .ok () =>
    try return .ok (← action)
    catch e => return .error (faultOf e)

/-- The text at the beginning of some octets. -/
def textOf (octets : ByteArray) : String :=
  (String.fromUTF8? octets).getD (String.ofList (Text.ofOctets octets.toList))

/-- Adds what a path leads to; with `deep`, everything below a folder too. -/
partial def takeIn (d : Disk) (path : String) (deep : Bool) : IO Disk := do
  let place := (← IO.currentDir) / path
  if ← place.isDir then
    let mut d := d.place path .folder
    if deep then
      for entry in ← place.readDir do
        d ← takeIn d (Path.join path entry.fileName) true
    return d
  else if ← place.pathExists then
    return d.place path (.file (textOf (← IO.FS.readBinFile place)))
  else return d

def takeInAll (d : Disk) : List String → IO Disk
  | [] => return d
  | path :: rest => do takeInAll (← takeIn d path false) rest

/-- The matches of a pattern, or the fault in the way of finding them. -/
def matchesOf (p : Glob.Pattern) : IO (List (Except Unlisted String)) := do
  match ← attempt p.base (takeIn .empty p.base true) with
  | .ok d => return (p.find d).map .ok
  | .error fault => return [.error ⟨p.base, fault⟩]

def console (verbose : Bool) : Console IO where
  read path := do
    if verbose then IO.eprintln ("reading " ++ path)
    attempt path do return textOf (← IO.FS.readBinFile path)
  glob p := matchesOf p
  execute program words := return Tool.run (← takeInAll .empty words) program words
  createFolders folder :=
    if folder.isEmpty then return .ok () else attempt folder (IO.FS.createDirAll folder)
  write path text := attempt path (IO.FS.writeFile path text)
  print text := IO.print text
  note line := IO.eprintln line

/-- The exit status of a program that was aborted. -/
def aborted : UInt32 := 134

end Bindery.Program

open Bindery Program in
def main (args : List String) : IO UInt32 := do
  match CommandLine.Invocation.ofWords? args with
  | none =>
    IO.eprintln usage
    return 2
  | some i =>
    match ← (console i.verbose).run i.command with
    | .status code => return code.toUInt32
    | .killed => return aborted
