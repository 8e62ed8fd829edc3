import Bindery.CommandLine.Run

/-!
# Sessions

A run on a disk, with what it printed and noted. How files are opened, how folders are listed and
what programs do is up to the host of the disk.
-/

namespace Bindery.CommandLine

/-- What a disk is run by. -/
structure Host where
  /-- The text of a file, up to the first octet that belongs to no character. -/
  read : Disk → (path : String) → Except FileFault String
  glob : Disk → Glob.Pattern → List (Except Unlisted String)
  /-- What a program answers, and the disk that it leaves. -/
  execute : Disk → (program : String) → (words : List String) → Except FileFault Finished × Disk

/-- A host with the given programs, which lets any file be read and any folder be listed. -/
def Host.permissive (execute : Disk → String → List String → Except FileFault Finished × Disk) :
    Host where
  read := Disk.read
  glob d p := (p.find d).map .ok
  execute := execute

/-- A disk, and what has been said so far. -/
structure Session where
  disk : Disk
  output : String
  /-- The lines on the error stream. -/
  notes : List String

namespace Session

def start (d : Disk) : Session := ⟨d, "", []⟩

/-- Changes the disk, if it can be done. -/
def change (f : Disk → Except FileFault Disk) : StateM Session (Except FileFault Unit) := fun s =>
  match f s.disk with
  | .ok d => (.ok (), { s with disk := d })
  | .error fault => (.error fault, s)

def console (host : Host) : Console (StateM Session) where
  read path := return host.read (← get).disk path
  glob p := return host.glob (← get).disk p
  execute program words := fun s =>
    let (r, d) := host.execute s.disk program words
    (r, { s with disk := d })
  createFolders folder := change (·.createFolders folder)
  write path text := change (·.write path text)
  print text := modify fun s => { s with output := s.output ++ text }
  note line := modify fun s => { s with notes := s.notes ++ [line] }

end Session

/-- How a command ends on a disk, and what it leaves. -/
def run (host : Host) (d : Disk) (command : Command) : Exit × Session :=
  ((Session.console host).run command).run (.start d)

end Bindery.CommandLine
