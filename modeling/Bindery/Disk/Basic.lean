import Bindery.Disk.Path
import Bindery.Error
import Bindery.SortedMap

/-!
# Disks

A disk is what a program finds around it: texts in files, files in folders. A path is followed name
by name, so a name behind something that is no folder is a fault, even when dots lead back out.

`read` and `write` answer with a fault of the file system or with what was asked for; nothing else
about the disk changes.
-/

namespace Bindery

/-- The names that lead from the working folder to a place. The folders outside of it are reached
by leading `..`, and the root is `/`. -/
abbrev Location := List String

namespace Location

/-- The folders that every system has in its root. -/
def systemFolders : List String :=
  ["bin", "boot", "dev", "etc", "home", "lib", "media", "mnt", "opt", "proc", "root", "run", "sbin",
    "srv", "sys", "tmp", "usr", "var"]

/-- The folders that are always there: the working folder, those around it, the root, and those of
the system. -/
def isAnchor : Location → Bool
  | ["/"] => true
  | ["/", name] => systemFolders.contains name
  | l => l.all (· == "..")

/-- The file that is always there and always empty, whatever is written to it. -/
def sink : Location := ["/", "dev", "null"]

/-- The folder around a place. -/
def outer (l : Location) : Location :=
  if l == ["/"] then l else if l.all (· == "..") then ".." :: l else l.dropLast

def start (path : String) : Location := if Path.isAbsolute path then ["/"] else []

/-- The place one name on. -/
def onwards (l : Location) (name : String) : Location :=
  if name = "." then l else if name = ".." then l.outer else l ++ [name]

end Location

inductive Entry where
  | file (text : String)
  | folder
deriving DecidableEq

/-- The entries by location; every folder has an entry, apart from the anchors. -/
structure Disk where
  entries : SortedMap Location compare Entry

namespace Disk

def empty : Disk := ⟨∅⟩

def occupant? (d : Disk) (l : Location) : Option Entry :=
  if l.isAnchor then some .folder
  else if l = .sink then some (.file "")
  else d.entries.get? l

def put (d : Disk) (l : Location) (e : Entry) : Disk := ⟨d.entries.insert l e⟩

/-- The longest name that a place may have, in bytes. -/
def maxName : Nat := 255

/-- The longest path that may be followed, in bytes. -/
def maxPath : Nat := 4095

/-- What is wrong with a path wherever it leads. -/
def checkPath (path : String) : Except FileFault Unit :=
  if path.toList.contains '\x00' then throw .nulInPath
  else if maxPath < path.utf8ByteSize then throw .nameTooLong
  else pure ()

/-! ### Following paths -/

/-- The place that a name leads to. -/
def step (d : Disk) (here : Location) (name : String) : Except FileFault Location :=
  match d.occupant? here with
  | none => throw .notFound
  | some (.file _) => throw .notAFolder
  | some .folder =>
    if maxName < name.utf8ByteSize then throw .nameTooLong else pure (here.onwards name)

def walk (d : Disk) (here : Location) : List String → Except FileFault Location
  | [] => pure here
  | name :: rest => do d.walk (← d.step here name) rest

/-- Where a path leads, whether there is something or not. -/
def locate (d : Disk) (path : String) : Except FileFault Location := do
  checkPath path
  if path.isEmpty then throw .notFound
  else
    d.walk (.start path) (Path.names path ++ if Path.endsInSlash path then ["."] else [])

def look (d : Disk) (path : String) : Except FileFault Entry := do
  match d.occupant? (← d.locate path) with
  | some e => pure e
  | none => throw .notFound

def has (d : Disk) (path : String) : Bool := (d.look path).isOk

def isFolder (d : Disk) (path : String) : Bool :=
  match d.look path with
  | .ok .folder => true
  | _ => false

/-! ### Reading and writing -/

def read (d : Disk) (path : String) : Except FileFault String := do
  match ← d.look path with
  | .file text => pure text
  | .folder => throw .isAFolder

/-- Puts a text in the place of the file that the path leads to, or in a new one. The folder has to
be there. -/
def write (d : Disk) (path text : String) : Except FileFault Disk := do
  checkPath path
  let names := Path.names path
  let folder ← d.walk (.start path) (names.dropLast ++ ["."])
  match names.getLast? with
  | none => throw (if Path.isAbsolute path then .isAFolder else .notFound)
  | some name =>
    if Path.isDots name || Path.endsInSlash path then throw .isAFolder
    else
      let l ← d.step folder name
      match d.occupant? l with
      | some .folder => throw .isAFolder
      | _ => pure (if l = .sink then d else d.put l (.file text))

/-- Makes the missing ones of the folders that the names lead through. -/
def makeFolders (d : Disk) (here : Location) : List String → Except FileFault Disk
  | [] => pure d
  | name :: rest => do
    let l ← d.step here name
    match d.occupant? l with
    | none => (d.put l .folder).makeFolders l rest
    | some .folder => d.makeFolders l rest
    | some (.file _) => throw (if rest.isEmpty then .exists else .notAFolder)

def createFolders (d : Disk) (path : String) : Except FileFault Disk := do
  checkPath path
  d.makeFolders (.start path) (Path.names path)

/-! ### Building and listing -/

/-- Puts an entry where the names lead, with the folders on the way to it. -/
def placeAt (d : Disk) (here : Location) (e : Entry) : List String → Disk
  | [] => d
  | [name] => d.put (here.onwards name) e
  | name :: rest => (d.put (here.onwards name) .folder).placeAt (here.onwards name) e rest

def place (d : Disk) (path : String) (e : Entry) : Disk :=
  d.placeAt (.start path) e (Path.names path)

/-- A disk with these files. -/
def ofFiles (files : List (String × String)) : Disk :=
  files.foldl (fun d f => d.place f.1 (.file f.2)) empty

def files (d : Disk) : List (Location × String) :=
  d.entries.entries.filterMap fun
    | (l, .file text) => some (l, text)
    | (_, .folder) => none

/-- Everything in and below a folder, each folder before what it holds and in the order of names,
by the names that lead there from the folder. -/
def below (d : Disk) (folder : Location) : List (List String) :=
  d.entries.keys.filterMap fun l =>
    match folder.isPrefixOf? l with
    | some (name :: rest) => if name == ".." || name == "/" then none else some (name :: rest)
    | _ => none

/-- The names in a folder, ascending. -/
def namesIn (d : Disk) (folder : Location) : List String :=
  (d.below folder).filterMap fun
    | [name] => some name
    | _ => none

end Disk

end Bindery
