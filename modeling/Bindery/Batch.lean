import Bindery.Ast.Describe
import Bindery.Binding.Generate

/-!
# Batches

Many classes at once. Each fails or succeeds on its own, and the report keeps the order in which
they were given. A class is looked for in one document after another. There is no report at all if
the program runs out of room over one of the classes, whichever it is.
-/

namespace Bindery

structure BatchReport (α : Type) where
  succeeded : List (String × α)
  failed : List (String × Error)

namespace BatchReport
variable {α : Type}

def isClean (r : BatchReport α) : Bool := r.failed.isEmpty

def total (r : BatchReport α) : Nat := r.succeeded.length + r.failed.length

/-- Sorts labelled outcomes into successes and failures. -/
def ofOutcomes : List (String × Except Error α) → BatchReport α
  | [] => ⟨[], []⟩
  | (label, .ok a) :: rest =>
    let r := ofOutcomes rest
    { r with succeeded := (label, a) :: r.succeeded }
  | (label, .error e) :: rest =>
    let r := ofOutcomes rest
    { r with failed := (label, e) :: r.failed }

end BatchReport

/-- Whether another document may still have the class: it is absent here, or only outside the
allowed files. -/
def Error.isMiss : Error → Bool
  | .classNotFound _ => true
  | .ambiguousOrigin _ 0 => true
  | _ => false

/-- The first document's answer that is not a miss, or else the first miss. Documents without any
of the wanted files are passed over. -/
def describeIn (name : String) (onlyIn : List String) (miss? : Option Error) :
    List Ast.Document → Except Halt Description
  | [] => throw (.failed (miss?.getD (.classNotFound name)))
  | d :: rest =>
    let within := onlyIn.filter d.hasFile
    if !onlyIn.isEmpty && within.isEmpty then describeIn name onlyIn miss? rest
    else
      match Ast.describe d name within with
      | .ok desc => pure desc
      | .error .overflow => throw .overflow
      | .error (.failed e) =>
        if e.isMiss then describeIn name onlyIn (miss? <|> some e) rest else throw (.failed e)

/-- An outcome that can be reported. -/
def Halt.reported? {α : Type} : Except Halt α → Option (Except Error α)
  | .ok a => some (.ok a)
  | .error (.failed e) => some (.error e)
  | .error .overflow => none

/-- The report of all outcomes, if every one of them can be reported. -/
def BatchReport.ofHalts? {α : Type} (l : List (String × Except Halt α)) :
    Option (BatchReport α) :=
  (l.mapM fun x => (Halt.reported? x.2).map (x.1, ·)).map .ofOutcomes

/-- Describes each class. A wanted file that is in no document fails them all. -/
def describeAll (documents : List Ast.Document) (names onlyIn : List String) :
    Option (BatchReport Description) :=
  let unknown? := onlyIn.find? fun entry => !documents.any (·.hasFile entry)
  BatchReport.ofHalts? <| names.map fun name =>
    (name,
      match unknown? with
      | some entry => throw (.failed (.unknownOriginFile entry))
      | none => describeIn name onlyIn none documents)

/-- What a description is called in a report: its name, or its number when it has none. -/
def Description.label (d : Description) (i : Nat) : String :=
  d.name?.getD ("<description #" ++ toString i ++ ">")

def generateAll (b : Backend) (descriptions : List Description) (marker? : Option String) :
    BatchReport Artifacts :=
  .ofOutcomes <| descriptions.zipIdx.map fun (d, i) => (d.label i, b.generate d marker?)

end Bindery
