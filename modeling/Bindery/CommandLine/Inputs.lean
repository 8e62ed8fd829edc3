import Bindery.Batch
import Bindery.CommandLine.Console
import Bindery.CommandLine.Invocation
import Bindery.Description.Interchange
import Bindery.Disk.Load

/-!
# Inputs of a run

Documents and descriptions are read from files, which may be given by patterns; documents are also
made of sources by a parser command. The classes that are asked for are described from all of them.
-/

namespace Bindery.CommandLine.Console
variable {m : Type → Type} [Monad m] (c : Console m)

/-- The paths that a path or pattern stands for. A path need not lead anywhere, but a pattern has to
match something. -/
def expandOne (text : String) : ExceptT Ending m (List String) :=
  if Glob.isPattern text then
    match Glob.Pattern.ofText? text with
    | none => fail (.badPattern text)
    | some p => do
      let paths ← demand .unlisted ((← c.glob p).mapM id)
      if paths.isEmpty then fail (.noMatch text) else pure paths
  else pure [text]

def expand : List String → ExceptT Ending m (List String)
  | [] => pure []
  | text :: rest => do
    let paths ← c.expandOne text
    let more ← expand rest
    pure (paths ++ more)

def load {α : Type} (loader : Json.Reading → Json.Load α) (path : String) : m (Except Error α) :=
  return loadRead loader path (← c.read path)

def loadDocuments : List String → ExceptT Ending m (List (String × Ast.Document))
  | [] => pure []
  | path :: rest => do
    let document ← demand (.badDocument path) (← c.load Ast.Document.load path)
    let more ← loadDocuments rest
    pure ((path, document) :: more)

def loadDescriptions : List String → ExceptT Ending m (List Description)
  | [] => pure []
  | path :: rest => do
    let desc ← demand (.badDescription path) (← c.load Description.load path)
    let more ← loadDescriptions rest
    pure (desc :: more)

/-- Has the document made of a source. -/
def parse (p : ParserCommand) (source : String) : m (Except Error Ast.Document) :=
  return p.document source (← c.execute p.program (p.words source))

/-- Has documents made of all sources; each fails on its own. -/
def parseAll (p : ParserCommand) : List String → m (List (String × Except Error Ast.Document))
  | [] => pure []
  | source :: rest => do
    let outcome ← c.parse p source
    let more ← parseAll p rest
    pure ((source, outcome) :: more)

/-- All documents of an input by path. Those that are given as documents have to load. -/
def gatherDocuments (input : ClassInput) : ExceptT Ending m (BatchReport Ast.Document) := do
  let documents ← c.loadDocuments (← c.expand input.documents)
  if input.sources.isEmpty then pure ⟨documents, []⟩
  else
    let command ← demand .failed (ParserCommand.ofLine (input.parserCommand?.getD ""))
    let outcomes ← c.parseAll command (← c.expand input.sources)
    let parsed := BatchReport.ofOutcomes outcomes
    pure ⟨documents ++ parsed.succeeded, parsed.failed⟩

/-- Describes the classes that are asked for; the sources that failed come first among the
failures. -/
def describeClasses (input : ClassInput) : ExceptT Ending m (BatchReport Description) := do
  if input.classes.isEmpty then fail .noClass
  else
    let gathered ← c.gatherDocuments input
    if gathered.total = 0 then fail .noDocument
    else
      match describeAll (gathered.succeeded.map (·.2)) input.classes input.onlyIn with
      | none => throw .overflow
      | some report => pure { report with failed := gathered.failed ++ report.failed }

/-- The descriptions of an input, if there is any. -/
def describeIfGiven (input : ClassInput) : ExceptT Ending m (BatchReport Description) :=
  if input.isEmpty then pure ⟨[], []⟩ else c.describeClasses input

end Bindery.CommandLine.Console
