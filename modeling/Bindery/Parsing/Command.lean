import Bindery.Ast.Interchange
import Bindery.Error

/-!
# Parser commands

A parser command is a line of words: a program and its arguments. Run on a source, whose path
becomes the last argument, the program has to print a document. Which programs there are and what
they do is up to the system.
-/

namespace Bindery

structure ParserCommand where
  program : String
  args : List String
deriving DecidableEq

/-- What is known of a program that has run. -/
structure Finished where
  ending : ProgramEnd
  /-- What it printed, up to the first octet that belongs to no character. -/
  output : String
  /-- What it said on its error stream. -/
  complaint : String
deriving DecidableEq

namespace ParserCommand

/-- The words of a line; there are no quotes to keep words together. -/
def ofLine (line : String) : Except Error ParserCommand :=
  match Text.words line with
  | [] => throw (.parserFailed .emptyCommand)
  | program :: args => pure ⟨program, args⟩

/-- The words that the program is run on for a source. -/
def words (p : ParserCommand) (source : String) : List String := p.args ++ [source]

/-- The document that was made of a source. -/
def document (p : ParserCommand) (source : String) :
    Except FileFault Finished → Except Error Ast.Document
  | .error fault => throw (.parserFailed (.cannotRun p.program fault))
  | .ok r =>
    if r.ending = .exited 0 then
      (Ast.Document.load (.ofText r.output)).mapError fun e =>
        .parserFailed (.unreadable p.program e)
    else throw (.parserFailed (.failed p.program r.ending source (Text.trim r.complaint)))

end ParserCommand

end Bindery
