import Bindery.Disk.Basic
import Bindery.Parsing.Switch
import Bindery.Text.ShellWord

/-!
# What tools have in common

A tool answers from its arguments and the files they name, and leaves the disk as it is; its
standard input is empty.
-/

namespace Bindery

structure ToolResult where
  output : String
  /-- What the tool says on its error stream. -/
  complaint : String
  status : Nat
deriving DecidableEq

namespace ToolResult

def success (output : String) : ToolResult := ⟨output, "", 0⟩

/-- Nothing but a complaint, under the name that the tool was called by. -/
def failure (self complaint : String) (status : Nat) : ToolResult :=
  ⟨"", self ++ ": " ++ complaint ++ "\n", status⟩

/-- A complaint about the words of the command line. -/
def misuse (self complaint : String) : ToolResult :=
  failure self (complaint ++ "\nTry '" ++ self ++ " --help' for more information.") 1

/-- What a tool says of itself. -/
def usage (self : String) : ToolResult := success ("Usage: " ++ self ++ " [OPTION]... [FILE]...\n")

end ToolResult

namespace Tool

/-- The lines of a text, each with the character that ends it. -/
def linesBy (terminator : Char) : List Char → List (List Char)
  | [] => []
  | c :: rest =>
    if c = terminator then [c] :: linesBy terminator rest
    else
      match linesBy terminator rest with
      | [] => [[c]]
      | l :: ls => (c :: l) :: ls

end Tool

end Bindery
