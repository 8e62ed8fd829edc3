import Bindery.Parsing.Command
import Bindery.Parsing.Tool.Cat
import Bindery.Parsing.Tool.Echo
import Bindery.Parsing.Tool.Head
import Bindery.Parsing.Tool.Test

/-!
# Tools

Some programs that hand a prepared document through, or part of it, or just succeed or fail. A system
that has nothing else to run still has these.
-/

namespace Bindery

inductive Tool where
  | cat
  | echo
  | head
  | test
  | succeed
  | fail
deriving DecidableEq

namespace Tool

def ofName? : String → Option Tool
  | "cat" => some .cat
  | "echo" => some .echo
  | "head" => some .head
  | "test" => some .test
  | "true" => some .succeed
  | "false" => some .fail
  | _ => none

/-- The folders that tools are in. -/
def folders : List String := ["/bin/", "/usr/bin/"]

/-- The tool that a program is, which is named alone or with its folder. -/
def ofProgram? (program : String) : Option Tool :=
  let l := program.toList
  match folders.find? fun f => f.toList.isPrefixOf l with
  | some f => ofName? (String.ofList (l.drop f.toList.length))
  | none => ofName? program

/-- Why a program cannot be run that is no tool. One that is named by its path is looked for on the
disk, where nothing may be run. -/
def refusal (d : Disk) (program : String) : FileFault :=
  if program.toList.contains '/' then
    match d.look program with
    | .ok _ => .notPermitted
    | .error e => e
  else if Path.isDots program then .notPermitted
  else if Disk.maxName < program.utf8ByteSize then .nameTooLong
  else .notFound

/-- The longest word that a program may be given, in bytes. -/
def maxWord : Nat := 131071

/-- The tool that a program is, if it can be run with these words. -/
def start (d : Disk) (program : String) (words : List String) : Except FileFault Tool :=
  if (program :: words).any (·.toList.contains '\x00') then throw .nulInWord
  else
    match ofProgram? program with
    | none => throw (refusal d program)
    | some tool => if words.any (maxWord < ·.utf8ByteSize) then throw .wordsTooLong else pure tool

/-- What a tool answers that is called by the word `self`. -/
def answer (t : Tool) (d : Disk) (self : String) (args : List String) : ToolResult :=
  match t with
  | .cat => Cat.run d self args
  | .echo => Echo.run self args
  | .head => Head.run d self args
  | .test => Test.run d self args
  | .succeed => .success ""
  | .fail => ⟨"", "", 1⟩

/-- Runs a program where there are only tools. -/
def run (d : Disk) (program : String) (words : List String) : Except FileFault Finished := do
  let tool ← start d program words
  let r := tool.answer d program words
  pure ⟨.exited r.status, r.output, r.complaint⟩

end Tool

end Bindery
