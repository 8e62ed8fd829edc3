import Bindery.Binding.Generate
import Bindery.CommandLine.Option

/-!
# Invocations

What a command line asks for. There are three commands: `describe` prints or writes the descriptions
of classes, `merge` merges descriptions, and `generate` writes the files of classes.
`Invocation.ofWords?` has no answer when the words are not a command line of this program.
-/

namespace Bindery.CommandLine

/-- Where classes are described from. -/
structure ClassInput where
  /-- Documents, by path or pattern. -/
  documents : List String
  /-- What the parser command is run on, by path or pattern. -/
  sources : List String
  parserCommand? : Option String
  classes : List String
  onlyIn : List String
deriving DecidableEq

def ClassInput.isEmpty (i : ClassInput) : Bool := i.documents.isEmpty && i.sources.isEmpty

inductive Command where
  | describe (input : ClassInput) (out? : Option String)
  | merge (descriptions : List String) (out? : Option String)
  /-- Every class lies between the layers of `base` and those of `overrides`. -/
  | generate (input : ClassInput) (descriptions base overrides : List String)
      (marker? : Option String) (out : String)
deriving DecidableEq

structure Invocation where
  /-- Whether to say more about what is going on. -/
  verbose : Bool
  command : Command
deriving DecidableEq

/-! ### The options -/

namespace Opt

def verbose : OptionSpec := ⟨"verbose", some 'v', .flag, false⟩
def ast : OptionSpec := ⟨"ast", none, .many, false⟩
def source : OptionSpec := ⟨"source", none, .many, false⟩
def parserCommand : OptionSpec := ⟨"parser-cmd", none, .single, false⟩
def className : OptionSpec := ⟨"class", some 'c', .many, false⟩
def onlyIn : OptionSpec := ⟨"only-in", none, .many, false⟩
def out : OptionSpec := ⟨"out", some 'o', .single, true⟩
def layers : OptionSpec := ⟨"desc", none, .many, true⟩
def description : OptionSpec := ⟨"desc", none, .many, false⟩
def base : OptionSpec := ⟨"base", none, .many, true⟩
def overriding : OptionSpec := ⟨"override", none, .many, true⟩
def marker : OptionSpec := ⟨"exception-marker", none, .single, false⟩
def noMarker : OptionSpec := ⟨"no-except", none, .flag, false⟩

def input : List OptionSpec := [ast, source, parserCommand, className, onlyIn]

end Opt

/-! ### Commands -/

/-- Sources need a parser command. -/
def classInput? (uses : List Use) : Option ClassInput :=
  if Uses.isGiven uses Opt.source && !Uses.isGiven uses Opt.parserCommand then none
  else some {
    documents := Uses.values uses Opt.ast
    sources := Uses.values uses Opt.source
    parserCommand? := Uses.value? uses Opt.parserCommand
    classes := Uses.values uses Opt.className
    onlyIn := Uses.values uses Opt.onlyIn }

def describe? (uses : List Use) : Option Command :=
  return .describe (← classInput? uses) (Uses.value? uses Opt.out)

def merge? (uses : List Use) : Option Command :=
  if Uses.isGiven uses Opt.layers then
    some (.merge (Uses.values uses Opt.layers) (Uses.value? uses Opt.out))
  else none

/-- A marker cannot be asked for together with none. -/
def generate? (uses : List Use) : Option Command := do
  let input ← classInput? uses
  let out ← Uses.value? uses Opt.out
  let noMarker := Uses.isGiven uses Opt.noMarker
  if noMarker && Uses.isGiven uses Opt.marker then none
  else
    let marker := (Uses.value? uses Opt.marker).getD defaultMarker
    some (.generate input (Uses.values uses Opt.description) (Uses.values uses Opt.base)
      (Uses.values uses Opt.overriding) (if noMarker then none else some marker) out)

/-- The options of a command besides `verbose`, and what their uses ask for. -/
def commandNamed? : String → Option (List OptionSpec × (List Use → Option Command))
  | "describe" => some (Opt.out :: Opt.input, describe?)
  | "merge" => some ([Opt.layers, Opt.out], merge?)
  | "generate" =>
    some (Opt.out :: Opt.description :: Opt.base :: Opt.overriding :: Opt.marker :: Opt.noMarker ::
      Opt.input, generate?)
  | _ => none

/-- Whether a word is an option, and so not the name of the command. -/
def isOption (word : String) : Bool :=
  match Word.ofText word with
  | .full .. | .letters _ => true
  | .value | .finish => false

/-- Options may stand before the name of the command as well as after it. -/
def Invocation.ofWords? (words : List String) : Option Invocation := do
  let before ← scan [Opt.verbose] (words.takeWhile isOption)
  match words.dropWhile isOption with
  | [] => none
  | name :: rest =>
    let (specs, build) ← commandNamed? name
    let uses ← scan (Opt.verbose :: specs) rest
    let command ← build uses
    some ⟨Uses.isGiven (before ++ uses) Opt.verbose, command⟩

end Bindery.CommandLine
