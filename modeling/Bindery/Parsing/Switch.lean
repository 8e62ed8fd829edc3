import Bindery.Text.Pieces

/-!
# Switches

The words of a tool's command line. A switch is a letter after a dash, alone or in a cluster, or a
name after two dashes, which may be cut short as long as one switch is meant; its value is what
follows in the word or else the next word. All other words are operands, wherever they stand; after
`--` every word is one.
-/

namespace Bindery

structure Switch (α : Type) where
  meaning : α
  letter? : Option Char
  name? : Option String
  takesValue : Bool

/-- What a part of a command line comes to. -/
inductive SwitchItem (α : Type) where
  /-- A switch; the value is empty if it takes none. -/
  | switch (meaning : α) (value : String)
  | operand (word : String)
  | wrong (complaint : String)

namespace Switch
variable {α : Type}

/-- A switch that takes the next word for its value, and what to say if there is none. -/
structure Pending (α : Type) where
  meaning : α
  complaint : String

/-! ### Letters -/

/-- How a letter is shown: an octet of a longer character is no text on its own. -/
def shownLetter (c : Char) : Char := if c.toNat < 128 then c else '\ufffd'

def invalidLetter (c : Char) : String := "invalid option -- '" ++ (shownLetter c).toString ++ "'"

def letterLacksValue (c : Char) : String := "option requires an argument -- '" ++ c.toString ++ "'"

/-- The switches of a cluster; the last of them may still need a value. -/
def readCluster (table : List (Switch α)) : List Char → List (SwitchItem α) × Option (Pending α)
  | [] => ([], none)
  | c :: rest =>
    match table.find? fun s => s.letter? == some c with
    | none => ([.wrong (invalidLetter c)], none)
    | some s =>
      if !s.takesValue then
        let (items, pending?) := readCluster table rest
        (.switch s.meaning "" :: items, pending?)
      else if rest.isEmpty then ([], some ⟨s.meaning, letterLacksValue c⟩)
      else ([.switch s.meaning (String.ofList rest)], none)

/-! ### Names -/

def dashed (name : String) : String := "'--" ++ name ++ "'"

/-- The switches that a name may mean, with their full names. -/
def named (table : List (Switch α)) (start : String) : List (String × Switch α) :=
  let candidates := table.filterMap fun s => s.name?.map (·, s)
  match candidates.find? (·.1 == start) with
  | some found => [found]
  | none => candidates.filter fun e => start.toList.isPrefixOf e.1.toList

/-- The switch that a word names, the word given without its dashes. -/
def readName (table : List (Switch α)) (word : String) : SwitchItem α ⊕ Pending α :=
  let l := word.toList
  match named table (String.ofList (l.takeWhile (· != '='))), l.dropWhile (· != '=') with
  | [], _ => .inl (.wrong ("unrecognized option " ++ dashed word))
  | [(name, s)], value =>
    match value, s.takesValue with
    | [], false => .inl (.switch s.meaning "")
    | [], true => .inr ⟨s.meaning, "option " ++ dashed name ++ " requires an argument"⟩
    | _ :: _, false => .inl (.wrong ("option " ++ dashed name ++ " doesn't allow an argument"))
    | _ :: text, true => .inl (.switch s.meaning (String.ofList text))
  | several, _ =>
    .inl (.wrong ("option " ++ dashed word ++ " is ambiguous; possibilities: " ++
      Text.join " " (several.map fun e => dashed e.1)))

/-! ### Command lines -/

def readWord (table : List (Switch α)) (word : String) :
    List (SwitchItem α) × Option (Pending α) :=
  match word.toList with
  | '-' :: '-' :: name =>
    match readName table (String.ofList name) with
    | .inl item => ([item], none)
    | .inr pending => ([], some pending)
  | '-' :: c :: rest => readCluster table (c :: rest)
  | _ => ([.operand word], none)

/-- Reads words on from a switch that may be pending. -/
def readFrom (table : List (Switch α)) :
    Option (Pending α) → List String → List (SwitchItem α)
  | none, [] => []
  | some p, [] => [.wrong p.complaint]
  | some p, word :: rest => .switch p.meaning word :: readFrom table none rest
  | none, word :: rest =>
    if word = "--" then rest.map .operand
    else
      let (items, pending?) := readWord table word
      items ++ readFrom table pending? rest

def read (table : List (Switch α)) (words : List String) : List (SwitchItem α) :=
  readFrom table none words

end Switch

end Bindery
