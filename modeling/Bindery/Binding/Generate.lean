import Bindery.Binding.Backend

/-!
# Generating artifacts

`Backend.context` chooses what a class's files show: attributes and signatures that are not private
by name, and the imports that their types and the parents need, except those that would bind the
class's own name. `Backend.generate` has the backend write the three files.
-/

namespace Bindery

namespace Backend

def renderAttr (b : Backend) (name : String) (type : TypeTerm) : RenderedAttr :=
  let typeText := b.typeText type
  ⟨name, type, typeText, b.attrText name typeText⟩

def renderSignature (b : Backend) (marker? : Option String) (s : Signature) : RenderedSignature :=
  let argTypes := s.1.args.map fun a => b.typeText a.type
  ⟨s.1, s.2, argTypes, b.signatureText s.1.name argTypes (s.2.map b.typeText) marker?⟩

/-- The types that a signature shows. -/
def signatureTypes (s : Signature) : List TypeTerm := s.1.args.map (·.type) ++ s.2.toList

def shownAttrs (d : Description) : List (String × TypeTerm) :=
  d.attrs.entries.filter fun e => !MethodKey.isPrivateName e.1

def shownSignatures (d : Description) : List Signature :=
  d.methods.signatures.filter fun s => !MethodKey.isPrivateName s.1.name

/-- All types that the files of a class show. -/
def shownTypes (d : Description) : List TypeTerm :=
  d.parents?.getD [] ++ (shownAttrs d).map (·.2) ++ (shownSignatures d).flatMap signatureTypes

/-- The distinct import lines for the given types, without those that bind `name`. -/
def importLines (b : Backend) (name : String) (types : List TypeTerm) : List String :=
  let needed := (types.flatMap b.imports).filter fun i => !i.provides name
  sortedDistinct compare (needed.map b.importText)

def context (b : Backend) (d : Description) (name : String) (marker? : Option String) :
    RenderContext :=
  let signatures := (shownSignatures d).map (b.renderSignature marker?)
  { desc := d
    name
    scope? := d.scope?
    parents := d.parents?.getD []
    headerFile := (d.extraText? "header_filename").getD (name ++ ".h")
    attrs := (shownAttrs d).map fun e => b.renderAttr e.1 e.2
    constructors := signatures.filter (·.returns.isNone)
    methods := signatures.filter (·.returns.isSome)
    imports := b.importLines name (shownTypes d) }

def artifact (b : Backend) (kind : ArtifactKind) (cx : RenderContext) : Artifact :=
  ⟨b.fileName kind cx.name, b.file kind cx⟩

/-- The three files of a valid description. The marker, if any, is what signatures declare about
exceptions. -/
def generate (b : Backend) (d : Description) (marker? : Option String) :
    Except Error Artifacts := do
  d.validate
  let cx := b.context d (← d.className) marker?
  pure ⟨b.artifact .header cx, b.artifact .declaration cx, b.artifact .implementation cx⟩

end Backend

/-- The marker that signatures get unless another is asked for. -/
def defaultMarker : String := "+"

end Bindery
