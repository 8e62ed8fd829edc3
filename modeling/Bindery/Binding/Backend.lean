import Bindery.Binding.Import
import Bindery.Description.Signatures

/-!
# Backends

A backend knows how types, imports and signatures are spelled in one language and how a file is put
together. What goes into a file, and in which order, is settled before a backend sees it: that is
the render context.
-/

namespace Bindery

inductive ArtifactKind where
  /-- Declares the foreign class. -/
  | header
  /-- Declares the wrapper. -/
  | declaration
  | implementation
deriving DecidableEq

structure RenderedAttr where
  name : String
  type : TypeTerm
  typeText : String
  line : String

structure RenderedSignature where
  key : MethodKey
  returns : Option TypeTerm
  argTypes : List String
  line : String

structure RenderContext where
  desc : Description
  name : String
  scope? : Option String
  parents : List TypeTerm
  headerFile : String
  attrs : List RenderedAttr
  /-- Constructors and destructors. -/
  constructors : List RenderedSignature
  methods : List RenderedSignature
  imports : List String

structure Backend where
  typeText : TypeTerm → String
  imports : TypeTerm → List Import
  importText : Import → String
  attrText : (name typeText : String) → String
  /-- The line of a signature; constructors and destructors have no return type. -/
  signatureText :
    (name : String) → (args : List String) → (returns marker : Option String) → String
  fileName : ArtifactKind → (className : String) → String
  file : ArtifactKind → RenderContext → String

structure Artifact where
  fileName : String
  text : String
deriving DecidableEq

structure Artifacts where
  header : Artifact
  declaration : Artifact
  implementation : Artifact
deriving DecidableEq

def Artifacts.toList (a : Artifacts) : List Artifact := [a.header, a.declaration, a.implementation]

end Bindery
