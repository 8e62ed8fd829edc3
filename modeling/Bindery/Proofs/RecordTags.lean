import Bindery.Batch
import Bindery.Proofs.AlikeNodes

/-!
# Classes and structs

`Document.switched` makes structs of any classes of a document and classes of any structs. Node by
node the two documents are the same `UpToTag`. So their resolvers answer alike, and the same classes
are described in the same way or refused for the same reason, alone or in a batch
(`records_interchangeable`).
-/

namespace Bindery

namespace Ast
open Outcome (Agree)

def RecordTag.other : RecordTag → RecordTag
  | .ofClass => .ofStruct
  | .ofStruct => .ofClass

namespace Node
variable {n n' : Node}

/-- A struct for a class and a class for a struct; no other node changes. -/
def switched (n : Node) : Node :=
  match n.kind with
  | .record tag c => ⟨n.id, .record tag.other c⟩
  | _ => n

/-- The same node, save that one may be a class where the other is a struct. -/
inductive UpToTag : Node → Node → Prop where
  | refl (n : Node) : UpToTag n n
  | record (id : NodeId) (tag tag' : RecordTag) (c : Record) :
      UpToTag ⟨id, .record tag c⟩ ⟨id, .record tag' c⟩

theorem upToTag_switched (n : Node) : n.UpToTag n.switched := by
  obtain ⟨id, kind⟩ := n
  cases kind with
  | record tag c => exact .record id tag tag.other c
  | _ => exact .refl _

namespace UpToTag

theorem alike (h : n.UpToTag n') : n.Alike n' := by
  cases h with
  | refl => exact .refl _
  | record => exact .record ⟨rfl, rfl, rfl, rfl, rfl, rfl, fun _ => rfl⟩

theorem file? (h : n.UpToTag n') : n'.file? = n.file? := by
  cases h <;> rfl

theorem record? (h : n.UpToTag n') : n'.record? = n.record? := by
  cases h <;> rfl

end UpToTag

end Node

namespace Document

/-- The document in which the records at the chosen places are of the other kind. -/
def switched (d : Document) (chosen : Nat → Bool) : Document :=
  ⟨d.nodes.mapIdx fun i n => if chosen i then n.switched else n⟩

def UpToTag (d d' : Document) : Prop := List.Forall₂ Node.UpToTag d.nodes d'.nodes

end Document

theorem forall₂_mapIdx {α : Type} {R : α → α → Prop} {f : Nat → α → α} (h : ∀ i a, R a (f i a))
    (l : List α) : List.Forall₂ R l (l.mapIdx f) := by
  refine List.forall₂_iff_get.2 ⟨List.length_mapIdx.symm, fun i hi hi' => ?_⟩
  rw [List.get_eq_getElem, List.get_eq_getElem, List.getElem_mapIdx]
  exact h i _

theorem Document.upToTag_switched (d : Document) (chosen : Nat → Bool) :
    d.UpToTag (d.switched chosen) := by
  refine forall₂_mapIdx (fun i n => ?_) d.nodes
  split
  · exact n.upToTag_switched
  · exact .refl n

example : ((⟨[⟨"int", .fundamental "int"⟩,
      ⟨"oven", .record .ofClass ⟨"Oven", none, none, none, [], [], false⟩⟩,
      ⟨"dial", .record .ofStruct ⟨"Dial", none, none, none, [], [], false⟩⟩]⟩ :
    Document).switched fun i => i < 2).nodes.map (·.kind.tag) =
      ["FundamentalType", "Struct", "Struct"] := by
  decide

/-! ### Resolvers -/

/-- What is asked of the one is answered by the other; where nodes are the answer, classes may stand
for structs. -/
structure Resolver.AnswersAlike (r r' : Resolver) : Prop where
  classify : ∀ id depth, r'.classify id depth = r.classify id depth
  inScope : ∀ n n', n.UpToTag n' → r'.inScope n' = r.inScope n
  recordsNamed : ∀ name, r'.recordsNamed name = r.recordsNamed name
  scopePath : ∀ context?, r'.scopePath context? = r.scopePath context?
  publicMembers : ∀ c,
    Agree (List.Forall₂ Node.UpToTag) (r.publicMembers c) (r'.publicMembers c)

section
variable {d d' : Document} {r r' : Resolver}

theorem alike_of_upToTag (n n' : Node) (h : n.UpToTag n') : n.Alike n' := h.alike

/-- A record that is found under the same id among such nodes is the same record. -/
theorem Record.Located.eq {a b : NodeId × Record} (h : Record.Located Node.UpToTag a b) :
    b = a := by
  obtain ⟨n, n', hn, -, hc, hc'⟩ := h.nodes
  rw [hn.record?, hc] at hc'
  exact Prod.ext h.id (Option.some.inj hc').symm

theorem Document.UpToTag.ofDocument (h : d.UpToTag d') :
    Resolver.Alike Node.UpToTag (.ofDocument d) (.ofDocument d') :=
  ⟨firstOfEachId_alike (fun _ _ hn => hn.alike.id) h, rfl⟩

theorem Resolver.Alike.answersAlike (h : Resolver.Alike Node.UpToTag r r') :
    r.AnswersAlike r' where
  classify id depth := by rw [Resolver.classify_alike alike_of_upToTag h]
  inScope n n' hn := by
    rw [Resolver.inScope, Resolver.inScope, Resolver.allows, Resolver.allows, h.allowed, hn.file?]
  recordsNamed name := by
    have hsame : List.Forall₂ Eq (r.recordsNamed name) (r'.recordsNamed name) :=
      (Resolver.recordsNamed_alike alike_of_upToTag h name).imp fun _ _ hab => hab.eq.symm
    rw [List.forall₂_eq_eq_eq] at hsame
    exact hsame.symm
  scopePath context? := by rw [Resolver.scopePath_alike alike_of_upToTag h]
  publicMembers c := Resolver.publicMembers_alike alike_of_upToTag h c

theorem restrict_upToTag (h : d.UpToTag d') (entries : List String) :
    Agree Resolver.AnswersAlike ((Resolver.ofDocument d).restrict entries)
      ((Resolver.ofDocument d').restrict entries) :=
  (Resolver.restrict_alike alike_of_upToTag h.ofDocument entries).mono fun _ _ hr =>
    hr.answersAlike

/-! ### Descriptions -/

theorem describe_upToTag (h : d.UpToTag d') (name : String) (onlyIn : List String) :
    describe d' name onlyIn = describe d name onlyIn := by
  have hresolvers := Resolver.restrict_alike alike_of_upToTag h.ofDocument onlyIn
  generalize hr : (Resolver.ofDocument d).restrict onlyIn = x,
    hr' : (Resolver.ofDocument d').restrict onlyIn = y at hresolvers
  cases hresolvers with
  | error e => rw [describe_of_restrict_error hr, describe_of_restrict_error hr']
  | ok halike =>
    rw [describe_of_restrict hr, describe_of_restrict hr']
    have hlocated := (Resolver.locate_alike alike_of_upToTag halike name).mapError Halt.failed
    refine (hlocated.bind_eq fun a a' ha => ?_).symm
    obtain rfl := ha.eq
    exact (Resolver.describeRecord_alike alike_of_upToTag halike name _ _).symm

theorem hasFile_upToTag (h : d.UpToTag d') : d'.hasFile = d.hasFile :=
  funext fun entry => any_eq_of_forall₂ h fun _ _ hn => hn.alike.isFileNamed entry

end

end Ast

section
variable {documents documents' : List Ast.Document}

theorem describeIn_upToTag (h : List.Forall₂ Ast.Document.UpToTag documents documents')
    (name : String) (onlyIn : List String) (miss? : Option Error) :
    describeIn name onlyIn miss? documents' = describeIn name onlyIn miss? documents := by
  induction h generalizing miss? with
  | nil => rfl
  | cons hd _ ih =>
    rw [describeIn, describeIn, Ast.hasFile_upToTag hd, Ast.describe_upToTag hd]
    simp only [ih]

theorem describeAll_upToTag (h : List.Forall₂ Ast.Document.UpToTag documents documents')
    (names onlyIn : List String) :
    describeAll documents' names onlyIn = describeAll documents names onlyIn := by
  have hfiles : ∀ entry, documents'.any (·.hasFile entry) = documents.any (·.hasFile entry) :=
    fun entry => Ast.any_eq_of_forall₂ h fun _ _ hd => congrFun (Ast.hasFile_upToTag hd) entry
  simp only [describeAll, hfiles, describeIn_upToTag h]

/-- Whichever classes are made structs and whichever structs classes, nothing that is asked of a
document, or of several, is answered otherwise. -/
theorem records_interchangeable :
    (∀ (d : Ast.Document) (chosen : Nat → Bool),
      (∀ entries, Outcome.Agree Ast.Resolver.AnswersAlike
        ((Ast.Resolver.ofDocument d).restrict entries)
        ((Ast.Resolver.ofDocument (d.switched chosen)).restrict entries)) ∧
      ∀ name onlyIn,
        Ast.describe (d.switched chosen) name onlyIn = Ast.describe d name onlyIn) ∧
    ∀ (documents : List Ast.Document) (chosen : Nat → Nat → Bool) (names onlyIn : List String),
      describeAll (documents.mapIdx fun i d => d.switched (chosen i)) names onlyIn =
        describeAll documents names onlyIn := by
  refine ⟨fun d chosen => ⟨?_, ?_⟩, fun documents chosen names onlyIn => ?_⟩
  · exact Ast.restrict_upToTag (d.upToTag_switched chosen)
  · exact Ast.describe_upToTag (d.upToTag_switched chosen)
  · refine describeAll_upToTag (Ast.forall₂_mapIdx (fun i d => ?_) documents) names onlyIn
    exact d.upToTag_switched (chosen i)

end

end Bindery
