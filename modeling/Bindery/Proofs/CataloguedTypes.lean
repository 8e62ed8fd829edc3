import Bindery.Proofs.AllowedFiles
import Bindery.Proofs.ClassifyRules
import Bindery.Proofs.DescribedTypes

/-!
# Types that fit the catalogue

Whatever the document is like, the classifier makes its terms from templates of the catalogue, each
with all its arguments, and from names that are known: the string type's, a primitive's, or that of
a record or an enumeration of the document (`Document.Admits`). So no description mentions any other
term (`described_admitted`).
-/

namespace Bindery.Ast

namespace Document

/-- The names that stand for a type without arguments. -/
inductive Names (doc : Document) : String → Prop where
  | str : Names doc "str"
  | primitive {spelling name : String} : Catalog.primitive? spelling = some name → Names doc name
  /-- The name of a class or struct, as it is spelled there. -/
  | record {n : Node} {tag : RecordTag} {c : Record} :
      n ∈ doc.nodes → n.kind = .record tag c → Names doc c.name
  | enumeration {n : Node} {e : Enumeration} :
      n ∈ doc.nodes → n.kind = .enumeration e → Names doc e.name

/-- The term is made of known names, and of templates with as many arguments as they have in the
catalogue. -/
inductive Admits (doc : Document) : TypeTerm → Prop where
  | atomic {name : String} : doc.Names name → Admits doc (.atomic name)
  | template {name : String} {args : List TypeTerm} : Catalog.arity? name = some args.length →
      (∀ t ∈ args, Admits doc t) → Admits doc (.template name args)
  | refined {refine : Refinement} {base : TypeTerm} :
      Admits doc base → Admits doc (.refined refine base)

theorem admits_void (doc : Document) : doc.Admits .void :=
  .atomic (.primitive (rfl : Catalog.primitive? "void" = some "void"))

end Document

theorem Document.Admits.derived {doc : Document} {base : TypeTerm} (h : doc.Admits base)
    (form : DerivedForm) : doc.Admits (form.apply base) := by
  cases form with
  | pointer | array | reference => exact .refined h
  | qualified => exact h

namespace Resolver
variable {doc : Document} {r : Resolver} {room : Nat} {id : NodeId} {t : TypeTerm}

theorem Classifies.admits (hnodes : r.nodes ⊆ doc.nodes) (h : r.Classifies room id t) :
    doc.Admits t := by
  induction h with
  | fundamental _ ht => exact .atomic (.primitive ht)
  | @derived _ _ _ form _ _ _ ih => exact ih.derived form
  | string | stringRecord => exact .atomic .str
  | synonym _ _ _ ih => exact ih
  | enumeration hkind =>
    obtain ⟨n, hn, hkind⟩ := hkind.mem
    exact .atomic (.enumeration (hnodes hn) hkind)
  | record hkind | unlisted hkind =>
    obtain ⟨n, hn, hkind⟩ := hkind.mem
    exact .atomic (.record (hnodes hn) hkind)
  | @template _ _ _ c members roles arg _ _ _ hroles hfound _ ih =>
    refine .template ?_ (List.forall_mem_map.2 fun role hrole => ?_)
    · rw [Catalog.arity?, hroles, Option.map_some, List.length_map]
    · obtain ⟨m, hm⟩ := Option.isSome_iff_exists.1 (hfound role hrole)
      exact ih role hrole m hm

end Resolver

/-- No term comes from a document that does not admit it, be it in a description or an answer of
the classifier. -/
theorem described_admitted (doc : Document) :
    (∀ name onlyIn d, describe doc name onlyIn = .ok d → ∀ t, d.Mentions t → doc.Admits t) ∧
      ∀ onlyIn r id depth t, (Resolver.ofDocument doc).restrict onlyIn = .ok r →
        r.classify id depth = .ok (some t) → doc.Admits t := by
  have hclassified : ∀ onlyIn r id depth t, (Resolver.ofDocument doc).restrict onlyIn = .ok r →
      r.classify id depth = .ok (some t) → doc.Admits t := by
    intro onlyIn r id depth t hr ht
    exact (Resolver.classifyWithin_eq_some_iff.1 ht).admits (Resolver.nodes_subset_of_restrict hr)
  refine ⟨fun name onlyIn d hd t ht => ?_, hclassified⟩
  obtain ⟨r, hr, hfound⟩ := describe_found hd
  rcases hfound t ht with rfl | ⟨id, depth, -, ht⟩
  · exact doc.admits_void
  · exact hclassified onlyIn r id depth t hr ht

def synonymNode (id : NodeId) (name : String) (type : NodeId) : Node :=
  let a : Typedef := ⟨name, type, none, none⟩
  ⟨id, .typedef a⟩

/-- Jars by their labels. The map's arguments stand behind a typedef and a pointer. -/
def pantryDocument : Document where
  nodes := [
    ⟨"jar", .record .ofStruct ⟨"Jar", none, none, none, [], [], false⟩⟩,
    ⟨"jar pointer", .derived .pointer "jar"⟩,
    synonymNode "string" "string" "elsewhere",
    synonymNode "key" "key_type" "string",
    synonymNode "mapped" "mapped_type" "jar pointer",
    ⟨"make", .function .constructor ⟨"map", none, none, none, [], none⟩⟩,
    ⟨"map", .record .ofClass
      ⟨"map<string, Jar *>", none, none, none, ["make", "key", "mapped"], [], false⟩⟩,
    ⟨"pantry", .record .ofClass ⟨"Pantry", none, none, none, ["jars"], [], false⟩⟩,
    ⟨"jars", .field ⟨"jars", "map", "pantry", some .publicAccess, none⟩⟩]

theorem described_admitted_pantry :
    let jars := TypeTerm.template "map" [.str, .pointer (.atomic "Jar")]
    (∃ d, describe pantryDocument "Pantry" [] = .ok d ∧ d.Mentions jars ∧
        pantryDocument.Admits jars) ∧
      ∃ r, (Resolver.ofDocument pantryDocument).restrict [] = .ok r ∧
        r.classify "mapped" 1 = .ok (some (.pointer (.atomic "Jar"))) ∧
          pantryDocument.Admits (.pointer (.atomic "Jar")) := by
  intro jars
  obtain ⟨hdescribed, hclassified⟩ := described_admitted pantryDocument
  refine ⟨⟨_, rfl, ?_⟩, _, rfl, rfl, hclassified [] _ "mapped" 1 _ rfl rfl⟩
  exact ⟨.attr (List.mem_cons_self ..), hdescribed "Pantry" [] _ rfl jars
    (.attr (List.mem_cons_self ..))⟩

end Bindery.Ast
