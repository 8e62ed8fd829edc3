import Bindery.Proofs.DescribedClass
import Bindery.Proofs.MergeOutcome
import Bindery.Proofs.TemplateNames

/-!
# A described class by itself

Constructors and destructors carry the template's own name, while merging asks for the class's. So a
described class comes through a merge by itself as it is when the two names are the same, and an
instantiation loses every constructor and destructor it has: `merge_described_iff`.
-/

namespace Bindery.Ast
open Catalog (templateName)

namespace Resolver

/-- Constructors and destructors among the members go by the template's own name, a destructor
possibly with its tilde. -/
structure OwnNames (className : String) (members : List Node) : Prop where
  constructor : ∀ n ∈ members, ∀ f, n.kind = .function .constructor f →
    f.name = templateName className
  destructor : ∀ n ∈ members, ∀ f, n.kind = .function .destructor f →
    f.name = templateName className ∨ f.name = "~" ++ templateName className

variable {r : Resolver} {target : NodeId} {className : String} {members : List Node}

theorem destructorName_own {name own : String} (h : name = own ∨ name = "~" ++ own) :
    destructorName name = own ∨ destructorName name = "~" ++ own := by
  unfold destructorName
  split
  next => exact h
  next htilde =>
    rcases h with rfl | rfl
    · exact .inr rfl
    · exact absurd (by simp) htilde

/-- What such members yield without a return type goes by the template's name too. -/
theorem OwnNames.key (h : OwnNames className members) {n : Node} (hn : n ∈ members)
    {key : MethodKey} (hy : r.Yields target n.kind (.method key none)) :
    key.name = templateName className ∨ key.name = "~" ++ templateName className := by
  generalize hkind : n.kind = kind at hy
  cases hy with
  | constructor => exact .inl (h.constructor n hn _ hkind)
  | destructor => exact destructorName_own (h.destructor n hn _ hkind)

end Resolver

/-- All constructors and destructors that the class lists go by the template's own name. -/
def Document.OwnNames (doc : Document) (name : String) (onlyIn : List String) : Prop :=
  ∀ r target c listed, (Resolver.ofDocument doc).restrict onlyIn = .ok r →
    r.locate name = .ok (target, c) → r.members c = .ok listed → Resolver.OwnNames name listed

section
variable {doc : Document} {name : String} {onlyIn : List String} {d : Description}

/-- A description has the name that was asked for, and whatever it stores without a return type
goes by the template's name. -/
theorem describe_own (h : describe doc name onlyIn = .ok d) (hown : doc.OwnNames name onlyIn) :
    d.name? = some name ∧ ∀ e ∈ d.methods.entries, e.2 = none →
      e.1.name = templateName name ∨ e.1.name = "~" ++ templateName name := by
  obtain ⟨r, target, c, hr, hlocate, h⟩ := of_describe_eq_ok h
  obtain ⟨parents, scope?, members, cs, -, -, -, hmembers, -, hcs, rfl⟩ :=
    Resolver.describeRecord_eq_ok_iff.1 h
  refine ⟨rfl, ?_⟩
  rintro ⟨key, returns⟩ he rfl
  obtain ⟨listed, hlisted, rfl⟩ := Resolver.publicMembers_eq_ok_iff.1 hmembers
  obtain ⟨before, n, after, hn, hy, -⟩ := (Resolver.mem_gathered_methods hcs).1 he
  have hpublic : n ∈ listed.filter (·.access? == some .publicAccess) := by
    rw [hn]
    simp
  exact (hown r target c listed hr hlocate (Resolver.resolveAll_eq_ok_iff.2 hlisted)).key
    (List.mem_filter.1 hpublic).1 hy

/-- Such a name ends in the class's only if that is the template's own name. -/
theorem suffix_own_iff {key : String}
    (h : key = templateName name ∨ key = "~" ++ templateName name) :
    name.toList <:+ key.toList ↔ templateName name = name := by
  constructor
  · intro hsuffix
    refine Catalog.templateName_eq_of_suffix ?_
    rcases h with rfl | rfl
    · exact hsuffix.trans (List.suffix_cons '~' _)
    · rw [String.toList_append] at hsuffix
      exact hsuffix
  · intro hsame
    rw [hsame] at h
    rcases h with rfl | rfl
    · exact List.suffix_rfl
    · rw [String.toList_append]
      exact List.suffix_append _ _

theorem merge_valid (hname : d.name? = some name) (hvalid : d.validate = .ok ()) :
    Description.merge [d] = .ok (d.sanitize name) := by
  obtain ⟨⟨name', hclass⟩, hpartial⟩ := Description.validate_eq_ok_iff.1 hvalid
  obtain rfl : name = name' :=
    Option.some.inj (hname.symm.trans (Description.className_eq_ok_iff.1 hclass).1)
  have hstack : (Description.stack [d]).className = .ok name := by
    rw [Description.stack_singleton, hclass]
  rw [Description.merge_eq_ok (List.forall_mem_singleton.2 hpartial) hstack,
    Description.stack_singleton]

/-- A valid description of a class whose constructors and destructors go by the template's name is
merged to itself if that is also the class's name, or if there is none of them; otherwise some are
lost. -/
theorem merge_described_iff (h : describe doc name onlyIn = .ok d) (hvalid : d.validate = .ok ())
    (hown : doc.OwnNames name onlyIn) :
    Description.merge [d] = .ok d ↔
      templateName name = name ∨ ∀ e ∈ d.methods.entries, e.2.isSome = true := by
  obtain ⟨hname, hkeys⟩ := describe_own h hown
  rw [merge_valid hname hvalid, Except.ok.injEq, Description.sanitize_eq_self_iff]
  have hbelongs : ∀ e ∈ d.methods.entries,
      Methods.belongs name e.1 e.2 = true ↔ e.2.isSome = true ∨ templateName name = name := by
    intro e he
    rw [Methods.belongs, Bool.or_eq_true, List.isSuffixOf_iff_suffix]
    cases hreturns : e.2 with
    | some t => simp
    | none => simp only [Option.isSome_none, suffix_own_iff (hkeys e he hreturns)]
  constructor
  · intro hall
    by_cases hsame : templateName name = name
    · exact .inl hsame
    · exact .inr fun e he => ((hbelongs e he).1 (hall e he)).resolve_right hsame
  · rintro (hsame | hreturns) e he
    · exact (hbelongs e he).2 (.inr hsame)
    · exact (hbelongs e he).2 (.inl (hreturns e he))

end

def elementType : Typedef where
  name := "value_type"
  type := "double"
  context? := none
  access? := some .publicAccess

/-- A vector that lists its constructor and its destructor under the template's name. -/
def vectorDocument : Document where
  nodes := [
    ⟨"double", .fundamental "double"⟩,
    ⟨"ulong", .fundamental "long unsigned int"⟩,
    ⟨"vector", .record .ofClass ⟨"vector<double>", none, none, none,
      ["value", "new", "drop", "size"], [], false⟩⟩,
    ⟨"value", (.typedef elementType)⟩,
    ⟨"new", .function .constructor ⟨"vector", none, some .publicAccess, none, [], none⟩⟩,
    ⟨"drop", .function .destructor ⟨"~vector", none, some .publicAccess, none, [], none⟩⟩,
    ⟨"size", .function .method ⟨"size", none, some .publicAccess, some "ulong", [], none⟩⟩]

def vectorDescription : Description :=
  ((({ Description.named "vector<double>" with parents? := some [] }).insertMethod
    ⟨"vector", []⟩ none).insertMethod ⟨"~vector", []⟩ none).insertMethod
    ⟨"size", []⟩ (some (.atomic "uint64"))

theorem describe_vector : describe vectorDocument "vector<double>" [] = .ok vectorDescription := rfl

theorem ownNames_vector : vectorDocument.OwnNames "vector<double>" [] := by
  intro r target c listed hr hlocate hlisted
  cases hr
  cases hlocate
  cases hlisted
  constructor <;> simp [show templateName "vector<double>" = "vector" from rfl]

theorem merge_described_iff_vector : vectorDescription.validate = .ok () ∧
    Description.merge [vectorDescription] ≠ .ok vectorDescription := by
  refine ⟨rfl, fun h => ?_⟩
  rcases (merge_described_iff describe_vector rfl ownNames_vector).1 h with h | h
  · exact absurd h (by decide)
  · exact absurd (h (⟨"vector", []⟩, none) (by decide)) (by decide)

/-- So names of its own are not enough for a described class to come through a merge as it is. -/
theorem merge_described_loses :
    ¬ ∀ (doc : Document) (name : String) (onlyIn : List String) (d : Description),
      describe doc name onlyIn = .ok d → d.validate = .ok () → doc.OwnNames name onlyIn →
      Description.merge [d] = .ok d := by
  intro hall
  have hmerge := hall _ _ _ _ describe_vector rfl ownNames_vector
  have hsize : vectorDescription.methods.entries.length = 3 := rfl
  have hkept : Description.merge [vectorDescription]
      = .ok (vectorDescription.sanitize "vector<double>") := rfl
  rw [hkept, Except.ok.injEq] at hmerge
  rw [← hmerge] at hsize
  exact absurd hsize (by decide)

end Bindery.Ast
