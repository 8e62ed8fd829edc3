import Bindery.Proofs.DescribedClass

/-!
# The types in a description

`Description.Mentions` collects the types that a description holds as parents, attributes,
arguments and returns. In a described class each of them is what some node was classified as, apart
from the return type of a method that has none.
-/

namespace Bindery

inductive Description.Mentions (d : Description) : TypeTerm → Prop where
  | parent {l : List TypeTerm} {t : TypeTerm} : d.parents? = some l → t ∈ l → Mentions d t
  | attr {name : String} {t : TypeTerm} : (name, t) ∈ d.attrs.entries → Mentions d t
  | arg {key : MethodKey} {returns : Option TypeTerm} {a : Argument} :
      (key, returns) ∈ d.methods.entries → a ∈ key.args → Mentions d a.type
  | returns {key : MethodKey} {t : TypeTerm} : (key, some t) ∈ d.methods.entries → Mentions d t

namespace Ast

namespace Resolver
variable {r : Resolver} {target : NodeId} {kind : NodeKind}

/-- The term was found for some node that was met after others. -/
def Found (r : Resolver) (t : TypeTerm) : Prop :=
  ∃ id depth, 1 ≤ depth ∧ r.classify id depth = .ok (some t)

theorem found_of_records {depth : Nat} {ps : List Parameter} {args : List Argument} {a : Argument}
    (h : List.Forall₂ (r.Records depth) ps args) (hdepth : 1 ≤ depth) (ha : a ∈ args) :
    r.Found a.type := by
  induction h with
  | nil => cases ha
  | @cons p b ps args hb _ ih =>
    rcases List.mem_cons.1 ha with rfl | ha
    · exact ⟨p.type, depth, hdepth, hb.type⟩
    · exact ih ha

theorem Yields.attr_found {name : String} {t : TypeTerm} (h : r.Yields target kind (.attr name t)) :
    r.Found t := by
  cases h with
  | field _ ht => exact ⟨_, 1, Nat.le_refl 1, ht⟩

theorem Yields.arg_found {key : MethodKey} {returns : Option TypeTerm} {a : Argument}
    (h : r.Yields target kind (.method key returns)) (ha : a ∈ key.args) : r.Found a.type := by
  cases h with
  | constructor _ hargs => exact found_of_records hargs (by decide) ha
  | destructor _ hargs => exact found_of_records hargs (by decide) ha
  | procedure _ hargs _ => exact found_of_records hargs (by decide) ha
  | method _ hargs _ _ => exact found_of_records hargs (by decide) ha

theorem Yields.returns_found {key : MethodKey} {t : TypeTerm}
    (h : r.Yields target kind (.method key (some t))) : t = .void ∨ r.Found t := by
  cases h with
  | procedure => exact .inl rfl
  | method _ _ _ ht => exact .inr ⟨_, 1, Nat.le_refl 1, ht⟩

theorem describeRecord_found {name : String} {c : Record} {d : Description} {t : TypeTerm}
    (h : r.describeRecord name target c = .ok d) (ht : d.Mentions t) : t = .void ∨ r.Found t := by
  obtain ⟨parents, scope?, members, cs, hparents, -, -, -, -, hcs, rfl⟩ :=
    describeRecord_eq_ok_iff.1 h
  cases ht with
  | parent hl ht =>
    cases hl
    rw [(gather_eq_ok_iff.1 hparents).2, List.mem_filterMap] at ht
    obtain ⟨base, -, hbase⟩ := ht
    exact .inr ⟨base, 1, Nat.le_refl 1, Outcome.given?_eq_some.1 hbase⟩
  | attr he =>
    obtain ⟨-, m, -, -, hm, -⟩ := (mem_gathered_attrs hcs).1 he
    exact .inr hm.attr_found
  | arg he ha =>
    obtain ⟨-, m, -, -, hm, -⟩ := (mem_gathered_methods hcs).1 he
    exact .inr (hm.arg_found ha)
  | returns he =>
    obtain ⟨-, m, -, -, hm, -⟩ := (mem_gathered_methods hcs).1 he
    exact hm.returns_found

end Resolver

/-- Every type in a described class was found in the document. -/
theorem describe_found {doc : Document} {name : String} {onlyIn : List String} {d : Description}
    (h : describe doc name onlyIn = .ok d) :
    ∃ r, (Resolver.ofDocument doc).restrict onlyIn = .ok r ∧
      ∀ t, d.Mentions t → t = .void ∨ r.Found t := by
  obtain ⟨r, target, c, hr, -, h⟩ := of_describe_eq_ok h
  exact ⟨r, hr, fun t ht => Resolver.describeRecord_found h ht⟩

/-- A described class has the name it was asked for, no docstrings and nothing extra yet. -/
theorem describe_bare {doc : Document} {name : String} {onlyIn : List String} {d : Description}
    (h : describe doc name onlyIn = .ok d) :
    d.name? = some name ∧ d.docstrings? = none ∧ d.extra? = none := by
  obtain ⟨r, target, c, -, -, h⟩ := of_describe_eq_ok h
  obtain ⟨-, -, -, -, -, -, -, -, -, -, rfl⟩ := Resolver.describeRecord_eq_ok_iff.1 h
  exact ⟨rfl, rfl, rfl⟩

end Ast

end Bindery
