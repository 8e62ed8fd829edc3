import Bindery.Proofs.Passes

/-!
# What a description tells of a class

`Resolver.Tells` reads a description off the record and its public members: the expressible bases
in their order, the scopes around the record, and for each name or identity what the last member
with anything to say yields. There is nothing else in it.
-/

namespace Bindery.Ast

namespace Resolver

/-- What a description tells of the record `c` with the id `target` and the public members
`members`. -/
structure Tells (r : Resolver) (name : String) (target : NodeId) (c : Record)
    (members : List Node) (d : Description) : Prop where
  name : d.name? = some name
  basesResolve : ∀ base ∈ c.bases, ∃ t?, r.classify base 1 = .ok t?
  parents : d.parents? = some (c.bases.filterMap fun base => Outcome.given? (r.classify base 1))
  scope : r.scopePath c.context? = .ok d.scope?
  /-- An attribute has the type that the last field of its name has, of those that have any. -/
  attrs : ∀ n t, d.attrs.get? n = some t ↔
    ∃ before m after, members = before ++ m :: after ∧ r.Yields target m.kind (.attr n t) ∧
      ∀ m' ∈ after, ∀ t', ¬ r.Yields target m'.kind (.attr n t')
  /-- An overload is stored as the last member with its identity has it. -/
  methods : ∀ key returns, (key, returns) ∈ d.methods.entries ↔
    ∃ before m after, members = before ++ m :: after ∧
      r.Yields target m.kind (.method key returns) ∧
      ∀ m' ∈ after, ∀ key' returns', r.Yields target m'.kind (.method key' returns') →
        key'.identity ≠ key.identity
  docstrings : d.docstrings? = none
  extra : d.extra? = none

section
variable {r : Resolver} {target : NodeId} {members : List Node} {cs : List Contribution}

/-- The contributions of one kind, read off the members. -/
theorem filterMap_gather {β : Type} (pick : Contribution → Option β)
    (h : gather (r.contribution target · 1) members = .ok cs) :
    cs.filterMap pick = members.filterMap fun m =>
      (Outcome.given? (r.contribution target m 1)).bind pick := by
  rw [(gather_eq_ok_iff.1 h).2, List.filterMap_filterMap]

theorem pick_contribution_eq_some_iff {β : Type} {pick : Contribution → Option β} {m : Node} {b : β} :
    (Outcome.given? (r.contribution target m 1)).bind pick = some b ↔
      ∃ k, r.Yields target m.kind k ∧ pick k = some b := by
  simp only [Option.bind_eq_some_iff, Outcome.given?_eq_some, contribution_eq_some_iff]

theorem mem_gathered_attrs (h : gather (r.contribution target · 1) members = .ok cs)
    {n : String} {t : TypeTerm} :
    (n, t) ∈ (SortedMap.ofList (cs.filterMap (·.attr?)) : Attrs).entries ↔
      ∃ before m after, members = before ++ m :: after ∧ r.Yields target m.kind (.attr n t) ∧
        ∀ m' ∈ after, ∀ t', ¬ r.Yields target m'.kind (.attr n t') := by
  have hlater : ∀ m' : Node,
      (∀ e : String × TypeTerm, r.Yields target m'.kind (.attr e.1 e.2) → compare n e.1 ≠ .eq) ↔
        ∀ t', ¬ r.Yields target m'.kind (.attr n t') := by
    intro m'
    constructor
    · intro hall t' ht'
      exact hall (n, t') ht' Std.ReflCmp.compare_self
    · rintro hnone ⟨n', t'⟩ he hn
      obtain rfl : n = n' := Std.LawfulEqCmp.eq_of_compare hn
      exact hnone t' he
  rw [filterMap_gather _ h, SortedMap.mem_ofList_filterMap]
  simp only [pick_contribution_eq_some_iff, Contribution.attr?_eq_some_iff, exists_eq_right, hlater]

theorem mem_gathered_methods (h : gather (r.contribution target · 1) members = .ok cs)
    {key : MethodKey} {returns : Option TypeTerm} :
    (key, returns) ∈ (SortedMap.ofList (cs.filterMap (·.method?)) : Methods).entries ↔
      ∃ before m after, members = before ++ m :: after ∧
        r.Yields target m.kind (.method key returns) ∧
        ∀ m' ∈ after, ∀ key' returns', r.Yields target m'.kind (.method key' returns') →
          key'.identity ≠ key.identity := by
  rw [filterMap_gather _ h, SortedMap.mem_ofList_filterMap]
  simp only [pick_contribution_eq_some_iff, Contribution.method?_eq_some_iff, exists_eq_right,
    ne_eq, MethodKey.cmp_eq_iff, Prod.forall, eq_comm (a := key.identity)]

theorem isOfMember_of_gather (h : gather (r.contribution target · 1) members = .ok cs) :
    ∀ k ∈ cs, k.IsOfMember := by
  intro k hk
  rw [(gather_eq_ok_iff.1 h).2, List.mem_filterMap] at hk
  obtain ⟨m, -, hm⟩ := hk
  exact (contribution_eq_some_iff.1 (Outcome.given?_eq_some.1 hm)).isOfMember

theorem outline_eq_ok_iff {c : Record} {depth : Nat} {k : Contribution} :
    r.outline target c depth = .ok k ↔
      ∃ parents scope?, gather (r.classify · (depth + 1)) c.bases = .ok parents ∧
        r.scopePath c.context? = .ok scope? ∧
        (Catalog.isInstantiation c.name = true → ∃ t?, r.classify target depth = .ok t?) ∧
        k = .outline parents scope? := by
  by_cases hi : Catalog.isInstantiation c.name = true
  · simp only [outline, hi, if_true, Outcome.bind_eq_ok, Outcome.pure_eq_ok, true_implies,
      eq_comm (b := k)]
    constructor
    · rintro ⟨parents, hparents, scope?, hscope, t?, ht, rfl⟩
      exact ⟨parents, scope?, hparents, hscope, ⟨t?, ht⟩, rfl⟩
    · rintro ⟨parents, scope?, hparents, hscope, ⟨t?, ht⟩, rfl⟩
      exact ⟨parents, hparents, scope?, hscope, t?, ht, rfl⟩
  · simp only [outline, hi, Outcome.bind_eq_ok, Outcome.pure_eq_ok, false_implies,
      true_and, eq_comm (b := k), exists_and_left, Bool.false_eq_true, if_false]

/-- A record is described by what its bases, the scopes around it and its public members give; an
instantiation has to classify besides, and no record that is among its own public members is
described. -/
theorem describeRecord_eq_ok_iff {name : String} {c : Record} {d : Description} :
    r.describeRecord name target c = .ok d ↔
      ∃ parents scope? members cs,
        gather (r.classify · 1) c.bases = .ok parents ∧ r.scopePath c.context? = .ok scope? ∧
        (Catalog.isInstantiation c.name = true → ∃ t?, r.classify target 0 = .ok t?) ∧
        r.publicMembers c = .ok members ∧ (∀ m ∈ members, m.id ≠ target) ∧
        gather (r.contribution target · 1) members = .ok cs ∧
        d = { Description.named name with
              parents? := some parents
              scope? := scope?
              attrs := SortedMap.ofList (cs.filterMap (·.attr?))
              methods := SortedMap.ofList (cs.filterMap (·.method?)) } := by
  rw [describeRecord_eq_ok_iff_pass]
  simp only [pass, Outcome.bind_eq_ok, Outcome.pure_eq_ok, outline_eq_ok_iff]
  constructor
  · rintro ⟨hself, _, ⟨_, ⟨parents, scope?, hparents, hscope, hspelled, rfl⟩, members, hmembers, cs,
      hcs, rfl⟩, rfl⟩
    have hothers := (listsItself_eq_false_iff hmembers).1 hself
    rw [takeWhile_members hothers] at hcs
    refine ⟨parents, scope?, members, cs, hparents, hscope, hspelled, hmembers, hothers, hcs, ?_⟩
    rw [List.foldl_cons, Contribution.foldl_addTo (isOfMember_of_gather hcs)]
    rfl
  · rintro ⟨parents, scope?, members, cs, hparents, hscope, hspelled, hmembers, hothers, hcs, rfl⟩
    refine ⟨(listsItself_eq_false_iff hmembers).2 hothers, .outline parents scope? :: cs,
      ⟨_, ⟨parents, scope?, hparents, hscope, hspelled, rfl⟩, members, hmembers, cs, ?_, rfl⟩, ?_⟩
    · rw [takeWhile_members hothers, hcs]
    · rw [List.foldl_cons, Contribution.foldl_addTo (isOfMember_of_gather hcs)]
      rfl

end

end Resolver

/-- The description tells of the only record of that name in the given files, and of its members
that exist and are declared public. -/
def Document.Tells (doc : Document) (name : String) (onlyIn : List String) (d : Description) :
    Prop :=
  ∃ r target c listed, (Resolver.ofDocument doc).restrict onlyIn = .ok r ∧
    r.locate name = .ok (target, c) ∧
    List.Forall₂ (fun id n => r.resolve id = .ok n) c.members listed ∧
    r.Tells name target c (listed.filter (·.access? == some .publicAccess)) d

/-- Whatever is described holds what the record and its public members show, and nothing else. -/
theorem describe_tells {doc : Document} {name : String} {onlyIn : List String} {d : Description}
    (h : describe doc name onlyIn = .ok d) : doc.Tells name onlyIn d := by
  obtain ⟨r, target, c, hr, hlocate, h⟩ := of_describe_eq_ok h
  obtain ⟨parents, scope?, members, cs, hparents, hscope, -, hmembers, -, hcs, rfl⟩ :=
    Resolver.describeRecord_eq_ok_iff.1 h
  obtain ⟨listed, hlisted, rfl⟩ := Resolver.publicMembers_eq_ok_iff.1 hmembers
  obtain ⟨hbases, rfl⟩ := gather_eq_ok_iff.1 hparents
  refine ⟨r, target, c, listed, hr, hlocate, hlisted, ?_⟩
  exact {
    name := rfl
    basesResolve := hbases
    parents := rfl
    scope := hscope
    attrs := fun _ _ => SortedMap.get?_eq_some_iff_mem.trans (Resolver.mem_gathered_attrs hcs)
    methods := fun _ _ => Resolver.mem_gathered_methods hcs
    docstrings := rfl
    extra := rfl }

/-- An oven with an inherited field, two methods of one identity, one with an unnamed parameter and
one that is private by its name. -/
def ovenDocument : Document where
  nodes := [
    ⟨"ns", .scope ⟨"bright", none⟩⟩,
    ⟨"int", .fundamental "int"⟩,
    ⟨"double", .fundamental "double"⟩,
    ⟨"base", .record .ofClass ⟨"Appliance", some "ns", none, none, [], [], false⟩⟩,
    ⟨"oven", .record .ofClass ⟨"Oven", some "ns", none, none,
      ["heat", "owner", "new", "drop", "get", "getConst", "set", "_reset"], ["base"], false⟩⟩,
    ⟨"heat", .field ⟨"heat", "double", "oven", some .publicAccess, none⟩⟩,
    ⟨"owner", .field ⟨"owner", "int", "base", some .publicAccess, none⟩⟩,
    ⟨"new", .function .constructor ⟨"Oven", none, some .publicAccess, none, [], none⟩⟩,
    ⟨"drop", .function .destructor ⟨"Oven", none, some .publicAccess, none, [], none⟩⟩,
    ⟨"get", .function .method ⟨"get", none, some .publicAccess, some "int", [], none⟩⟩,
    ⟨"getConst", .function .method ⟨"get", none, some .publicAccess, some "double", [], none⟩⟩,
    ⟨"set", .function .method ⟨"set", none, some .publicAccess, none,
      [⟨some "to", "double", some "1.5"⟩, ⟨none, "gone", none⟩], none⟩⟩,
    ⟨"_reset", .function .method ⟨"_reset", none, some .publicAccess, none, [], none⟩⟩]

theorem describe_tells_oven :
    ∃ d, describe ovenDocument "Oven" [] = .ok d ∧
      d.attrs.entries = [("heat", .atomic "float64")] ∧
      d.methods.entries =
        [(⟨"Oven", []⟩, none), (⟨"get", []⟩, some (.atomic "float64")), (⟨"~Oven", []⟩, none)] ∧
      ovenDocument.Tells "Oven" [] d :=
  ⟨_, rfl, rfl, rfl, describe_tells rfl⟩

end Bindery.Ast
