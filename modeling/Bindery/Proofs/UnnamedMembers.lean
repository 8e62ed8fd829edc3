import Bindery.Binding.Generate
import Bindery.Proofs.AllowedFiles
import Bindery.Proofs.DescribedAlone
import Bindery.Proofs.Nesting
import Bindery.Proofs.RenderedContext
import Bindery.Proofs.TrailingDefaults

/-!
# Members without a name

Describing looks at the names of parameters, but not at those of members: a bit field without a name
becomes an attribute without one. This is the only fault that the description of a class can have
when the defaults of every function stand at its end, and such a description is neither merged nor
generated (`described_valid_iff`).
-/

namespace Bindery

namespace SortedMap
variable {κ β : Type} {cmp : κ → κ → Ordering} [Std.TransCmp cmp]

/-- Every key of a list is stored in some spelling. -/
theorem exists_mem_ofList {l : List (κ × β)} {e : κ × β} (h : e ∈ l) :
    ∃ e' ∈ (ofList l : SortedMap κ cmp β).entries, cmp e.1 e'.1 = .eq := by
  have hfound : (l.reverse.find? fun x => cmp e.1 x.1 == .eq).isSome = true := by
    rw [List.find?_isSome]
    exact ⟨e, List.mem_reverse.2 h, by simp [Std.ReflCmp.compare_self]⟩
  obtain ⟨e', he'⟩ := Option.isSome_iff_exists.1 hfound
  rw [← find?_ofList, find?_eq_some_iff] at he'
  exact ⟨e', he'⟩

end SortedMap

namespace Ast

/-- A member whose name is empty. A destructor gets a tilde, so it always has a name. -/
def Node.IsUnnamed (n : Node) : Prop :=
  n.name? = some "" ∧ ∀ f, n.kind ≠ .function .destructor f

/-- The name that a description has a member's contribution under. -/
def Contribution.name? : Contribution → Option String
  | .outline _ _ => none
  | .attr name _ => some name
  | .method key _ => some key.name

theorem destructorName_ne_empty (name : String) : destructorName name ≠ "" := by
  unfold destructorName
  split
  next h =>
    rintro rfl
    simp at h
  next =>
    intro h
    simpa using congrArg String.toList h

namespace Resolver
variable {r : Resolver} {target : NodeId} {n : Node} {k : Contribution}

theorem Yields.name_eq_empty_iff (h : r.Yields target n.kind k) :
    k.name? = some "" ↔ n.IsUnnamed := by
  rw [Node.IsUnnamed, Node.name?]
  generalize n.kind = kind at h
  cases h with
  | destructor => simpa [Contribution.name?] using destructorName_ne_empty _
  | _ => simp [Contribution.name?]

theorem Records.defaults {depth : Nat} {ps : List Parameter} {args : List Argument}
    (h : List.Forall₂ (r.Records depth) ps args) :
    args.map (·.default?) = ps.map (·.default?) := by
  induction h with
  | nil => rfl
  | cons hrecords _ ih => rw [List.map_cons, List.map_cons, hrecords.default, ih]

/-- An overload has the defaults of the function that yields it. -/
theorem Yields.defaultsTrail {key : MethodKey} {returns : Option TypeTerm}
    (h : r.Yields target n.kind (.method key returns))
    (hn : ∀ role f, n.kind = .function role f → DefaultsTrail (f.parameters.map (·.default?))) :
    DefaultsTrail (key.args.map (·.default?)) := by
  generalize n.kind = kind at h hn
  cases h with
  | constructor _ hargs => exact Records.defaults hargs ▸ hn _ _ rfl
  | destructor _ hargs => exact Records.defaults hargs ▸ hn _ _ rfl
  | procedure _ hargs => exact Records.defaults hargs ▸ hn _ _ rfl
  | method _ hargs => exact Records.defaults hargs ▸ hn _ _ rfl

/-- Of the members that are declared public, those without a name yield nothing. -/
def UnnamedAreSilent (r : Resolver) (target : NodeId) (listed : List Node) : Prop :=
  ∀ n ∈ listed, n.access? = some .publicAccess → n.IsUnnamed → ∀ k, ¬ r.Yields target n.kind k

variable {listed : List Node} {cs : List Contribution}

/-- What members contribute is without fault if and only if there is nothing from members without a
name. -/
theorem faultless_iff {d : Description}
    (hcs : gather (r.contribution target · 1)
      (listed.filter (·.access? == some .publicAccess)) = .ok cs)
    (hname : d.name? ≠ some "") (hattrs : d.attrs = SortedMap.ofList (cs.filterMap (·.attr?)))
    (hmethods : d.methods = SortedMap.ofList (cs.filterMap (·.method?)))
    (hdefaults : ∀ n ∈ listed, ∀ role f, n.kind = .function role f →
      DefaultsTrail (f.parameters.map (·.default?))) :
    d.Faultless ↔ r.UnnamedAreSilent target listed := by
  have hpublic : ∀ {n : Node}, n ∈ listed.filter (·.access? == some .publicAccess) ↔
      n ∈ listed ∧ n.access? = some .publicAccess := by
    intro n
    rw [List.mem_filter, beq_iff_eq]
  constructor
  · rintro ⟨-, hattrNames, hkeys⟩ n hn haccess hunnamed k hk
    have hempty := hk.name_eq_empty_iff.2 hunnamed
    have hgiven : k ∈ cs := by
      rw [(gather_eq_ok_iff.1 hcs).2, List.mem_filterMap]
      exact ⟨n, hpublic.2 ⟨hn, haccess⟩, Outcome.given?_eq_some.2 (contribution_eq_some_iff.2 hk)⟩
    cases k with
    | outline parents scope? => exact absurd rfl (hk.isOfMember parents scope?)
    | attr name t =>
      have hlisted : (name, t) ∈ cs.filterMap (·.attr?) :=
        List.mem_filterMap.2 ⟨_, hgiven, Contribution.attr?_eq_some_iff.2 rfl⟩
      obtain ⟨e, he, heq⟩ : ∃ e ∈ d.attrs.entries, compare name e.1 = .eq := by
        rw [hattrs]
        exact SortedMap.exists_mem_ofList (e := (name, t)) hlisted
      obtain rfl : name = e.1 := Std.LawfulEqCmp.eq_of_compare heq
      exact hattrNames e he (Option.some.inj hempty)
    | method key returns =>
      have hlisted : (key, returns) ∈ cs.filterMap (·.method?) :=
        List.mem_filterMap.2 ⟨_, hgiven, Contribution.method?_eq_some_iff.2 rfl⟩
      obtain ⟨e, he, heq⟩ : ∃ e ∈ d.methods.entries, MethodKey.cmp key e.1 = .eq := by
        rw [hmethods]
        exact SortedMap.exists_mem_ofList (e := (key, returns)) hlisted
      have hsame : key.name = e.1.name := (Prod.ext_iff.1 (MethodKey.cmp_eq_iff.1 heq)).1
      obtain ⟨hnamed, -⟩ := Description.keyFault?_eq_none_iff.1 (hkeys e he)
      exact hnamed (hsame ▸ Option.some.inj hempty)
  · intro hsilent
    refine ⟨hname, fun e he hempty => ?_, fun e he => ?_⟩
    · rw [hattrs] at he
      obtain ⟨before, n, after, hl, hy, -⟩ := (mem_gathered_attrs hcs).1 he
      obtain ⟨hn, haccess⟩ := hpublic.1 (hl ▸ List.mem_append_right before (List.mem_cons_self ..))
      exact hsilent n hn haccess (hy.name_eq_empty_iff.1 (congrArg some hempty)) _ hy
    · rw [hmethods] at he
      obtain ⟨before, n, after, hl, hy, -⟩ := (mem_gathered_methods hcs).1 he
      obtain ⟨hn, haccess⟩ := hpublic.1 (hl ▸ List.mem_append_right before (List.mem_cons_self ..))
      refine Description.keyFault?_eq_none_iff.2 ⟨fun hempty => ?_, ?_⟩
      · exact hsilent n hn haccess (hy.name_eq_empty_iff.1 (congrArg some hempty)) _ hy
      · exact hy.defaultsTrail (hdefaults n hn)

end Resolver

namespace Document
variable {doc : Document}

/-- No function of the document has a default before a parameter without one. -/
def DefaultsTrail (doc : Document) : Prop :=
  ∀ n ∈ doc.nodes, ∀ role f, n.kind = .function role f →
    Bindery.DefaultsTrail (f.parameters.map (·.default?))

/-- The class lists no public member without a name that a description would have something of. -/
def UnnamedAreSilent (doc : Document) (name : String) (onlyIn : List String) : Prop :=
  ∀ r target c listed, (Resolver.ofDocument doc).restrict onlyIn = .ok r →
    r.locate name = .ok (target, c) → r.members c = .ok listed →
      r.UnnamedAreSilent target listed

theorem mem_nodes_of_members {onlyIn : List String} {r : Resolver} {c : Record}
    {listed : List Node} (hr : (Resolver.ofDocument doc).restrict onlyIn = .ok r)
    (h : r.members c = .ok listed) : ∀ n ∈ listed, n ∈ doc.nodes := by
  intro n hn
  have hself := Resolver.resolve_of_mem_members h hn
  exact Resolver.nodes_subset_of_restrict hr (Resolver.of_resolve_eq_ok hself).1

end Document

section
variable {doc : Document} {name : String} {onlyIn : List String} {d : Description}

theorem describe_faultless_iff (h : describe doc name onlyIn = .ok d) (hname : name ≠ "")
    (hdefaults : doc.DefaultsTrail) : d.Faultless ↔ doc.UnnamedAreSilent name onlyIn := by
  have hd := (describe_bare h).1
  obtain ⟨r, target, c, hr, hlocate, h⟩ := of_describe_eq_ok h
  obtain ⟨parents, scope?, members, cs, -, -, -, hmembers, -, hcs, rfl⟩ :=
    Resolver.describeRecord_eq_ok_iff.1 h
  obtain ⟨listed, hlisted, hpublic⟩ := Outcome.bind_eq_ok.1 hmembers
  cases hpublic
  have hnamed : (some name : Option String) ≠ some "" := fun h0 => hname (Option.some.inj h0)
  have hiff := Resolver.faultless_iff hcs (hd ▸ hnamed) rfl rfl
    fun n hn => hdefaults n (Document.mem_nodes_of_members hr hlisted n hn)
  refine hiff.trans ⟨fun hsilent r' target' c' listed' hr' hlocate' hlisted' => ?_,
    fun hall => hall r target c listed hr hlocate hlisted⟩
  -- there is only one resolver, one record and one list of members
  obtain rfl := Except.ok.inj (hr.symm.trans hr')
  obtain ⟨rfl, rfl⟩ := Prod.ext_iff.1 (Except.ok.inj (hlocate.symm.trans hlocate'))
  obtain rfl := Except.ok.inj (hlisted.symm.trans hlisted')
  exact hsilent

/-- The description of a class in whose document all defaults trail is valid if and only if no
public member without a name yields anything, and it is the same with merging and generating it. -/
theorem described_valid_iff (h : describe doc name onlyIn = .ok d) (hname : name ≠ "")
    (hdefaults : doc.DefaultsTrail) :
    (d.validate = .ok () ↔ doc.UnnamedAreSilent name onlyIn) ∧
      ((∃ merged, Description.merge [d] = .ok merged) ↔ doc.UnnamedAreSilent name onlyIn) ∧
      ∀ (b : Backend) (marker? : Option String),
        (∃ files, b.generate d marker? = .ok files) ↔ doc.UnnamedAreSilent name onlyIn := by
  have hd := (describe_bare h).1
  have hclass := Description.className_eq_ok_iff.2 ⟨hd, hname⟩
  rw [← describe_faultless_iff h hname hdefaults, ← Description.validatePartial_eq_ok_iff]
  have hvalid : d.validate = .ok () ↔ d.validatePartial = .ok () := by
    rw [Description.validate_eq_ok_iff, and_iff_right ⟨name, hclass⟩]
  refine ⟨hvalid, ⟨?_, fun hpartial => ⟨_, merge_valid hd (hvalid.2 hpartial)⟩⟩,
    fun b marker? => ⟨?_, fun hpartial => ?_⟩⟩
  · rintro ⟨merged, hmerged⟩
    rw [Description.merge, Outcome.check_eq_ok] at hmerged
    exact hmerged.1
  · rintro ⟨files, hfiles⟩
    exact hvalid.1 (Backend.generate_eq_ok_iff.1 hfiles).1
  · exact ⟨_, Backend.generate_eq_ok_iff.2 ⟨hvalid.2 hpartial, name, hclass, rfl⟩⟩

end

/-- An oven with a bit field that has no name. -/
def gapDocument : Document where
  nodes := [
    ⟨"int", .fundamental "int"⟩,
    ⟨"oven", .record .ofClass ⟨"Oven", none, none, none, ["heat", "gap", "bake"], [], false⟩⟩,
    ⟨"heat", .field ⟨"heat", "int", "oven", some .publicAccess, none⟩⟩,
    ⟨"gap", .field ⟨"", "int", "oven", some .publicAccess, none⟩⟩,
    ⟨"bake", .function .method ⟨"bake", none, some .publicAccess, none,
      [⟨some "at", "int", none⟩, ⟨some "minutes", "int", some "30"⟩], none⟩⟩]

theorem defaultsTrail_gap : gapDocument.DefaultsTrail := by
  intro n hn role f hkind
  simp only [gapDocument, List.mem_cons, List.not_mem_nil, or_false] at hn
  rcases hn with rfl | rfl | rfl | rfl | rfl <;> cases hkind
  simp [DefaultsTrail]

theorem described_valid_iff_gap :
    ∃ d, describe gapDocument "Oven" [] = .ok d ∧ "Oven" ≠ "" ∧ gapDocument.DefaultsTrail ∧
      d.validate ≠ .ok () ∧ ¬ gapDocument.UnnamedAreSilent "Oven" [] := by
  refine ⟨_, rfl, by decide, defaultsTrail_gap, nofun, ?_⟩
  rw [← (described_valid_iff rfl (by decide) defaultsTrail_gap).1]
  nofun

/-- So a class can be described and then be turned down. -/
theorem described_invalid :
    ¬ ∀ (doc : Document) (name : String) (onlyIn : List String) (d : Description),
      doc.DefaultsTrail → name ≠ "" → describe doc name onlyIn = .ok d → d.validate = .ok () := by
  intro hall
  have hvalid := hall gapDocument "Oven" [] _ defaultsTrail_gap (by decide) rfl
  cases hvalid

end Ast

end Bindery
