import Bindery.Proofs.MemberLists

/-!
# Members that are passed over

A member is idle if it is not public, of a kind that has no part in a description, private by its
name, or a field that another class declares. What an idle member refers to is never looked at, so
whether it is listed or not makes no difference to how a class is described or why it cannot be
(`describe_idle`).
-/

namespace Bindery.Ast

/-- The record under `target` passes over the node when it is one of its members. -/
inductive Node.IsIdle (target : NodeId) (n : Node) : Prop where
  | notPublic : n.access? ≠ some .publicAccess → IsIdle target n
  /-- Nested records too, but not the record itself. -/
  | otherKind : (∀ f, n.kind ≠ .field f) → (∀ role f, n.kind ≠ .function role f) →
      n.id ≠ target → IsIdle target n
  | privateName {role : FunctionRole} {f : Function} :
      n.kind = .function role f → MethodKey.isPrivateName f.name = true → IsIdle target n
  | declaredElsewhere {f : Field} : n.kind = .field f → f.context ≠ target → IsIdle target n

namespace Resolver
variable {r : Resolver} {target : NodeId} {n : Node} {depth : Nat}

theorem contribution_otherKind (hfield : ∀ f, n.kind ≠ .field f)
    (hfunction : ∀ role f, n.kind ≠ .function role f) :
    r.contribution target n depth = .ok none := by
  unfold contribution
  cases hkind : n.kind with
  | field f => exact absurd hkind (hfield f)
  | function role f => exact absurd hkind (hfunction role f)
  | _ => rfl

theorem overload_privateName {f : Function} {name : String}
    {returns : Except Error (Option (Option TypeTerm))}
    (h : MethodKey.isPrivateName f.name = true) : r.overload f depth name returns = .ok none := by
  rw [overload, if_pos h]
  rfl

/-- The tests for an idle member come before any look-up. -/
theorem contribution_idle (h : n.IsIdle target) (hpublic : n.access? = some .publicAccess) :
    r.contribution target n depth = .ok none := by
  cases h with
  | notPublic hhidden => exact absurd hpublic hhidden
  | otherKind hfield hfunction _ => exact contribution_otherKind hfield hfunction
  | @privateName role f hkind hprivate =>
    unfold contribution
    rw [hkind]
    cases role with
    | constructor => exact overload_privateName hprivate
    | destructor => exact overload_privateName hprivate
    | method => exact overload_privateName hprivate
  | declaredElsewhere hkind hcontext =>
    unfold contribution
    rw [hkind]
    exact if_neg hcontext

variable {c : Record} {name : String} {keep : NodeId → Bool}

/-- The described record itself is only idle if it is not public. -/
theorem omits_of_idle {m : Node} (hm : r.resolve target = .ok m) (hrecord : m.record? = some c)
    (h : ∀ id, keep id = false → ∃ n, r.resolve id = .ok n ∧ n.IsIdle target) :
    r.Omits target keep := by
  intro id hid
  obtain ⟨n, hn, hidle⟩ := h id hid
  refine ⟨n, hn, ?_⟩
  rintro hpublic rfl
  obtain rfl : n = m := Except.ok.inj (hn.symm.trans hm)
  obtain ⟨-, hnid⟩ := of_resolve_eq_ok hn
  unfold Node.record? at hrecord
  cases hidle with
  | notPublic hhidden => exact hhidden hpublic
  | otherKind _ _ hne => exact hne hnid
  | privateName hkind _ => rw [hkind] at hrecord; cases hrecord
  | declaredElsewhere hkind _ => rw [hkind] at hrecord; cases hrecord

theorem describeRecord_idle {m : Node} (hm : r.resolve target = .ok m)
    (hrecord : m.record? = some c)
    (h : ∀ id, keep id = false → ∃ n, r.resolve id = .ok n ∧ n.IsIdle target) :
    r.describeRecord name target (c.relisted (·.filter keep)) =
      r.describeRecord name target c := by
  have homits := omits_of_idle hm hrecord h
  have hgives : ∀ depth n, keep n.id = false → r.resolve n.id = .ok n →
      n.access? = some .publicAccess → r.contribution target n depth = .ok none := by
    intro depth n hid hn hpublic
    obtain ⟨n', hn', hidle⟩ := h n.id hid
    obtain rfl : n = n' := Except.ok.inj (hn.symm.trans hn')
    exact contribution_idle hidle hpublic
  refine describeRecord_congr (fun depth => ?_) (listsItself_filter homits) name
  have hnone : ∀ n, keep n.id = false → r.resolve n.id = .ok n →
      n.access? = some .publicAccess →
        ∀ k?, r.contribution target n (depth + 1) = .ok k? → k? = none := by
    intro n hid hn hpublic k? hk
    rw [hgives (depth + 1) n hid hn hpublic] at hk
    exact (Except.ok.inj hk).symm
  rcases pass_filter (c := c) homits hnone with hsame | ⟨n, e, hid, hn, hpublic, he, -⟩
  · exact hsame.symm
  · rw [hgives (depth + 1) n hid hn hpublic] at he
    cases he

end Resolver

/-- Whichever idle members are left out of the list of the described record, the class is described
as before, or refused with the same error. -/
theorem describe_idle {d : Document} {name : String} {onlyIn : List String} {r : Resolver}
    {target : NodeId} {c : Record} {gone : List NodeId}
    (hr : (Resolver.ofDocument d).restrict onlyIn = .ok r)
    (hlocate : r.locate name = .ok (target, c)) (hname : Catalog.isInstantiation name = false)
    (hidle : ∀ id ∈ gone, ∃ n, r.resolve id = .ok n ∧ n.IsIdle target) :
    describe (d.relisted target (·.filter (· ∉ gone))) name onlyIn = describe d name onlyIn := by
  obtain ⟨m, hm, hrecord⟩ :=
    Resolver.resolve_of_locate (Resolver.pairwise_nodes_of_restrict hr) hlocate
  rw [describe_relisted hr hlocate hname, describe_eq_describeRecord hr hlocate]
  refine Resolver.describeRecord_idle hm hrecord fun id hid => hidle id ?_
  simpa using hid

/-- Of its members only the heat and the getter count. The others refer to a wide type, which has no
name in the catalogue, or to nothing that exists. -/
def clutteredDocument : Document where
  nodes := [
    ⟨"int", .fundamental "int"⟩,
    ⟨"wide", .fundamental "wchar_t"⟩,
    ⟨"oven", .record .ofClass ⟨"Oven", none, none, none,
      ["secret", "heat", "rack", "owner", "_tune", "get"], [], false⟩⟩,
    ⟨"secret", .field ⟨"secret", "wide", "oven", some .privateAccess, none⟩⟩,
    ⟨"heat", .field ⟨"heat", "int", "oven", some .publicAccess, none⟩⟩,
    ⟨"rack", .record .ofStruct
      ⟨"vector<Rack>", some "oven", none, some .publicAccess, ["gone"], [], false⟩⟩,
    ⟨"owner", .field ⟨"owner", "wide", "base", some .publicAccess, none⟩⟩,
    ⟨"_tune", .function .method
      ⟨"_tune", none, some .publicAccess, some "gone", [⟨some "to", "wide", none⟩], none⟩⟩,
    ⟨"get", .function .method ⟨"get", none, some .publicAccess, some "int", [], none⟩⟩]

theorem describe_idle_cluttered :
    let gone := ["secret", "rack", "owner", "_tune"]
    (∀ id ∈ gone, ∃ n, (Resolver.ofDocument clutteredDocument).resolve id = .ok n ∧
        n.IsIdle "oven") ∧
      ∃ s, describe clutteredDocument "Oven" [] = .ok s ∧
        describe (clutteredDocument.relisted "oven" (·.filter (· ∉ gone))) "Oven" [] = .ok s := by
  intro gone
  have hidle : ∀ id ∈ gone, ∃ n, (Resolver.ofDocument clutteredDocument).resolve id = .ok n ∧
      n.IsIdle "oven" := by
    simp only [gone, List.forall_mem_cons, List.not_mem_nil, false_imp_iff, implies_true, and_true]
    exact ⟨⟨_, rfl, .notPublic (by decide)⟩, ⟨_, rfl, .otherKind nofun nofun (by decide)⟩,
      ⟨_, rfl, .declaredElsewhere rfl (by decide)⟩, ⟨_, rfl, .privateName rfl rfl⟩⟩
  have hlocate : (Resolver.ofDocument clutteredDocument).locate "Oven" = .ok ("oven", _) := rfl
  exact ⟨hidle, _, rfl, describe_idle rfl hlocate rfl hidle⟩

end Bindery.Ast
