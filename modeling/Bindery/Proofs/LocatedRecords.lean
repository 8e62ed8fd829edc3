import Mathlib.Data.List.Forall2
import Mathlib.Data.List.Nodup
import Bindery.Proofs.AllowedFiles

/-!
# Located records

What a look-up gives: the record that a class is described from, under the id by which its node is
found, and the nodes of its members, each under its own id.
-/

namespace Bindery.Ast

theorem pairwise_firstOfEachId (l : List Node) :
    (firstOfEachId l).Pairwise fun m n => m.id ≠ n.id := by
  induction l with
  | nil => exact .nil
  | cons n rest ih =>
    refine List.pairwise_cons.2 ⟨fun m hm => ?_, ih.sublist List.filter_sublist⟩
    have hid := (List.mem_filter.1 hm).2
    exact Ne.symm (by simpa using hid)

namespace Resolver
variable {r : Resolver} {id : NodeId} {n : Node} {c : Record} {name : String}

/-! ### Members -/

/-- Members are looked up one by one, and each has to exist. -/
theorem resolveAll_eq_ok_iff {ids : List NodeId} {ns : List Node} :
    r.resolveAll ids = .ok ns ↔ List.Forall₂ (fun id n => r.resolve id = .ok n) ids ns := by
  induction ids generalizing ns with
  | nil =>
    constructor
    · intro h; cases h; exact .nil
    · intro h; cases h; rfl
  | cons id rest ih =>
    rw [resolveAll, Outcome.bind_eq_ok, List.forall₂_cons_left_iff]
    constructor
    · rintro ⟨n, hn, h⟩
      obtain ⟨ns', hns, h⟩ := Outcome.bind_eq_ok.1 h
      cases h
      exact ⟨n, ns', hn, ih.1 hns, rfl⟩
    · rintro ⟨n, ns', hn, hns, rfl⟩
      refine ⟨n, hn, ?_⟩
      rw [ih.2 hns]; rfl

theorem publicMembers_eq_ok_iff {ns : List Node} :
    r.publicMembers c = .ok ns ↔
      ∃ listed, List.Forall₂ (fun id n => r.resolve id = .ok n) c.members listed ∧
        ns = listed.filter (·.access? == some .publicAccess) := by
  simp only [publicMembers, members, Outcome.bind_eq_ok, resolveAll_eq_ok_iff, Outcome.pure_eq_ok,
    eq_comm (a := ns)]

theorem resolve_self (h : r.resolve id = .ok n) : r.resolve n.id = .ok n := by
  rw [(of_resolve_eq_ok h).2, h]

theorem resolve_of_mem_members {members : List Node} (h : r.members c = .ok members)
    (hn : n ∈ members) : r.resolve n.id = .ok n := by
  have hall := resolveAll_eq_ok_iff.1 h
  clear h
  generalize c.members = ids at hall
  induction hall with
  | nil => cases hn
  | cons hm _ ih =>
    rcases List.mem_cons.1 hn with rfl | hn
    · exact resolve_self hm
    · exact ih hn

theorem resolve_of_mem_publicMembers {members : List Node} (h : r.publicMembers c = .ok members)
    (hn : n ∈ members) : r.resolve n.id = .ok n := by
  obtain ⟨listed, hlisted, h⟩ := Outcome.bind_eq_ok.1 h
  cases h
  exact resolve_of_mem_members hlisted (List.mem_filter.1 hn).1

/-! ### The record of a class -/

theorem mem_recordsNamed :
    (id, c) ∈ r.recordsNamed name ↔
      ∃ n ∈ r.nodes, n.id = id ∧ n.record? = some c ∧ c.name = name ∧ c.incomplete = false := by
  refine List.mem_filterMap.trans (exists_congr fun n => and_congr_right fun _ => ?_)
  cases n.record? with
  | none => simp
  | some c' =>
    simp only [Option.ite_none_right_eq_some, Option.some.injEq, Prod.mk.injEq, Bool.and_eq_true,
      decide_eq_true_eq, Bool.not_eq_true']
    constructor
    · rintro ⟨⟨hname, hcomplete⟩, hid, rfl⟩
      exact ⟨hid, rfl, hname, hcomplete⟩
    · rintro ⟨hid, rfl, hname, hcomplete⟩
      exact ⟨⟨hname, hcomplete⟩, hid, rfl⟩

theorem locate_eq_ok (h : r.locate name = .ok (id, c)) : (id, c) ∈ r.recordsNamed name := by
  unfold locate at h
  split at h
  next => cases h
  split at h
  next hone =>
    cases h
    exact (List.mem_filter.1 (hone ▸ List.mem_singleton_self _)).1
  next => cases h

theorem pairwise_nodes_of_restrict {d : Document} {entries : List String}
    (h : (ofDocument d).restrict entries = .ok r) :
    r.nodes.Pairwise fun m n => m.id ≠ n.id := by
  obtain ⟨-, rfl⟩ := restrict_eq_ok_iff.1 h
  exact pairwise_firstOfEachId d.nodes

/-- A look-up finds the node that stands for its id. -/
theorem resolve_eq_ok_of_mem (h : r.nodes.Pairwise fun m n => m.id ≠ n.id) (hn : n ∈ r.nodes) :
    r.resolve n.id = .ok n := by
  have hsome : (r.nodes.find? (·.id == n.id)).isSome = true :=
    List.find?_isSome.2 ⟨n, hn, beq_self_eq_true _⟩
  obtain ⟨m, hm⟩ := Option.isSome_iff_exists.1 hsome
  have hid : m.id = n.id := by simpa using List.find?_some hm
  obtain rfl : m = n :=
    List.inj_on_of_nodup_map (List.pairwise_map.2 h) (List.mem_of_find?_eq_some hm) hn hid
  rw [resolve, hm]
  rfl

/-- The record that is located is the one under its id. -/
theorem resolve_of_locate (hids : r.nodes.Pairwise fun m n => m.id ≠ n.id)
    (h : r.locate name = .ok (id, c)) : ∃ n, r.resolve id = .ok n ∧ n.record? = some c := by
  obtain ⟨n, hn, rfl, hrecord, -⟩ := mem_recordsNamed.1 (locate_eq_ok h)
  exact ⟨n, resolve_eq_ok_of_mem hids hn, hrecord⟩

end Resolver

end Bindery.Ast
