import Bindery.Proofs.AlikeNodes
import Bindery.Proofs.LargerDocument

/-!
# Other lists of members

`Document.relisted` has the record under one id list other members. As long as that record is the
one that is described and is not spelled like an instantiation, nothing else hangs on its list: the
class is described from the new list among the nodes of the whole document (`describe_relisted`).
-/

namespace Bindery.Ast
open Outcome (Agree)

def Record.relisted (f : List NodeId → List NodeId) (c : Record) : Record :=
  { c with members := f c.members }

/-- The node with another list of members, if it is the record under `target`. -/
def Node.relisted (target : NodeId) (f : List NodeId → List NodeId) (n : Node) : Node :=
  match n.kind with
  | .record tag c => if n.id = target then ⟨n.id, .record tag (c.relisted f)⟩ else n
  | _ => n

def Document.relisted (d : Document) (target : NodeId) (f : List NodeId → List NodeId) : Document :=
  ⟨d.nodes.map (Node.relisted target f)⟩

namespace Node
variable {target : NodeId} {f : List NodeId → List NodeId} {n : Node} {c : Record}

@[simp]
theorem id_relisted : (n.relisted target f).id = n.id := by
  unfold relisted
  split
  next => split <;> rfl
  next => rfl

theorem record?_relisted (hid : n.id = target) (hrecord : n.record? = some c) :
    (n.relisted target f).record? = some (c.relisted f) := by
  unfold record? at hrecord
  split at hrecord
  next hkind =>
    cases hrecord
    simp only [relisted, hkind, if_pos hid, record?]
  next => cases hrecord

theorem alike_relisted (h : n.id = target → ∀ c, n.record? = some c →
    Catalog.isInstantiation c.name = false) : n.Alike (n.relisted target f) := by
  obtain ⟨nid, kind⟩ := n
  unfold relisted
  split
  next tag c hkind =>
    obtain rfl : kind = .record tag c := hkind
    split
    next hid =>
      refine .record ⟨rfl, rfl, rfl, rfl, rfl, rfl, fun hspelled => ?_⟩
      rw [h hid c rfl] at hspelled
      cases hspelled
    next => exact .refl _
  next => exact .refl _

end Node

/-- A node that stands for its id, beside the same node with the other list. -/
def Document.Relists (d : Document) (target : NodeId) (f : List NodeId → List NodeId)
    (n n' : Node) : Prop :=
  n ∈ firstOfEachId d.nodes ∧ n' = n.relisted target f

theorem ofDocument_relisted (d : Document) (target : NodeId) (f : List NodeId → List NodeId) :
    Resolver.Alike (d.Relists target f) (.ofDocument d) (.ofDocument (d.relisted target f)) where
  nodes := by
    refine (List.forall₂_and_left ..).2 ⟨fun m hm => hm, firstOfEachId_alike ?_ ?_⟩
    · rintro m - rfl
      exact Node.id_relisted
    · exact List.forall₂_map_right_iff.2 (List.forall₂_same.2 fun _ _ => rfl)
  allowed := rfl

section
variable {d : Document} {name : String} {onlyIn : List String} {r : Resolver} {target : NodeId}
  {c : Record} {f : List NodeId → List NodeId}

/-- Only the record that is described has another list, and it shows no arguments. -/
theorem alike_of_relists (hr : (Resolver.ofDocument d).restrict onlyIn = .ok r)
    (hlocate : r.locate name = .ok (target, c)) (hname : Catalog.isInstantiation name = false)
    {m m' : Node} (h : d.Relists target f m m') : m.Alike m' := by
  obtain ⟨hm, rfl⟩ := h
  obtain ⟨n, hn, hid, hrecord, hcname, -⟩ :=
    Resolver.mem_recordsNamed.1 (Resolver.locate_eq_ok hlocate)
  obtain ⟨-, rfl⟩ := Resolver.restrict_eq_ok_iff.1 hr
  refine Node.alike_relisted fun hmid c' hc' => ?_
  obtain rfl : m = n := List.inj_on_of_nodup_map
    (List.pairwise_map.2 (pairwise_firstOfEachId d.nodes)) hm hn (hmid.trans hid.symm)
  rw [hrecord] at hc'
  cases hc'
  rwa [hcname]

/-- The document with the other list describes the record with the other list, among the nodes of
the document as it was. -/
theorem describe_relisted (hr : (Resolver.ofDocument d).restrict onlyIn = .ok r)
    (hlocate : r.locate name = .ok (target, c)) (hname : Catalog.isInstantiation name = false) :
    describe (d.relisted target f) name onlyIn = r.describeRecord name target (c.relisted f) := by
  have hR : ∀ m m', d.Relists target f m m' → m.Alike m' := fun _ _ =>
    alike_of_relists hr hlocate hname
  obtain ⟨r', hr', halike⟩ :=
    (Resolver.restrict_alike hR (ofDocument_relisted d target f) onlyIn).eq_ok hr
  obtain ⟨⟨target', c'⟩, hlocate', hlocated⟩ :=
    (Resolver.locate_alike hR halike name).eq_ok hlocate
  obtain ⟨m, m', ⟨-, rfl⟩, hmid, hmc, hmc'⟩ := hlocated.nodes
  obtain rfl : target' = target := hlocated.id
  rw [Node.record?_relisted hmid hmc] at hmc'
  obtain rfl := Option.some.inj hmc'
  rw [describe_eq_describeRecord hr' hlocate']
  exact Resolver.describeRecord_alike hR halike name _ _

end

/-! ### Fewer members -/

/-- If what is left out gives nothing, it changes what is gathered only by an error of its own. -/
theorem gather_filter {α β : Type} {f : α → Except Error (Option β)} {keep : α → Bool} {l : List α}
    (h : ∀ a ∈ l, keep a = false → ∀ b?, f a = .ok b? → b? = none) :
    gather f l = gather f (l.filter keep) ∨
      ∃ a ∈ l, keep a = false ∧ ∃ e, f a = .error e ∧ gather f l = .error e := by
  induction l with
  | nil => exact .inl rfl
  | cons a rest ih =>
    obtain ⟨ha, hrest⟩ := List.forall_mem_cons.1 h
    cases hfa : f a with
    | error e =>
      cases hkeep : keep a with
      | true =>
        left
        rw [List.filter_cons_of_pos hkeep, gather, gather, hfa]
        rfl
      | false =>
        refine .inr ⟨a, List.mem_cons_self .., hkeep, e, hfa, ?_⟩
        rw [gather, hfa]
        rfl
    | ok b? =>
      rcases ih hrest with hsame | ⟨c, hc, hkeep, e, he, hgather⟩
      · left
        cases hkeep : keep a with
        | true => rw [List.filter_cons_of_pos hkeep, gather, gather, hsame]
        | false =>
          obtain rfl := ha hkeep b? hfa
          rw [List.filter_cons_of_neg (by simp [hkeep]), gather, hfa, ← hsame]
          exact bind_pure (gather f rest)
      · refine .inr ⟨c, List.mem_cons_of_mem _ hc, hkeep, e, he, ?_⟩
        rw [gather, hfa, hgather]
        rfl

namespace Resolver
variable {r : Resolver} {target : NodeId} {c : Record} {name : String} {keep : NodeId → Bool}

/-- The nodes of one list that are kept are the other, and each is found under its id. -/
def KeptOf (r : Resolver) (keep : NodeId → Bool) (ns ns' : List Node) : Prop :=
  ns' = ns.filter (keep ·.id) ∧ ∀ m ∈ ns, r.resolve m.id = .ok m

theorem KeptOf.filter {ns ns' : List Node} (h : r.KeptOf keep ns ns') (p : Node → Bool) :
    r.KeptOf keep (ns.filter p) (ns'.filter p) := by
  obtain ⟨rfl, hns⟩ := h
  refine ⟨?_, fun m hm => hns m (List.mem_filter.1 hm).1⟩
  rw [List.filter_filter, List.filter_filter]
  exact congrArg (List.filter · ns) (funext fun m => Bool.and_comm ..)

/-- What is left out must exist, or else its absence would be an error. -/
theorem resolveAll_filter (h : ∀ id, keep id = false → ∃ n, r.resolve id = .ok n)
    (ids : List NodeId) :
    Agree (r.KeptOf keep) (r.resolveAll ids) (r.resolveAll (ids.filter keep)) := by
  induction ids with
  | nil => exact .ok ⟨rfl, nofun⟩
  | cons id rest ih =>
    cases hkeep : keep id with
    | true =>
      rw [List.filter_cons_of_pos hkeep, resolveAll, resolveAll]
      cases hn : r.resolve id with
      | error e => exact .error e
      | ok n =>
        obtain ⟨-, rfl⟩ := of_resolve_eq_ok hn
        refine ih.bind fun ns ns' hns => .ok ⟨?_, List.forall_mem_cons.2 ⟨hn, hns.2⟩⟩
        rw [List.filter_cons_of_pos (p := fun m : Node => keep m.id) hkeep, hns.1]
    | false =>
      obtain ⟨n, hn⟩ := h id hkeep
      obtain ⟨-, rfl⟩ := of_resolve_eq_ok hn
      rw [List.filter_cons_of_neg (by simp [hkeep]), resolveAll, hn]
      generalize r.resolveAll rest = x, r.resolveAll (rest.filter keep) = y at ih
      cases ih with
      | error e => exact .error e
      | ok hns =>
        refine .ok ⟨?_, List.forall_mem_cons.2 ⟨hn, hns.2⟩⟩
        rw [List.filter_cons_of_neg (by simp [hkeep]), hns.1]

theorem publicMembers_filter (h : ∀ id, keep id = false → ∃ n, r.resolve id = .ok n) (c : Record) :
    Agree (r.KeptOf keep) (r.publicMembers c) (r.publicMembers (c.relisted (·.filter keep))) :=
  (resolveAll_filter h c.members).bind fun _ _ hns => .ok (hns.filter _)

theorem takeWhile_filter {ns : List Node} (h : ∀ m ∈ ns, m.id = target → keep m.id = true) :
    (ns.filter (keep ·.id)).takeWhile (·.id != target) =
      (ns.takeWhile (·.id != target)).filter (keep ·.id) := by
  induction ns with
  | nil => rfl
  | cons m rest ih =>
    obtain ⟨hm, hrest⟩ := List.forall_mem_cons.1 h
    by_cases hid : m.id = target
    · have hkeep := hm hid
      rw [hid] at hkeep
      simp [hid, hkeep]
    · cases hkeep : keep m.id <;> simp [hid, hkeep, ih hrest]

/-- The members that are not kept exist, and none that is public is the record itself. -/
def Omits (r : Resolver) (target : NodeId) (keep : NodeId → Bool) : Prop :=
  ∀ id, keep id = false → ∃ n, r.resolve id = .ok n ∧
    (n.access? = some .publicAccess → id ≠ target)

theorem Omits.exists (h : r.Omits target keep) (id : NodeId) (hid : keep id = false) :
    ∃ n, r.resolve id = .ok n := (h id hid).imp fun _ hn => hn.1

theorem access?_of_mem_publicMembers {ns : List Node} (h : r.publicMembers c = .ok ns) {m : Node}
    (hm : m ∈ ns) : m.access? = some .publicAccess := by
  obtain ⟨listed, -, rfl⟩ := publicMembers_eq_ok_iff.1 h
  simpa using (List.mem_filter.1 hm).2

/-- So the record itself is kept if it is a public member. -/
theorem Omits.keeps (h : r.Omits target keep) {ns : List Node} (hns : r.publicMembers c = .ok ns)
    {m : Node} (hm : m ∈ ns) (hid : m.id = target) : keep m.id = true := by
  cases hkeep : keep m.id with
  | true => rfl
  | false =>
    obtain ⟨n, hn, hne⟩ := h m.id hkeep
    obtain rfl : m = n :=
      Except.ok.inj ((resolve_of_mem_publicMembers hns hm).symm.trans hn)
    exact absurd hid (hne (access?_of_mem_publicMembers hns hm))

theorem listsItself_filter (h : r.Omits target keep) :
    r.listsItself target (c.relisted (·.filter keep)) = r.listsItself target c := by
  have hmembers := publicMembers_filter h.exists c
  unfold listsItself
  cases hns : r.publicMembers c with
  | error e =>
    rw [hns] at hmembers
    generalize r.publicMembers (c.relisted _) = y at hmembers
    cases hmembers with
    | error => rfl
  | ok ns =>
    obtain ⟨ns', hns', rfl, -⟩ := hmembers.eq_ok hns
    rw [hns', Bool.eq_iff_iff]
    simp only [List.any_eq_true, List.mem_filter, beq_iff_eq]
    constructor
    · rintro ⟨m, ⟨hm, -⟩, hid⟩
      exact ⟨m, hm, hid⟩
    · rintro ⟨m, hm, hid⟩
      exact ⟨m, ⟨hm, h.keeps hns hm hid⟩, hid⟩

/-- Members that give nothing change a pass only by an error of one of them. -/
theorem pass_filter (h : r.Omits target keep) {depth : Nat}
    (hgives : ∀ n, keep n.id = false → r.resolve n.id = .ok n → n.access? = some .publicAccess →
      ∀ k?, r.contribution target n (depth + 1) = .ok k? → k? = none) :
    r.pass target c depth = r.pass target (c.relisted (·.filter keep)) depth ∨
      ∃ n e, keep n.id = false ∧ r.resolve n.id = .ok n ∧ n.access? = some .publicAccess ∧
        r.contribution target n (depth + 1) = .error e ∧ r.pass target c depth = .error e := by
  have hmembers := publicMembers_filter h.exists c
  rw [pass, pass]
  show (r.outline target c depth >>= _) = (r.outline target c depth >>= _) ∨ _
  cases r.outline target c depth with
  | error e => exact .inl rfl
  | ok outline =>
  cases hns : r.publicMembers c with
  | error e =>
    rw [hns] at hmembers
    generalize r.publicMembers (c.relisted _) = y at hmembers
    cases hmembers with
    | error => exact .inl rfl
  | ok ns =>
  obtain ⟨ns', hns', rfl, hself⟩ := hmembers.eq_ok hns
  have hmem : ∀ m ∈ ns.takeWhile (·.id != target), m ∈ ns := fun m hm =>
    (List.takeWhile_prefix _).subset hm
  have hnone : ∀ m ∈ ns.takeWhile (·.id != target), keep m.id = false →
      ∀ k?, r.contribution target m (depth + 1) = .ok k? → k? = none := fun m hm hid =>
    hgives m hid (hself m (hmem m hm)) (access?_of_mem_publicMembers hns (hmem m hm))
  rw [hns']
  show (gather _ _ >>= _) = (gather _ _ >>= _) ∨ _
  rw [takeWhile_filter fun m hm hid => h.keeps hns hm hid]
  rcases gather_filter hnone with hsame | ⟨m, hm, hid, e, he, hgather⟩
  · exact .inl (by rw [hsame])
  · have haccess := access?_of_mem_publicMembers hns (hmem m hm)
    refine .inr ⟨m, e, hid, hself m (hmem m hm), haccess, he, ?_⟩
    show (gather _ _ >>= _) = _
    rw [hgather]
    rfl

end Resolver

end Bindery.Ast
