import Bindery.Proofs.ContextChain
import Bindery.Proofs.DescribedClass

/-!
# Describing in a larger document

What is said of a class hangs on the nodes that are referred to from it. A document may therefore
be enlarged, and its nodes put in any order, as long as there are no new records of that name and
no new files to choose from. The class is described as before or refused as before, but for a
reference that led nowhere and may now lead somewhere (`describe_local`).
-/

namespace Bindery.Ast

/-! ### Documents without repeated ids -/

namespace Document.DistinctIds
variable {d : Document} {m n : Node}

theorem eq_of_id (h : d.DistinctIds) (hm : m ∈ d.nodes) (hn : n ∈ d.nodes) (hid : m.id = n.id) :
    m = n :=
  List.inj_on_of_nodup_map (List.pairwise_map.2 h) hm hn hid

theorem nodup (h : d.DistinctIds) : d.nodes.Nodup := List.Pairwise.imp (mt (congrArg Node.id)) h

end Document.DistinctIds

theorem firstOfEachId_of_distinct {l : List Node} (h : l.Pairwise fun m n => m.id ≠ n.id) :
    firstOfEachId l = l := by
  induction l with
  | nil => rfl
  | cons n rest ih =>
    obtain ⟨hn, hrest⟩ := List.pairwise_cons.1 h
    rw [firstOfEachId, ih hrest]
    exact congrArg (n :: ·) (List.filter_eq_self.2 fun m hm => by simpa using Ne.symm (hn m hm))

theorem Resolver.ofDocument_of_distinct {d : Document} (h : d.DistinctIds) :
    Resolver.ofDocument d = ⟨d.nodes, []⟩ :=
  congrArg (Resolver.mk · []) (firstOfEachId_of_distinct h)

/-- A search for something that is there only once finds the same in more nodes, unless one of the
others is what is searched for. -/
theorem find?_of_subset {p : Node → Bool} {l l' : List Node} (hkept : ∀ n ∈ l, n ∈ l')
    (hnew : ∀ n ∈ l', p n = true → n ∈ l)
    (hone : ∀ m ∈ l', ∀ n ∈ l', p m = true → p n = true → m = n) : l'.find? p = l.find? p := by
  cases hfind : l.find? p with
  | none =>
    rw [List.find?_eq_none] at hfind ⊢
    exact fun n hn hp => hfind n (hnew n hn hp) hp
  | some n =>
    have hn := hkept n (List.mem_of_find?_eq_some hfind)
    have hp := List.find?_some hfind
    cases hfind' : l'.find? p with
    | none => exact absurd hp (List.find?_eq_none.1 hfind' n hn)
    | some m =>
      exact congrArg some
        (hone m (List.mem_of_find?_eq_some hfind') n hn (List.find?_some hfind') hp)

/-- A complete record of this name. -/
def Node.IsRecordNamed (n : Node) (name : String) : Prop :=
  ∃ c, n.record? = some c ∧ c.name = name ∧ c.incomplete = false

/-! ### Restricting and locating -/

namespace Resolver
variable {r r' : Resolver} {nodes : List Node} {entries : List String} {name : String}

theorem restrict_nodes (h : ∀ e ∈ entries, nodes.find? (·.isFileNamed e) = r.fileNamed? e) :
    restrict { r with nodes := nodes } entries =
      (r.restrict entries).map fun s => { s with nodes := nodes } := by
  induction entries generalizing r with
  | nil => rfl
  | cons e rest ih =>
    obtain ⟨he, hrest⟩ := List.forall_mem_cons.1 h
    have he : fileNamed? { r with nodes := nodes } e = r.fileNamed? e := he
    rw [restrict, restrict, allow_eq, allow_eq, he]
    cases r.fileNamed? e with
    | none => rfl
    | some f => exact ih (r := { r with allowed := f.id :: r.allowed }) hrest

theorem locate_of_perm (hrecords : (r'.recordsNamed name).Perm (r.recordsNamed name))
    (hallowed : r'.allowed = r.allowed) : r'.locate name = r.locate name := by
  have hallows : r'.allows = r.allows := funext fun file? => by rw [allows, allows, hallowed]
  unfold locate
  rw [hallows]
  generalize r'.recordsNamed name = l', r.recordsNamed name = l at hrecords
  cases l with
  | nil => rw [List.perm_nil.1 hrecords]
  | cons c rest =>
    cases l' with
    | nil => cases hrecords.length_eq
    | cons c' rest' =>
      have hscope := hrecords.filter fun c => r.allows c.2.file?
      dsimp only
      generalize (c' :: rest').filter _ = m' at hscope ⊢
      generalize (c :: rest).filter _ = m at hscope ⊢
      rcases m with _ | ⟨a, _ | ⟨b, m⟩⟩
      · rw [List.perm_nil.1 hscope]
      · rw [List.perm_singleton.1 hscope]
      · -- of two or more only the number is told
        rcases m' with _ | ⟨a', _ | ⟨b', m'⟩⟩
        · cases hscope.length_eq
        · cases hscope.length_eq
        · exact congrArg (fun n => throw (Error.ambiguousOrigin name n)) hscope.length_eq

theorem recordsNamed_append {more : List Node} (hnodes : nodes.Perm (r.nodes ++ more))
    (hmore : ∀ n ∈ more, ¬ n.IsRecordNamed name) :
    (recordsNamed { r with nodes := nodes } name).Perm (r.recordsNamed name) := by
  have hnone : recordsNamed { r with nodes := more } name = [] := by
    refine List.eq_nil_iff_forall_not_mem.2 fun ⟨id, c⟩ h => ?_
    obtain ⟨n, hn, -, hrecord⟩ := mem_recordsNamed.1 h
    exact hmore n hn ⟨c, hrecord⟩
  have happend : (recordsNamed { r with nodes := nodes } name).Perm
      (r.recordsNamed name ++ recordsNamed { r with nodes := more } name) := by
    rw [recordsNamed, recordsNamed, recordsNamed, ← List.filterMap_append]
    exact hnodes.filterMap _
  rwa [hnone, List.append_nil] at happend

end Resolver

/-! ### Enlarging a document -/

/-- All nodes of `d` are in `d'`, which has no further records of this name and no further files to
take an entry for. -/
structure Document.EnlargedTo (d d' : Document) (name : String) (onlyIn : List String) : Prop where
  ids : d.DistinctIds
  ids' : d'.DistinctIds
  kept : ∀ n ∈ d.nodes, n ∈ d'.nodes
  records : ∀ n ∈ d'.nodes, n ∉ d.nodes → ¬ n.IsRecordNamed name
  files : ∀ n ∈ d'.nodes, n ∉ d.nodes → ∀ e ∈ onlyIn, n.isFileNamed e = false
  oneFile : ∀ e ∈ onlyIn, ∀ f ∈ d'.nodes, ∀ g ∈ d'.nodes,
    f.isFileNamed e = true → g.isFileNamed e = true → f = g
  acyclic : ∀ n ∈ d.nodes, n.IsRecordNamed name → Acyclic d.nodes n

/-- The reference is to an id under which only `d'` has a node. -/
inductive Document.NewlyResolved (d d' : Document) : Error → Prop where
  | mk {n : Node} : n ∈ d'.nodes → n ∉ d.nodes → NewlyResolved d d' (.unresolvedReference n.id)

namespace Document.EnlargedTo
variable {d d' : Document} {name : String} {onlyIn : List String}

theorem perm (h : d.EnlargedTo d' name onlyIn) :
    ∃ more, d'.nodes.Perm (d.nodes ++ more) ∧ ∀ n ∈ more, n ∈ d'.nodes ∧ n ∉ d.nodes := by
  obtain ⟨l, hl, hsublist⟩ := h.ids.nodup.subperm h.kept
  obtain ⟨more, hmore⟩ := hsublist.exists_perm_append
  have hperm : d'.nodes.Perm (d.nodes ++ more) := hmore.trans (hl.append_right more)
  have hdisjoint := (List.nodup_append.1 (hperm.nodup_iff.1 h.ids'.nodup)).2.2
  exact ⟨more, hperm, fun n hn =>
    ⟨hperm.mem_iff.2 (List.mem_append_right _ hn), fun hold => hdisjoint n hold n hn rfl⟩⟩

theorem find?_file (h : d.EnlargedTo d' name onlyIn) :
    ∀ e ∈ onlyIn, d'.nodes.find? (·.isFileNamed e) = d.nodes.find? (·.isFileNamed e) := by
  refine fun e he => find?_of_subset h.kept (fun n hn hfile => ?_) (h.oneFile e he)
  by_contra hnew
  rw [h.files n hn hnew e he] at hfile
  cases hfile

theorem within (h : d.EnlargedTo d' name onlyIn) (allowed : List NodeId) :
    Resolver.Within (d.NewlyResolved d') ⟨d.nodes, allowed⟩ ⟨d'.nodes, allowed⟩ := by
  intro id
  by_cases hnew : ∃ n ∈ d'.nodes, n ∉ d.nodes ∧ n.id = id
  · -- a node of `d` with this id would be the new node itself
    obtain ⟨n, hn, hnot, rfl⟩ := hnew
    refine .inr ⟨_, .mk hn hnot, ?_⟩
    have hnone : d.nodes.find? (·.id == n.id) = none := by
      refine List.find?_eq_none.2 fun m hm hid => hnot ?_
      rwa [← h.ids'.eq_of_id (h.kept m hm) hn (by simpa using hid)]
    rw [Resolver.resolve, hnone]
    rfl
  · refine .inl ?_
    have hsame : d'.nodes.find? (·.id == id) = d.nodes.find? (·.id == id) := by
      refine find?_of_subset h.kept (fun n hn hid => ?_) fun m hm n hn hmid hnid => ?_
      · by_contra hnot
        exact hnew ⟨n, hn, hnot, by simpa using hid⟩
      · simp only [beq_iff_eq] at hmid hnid
        exact h.ids'.eq_of_id hm hn (hmid.trans hnid.symm)
    rw [Resolver.resolve, Resolver.resolve, hsame]

theorem locate_eq (h : d.EnlargedTo d' name onlyIn) (allowed : List NodeId) :
    Resolver.locate ⟨d'.nodes, allowed⟩ name = Resolver.locate ⟨d.nodes, allowed⟩ name := by
  obtain ⟨more, hperm, hmore⟩ := h.perm
  have hothers : ∀ n ∈ more, ¬ n.IsRecordNamed name := fun n hn =>
    h.records n (hmore n hn).1 (hmore n hn).2
  exact Resolver.locate_of_perm
    (Resolver.recordsNamed_append (r := ⟨d.nodes, allowed⟩) hperm hothers) rfl

theorem length_le (h : d.EnlargedTo d' name onlyIn) : d.nodes.length ≤ d'.nodes.length :=
  (h.ids.nodup.subperm h.kept).length_le

/-- The outcome stays, unless a reference leads to a node that only the larger document has. -/
theorem describe_persists (h : d.EnlargedTo d' name onlyIn) :
    Persists (GoneWithCause (d.NewlyResolved d')) (describe d name onlyIn)
      (describe d' name onlyIn) := by
  have hrestrict := Resolver.restrict_nodes (r := ⟨d.nodes, []⟩) h.find?_file
  have hlarger : (Resolver.ofDocument d').restrict onlyIn = _ :=
    (congrArg (Resolver.restrict · onlyIn) (Resolver.ofDocument_of_distinct h.ids')).trans hrestrict
  cases hr : Resolver.restrict ⟨d.nodes, []⟩ onlyIn with
  | error e =>
    rw [hr] at hlarger
    rw [← Resolver.ofDocument_of_distinct h.ids] at hr
    rw [describe_of_restrict_error hr, describe_of_restrict_error hlarger]
    exact .refl _
  | ok r =>
    rw [hr] at hlarger
    obtain ⟨-, hnodes⟩ := Resolver.restrict_eq_ok_iff.1 hr
    obtain ⟨nodes, allowed⟩ := r
    obtain rfl : nodes = d.nodes := congrArg Resolver.nodes hnodes
    rw [← Resolver.ofDocument_of_distinct h.ids] at hr
    rw [describe_of_restrict hr, describe_of_restrict hlarger]
    show Persists _ ((Resolver.locate ⟨d.nodes, allowed⟩ name).mapError Halt.failed >>= _)
      ((Resolver.locate ⟨d'.nodes, allowed⟩ name).mapError Halt.failed >>= _)
    rw [h.locate_eq allowed]
    refine (Persists.refl _).bind fun ⟨id, c⟩ hlocate => ?_
    obtain ⟨n, hn, rfl, hrecord, hnamed⟩ :=
      Resolver.mem_recordsNamed.1 (Resolver.locate_eq_ok (Outcome.mapError_eq_ok.1 hlocate))
    have hscope := Resolver.scopePath_persists (h.within _) h.length_le hn
      (h.acyclic n hn ⟨c, hrecord, hnamed⟩)
    rw [Node.outer?_of_record? hrecord] at hscope
    exact Resolver.describeRecord_persists hscope (h.within _) name

theorem of_perm {p : Document} (h : d.EnlargedTo d' name onlyIn) (hperm : p.nodes.Perm d.nodes) :
    d.EnlargedTo p name onlyIn where
  ids := h.ids
  ids' := hperm.symm.pairwise h.ids Ne.symm
  kept _ hn := hperm.mem_iff.2 hn
  records _ hn hnot := absurd (hperm.mem_iff.1 hn) hnot
  files _ hn hnot := absurd (hperm.mem_iff.1 hn) hnot
  oneFile e he f hf g hg :=
    h.oneFile e he f (h.kept f (hperm.mem_iff.1 hf)) g (h.kept g (hperm.mem_iff.1 hg))
  acyclic := h.acyclic

end Document.EnlargedTo

/-- Unless a reference leads nowhere, a larger document describes the class as the smaller one does,
and refuses it as that does. The order of the nodes never matters. -/
theorem describe_local {d d' : Document} {name : String} {onlyIn : List String}
    (h : d.EnlargedTo d' name onlyIn) :
    ((∀ id, describe d name onlyIn ≠ .error (.failed (.unresolvedReference id))) →
        describe d' name onlyIn = describe d name onlyIn) ∧
      ∀ p : Document, p.nodes.Perm d.nodes → describe p name onlyIn = describe d name onlyIn := by
  refine ⟨fun hresolved => ?_, fun p hperm => ?_⟩
  · rcases h.describe_persists with hsame | ⟨_, ⟨⟨-, -⟩⟩, herror⟩
    · exact hsame
    · exact absurd herror (hresolved _)
  · rcases (h.of_perm hperm).describe_persists with hsame | ⟨_, ⟨⟨hn, hnot⟩⟩, -⟩
    · exact hsame
    · exact absurd (hperm.mem_iff.1 hn) hnot

def ovenNodes : List Node := [
  ⟨"f1", .file "oven.h"⟩,
  ⟨"n1", .scope ⟨"::", none⟩⟩,
  ⟨"n2", .scope ⟨"kitchen", some "n1"⟩⟩,
  ⟨"t1", .fundamental "double"⟩,
  ⟨"c1", .record .ofClass ⟨"Oven", some "n2", some "f1", none, ["m1"], [], false⟩⟩,
  ⟨"m1", .field ⟨"power", "t1", "c1", some .publicAccess, some "f1"⟩⟩]

/-- Another class, and an oven that is only declared. -/
def toasterNodes : List Node := [
  ⟨"f2", .file "toaster.h"⟩,
  ⟨"c2", .record .ofStruct ⟨"Toaster", some "n2", some "f2", none, [], ["c3"], false⟩⟩,
  ⟨"c3", .record .ofClass ⟨"Oven", some "n2", some "f2", none, [], [], true⟩⟩]

theorem ovenNodes_enlargedTo :
    Document.EnlargedTo ⟨ovenNodes⟩ ⟨toasterNodes ++ ovenNodes.reverse⟩ "Oven" ["oven.h"] where
  ids := by simp [Document.DistinctIds, ovenNodes]
  ids' := by simp [Document.DistinctIds, ovenNodes, toasterNodes]
  kept _ hn := List.mem_append_right _ (List.mem_reverse.2 hn)
  records := by simp [ovenNodes, toasterNodes, Node.IsRecordNamed, Node.record?]
  files := by simp [ovenNodes, toasterNodes, Node.isFileNamed]
  oneFile := by simp [ovenNodes, toasterNodes, Node.isFileNamed]
  acyclic _ _ _ := Acyclic.of_rank ovenNodes.idxOf (by decide)

theorem describe_local_oven :
    let d := { Description.named "Oven" with
      parents? := some []
      scope? := some "kitchen"
      attrs := SortedMap.ofList [("power", .atomic "float64")] }
    describe ⟨toasterNodes ++ ovenNodes.reverse⟩ "Oven" ["oven.h"] = .ok d ∧
      describe ⟨ovenNodes.reverse⟩ "Oven" ["oven.h"] = .ok d := by
  intro d
  have hd : describe ⟨ovenNodes⟩ "Oven" ["oven.h"] = .ok d := rfl
  obtain ⟨hlarger, hperm⟩ := describe_local ovenNodes_enlargedTo
  rw [hd] at hlarger hperm
  exact ⟨hlarger nofun, hperm ⟨ovenNodes.reverse⟩ (List.reverse_perm _)⟩

end Bindery.Ast
