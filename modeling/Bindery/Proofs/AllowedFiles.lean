import Bindery.Ast.Describe
import Bindery.Proofs.Outcome

/-!
# Which files are allowed

An entry is taken for one file, the first of its name or id among the nodes that stand for their
ids (`TakenFor`), while `Document.hasFile` is content with any node of the document. So the two
tests differ on documents that repeat an id, and a class from the second of two files of one name
is out of scope: `restrict_scope` says what is accepted and what is in scope, and for which entries
that is all that the document has under them.
-/

namespace Bindery.Ast

/-! ### One node for each id -/

/-- The node that a look-up of its id finds. -/
def Document.IsFirst (d : Document) (n : Node) : Prop := d.nodes.find? (·.id == n.id) = some n

theorem find?_id_cons {n g : Node} {rest : List Node} :
    (n :: rest).find? (·.id == g.id) = some g ↔
      n = g ∨ n.id ≠ g.id ∧ rest.find? (·.id == g.id) = some g := by
  by_cases hid : n.id = g.id
  · rw [List.find?_cons_of_pos (by simpa using hid)]
    simp [hid]
  · rw [List.find?_cons_of_neg (by simpa using hid), and_iff_right hid, or_iff_right]
    exact fun h => hid (congrArg Node.id h)

theorem mem_of_mem_firstOfEachId {l : List Node} {n : Node} (h : n ∈ firstOfEachId l) : n ∈ l := by
  induction l with
  | nil => exact h
  | cons m rest ih =>
    rcases List.mem_cons.1 h with rfl | h
    · exact List.mem_cons_self ..
    · exact List.mem_cons_of_mem _ (ih (List.mem_filter.1 h).1)

/-- The first node that satisfies `p`, of those that stand for their ids. -/
theorem find?_firstOfEachId {p : Node → Bool} {l : List Node} {f : Node} :
    (firstOfEachId l).find? p = some f ↔
      p f = true ∧ ∃ before after, l = before ++ f :: after ∧ (∀ m ∈ before, m.id ≠ f.id) ∧
        ∀ g ∈ before, l.find? (·.id == g.id) = some g → p g = false := by
  induction l generalizing p with
  | nil => simp [firstOfEachId]
  | cons n rest ih =>
    rw [firstOfEachId, List.find?_cons]
    cases hn : p n with
    | true =>
      constructor
      · intro h
        cases h
        exact ⟨hn, [], rest, rfl, List.forall_mem_nil _, List.forall_mem_nil _⟩
      · rintro ⟨-, before, after, hl, -, hbefore⟩
        rcases List.cons_eq_append_iff.1 hl with ⟨rfl, hcons⟩ | ⟨before, rfl, rfl⟩
        · rw [(List.cons.inj hcons).1]
        · have hskipped := hbefore n (List.mem_cons_self ..) (find?_id_cons.2 (.inl rfl))
          rw [hn] at hskipped
          cases hskipped
    | false =>
      -- past `n` the search goes on for nodes that satisfy `p` and have another id
      simp only [List.find?_filter, ih, decide_eq_true_eq, decide_eq_false_iff_not, bne_iff_ne,
        ne_eq, not_and, Bool.not_eq_true]
      constructor
      · rintro ⟨⟨hid, hf⟩, before, after, rfl, hids, hbefore⟩
        refine ⟨hf, n :: before, after, rfl, List.forall_mem_cons.2 ⟨Ne.symm hid, hids⟩, ?_⟩
        refine List.forall_mem_cons.2 ⟨fun _ => hn, fun g hg hfirst => ?_⟩
        rcases find?_id_cons.1 hfirst with rfl | ⟨hng, hfirst⟩
        · exact hn
        · exact hbefore g hg hfirst (Ne.symm hng)
      · rintro ⟨hf, before, after, hl, hids, hbefore⟩
        rcases List.cons_eq_append_iff.1 hl with ⟨rfl, hcons⟩ | ⟨before, rfl, rfl⟩
        · rw [(List.cons.inj hcons).1, hn] at hf
          cases hf
        · obtain ⟨hnf, hids⟩ := List.forall_mem_cons.1 hids
          refine ⟨⟨Ne.symm hnf, hf⟩, before, after, rfl, hids, fun g hg hfirst hgn => ?_⟩
          have hng : n.id ≠ g.id := Ne.symm hgn
          exact hbefore g (List.mem_cons_of_mem _ hg) (find?_id_cons.2 (.inr ⟨hng, hfirst⟩))

/-! ### Restricting -/

namespace Resolver
variable {r r' : Resolver} {entries : List String} {n : Node}

/-- The file that an entry is taken for. -/
def fileNamed? (r : Resolver) (entry : String) : Option Node :=
  r.nodes.find? (·.isFileNamed entry)

theorem allow_eq (r : Resolver) (entry : String) :
    r.allow entry =
      match r.fileNamed? entry with
      | some n => .ok { r with allowed := n.id :: r.allowed }
      | none => .error (.unknownOriginFile entry) := rfl

/-- Each entry has to find a file, and the ids of these files are allowed. -/
theorem restrict_eq_ok_iff :
    r.restrict entries = .ok r' ↔
      (∀ e ∈ entries, ∃ f, r.fileNamed? e = some f) ∧
        r' = { r with
          allowed := (entries.filterMap fun e => (r.fileNamed? e).map (·.id)).reverse ++
            r.allowed } := by
  induction entries generalizing r with
  | nil =>
    constructor
    · intro h
      cases h
      exact ⟨nofun, rfl⟩
    · rintro ⟨-, rfl⟩
      rfl
  | cons e rest ih =>
    rw [restrict, allow_eq, List.forall_mem_cons, List.filterMap_cons]
    cases hf : r.fileNamed? e with
    | none =>
      constructor
      · nofun
      · rintro ⟨⟨⟨f, h⟩, -⟩, -⟩
        cases h
    | some f =>
      refine (ih (r := { r with allowed := f.id :: r.allowed })).trans (and_congr ?_ ?_)
      · exact ⟨fun h => ⟨⟨f, rfl⟩, h⟩, And.right⟩
      · simp [fileNamed?]

theorem nodes_subset_of_restrict {d : Document} (h : (ofDocument d).restrict entries = .ok r) :
    r.nodes ⊆ d.nodes := by
  obtain ⟨-, rfl⟩ := restrict_eq_ok_iff.1 h
  exact fun _ hn => mem_of_mem_firstOfEachId hn

theorem restrict_isOk_iff :
    (∃ r', r.restrict entries = .ok r') ↔ ∀ e ∈ entries, ∃ f, r.fileNamed? e = some f := by
  constructor
  · rintro ⟨r', h⟩
    exact (restrict_eq_ok_iff.1 h).1
  · intro h
    exact ⟨_, restrict_eq_ok_iff.2 ⟨h, rfl⟩⟩

/-- Only nodes from these files are in scope once there is any entry. -/
theorem inScope_restrict_iff (hnone : r.allowed = []) (h : r.restrict entries = .ok r')
    (hne : entries ≠ []) :
    r'.inScope n = true ↔
      ∃ e ∈ entries, ∃ f, r.fileNamed? e = some f ∧ n.file? = some f.id := by
  obtain ⟨hall, rfl⟩ := restrict_eq_ok_iff.1 h
  obtain ⟨e, he⟩ := List.exists_mem_of_ne_nil entries hne
  obtain ⟨f, hf⟩ := hall e he
  have hallowed : (entries.filterMap fun e => (r.fileNamed? e).map (·.id)) ≠ [] :=
    List.ne_nil_of_mem (List.mem_filterMap.2 ⟨e, he, by rw [hf]; rfl⟩)
  simp only [inScope, allows, hnone, List.append_nil, List.isEmpty_iff, List.reverse_eq_nil_iff,
    Bool.or_eq_true, hallowed, false_or, Option.any_eq_true, List.contains_iff_mem,
    List.mem_reverse, List.mem_filterMap, Option.map_eq_some_iff]
  constructor
  · rintro ⟨id, hid, e, he, f, hf, rfl⟩
    exact ⟨e, he, f, hf, hid⟩
  · rintro ⟨e, he, f, hf, hid⟩
    exact ⟨f.id, hid, e, he, f, hf, rfl⟩

end Resolver

/-! ### The tests of a document -/

namespace Document
variable {d : Document} {entries : List String} {entry : String} {f : Node}

/-- The first file of this name or id, of the nodes that stand for their ids. -/
def TakenFor (d : Document) (entry : String) (f : Node) : Prop :=
  f.isFileNamed entry = true ∧ ∃ before after, d.nodes = before ++ f :: after ∧
    (∀ m ∈ before, m.id ≠ f.id) ∧ ∀ g ∈ before, d.IsFirst g → g.isFileNamed entry = false

theorem takenFor_iff :
    d.TakenFor entry f ↔ (Resolver.ofDocument d).fileNamed? entry = some f := by
  rw [Resolver.fileNamed?, Resolver.ofDocument, find?_firstOfEachId]
  rfl

theorem TakenFor.mem (h : d.TakenFor entry f) : f ∈ d.nodes := by
  obtain ⟨-, before, after, hd, -⟩ := h
  rw [hd]
  exact List.mem_append_right _ (List.mem_cons_self ..)

theorem TakenFor.hasFile (h : d.TakenFor entry f) : d.hasFile entry = true :=
  List.any_eq_true.2 ⟨f, h.mem, h.1⟩

/-- An entry that some file answers to is accepted, and a node is in scope if it comes from any of
the files that answer to an entry. -/
structure TestsAgree (d : Document) (entries : List String) : Prop where
  accepted : (∃ r, (Resolver.ofDocument d).restrict entries = .ok r) ↔
    ∀ e ∈ entries, d.hasFile e = true
  scope : ∀ r, (Resolver.ofDocument d).restrict entries = .ok r → entries ≠ [] → ∀ n ∈ d.nodes,
    (r.inScope n = true ↔
      ∃ e ∈ entries, ∃ f ∈ d.nodes, f.isFileNamed e = true ∧ n.file? = some f.id)

/-- The ids of all files that answer to the entries, as far as nodes come from them, are ids of
files that entries are taken for. -/
structure Covers (d : Document) (entries : List String) : Prop where
  taken : ∀ e ∈ entries, ∃ f, d.TakenFor e f
  others : ∀ n ∈ d.nodes, ∀ e ∈ entries, ∀ f ∈ d.nodes, f.isFileNamed e = true →
    n.file? = some f.id → ∃ e' ∈ entries, ∃ g, d.TakenFor e' g ∧ g.id = f.id

theorem restrict_isOk_iff :
    (∃ r, (Resolver.ofDocument d).restrict entries = .ok r) ↔
      ∀ e ∈ entries, ∃ f, d.TakenFor e f := by
  simp only [Resolver.restrict_isOk_iff, takenFor_iff]

theorem inScope_iff {r : Resolver} {n : Node} (h : (Resolver.ofDocument d).restrict entries = .ok r)
    (hne : entries ≠ []) :
    r.inScope n = true ↔ ∃ e ∈ entries, ∃ f, d.TakenFor e f ∧ n.file? = some f.id := by
  rw [Resolver.inScope_restrict_iff rfl h hne]
  simp only [takenFor_iff]

theorem testsAgree_iff :
    d.TestsAgree entries ↔ ((∀ e ∈ entries, d.hasFile e = true) → d.Covers entries) := by
  constructor
  · rintro ⟨haccepted, hscope⟩ hfiles
    obtain ⟨r, hr⟩ := haccepted.2 hfiles
    refine ⟨restrict_isOk_iff.1 ⟨r, hr⟩, fun n hn e he f hf hnamed hfile => ?_⟩
    have hne : entries ≠ [] := List.ne_nil_of_mem he
    have hin : r.inScope n = true := (hscope r hr hne n hn).2 ⟨e, he, f, hf, hnamed, hfile⟩
    obtain ⟨e', he', g, hg, hgfile⟩ := (inScope_iff hr hne).1 hin
    rw [hfile] at hgfile
    exact ⟨e', he', g, hg, (Option.some.inj hgfile).symm⟩
  · intro hcovers
    have hhas : (∀ e ∈ entries, ∃ f, d.TakenFor e f) → ∀ e ∈ entries, d.hasFile e = true := by
      intro htaken e he
      obtain ⟨f, hf⟩ := htaken e he
      exact hf.hasFile
    refine ⟨?_, fun r hr hne n hn => ?_⟩
    · rw [restrict_isOk_iff]
      exact ⟨hhas, fun hfiles => (hcovers hfiles).taken⟩
    · have htaken := restrict_isOk_iff.1 ⟨r, hr⟩
      rw [inScope_iff hr hne]
      constructor
      · rintro ⟨e, he, f, hf, hfile⟩
        exact ⟨e, he, f, hf.mem, hf.1, hfile⟩
      · rintro ⟨e, he, f, hf, hnamed, hfile⟩
        obtain ⟨e', he', g, hg, hid⟩ := (hcovers (hhas htaken)).others n hn e he f hf hnamed hfile
        exact ⟨e', he', g, hg, by rw [hid]; exact hfile⟩

/-- No two nodes have one id. -/
def DistinctIds (d : Document) : Prop := d.nodes.Pairwise fun m n => m.id ≠ n.id

/-- Without repeated ids an entry with one file is taken for it. -/
theorem takenFor_of_unique (hids : d.DistinctIds) (hf : f ∈ d.nodes)
    (hnamed : f.isFileNamed entry = true)
    (hunique : ∀ g ∈ d.nodes, g.isFileNamed entry = true → g = f) : d.TakenFor entry f := by
  obtain ⟨before, after, hd⟩ := List.append_of_mem hf
  rw [DistinctIds, hd, List.pairwise_append] at hids
  have hbefore : ∀ m ∈ before, m.id ≠ f.id := fun m hm =>
    hids.2.2 m hm f (List.mem_cons_self ..)
  refine ⟨hnamed, before, after, hd, hbefore, fun g hg _ => Bool.eq_false_iff.2 fun hgnamed => ?_⟩
  have hgf : g = f := hunique g (hd ▸ List.mem_append_left _ hg) hgnamed
  exact hbefore g hg (congrArg Node.id hgf)

theorem testsAgree_of_unique (hids : d.DistinctIds)
    (hunique : ∀ e ∈ entries, ∀ f ∈ d.nodes, ∀ g ∈ d.nodes,
      f.isFileNamed e = true → g.isFileNamed e = true → g = f) : d.TestsAgree entries := by
  have htaken : ∀ e ∈ entries, ∀ f ∈ d.nodes, f.isFileNamed e = true → d.TakenFor e f :=
    fun e he f hf hnamed => takenFor_of_unique hids hf hnamed fun g hg hgnamed =>
      hunique e he f hf g hg hnamed hgnamed
  refine testsAgree_iff.2 fun hfiles => ⟨fun e he => ?_, fun n _ e he f hf hnamed _ => ?_⟩
  · obtain ⟨f, hf, hnamed⟩ := List.any_eq_true.1 (hfiles e he)
    exact ⟨f, htaken e he f hf hnamed⟩
  · exact ⟨e, he, f, htaken e he f hf hnamed, rfl⟩

/-- Entries are accepted if each is taken for a file, and just the nodes from these files are in
scope. The tests of the document agree with that as long as the entries cover its files. -/
theorem restrict_scope (d : Document) (entries : List String) :
    ((∃ r, (Resolver.ofDocument d).restrict entries = .ok r) ↔
        ∀ e ∈ entries, ∃ f, d.TakenFor e f) ∧
      (∀ r, (Resolver.ofDocument d).restrict entries = .ok r → entries ≠ [] → ∀ n,
        (r.inScope n = true ↔ ∃ e ∈ entries, ∃ f, d.TakenFor e f ∧ n.file? = some f.id)) ∧
      (d.TestsAgree entries ↔ ((∀ e ∈ entries, d.hasFile e = true) → d.Covers entries)) :=
  ⟨restrict_isOk_iff, fun _ hr hne _ => inScope_iff hr hne, testsAgree_iff⟩

end Document

def twinClass : Node :=
  ⟨"c1", .record .ofClass ⟨"Oven", none, some "f2", none, [], [], false⟩⟩

/-- Two files of one name, the class coming from the second. -/
def twinDocument : Document where
  nodes := [⟨"f1", .file "oven.h"⟩, ⟨"f2", .file "oven.h"⟩, twinClass]

/-- Wanted by its id, the second file has the class in scope. -/
theorem restrict_scope_twin :
    ∃ r, (Resolver.ofDocument twinDocument).restrict ["f2"] = .ok r ∧ r.inScope twinClass = true ∧
      ∃ e ∈ ["f2"], ∃ f, twinDocument.TakenFor e f ∧ twinClass.file? = some f.id :=
  ⟨_, rfl, rfl,
    ((Document.restrict_scope twinDocument ["f2"]).2.1 _ rfl (by simp) twinClass).1 rfl⟩

/-- The id of one file repeated for another. -/
def repeatedDocument : Document where
  nodes := [⟨"f1", .file "toaster.h"⟩, ⟨"f1", .file "oven.h"⟩]

/-- A class from an allowed file may be out of scope, and an entry that the document has a file for
may be refused. -/
theorem tests_disagree :
    (¬ twinDocument.TestsAgree ["oven.h"] ∧
        describe twinDocument "Oven" ["oven.h"] =
          .error (.failed (.ambiguousOrigin "Oven" 0))) ∧
      ¬ repeatedDocument.TestsAgree ["oven.h"] := by
  refine ⟨⟨fun h => ?_, rfl⟩, fun h => ?_⟩
  · have hfile : ∃ e ∈ ["oven.h"], ∃ f ∈ twinDocument.nodes, f.isFileNamed e = true ∧
        twinClass.file? = some f.id :=
      ⟨"oven.h", by simp, ⟨"f2", .file "oven.h"⟩, by simp [twinDocument], rfl, rfl⟩
    have hin := (h.scope _ rfl (by simp) twinClass (by simp [twinDocument])).2 hfile
    cases hin
  · obtain ⟨r, hr⟩ := h.accepted.2 (List.forall_mem_singleton.2 rfl)
    cases hr

end Bindery.Ast
