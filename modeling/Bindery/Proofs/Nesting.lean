import Bindery.Description.Interchange
import Bindery.Proofs.ClassifyRules
import Bindery.Proofs.DescribedTypes
import Bindery.Proofs.LocatedRecords
import Bindery.Proofs.WrittenText

/-!
# How deep descriptions go

Every node on a chain costs the term at most one container: a template opens two, but the member
that shows its argument is a node too, and one that opens none. So a type found by the classifier is
no deeper than its chains are long, and a described class no deeper than that and the lists and
records around its types.
-/

namespace Bindery

namespace Json

mutual

/-- The largest number of containers that are open at a time. -/
def depth : Json → Nat
  | .array items => depthItems items + 1
  | .object members => depthMembers members + 1
  | _ => 0

def depthItems : List Json → Nat
  | [] => 0
  | v :: rest => max (depth v) (depthItems rest)

def depthMembers : List (String × Json) → Nat
  | [] => 0
  | (_, v) :: rest => max (depth v) (depthMembers rest)

end

theorem depthItems_le {n : Nat} {items : List Json} (h : ∀ v ∈ items, depth v ≤ n) :
    depthItems items ≤ n := by
  induction items with
  | nil => exact Nat.zero_le n
  | cons v rest ih =>
    rw [List.forall_mem_cons] at h
    exact Nat.max_le.2 ⟨h.1, ih h.2⟩

theorem depthMembers_le {n : Nat} {members : List (String × Json)}
    (h : ∀ e ∈ members, depth e.2 ≤ n) : depthMembers members ≤ n := by
  induction members with
  | nil => exact Nat.zero_le n
  | cons e rest ih =>
    rw [List.forall_mem_cons] at h
    exact Nat.max_le.2 ⟨h.1, ih h.2⟩

theorem Plain.depth_le {n : Nat} {v : Json} (h : Plain n v) : v.depth ≤ n := by
  induction h with
  | null | bool | string => exact Nat.zero_le _
  | array _ ih =>
    rw [depth]
    exact Nat.succ_le_succ (depthItems_le ih)
  | object _ ih =>
    rw [depth]
    exact Nat.succ_le_succ (depthMembers_le ih)

end Json

open Json (Plain)

namespace TypeTerm
variable {n : Nat}

theorem toJsonAll_eq_map (l : List TypeTerm) : toJsonAll l = l.map toJson := by
  induction l with
  | nil => rfl
  | cons t rest ih => rw [toJsonAll, ih, List.map_cons]

theorem plain_atomic (name : String) : Plain n (toJson (.atomic name)) := by
  rw [toJson]
  exact .string name

theorem plain_refined {base : TypeTerm} (kind : Refinement) (h : Plain n base.toJson) :
    Plain (n + 1) (toJson (.refined kind base)) := by
  rw [toJson]
  refine .object ?_
  simp only [List.forall_mem_cons, List.not_mem_nil, false_imp_iff, implies_true, and_true]
  exact ⟨.string _, h⟩

theorem plain_template {args : List TypeTerm} (name : String)
    (h : ∀ t ∈ args, Plain n t.toJson) : Plain (n + 2) (toJson (.template name args)) := by
  rw [toJson, toJsonAll_eq_map]
  refine .object ?_
  simp only [List.forall_mem_cons, List.not_mem_nil, false_imp_iff, implies_true, and_true]
  exact ⟨.string name, .array (List.forall_mem_map.2 h)⟩

end TypeTerm

/-! ### Types that were found -/

namespace Catalog

theorem roles?_ne_nil {template : String} {roles : List Role} (h : roles? template = some roles) :
    roles ≠ [] := by
  unfold roles? at h
  split at h <;> cases h <;> simp

theorem isInstantiation_memberName (role : Role) : isInstantiation role.memberName = false := by
  cases role <;> decide

end Catalog

namespace Ast

namespace Resolver
variable {r : Resolver} {room : Nat} {id : NodeId} {n : Node} {t : TypeTerm}

theorem HasKind.eq {kind : NodeKind} (h : r.HasKind id kind) (hn : r.resolve id = .ok n) :
    n.kind = kind := by
  obtain ⟨m, hm, hkind⟩ := h
  rw [hn] at hm
  cases hm
  exact hkind

theorem Classifies.room_pos (h : r.Classifies room id t) : 0 < room := by
  cases h <;> exact Nat.succ_pos _

/-- Two bounds are carried along the chain, one for a node that has a role's name: such a node is
no instantiation and derives from nothing, so whatever it opens comes from further on. -/
theorem Classifies.plain (h : r.Classifies room id t) : Plain room t.toJson ∧
    ∀ n role, r.resolve id = .ok n → n.name? = some (Catalog.Role.memberName role) →
      Plain (room - 1) t.toJson := by
  induction h with
  | fundamental | string | enumeration | record | stringRecord | unlisted =>
    exact ⟨TypeTerm.plain_atomic _, fun _ _ _ _ => TypeTerm.plain_atomic _⟩
  | @derived room id type form base hkind _ ih =>
    refine ⟨?_, fun n role hn hname => ?_⟩
    · cases form with
      | pointer | array | reference => exact TypeTerm.plain_refined _ ih.1
      | qualified => exact ih.1.mono (Nat.le_succ room)
    · rw [Node.name?, hkind.eq hn] at hname
      cases hname
  | @synonym room id a t _ _ _ ih => exact ⟨ih.1.mono (Nat.le_succ room), fun _ _ _ _ => ih.1⟩
  | @template room id tag c members roles arg hkind hinst _ hroles hfound hargs ih =>
    have hmember : ∀ role ∈ roles, ∃ m, roleMember? members role = some m ∧
        r.Classifies room m.id (arg role) ∧ Plain (room - 1) (arg role).toJson := by
      intro role hrole
      obtain ⟨m, hm⟩ := Option.isSome_iff_exists.1 (hfound role hrole)
      have hself := resolve_of_mem_members hinst.listed (List.mem_of_find?_eq_some hm)
      have hname : m.name? = some role.memberName := by simpa using List.find?_some hm
      exact ⟨m, hm, hargs role hrole m hm, (ih role hrole m hm).2 m role hself hname⟩
    refine ⟨?_, fun n role hn hname => ?_⟩
    · obtain ⟨role, hrole⟩ := List.exists_mem_of_ne_nil _ (Catalog.roles?_ne_nil hroles)
      obtain ⟨m, -, hm, -⟩ := hmember role hrole
      have hpos := hm.room_pos
      have hroom : room + 1 = room - 1 + 2 := by omega
      rw [hroom]
      refine TypeTerm.plain_template _ (List.forall_mem_map.2 fun role hrole => ?_)
      obtain ⟨-, -, -, hplain⟩ := hmember role hrole
      exact hplain
    · rw [Node.name?, hkind.eq hn, Option.some.injEq] at hname
      have hspelled := hinst.spelled
      rw [hname, Catalog.isInstantiation_memberName] at hspelled
      cases hspelled

theorem Found.plain (h : r.Found t) : Plain (maxChain - 1) t.toJson := by
  obtain ⟨id, depth, hdepth, ht⟩ := h
  exact (classifyWithin_eq_some_iff.1 ht).plain.1.mono (Nat.sub_le_sub_left hdepth maxChain)

end Resolver

end Ast

/-! ### Descriptions -/

section
variable {n : Nat}

theorem Json.plain_field? {α : Type} {key : String} {f : α → Json} {o : Option α}
    (h : ∀ a, o = some a → Plain n (f a)) : ∀ e ∈ Json.field? key f o, Plain n e.2 := by
  cases o with
  | none => exact nofun
  | some a => exact List.forall_mem_singleton.2 (h a rfl)

theorem Json.plain_optional {α : Type} {f : α → Json} {o : Option α}
    (h : ∀ a, o = some a → Plain n (f a)) : Plain n (Json.optional f o) := by
  cases o with
  | none => exact .null
  | some a => exact h a rfl

theorem Argument.plain_toJson {a : Argument} (h : Plain n a.type.toJson) :
    Plain (n + 1) a.toJson := by
  refine .object (List.forall_mem_append.2 ⟨?_, ?_⟩)
  · exact List.forall_mem_cons.2 ⟨.string _, List.forall_mem_singleton.2 h⟩
  · cases a.default? with
    | none => exact nofun
    | some text => exact List.forall_mem_singleton.2 (.string text)

theorem MethodEntry.plain_toJson {e : MethodEntry} (hargs : ∀ a ∈ e.key.args, Plain n a.type.toJson)
    (hreturns : ∀ t, e.returns = some t → Plain n t.toJson) : Plain (n + 3) e.toJson := by
  have hlist : Plain (n + 2) (.array (e.key.args.map Argument.toJson)) :=
    .array (List.forall_mem_map.2 fun a ha => Argument.plain_toJson (hargs a ha))
  have hterm : Plain n (Json.optional TypeTerm.toJson e.returns) := Json.plain_optional hreturns
  refine .object ?_
  simp only [List.forall_mem_cons, List.not_mem_nil, false_imp_iff, implies_true, and_true]
  exact ⟨.string _, hlist, hterm.mono (Nat.le_add_right n 2)⟩

/-- Around the types of a description without docstrings there are at most five containers. -/
theorem Description.plain_toJson {d : Description} (h : ∀ t, d.Mentions t → Plain n t.toJson)
    (hdocstrings : d.docstrings? = none) (hextra : d.extra? = none) : Plain (n + 5) d.toJson := by
  have hparents : ∀ l, d.parents? = some l → Plain (n + 4) (.array (l.map TypeTerm.toJson)) :=
    fun l hl => .array (List.forall_mem_map.2 fun t ht => (h t (.parent hl ht)).mono (by omega))
  have hattrs : Plain (n + 4) (d.attrs.toJson TypeTerm.toJson) :=
    .object (List.forall_mem_map.2 fun e he => (h e.2 (.attr he)).mono (by omega))
  have hmethods : Plain (n + 4) (Methods.toJson d.methods) := by
    refine .array (List.forall_mem_map.2 fun e he => MethodEntry.plain_toJson ?_ ?_)
    · exact fun a ha => h a.type (.arg he ha)
    · intro t ht
      have hentry : e = (e.1, some t) := Prod.ext rfl ht
      rw [hentry] at he
      exact h t (.returns he)
  rw [Description.toJson, hdocstrings, hextra]
  refine .object ?_
  simp only [List.forall_mem_append]
  refine ⟨⟨⟨⟨⟨?_, ?_⟩, ?_⟩, ?_⟩, nofun⟩, nofun⟩
  · exact Json.plain_field? fun name _ => .string name
  · exact Json.plain_field? hparents
  · exact Json.plain_field? fun scope _ => .string scope
  · exact List.forall_mem_cons.2 ⟨hattrs, List.forall_mem_singleton.2 hmethods⟩

end

namespace Ast

theorem plain_describe {doc : Document} {name : String} {onlyIn : List String} {d : Description}
    (h : describe doc name onlyIn = .ok d) : Plain (Resolver.maxChain + 4) d.toJson := by
  obtain ⟨r, -, hfound⟩ := describe_found h
  have hplain : ∀ t, d.Mentions t → Plain (Resolver.maxChain - 1) t.toJson := by
    intro t ht
    rcases hfound t ht with rfl | ht
    · exact TypeTerm.plain_atomic _
    · exact ht.plain
  obtain ⟨-, hdocstrings, hextra⟩ := describe_bare h
  exact Description.plain_toJson hplain hdocstrings hextra

end Ast

end Bindery
