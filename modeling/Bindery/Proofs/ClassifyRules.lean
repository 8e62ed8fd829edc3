import Bindery.Ast.Classify
import Bindery.Proofs.Outcome

/-!
# Rules of classification

`Resolver.Classifies` says by rules, one for each way, which term stands for a node, and how long
the chains of nodes may be that are followed. `classifyWithin_eq_some_iff` is the agreement of the
function with the rules.
-/

namespace Bindery.Ast.Resolver
open Catalog (Role)

/-- The member that a role's argument is found through. -/
def roleMember? (members : List Node) (role : Role) : Option Node :=
  members.find? (·.name? == some role.memberName)

def HasKind (r : Resolver) (id : NodeId) (kind : NodeKind) : Prop :=
  ∃ n, r.resolve id = .ok n ∧ n.kind = kind

theorem HasKind.mem {r : Resolver} {id : NodeId} {kind : NodeKind} (h : r.HasKind id kind) :
    ∃ n ∈ r.nodes, n.kind = kind := by
  obtain ⟨n, hn, hkind⟩ := h
  exact ⟨n, (of_resolve_eq_ok hn).1, hkind⟩

/-- A record that is spelled like an instantiation and has a constructor of its template. -/
structure Instantiates (r : Resolver) (c : Record) (members : List Node) : Prop where
  spelled : Catalog.isInstantiation c.name = true
  listed : r.members c = .ok members
  constructed : members.any (isConstructorNamed (Catalog.templateName c.name)) = true

/-- The term stands for the node, on chains of at most so many nodes. -/
inductive Classifies (r : Resolver) : Nat → NodeId → TypeTerm → Prop where
  | fundamental {room : Nat} {id : NodeId} {name t : String} :
      r.HasKind id (.fundamental name) → Catalog.primitive? name = some t →
        Classifies r (room + 1) id (.atomic t)
  | derived {room : Nat} {id type : NodeId} {form : DerivedForm} {base : TypeTerm} :
      r.HasKind id (.derived form type) → Classifies r room type base →
        Classifies r (room + 1) id (form.apply base)
  | string {room : Nat} {id : NodeId} {a : Typedef} :
      r.HasKind id (.typedef a) → a.name = "string" → Classifies r (room + 1) id .str
  | synonym {room : Nat} {id : NodeId} {a : Typedef} {t : TypeTerm} :
      r.HasKind id (.typedef a) → a.name ≠ "string" → Classifies r room a.type t →
        Classifies r (room + 1) id t
  | enumeration {room : Nat} {id : NodeId} {e : Enumeration} :
      r.HasKind id (.enumeration e) → Classifies r (room + 1) id (.atomic e.name)
  | record {room : Nat} {id : NodeId} {tag : RecordTag} {c : Record} :
      r.HasKind id (.record tag c) → Catalog.isInstantiation c.name = false →
        Classifies r (room + 1) id (.atomic c.name)
  | stringRecord {room : Nat} {id : NodeId} {tag : RecordTag} {c : Record} {members : List Node} :
      r.HasKind id (.record tag c) → r.Instantiates c members →
        Catalog.templateName c.name = Catalog.stringTemplate → Classifies r (room + 1) id .str
  | unlisted {room : Nat} {id : NodeId} {tag : RecordTag} {c : Record} {members : List Node} :
      r.HasKind id (.record tag c) → r.Instantiates c members →
        Catalog.templateName c.name ≠ Catalog.stringTemplate →
        Catalog.roles? (Catalog.templateName c.name) = none →
          Classifies r (room + 1) id (.atomic c.name)
  | template {room : Nat} {id : NodeId} {tag : RecordTag} {c : Record} {members : List Node}
      {roles : List Role} {arg : Role → TypeTerm} :
      r.HasKind id (.record tag c) → r.Instantiates c members →
        Catalog.templateName c.name ≠ Catalog.stringTemplate →
        Catalog.roles? (Catalog.templateName c.name) = some roles →
        (∀ role ∈ roles, (roleMember? members role).isSome = true) →
        (∀ role ∈ roles, ∀ m, roleMember? members role = some m →
          Classifies r room m.id (arg role)) →
          Classifies r (room + 1) id (.template (Catalog.templateName c.name) (roles.map arg))

section
variable {className : String} {classify : NodeId → Except Error (Option TypeTerm)}
  {members : List Node} {roles : List Role}

theorem roleArgument_eq_ok_iff {role : Role} {t : TypeTerm} :
    roleArgument className classify members role = .ok t ↔
      ∃ m, roleMember? members role = some m ∧ classify m.id = .ok (some t) := by
  unfold roleArgument roleMember?
  cases members.find? (·.name? == some role.memberName) with
  | none => simp
  | some m =>
    simp only [Outcome.bind_eq_ok, Option.some.injEq, exists_eq_left']
    constructor
    · rintro ⟨t?, ht, h⟩
      cases t? with
      | none => cases h
      | some t' => cases h; exact ht
    · intro h
      exact ⟨some t, h, rfl⟩

theorem roleArguments_eq_ok_iff {args : List TypeTerm} :
    roleArguments className classify members roles = .ok args ↔
      ∃ arg : Role → TypeTerm, args = roles.map arg ∧
        ∀ role ∈ roles, roleArgument className classify members role = .ok (arg role) := by
  constructor
  · intro h
    -- a role that comes twice has the same argument both times
    refine ⟨fun role => (roleArgument className classify members role).toOption.getD default, ?_⟩
    induction roles generalizing args with
    | nil => cases h; exact ⟨rfl, nofun⟩
    | cons role rest ih =>
      obtain ⟨t, ht, h⟩ := Outcome.bind_eq_ok.1 h
      obtain ⟨ts, hts, h⟩ := Outcome.bind_eq_ok.1 h
      cases h
      obtain ⟨hrest, hargs⟩ := ih hts
      have harg : (roleArgument className classify members role).toOption.getD default = t := by
        rw [ht]
        rfl
      refine ⟨?_, List.forall_mem_cons.2 ⟨?_, hargs⟩⟩
      · rw [List.map_cons, harg, ← hrest]
      · exact ht.trans (congrArg Except.ok harg.symm)
  · rintro ⟨arg, rfl, h⟩
    induction roles with
    | nil => rfl
    | cons role rest ih =>
      obtain ⟨hrole, hrest⟩ := List.forall_mem_cons.1 h
      exact Outcome.bind_eq_ok.2 ⟨_, hrole, Outcome.bind_eq_ok.2 ⟨_, ih hrest, rfl⟩⟩

end

section
variable {r : Resolver} {room : Nat} {id : NodeId}

/-- An instantiation stands for the string type, for its own spelling, or for its template with the
arguments that its members show. -/
theorem instantiation_eq_ok_iff {c : Record} {classify : NodeId → Except Error (Option TypeTerm)}
    (hspelled : Catalog.isInstantiation c.name = true) {t : TypeTerm} :
    r.instantiation c classify = .ok t ↔ ∃ members, r.Instantiates c members ∧
      (Catalog.templateName c.name = Catalog.stringTemplate ∧ t = .str ∨
        Catalog.templateName c.name ≠ Catalog.stringTemplate ∧
          (Catalog.roles? (Catalog.templateName c.name) = none ∧ t = .atomic c.name ∨
            ∃ roles arg, Catalog.roles? (Catalog.templateName c.name) = some roles ∧
              (∀ role ∈ roles, ∃ m, roleMember? members role = some m ∧
                classify m.id = .ok (some (arg role))) ∧
              t = .template (Catalog.templateName c.name) (roles.map arg))) := by
  unfold instantiation
  rw [Outcome.bind_eq_ok]
  constructor
  · rintro ⟨members, hmembers, h⟩
    simp only at h
    split at h
    next => cases h
    next hconstructed =>
      refine ⟨members, ⟨hspelled, hmembers, by simpa using hconstructed⟩, ?_⟩
      split at h
      next hstring => cases h; exact .inl ⟨hstring, rfl⟩
      next hstring =>
        refine .inr ⟨hstring, ?_⟩
        split at h
        next hroles => cases h; exact .inl ⟨hroles, rfl⟩
        next roles hroles =>
          obtain ⟨args, hargs, h⟩ := Outcome.bind_eq_ok.1 h
          cases h
          obtain ⟨arg, rfl, harg⟩ := roleArguments_eq_ok_iff.1 hargs
          exact .inr ⟨roles, arg, hroles,
            fun role hrole => roleArgument_eq_ok_iff.1 (harg role hrole), rfl⟩
  · rintro ⟨members, ⟨-, hmembers, hconstructed⟩, h⟩
    refine ⟨members, hmembers, ?_⟩
    simp only [hconstructed, Bool.not_true, Bool.false_eq_true, if_false]
    rcases h with ⟨hstring, rfl⟩ | ⟨hstring, ⟨hroles, rfl⟩ | ⟨roles, arg, hroles, harg, rfl⟩⟩
    · rw [if_pos hstring]; rfl
    · rw [if_neg hstring, hroles]; rfl
    · rw [if_neg hstring, hroles]
      exact Outcome.bind_eq_ok.2 ⟨_, roleArguments_eq_ok_iff.2
        ⟨arg, rfl, fun role hrole => roleArgument_eq_ok_iff.2 (harg role hrole)⟩, rfl⟩

theorem Classifies.of_instantiation {tag : RecordTag} {c : Record} {t : TypeTerm}
    (hkind : r.HasKind id (.record tag c)) (hspelled : Catalog.isInstantiation c.name = true)
    (ht : r.instantiation c (r.classifyWithin room) = .ok t)
    (hshorter : ∀ {id t}, r.classifyWithin room id = .ok (some t) → r.Classifies room id t) :
    r.Classifies (room + 1) id t := by
  obtain ⟨members, hinst, h⟩ := (instantiation_eq_ok_iff hspelled).1 ht
  obtain ⟨hstring, rfl⟩ | ⟨hstring, ⟨hroles, rfl⟩ | ⟨roles, arg, hroles, harg, rfl⟩⟩ := h
  · exact .stringRecord hkind hinst hstring
  · exact .unlisted hkind hinst hstring hroles
  · refine .template hkind hinst hstring hroles (fun role hrole => ?_) fun role hrole m hm => ?_
    · obtain ⟨m, hm, -⟩ := harg role hrole
      rw [hm, Option.isSome_some]
    · obtain ⟨m', hm', hclassify⟩ := harg role hrole
      rw [hm'] at hm
      cases hm
      exact hshorter hclassify

theorem Classifies.of_classifyWithin {t : TypeTerm} (h : r.classifyWithin room id = .ok (some t)) :
    r.Classifies room id t := by
  induction room generalizing id t with
  | zero => cases h
  | succ room ih =>
    rw [classifyWithin_succ] at h
    obtain ⟨n, hn, h⟩ := Outcome.bind_eq_ok.1 h
    have hkind : r.HasKind id n.kind := ⟨n, hn, rfl⟩
    split at h
    next name hname =>
      rw [hname] at hkind
      split at h
      next t' ht => cases h; exact .fundamental hkind ht
      next => cases h
    next form type hderived =>
      rw [hderived] at hkind
      obtain ⟨base?, hbase, h⟩ := Outcome.bind_eq_ok.1 h
      cases base? with
      | none => cases h
      | some base => cases h; exact .derived hkind (ih hbase)
    next a hsynonym =>
      rw [hsynonym] at hkind
      split at h
      next hstring => cases h; exact .string hkind hstring
      next hstring => exact .synonym hkind hstring (ih h)
    next tag c hrecord =>
      rw [hrecord] at hkind
      split at h
      next hspelled =>
        obtain ⟨t', ht, h⟩ := Outcome.bind_eq_ok.1 h
        cases h
        exact .of_instantiation hkind hspelled ht ih
      next hspelled => cases h; exact .record hkind (by simpa using hspelled)
    next e henum =>
      rw [henum] at hkind
      cases h
      exact .enumeration hkind
    next => cases h

theorem Classifies.classifyWithin_eq {t : TypeTerm} (h : r.Classifies room id t) :
    r.classifyWithin room id = .ok (some t) := by
  induction h with
  | fundamental hkind ht =>
    obtain ⟨n, hn, hkind⟩ := hkind
    simp [classifyWithin_succ, hn, hkind, ht]
  | derived hkind _ ih =>
    obtain ⟨n, hn, hkind⟩ := hkind
    simp [classifyWithin_succ, hn, hkind, ih]
  | string hkind hstring =>
    obtain ⟨n, hn, hkind⟩ := hkind
    simp [classifyWithin_succ, hn, hkind, hstring]
  | synonym hkind hstring _ ih =>
    obtain ⟨n, hn, hkind⟩ := hkind
    simp [classifyWithin_succ, hn, hkind, hstring, ih]
  | enumeration hkind =>
    obtain ⟨n, hn, hkind⟩ := hkind
    simp [classifyWithin_succ, hn, hkind]
  | record hkind hspelled =>
    obtain ⟨n, hn, hkind⟩ := hkind
    simp [classifyWithin_succ, hn, hkind, hspelled]
  | @stringRecord room id tag c members hkind hinst hstring =>
    obtain ⟨n, hn, hkind⟩ := hkind
    have ht : r.instantiation c (r.classifyWithin room) = .ok .str :=
      (instantiation_eq_ok_iff hinst.spelled).2 ⟨members, hinst, .inl ⟨hstring, rfl⟩⟩
    simp [classifyWithin_succ, hn, hkind, hinst.spelled, ht]
  | @unlisted room id tag c members hkind hinst hstring hroles =>
    obtain ⟨n, hn, hkind⟩ := hkind
    have ht : r.instantiation c (r.classifyWithin room) = .ok (.atomic c.name) :=
      (instantiation_eq_ok_iff hinst.spelled).2
        ⟨members, hinst, .inr ⟨hstring, .inl ⟨hroles, rfl⟩⟩⟩
    simp [classifyWithin_succ, hn, hkind, hinst.spelled, ht]
  | @template room id tag c members roles arg hkind hinst hstring hroles hfound _ ih =>
    obtain ⟨n, hn, hkind⟩ := hkind
    have harg : ∀ role ∈ roles, ∃ m, roleMember? members role = some m ∧
        r.classifyWithin room m.id = .ok (some (arg role)) := by
      intro role hrole
      obtain ⟨m, hm⟩ := Option.isSome_iff_exists.1 (hfound role hrole)
      exact ⟨m, hm, ih role hrole m hm⟩
    have ht : r.instantiation c (r.classifyWithin room) =
        .ok (.template (Catalog.templateName c.name) (roles.map arg)) :=
      (instantiation_eq_ok_iff hinst.spelled).2
        ⟨members, hinst, .inr ⟨hstring, .inr ⟨roles, arg, hroles, harg, rfl⟩⟩⟩
    simp [classifyWithin_succ, hn, hkind, hinst.spelled, ht]

/-- The function answers with what the rules allow. -/
theorem classifyWithin_eq_some_iff {t : TypeTerm} :
    r.classifyWithin room id = .ok (some t) ↔ r.Classifies room id t :=
  ⟨.of_classifyWithin, Classifies.classifyWithin_eq⟩

end

end Bindery.Ast.Resolver
