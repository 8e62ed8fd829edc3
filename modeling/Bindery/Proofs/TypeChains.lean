import Mathlib.Data.List.Chain
import Bindery.Proofs.ClassifyRules

/-!
# Chains of types

`Resolver.Derives` has the rules of `Resolver.Classifies` without their bound. What it says of a node
hangs on the nodes that are visited from there (`Resolver.Visits`), and on a cycle of visits it says
nothing. The bound only takes away the terms of nodes from which some chain of visits is longer
(`classifies_iff`), so a term is found at a depth if and only if it can be derived at all and no chain
is longer than 65 less the depth (`classify_eq_some_iff`).
-/

namespace Bindery.Ast.Resolver
open Catalog (Role)

/-- The term stands for the node, whatever the length of the chains of nodes that are followed. -/
inductive Derives (r : Resolver) : NodeId → TypeTerm → Prop where
  | fundamental {id : NodeId} {name t : String} :
      r.HasKind id (.fundamental name) → Catalog.primitive? name = some t →
        Derives r id (.atomic t)
  | derived {id type : NodeId} {form : DerivedForm} {base : TypeTerm} :
      r.HasKind id (.derived form type) → Derives r type base → Derives r id (form.apply base)
  | string {id : NodeId} {a : Typedef} :
      r.HasKind id (.typedef a) → a.name = "string" → Derives r id .str
  | synonym {id : NodeId} {a : Typedef} {t : TypeTerm} :
      r.HasKind id (.typedef a) → a.name ≠ "string" → Derives r a.type t → Derives r id t
  | enumeration {id : NodeId} {e : Enumeration} :
      r.HasKind id (.enumeration e) → Derives r id (.atomic e.name)
  | record {id : NodeId} {tag : RecordTag} {c : Record} :
      r.HasKind id (.record tag c) → Catalog.isInstantiation c.name = false →
        Derives r id (.atomic c.name)
  | stringRecord {id : NodeId} {tag : RecordTag} {c : Record} {members : List Node} :
      r.HasKind id (.record tag c) → r.Instantiates c members →
        Catalog.templateName c.name = Catalog.stringTemplate → Derives r id .str
  | unlisted {id : NodeId} {tag : RecordTag} {c : Record} {members : List Node} :
      r.HasKind id (.record tag c) → r.Instantiates c members →
        Catalog.templateName c.name ≠ Catalog.stringTemplate →
        Catalog.roles? (Catalog.templateName c.name) = none → Derives r id (.atomic c.name)
  | template {id : NodeId} {tag : RecordTag} {c : Record} {members : List Node}
      {roles : List Role} {arg : Role → TypeTerm} :
      r.HasKind id (.record tag c) → r.Instantiates c members →
        Catalog.templateName c.name ≠ Catalog.stringTemplate →
        Catalog.roles? (Catalog.templateName c.name) = some roles →
        (∀ role ∈ roles, (roleMember? members role).isSome = true) →
        (∀ role ∈ roles, ∀ m, roleMember? members role = some m → Derives r m.id (arg role)) →
          Derives r id (.template (Catalog.templateName c.name) (roles.map arg))

/-- On the way to the term of the first node the second is visited. -/
inductive Visits (r : Resolver) : NodeId → NodeId → Prop where
  | derived {id type : NodeId} {form : DerivedForm} :
      r.HasKind id (.derived form type) → Visits r id type
  | synonym {id : NodeId} {a : Typedef} :
      r.HasKind id (.typedef a) → a.name ≠ "string" → Visits r id a.type
  | argument {id : NodeId} {tag : RecordTag} {c : Record} {members : List Node}
      {roles : List Role} {role : Role} {m : Node} :
      r.HasKind id (.record tag c) → r.Instantiates c members →
        Catalog.templateName c.name ≠ Catalog.stringTemplate →
        Catalog.roles? (Catalog.templateName c.name) = some roles → role ∈ roles →
        roleMember? members role = some m → Visits r id m.id

/-- No chain of visits from the node has more nodes than this. -/
def ChainsWithin (r : Resolver) (room : Nat) (id : NodeId) : Prop :=
  ∀ chain : List NodeId, (id :: chain).IsChain r.Visits → (id :: chain).length ≤ room

variable {r : Resolver} {room : Nat} {id next : NodeId} {t : TypeTerm}

theorem HasKind.unique {kind kind' : NodeKind} (h : r.HasKind id kind) (h' : r.HasKind id kind') :
    kind = kind' := by
  obtain ⟨n, hn, rfl⟩ := h
  obtain ⟨n', hn', rfl⟩ := h'
  rw [hn] at hn'
  cases hn'
  rfl

/-- What a node of each kind leads on to. -/
theorem Visits.of_kind {kind : NodeKind} (h : r.Visits id next) (hkind : r.HasKind id kind) :
    match kind with
    | .derived _ type => next = type
    | .typedef a => a.name ≠ "string" ∧ next = a.type
    | .record _ c => ∃ members roles role m, r.Instantiates c members ∧
        Catalog.templateName c.name ≠ Catalog.stringTemplate ∧
        Catalog.roles? (Catalog.templateName c.name) = some roles ∧ role ∈ roles ∧
        roleMember? members role = some m ∧ next = m.id
    | _ => False := by
  cases h with
  | derived h =>
    cases hkind.unique h
    rfl
  | synonym h hname =>
    cases hkind.unique h
    exact ⟨hname, rfl⟩
  | argument h hinst hstring hroles hrole hm =>
    cases hkind.unique h
    exact ⟨_, _, _, _, hinst, hstring, hroles, hrole, hm, rfl⟩

/-! ### Bounds on chains -/

theorem not_chainsWithin_zero : ¬ r.ChainsWithin 0 id := by
  intro h
  exact absurd (h [] (.singleton id)) (Nat.not_succ_le_zero _)

/-- A chain starts with a visit, and goes on within what is left. -/
theorem chainsWithin_succ_iff :
    r.ChainsWithin (room + 1) id ↔ ∀ next, r.Visits id next → r.ChainsWithin room next := by
  constructor
  · intro h next hvisit chain hchain
    have hlonger := h (next :: chain) (.cons_cons hvisit hchain)
    exact Nat.le_of_succ_le_succ hlonger
  · intro h chain hchain
    cases chain with
    | nil => exact Nat.succ_le_succ (Nat.zero_le room)
    | cons next rest =>
      obtain ⟨hvisit, hrest⟩ := List.isChain_cons_cons.1 hchain
      exact Nat.succ_le_succ (h next hvisit rest hrest)

theorem chainsWithin_of_not_visits (h : ∀ next, ¬ r.Visits id next) :
    r.ChainsWithin (room + 1) id :=
  chainsWithin_succ_iff.2 fun next hvisit => absurd hvisit (h next)

theorem ChainsWithin.mono {room' : Nat} (h : r.ChainsWithin room id) (hle : room ≤ room') :
    r.ChainsWithin room' id :=
  fun chain hchain => Nat.le_trans (h chain hchain) hle

/-- Visits that never end make chains of every length. -/
theorem not_chainsWithin_of_endless {path : Nat → NodeId}
    (h : ∀ n, r.Visits (path n) (path (n + 1))) (room n : Nat) : ¬ r.ChainsWithin room (path n) := by
  induction room generalizing n with
  | zero => exact not_chainsWithin_zero
  | succ room ih =>
    intro hwithin
    exact ih (n + 1) (chainsWithin_succ_iff.1 hwithin _ (h n))

/-! ### Rules with and without a bound -/

theorem Classifies.derives (h : r.Classifies room id t) : r.Derives id t := by
  induction h with
  | fundamental hkind ht => exact .fundamental hkind ht
  | derived hkind _ ih => exact .derived hkind ih
  | string hkind hname => exact .string hkind hname
  | synonym hkind hname _ ih => exact .synonym hkind hname ih
  | enumeration hkind => exact .enumeration hkind
  | record hkind hplain => exact .record hkind hplain
  | stringRecord hkind hinst hstring => exact .stringRecord hkind hinst hstring
  | unlisted hkind hinst hstring hroles => exact .unlisted hkind hinst hstring hroles
  | template hkind hinst hstring hroles hfound _ ih =>
    exact .template hkind hinst hstring hroles hfound ih

theorem Instantiates.unique {c : Record} {members members' : List Node}
    (h : r.Instantiates c members) (h' : r.Instantiates c members') : members = members' :=
  Except.ok.inj (h.listed.symm.trans h'.listed)

theorem Classifies.chainsWithin (h : r.Classifies room id t) : r.ChainsWithin room id := by
  induction h with
  | fundamental hkind =>
    exact chainsWithin_of_not_visits fun next hvisit => hvisit.of_kind hkind
  | enumeration hkind =>
    exact chainsWithin_of_not_visits fun next hvisit => hvisit.of_kind hkind
  | @derived room id type form base hkind _ ih =>
    refine chainsWithin_succ_iff.2 fun next hvisit => ?_
    have hnext : next = type := hvisit.of_kind hkind
    rwa [hnext]
  | string hkind hname =>
    refine chainsWithin_of_not_visits fun next hvisit => ?_
    obtain ⟨hother, -⟩ := hvisit.of_kind hkind
    exact hother hname
  | synonym hkind _ _ ih =>
    refine chainsWithin_succ_iff.2 fun next hvisit => ?_
    obtain ⟨-, rfl⟩ := hvisit.of_kind hkind
    exact ih
  | record hkind hplain =>
    -- a visit from a record would go to a role of its template, and it is spelled without one
    refine chainsWithin_of_not_visits fun next hvisit => ?_
    obtain ⟨members, roles, role, m, hinst, -⟩ := hvisit.of_kind hkind
    have hspelled := hinst.spelled
    rw [hplain] at hspelled
    cases hspelled
  | stringRecord hkind _ hstring =>
    refine chainsWithin_of_not_visits fun next hvisit => ?_
    obtain ⟨members, roles, role, m, -, hother, -⟩ := hvisit.of_kind hkind
    exact hother hstring
  | unlisted hkind _ _ hnone =>
    refine chainsWithin_of_not_visits fun next hvisit => ?_
    obtain ⟨members, roles, role, m, -, -, hroles, -⟩ := hvisit.of_kind hkind
    rw [hnone] at hroles
    cases hroles
  | template hkind hinst _ hroles _ _ ih =>
    refine chainsWithin_succ_iff.2 fun next hvisit => ?_
    obtain ⟨members, roles, role, m, hinst', -, hroles', hrole, hm, rfl⟩ := hvisit.of_kind hkind
    obtain rfl := hinst.unique hinst'
    obtain rfl := Option.some.inj (hroles.symm.trans hroles')
    exact ih role hrole m hm

/-- A bound on chains has room for the node itself, and the rest is for what it visits. -/
theorem ChainsWithin.exists_room (h : r.ChainsWithin room id) :
    ∃ room', room = room' + 1 ∧ ∀ next, r.Visits id next → r.ChainsWithin room' next := by
  cases room with
  | zero => exact absurd h not_chainsWithin_zero
  | succ room => exact ⟨room, rfl, chainsWithin_succ_iff.1 h⟩

theorem Derives.classifies (h : r.Derives id t) (hwithin : r.ChainsWithin room id) :
    r.Classifies room id t := by
  induction h generalizing room with
  | fundamental hkind ht =>
    obtain ⟨room, rfl, -⟩ := hwithin.exists_room
    exact .fundamental hkind ht
  | derived hkind _ ih =>
    obtain ⟨room, rfl, hvisited⟩ := hwithin.exists_room
    exact .derived hkind (ih (hvisited _ (.derived hkind)))
  | string hkind hname =>
    obtain ⟨room, rfl, -⟩ := hwithin.exists_room
    exact .string hkind hname
  | synonym hkind hname _ ih =>
    obtain ⟨room, rfl, hvisited⟩ := hwithin.exists_room
    exact .synonym hkind hname (ih (hvisited _ (.synonym hkind hname)))
  | enumeration hkind =>
    obtain ⟨room, rfl, -⟩ := hwithin.exists_room
    exact .enumeration hkind
  | record hkind hplain =>
    obtain ⟨room, rfl, -⟩ := hwithin.exists_room
    exact .record hkind hplain
  | stringRecord hkind hinst hstring =>
    obtain ⟨room, rfl, -⟩ := hwithin.exists_room
    exact .stringRecord hkind hinst hstring
  | unlisted hkind hinst hstring hroles =>
    obtain ⟨room, rfl, -⟩ := hwithin.exists_room
    exact .unlisted hkind hinst hstring hroles
  | template hkind hinst hstring hroles hfound _ ih =>
    obtain ⟨room, rfl, hvisited⟩ := hwithin.exists_room
    refine .template hkind hinst hstring hroles hfound fun role hrole m hm => ?_
    exact ih role hrole m hm (hvisited m.id (.argument hkind hinst hstring hroles hrole hm))

/-- The bound takes away what lies on longer chains, and nothing else. -/
theorem classifies_iff : r.Classifies room id t ↔ r.Derives id t ∧ r.ChainsWithin room id :=
  ⟨fun h => ⟨h.derives, h.chainsWithin⟩, fun h => h.1.classifies h.2⟩

/-! ### Depth -/

/-- One visit of a node that is met after `depth` others. What it has to know of nodes one deeper it
is told by `further`. -/
def visitStep (r : Resolver) (further : NodeId → Nat → Except Error (Option TypeTerm))
    (id : NodeId) (depth : Nat) : Except Error (Option TypeTerm) :=
  if 64 < depth then pure none
  else do
    let n ← r.resolve id
    match n.kind with
    | .fundamental name =>
      match Catalog.primitive? name with
      | some t => pure (some (.atomic t))
      | none => throw (.unknownPrimitive name)
    | .derived form type => return (← further type (depth + 1)).map form.apply
    | .typedef a => if a.name = "string" then pure (some .str) else further a.type (depth + 1)
    | .record _ c =>
      if Catalog.isInstantiation c.name then
        return some (← r.instantiation c (further · (depth + 1)))
      else pure (some (.atomic c.name))
    | .enumeration e => pure (some (.atomic e.name))
    | _ => pure none

theorem classify_visitStep (r : Resolver) (id : NodeId) (depth : Nat) :
    r.classify id depth = r.visitStep r.classify id depth := by
  rw [visitStep]
  split
  next hdeep =>
    have hroom : maxChain - depth = 0 := Nat.sub_eq_zero_of_le hdeep
    rw [classify, hroom]
    rfl
  next hdeep =>
    have hroom : maxChain - depth = (maxChain - (depth + 1)) + 1 := by
      have hmax : maxChain = 65 := rfl
      omega
    rw [classify, hroom, classifyWithin_succ]
    rfl

/-- The recursion ends whatever the nodes refer to: nothing else solves its equation. -/
theorem eq_classify_of_visitStep {f : NodeId → Nat → Except Error (Option TypeTerm)}
    (h : ∀ id depth, f id depth = r.visitStep f id depth) : f = r.classify := by
  -- the depth only grows, so the induction is on what is left of the bound
  have hdeeper : ∀ room depth id, 65 - depth = room → f id depth = r.classify id depth := by
    intro room
    induction room with
    | zero =>
      intro depth id hroom
      have hdeep : 64 < depth := by omega
      rw [h, classify_visitStep, visitStep, visitStep, if_pos hdeep, if_pos hdeep]
    | succ room ih =>
      intro depth id hroom
      have hfurther : ∀ next, f next (depth + 1) = r.classify next (depth + 1) :=
        fun next => ih (depth + 1) next (by omega)
      rw [h, classify_visitStep, visitStep, visitStep]
      simp only [hfurther]
  funext id depth
  exact hdeeper _ depth id rfl

theorem classify_eq_some_iff_derives {depth : Nat} :
    r.classify id depth = .ok (some t) ↔ r.Derives id t ∧ r.ChainsWithin (65 - depth) id :=
  classifyWithin_eq_some_iff.trans classifies_iff

/-- To classify is the one solution of the recursion that gives up below 64 visits. Its answer is a
term if and only if the rules derive this term without a bound and no chain of visits from the node
is longer than 65 less the depth. So the term is found at every smaller depth too, and none is found
where visits go on without end. -/
theorem classify_eq_some_iff (r : Resolver) :
    (∀ f, (∀ id depth, f id depth = r.visitStep f id depth) ↔ f = r.classify) ∧
      (∀ id depth t, r.classify id depth = .ok (some t) ↔
        r.Derives id t ∧ ∀ chain : List NodeId, (id :: chain).IsChain r.Visits →
          (id :: chain).length ≤ 65 - depth) ∧
      (∀ id depth depth' t, depth' ≤ depth → r.classify id depth = .ok (some t) →
        r.classify id depth' = .ok (some t)) ∧
      ∀ path : Nat → NodeId, (∀ n, r.Visits (path n) (path (n + 1))) →
        ∀ depth t, r.classify (path 0) depth ≠ .ok (some t) := by
  refine ⟨fun f => ⟨eq_classify_of_visitStep, ?_⟩, fun id depth t => classify_eq_some_iff_derives,
    fun id depth depth' t hle h => ?_, fun path hpath depth t h => ?_⟩
  · rintro rfl
    exact r.classify_visitStep
  · obtain ⟨hderives, hwithin⟩ := classify_eq_some_iff_derives.1 h
    have hroom : 65 - depth ≤ 65 - depth' := Nat.sub_le_sub_left hle 65
    exact classify_eq_some_iff_derives.2 ⟨hderives, hwithin.mono hroom⟩
  · obtain ⟨-, hwithin⟩ := classify_eq_some_iff_derives.1 h
    exact not_chainsWithin_of_endless hpath _ 0 hwithin

/-- A name that only stands for itself. -/
def loopName : Typedef := ⟨"loop", "loop", none, none⟩

/-- The name is declared beside a pointer to a number. -/
def loopDocument : Document where
  nodes := [⟨"int", .fundamental "int"⟩, ⟨"pointer", .derived .pointer "int"⟩,
    ⟨"loop", .typedef loopName⟩]

theorem classify_eq_some_iff_loop :
    (Resolver.ofDocument loopDocument).classify "pointer" 63 =
        .ok (some (.pointer (.atomic "int32"))) ∧
      (Resolver.ofDocument loopDocument).classify "pointer" 0 =
        .ok (some (.pointer (.atomic "int32"))) ∧
      (Resolver.ofDocument loopDocument).classify "pointer" 64 ≠
        .ok (some (.pointer (.atomic "int32"))) ∧
      ∀ depth t, (Resolver.ofDocument loopDocument).classify "loop" depth ≠ .ok (some t) := by
  obtain ⟨-, hiff, hsmaller, hendless⟩ := classify_eq_some_iff (Resolver.ofDocument loopDocument)
  have hpointer : (Resolver.ofDocument loopDocument).classify "pointer" 63 =
      .ok (some (.pointer (.atomic "int32"))) := rfl
  have hvisit : (Resolver.ofDocument loopDocument).Visits "pointer" "int" := .derived ⟨_, rfl, rfl⟩
  have hloop : (Resolver.ofDocument loopDocument).Visits "loop" "loop" :=
    .synonym (a := loopName) ⟨_, rfl, rfl⟩ (by decide)
  refine ⟨hpointer, hsmaller _ 63 0 _ (Nat.zero_le 63) hpointer, fun h => ?_,
    hendless (fun _ => "loop") fun _ => hloop⟩
  have hlong := ((hiff _ 64 _).1 h).2 ["int"] (.cons_cons hvisit (.singleton "int"))
  exact absurd hlong (by decide)

end Bindery.Ast.Resolver
