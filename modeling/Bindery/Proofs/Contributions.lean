import Mathlib.Data.List.Forall2
import Bindery.Ast.Describe
import Bindery.Proofs.MapLookup
import Bindery.Proofs.Outcome

/-!
# What members contribute

`Resolver.contribution` is what the visitor answers for a member that is not the described record
itself (`visit_member`), and `Resolver.Yields` says by rules, one for each way, what that is
(`contribution_eq_some_iff`). `gather` drops what yields nothing and stops at the first error, and
the fold over the contributions enters each into the map of its kind.
-/

namespace Bindery.Ast

namespace Resolver

/-- The argument that stands for a parameter whose type is met after `depth` nodes. -/
structure Records (r : Resolver) (depth : Nat) (p : Parameter) (a : Argument) : Prop where
  name : p.name? = some a.name
  named : a.name ≠ ""
  type : r.classify p.type depth = .ok (some a.type)
  default : a.default? = p.default?

/-- What a node contributes as a member of `target`, other than the record itself. -/
def contribution (r : Resolver) (target : NodeId) (n : Node) (depth : Nat) :
    Except Error (Option Contribution) :=
  match n.kind with
  | .field f => r.fieldAttr target f depth
  | .function role f => r.signature role f depth
  | _ => pure none

/-- What a node yields as a member of `target`. -/
inductive Yields (r : Resolver) (target : NodeId) : NodeKind → Contribution → Prop where
  | field {f : Field} {t : TypeTerm} :
      f.context = target → r.classify f.type 1 = .ok (some t) →
        Yields r target (.field f) (.attr f.name t)
  | constructor {f : Function} {args : List Argument} :
      MethodKey.isPrivateName f.name = false → List.Forall₂ (r.Records 2) f.parameters args →
        Yields r target (.function .constructor f) (.method ⟨f.name, args⟩ none)
  | destructor {f : Function} {args : List Argument} :
      MethodKey.isPrivateName f.name = false → List.Forall₂ (r.Records 2) f.parameters args →
        Yields r target (.function .destructor f) (.method ⟨destructorName f.name, args⟩ none)
  | procedure {f : Function} {args : List Argument} :
      MethodKey.isPrivateName f.name = false → List.Forall₂ (r.Records 2) f.parameters args →
        f.returns? = none →
          Yields r target (.function .method f) (.method ⟨f.name, args⟩ (some .void))
  | method {f : Function} {args : List Argument} {id : NodeId} {t : TypeTerm} :
      MethodKey.isPrivateName f.name = false → List.Forall₂ (r.Records 2) f.parameters args →
        f.returns? = some id → r.classify id 1 = .ok (some t) →
          Yields r target (.function .method f) (.method ⟨f.name, args⟩ (some t))

section
variable {r : Resolver} {depth : Nat}

theorem argument_eq_some_iff {p : Parameter} {a : Argument} :
    r.argument p depth = .ok (some a) ↔ r.Records depth p a := by
  unfold argument
  constructor
  · intro h
    split at h
    next => cases h
    next name hname =>
      split at h
      next => cases h
      next hempty =>
        obtain ⟨type?, htype, h⟩ := Outcome.bind_eq_ok.1 h
        cases type? with
        | none => cases h
        | some t =>
          cases h
          exact ⟨hname, fun h0 => hempty (String.isEmpty_iff.2 h0), htype, rfl⟩
  · rintro ⟨hname, hnamed, htype, hdefault⟩
    simp [hname, hnamed, htype, bind, Except.bind, pure, Except.pure, ← hdefault]

theorem arguments_eq_some_iff {ps : List Parameter} {args : List Argument} :
    r.arguments depth ps = .ok (some args) ↔ List.Forall₂ (r.Records depth) ps args := by
  induction ps generalizing args with
  | nil =>
    constructor
    · intro h; cases h; exact .nil
    · intro h; cases h; rfl
  | cons p rest ih =>
    rw [arguments, Outcome.bind_eq_ok, List.forall₂_cons_left_iff]
    constructor
    · rintro ⟨a?, ha, h⟩
      cases a? with
      | none => cases h
      | some a =>
        obtain ⟨as?, has, h⟩ := Outcome.bind_eq_ok.1 h
        cases as? with
        | none => cases h
        | some as => cases h; exact ⟨a, as, argument_eq_some_iff.1 ha, ih.1 has, rfl⟩
    · rintro ⟨a, as, ha, has, rfl⟩
      refine ⟨some a, argument_eq_some_iff.2 ha, ?_⟩
      rw [ih.2 has]; rfl

theorem returnType_eq_some_iff {f : Function} {t : TypeTerm} :
    r.returnType f depth = .ok (some t) ↔
      f.returns? = none ∧ t = .void ∨
        ∃ id, f.returns? = some id ∧ r.classify id depth = .ok (some t) := by
  unfold returnType
  cases f.returns? with
  | none => simp [pure, Except.pure, eq_comm]
  | some id => simp

/-- An overload is recorded under its name with all its arguments, or not at all. -/
theorem overload_eq_some_iff {f : Function} {name : String}
    {returns : Except Error (Option (Option TypeTerm))} {k : Contribution} :
    r.overload f depth name returns = .ok (some k) ↔
      MethodKey.isPrivateName f.name = false ∧ ∃ args t?,
        List.Forall₂ (r.Records (depth + 1)) f.parameters args ∧ returns = .ok (some t?) ∧
          k = .method ⟨name, args⟩ t? := by
  unfold overload
  split
  next hprivate => simp [hprivate, pure, Except.pure]
  next hpublic =>
    rw [Outcome.bind_eq_ok, and_iff_right (Bool.eq_false_iff.2 hpublic)]
    constructor
    · rintro ⟨args?, hargs, h⟩
      cases args? with
      | none => cases h
      | some args =>
        obtain ⟨t??, ht, h⟩ := Outcome.bind_eq_ok.1 h
        cases t?? with
        | none => cases h
        | some t? => cases h; exact ⟨args, t?, arguments_eq_some_iff.1 hargs, ht, rfl⟩
    · rintro ⟨args, t?, hargs, ht, rfl⟩
      refine ⟨some args, arguments_eq_some_iff.2 hargs, ?_⟩
      rw [ht]; rfl

theorem fieldAttr_eq_some_iff {target : NodeId} {f : Field} {k : Contribution} :
    r.fieldAttr target f 1 = .ok (some k) ↔ r.Yields target (.field f) k := by
  unfold fieldAttr
  split
  next hf =>
    constructor
    · intro h
      obtain ⟨t?, ht, h⟩ := Outcome.bind_eq_ok.1 h
      cases t? with
      | none => cases h
      | some t => cases h; exact .field hf ht
    · intro h
      cases h with
      | field _ ht => rw [ht]; rfl
  next hf =>
    constructor
    · intro h; cases h
    · intro h
      cases h with
      | field hf' _ => exact absurd hf' hf

theorem signature_eq_some_iff {target : NodeId} {role : FunctionRole} {f : Function}
    {k : Contribution} :
    r.signature role f 1 = .ok (some k) ↔ r.Yields target (.function role f) k := by
  cases role with
  | constructor =>
    refine overload_eq_some_iff.trans ⟨?_, fun h => ?_⟩
    · rintro ⟨hp, args, t?, hargs, ht, rfl⟩
      cases ht; exact .constructor hp hargs
    · cases h with
      | constructor hp hargs => exact ⟨hp, _, _, hargs, rfl, rfl⟩
  | destructor =>
    refine overload_eq_some_iff.trans ⟨?_, fun h => ?_⟩
    · rintro ⟨hp, args, t?, hargs, ht, rfl⟩
      cases ht; exact .destructor hp hargs
    · cases h with
      | destructor hp hargs => exact ⟨hp, _, _, hargs, rfl, rfl⟩
  | method =>
    refine overload_eq_some_iff.trans ⟨?_, fun h => ?_⟩
    · rintro ⟨hp, args, t?, hargs, ht, rfl⟩
      obtain ⟨given?, hgiven, h⟩ := Outcome.bind_eq_ok.1 ht
      cases given? with
      | none => cases h
      | some t =>
        cases h
        rcases returnType_eq_some_iff.1 hgiven with ⟨hnone, rfl⟩ | ⟨id, hid, ht⟩
        · exact .procedure hp hargs hnone
        · exact .method hp hargs hid ht
    · cases h with
      | procedure hp hargs hnone =>
        refine ⟨hp, _, _, hargs, ?_, rfl⟩
        rw [returnType_eq_some_iff.2 (.inl ⟨hnone, rfl⟩)]; rfl
      | method hp hargs hid ht =>
        refine ⟨hp, _, _, hargs, ?_, rfl⟩
        rw [returnType_eq_some_iff.2 (.inr ⟨_, hid, ht⟩)]; rfl

/-- What is contributed is what the rules allow. -/
theorem contribution_eq_some_iff {target : NodeId} {n : Node} {k : Contribution} :
    r.contribution target n 1 = .ok (some k) ↔ r.Yields target n.kind k := by
  unfold contribution
  cases n.kind with
  | field f => exact fieldAttr_eq_some_iff
  | function role f => exact signature_eq_some_iff
  | _ => constructor <;> intro h <;> cases h

/-- The visitor's own record apart, a member answers with its contribution. -/
theorem visit_member {target : NodeId} {n : Node}
    {describe : Record → Nat → Except Halt (List Contribution)} (h : n.id ≠ target) :
    (r.describer target describe).visit n depth = alone (r.contribution target n depth) := by
  unfold Visitor.visit contribution
  cases n.kind with
  | record tag c => cases tag <;> exact if_neg h
  | function role f => cases role <;> rfl
  | _ => rfl

end

end Resolver

/-! ### Collecting -/

/-- What is gathered is what the items give, and there is no error among them. -/
theorem gather_eq_ok_iff {ε α β : Type} {f : α → Except ε (Option β)} {l : List α} {bs : List β} :
    gather f l = .ok bs ↔
      (∀ a ∈ l, ∃ b?, f a = .ok b?) ∧ bs = l.filterMap fun a => Outcome.given? (f a) := by
  induction l generalizing bs with
  | nil =>
    constructor
    · intro h; cases h; exact ⟨nofun, rfl⟩
    · rintro ⟨-, rfl⟩; rfl
  | cons a rest ih =>
    rw [gather, Outcome.bind_eq_ok, List.forall_mem_cons]
    constructor
    · rintro ⟨b?, hb, h⟩
      obtain ⟨bs', hbs, h⟩ := Outcome.bind_eq_ok.1 h
      obtain ⟨hall, rfl⟩ := ih.1 hbs
      cases h
      refine ⟨⟨⟨b?, hb⟩, hall⟩, ?_⟩
      rw [List.filterMap_cons, hb]
      cases b? <;> rfl
    · rintro ⟨⟨⟨b?, hb⟩, hall⟩, rfl⟩
      refine ⟨b?, hb, ?_⟩
      rw [ih.2 ⟨hall, rfl⟩, List.filterMap_cons, hb]
      cases b? <;> rfl

namespace Contribution

def attr? : Contribution → Option (String × TypeTerm)
  | .attr name type => some (name, type)
  | _ => none

def method? : Contribution → Option (MethodKey × Option TypeTerm)
  | .method key returns => some (key, returns)
  | _ => none

/-- The contribution is of a member, not of the record as such. -/
def IsOfMember (k : Contribution) : Prop := ∀ parents scope?, k ≠ .outline parents scope?

theorem attr?_eq_some_iff {k : Contribution} {e : String × TypeTerm} :
    k.attr? = some e ↔ k = .attr e.1 e.2 := by
  cases k <;> simp [attr?, Prod.ext_iff]

theorem method?_eq_some_iff {k : Contribution} {e : MethodKey × Option TypeTerm} :
    k.method? = some e ↔ k = .method e.1 e.2 := by
  cases k <;> simp [method?, Prod.ext_iff]

/-- Each contribution of a member goes into the map of its kind, and nothing else changes. -/
theorem foldl_addTo {l : List Contribution} (h : ∀ k ∈ l, k.IsOfMember) (d : Description) :
    l.foldl addTo d =
      { d with attrs := d.attrs.insertAll (l.filterMap attr?)
               methods := d.methods.insertAll (l.filterMap method?) } := by
  induction l generalizing d with
  | nil => rfl
  | cons k rest ih =>
    obtain ⟨hk, hrest⟩ := List.forall_mem_cons.1 h
    rw [List.foldl_cons, ih hrest]
    cases k with
    | outline parents scope? => exact absurd rfl (hk parents scope?)
    | attr => rfl
    | method => rfl

end Contribution

theorem Resolver.Yields.isOfMember {r : Resolver} {target : NodeId} {kind : NodeKind}
    {k : Contribution} (h : r.Yields target kind k) : k.IsOfMember := by
  cases h <;> exact fun _ _ => nofun

end Bindery.Ast
