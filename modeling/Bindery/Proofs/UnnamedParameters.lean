import Bindery.Proofs.MemberLists

/-!
# Parameters without a name

A function with an unnamed parameter contributes nothing, but the types of the parameters before it
are classified all the same, and one of them may end the description in an error. So the function
is dropped without a trace unless it `Refuses` in a pass over the record (`describe_unnamed`).
-/

namespace Bindery.Ast
open Outcome (Agree)

/-- What to call the parameter is known. -/
def Parameter.IsNamed (p : Parameter) : Prop := ∃ name, p.name? = some name ∧ name ≠ ""

namespace Resolver

/-- After parameters that are recorded there comes a named one whose type ends in this error. -/
def Faults (r : Resolver) (depth : Nat) (ps : List Parameter) (e : Error) : Prop :=
  ∃ before p after, ps = before ++ p :: after ∧ (∀ q ∈ before, ∃ a, r.Records depth q a) ∧
    p.IsNamed ∧ r.classify p.type depth = .error e

/-- A function that is not private by its name has such parameters, in the pass at this depth. -/
def Refuses (r : Resolver) (depth : Nat) (f : Function) (e : Error) : Prop :=
  MethodKey.isPrivateName f.name = false ∧ r.Faults (depth + 2) f.parameters e

section
variable {r : Resolver} {depth : Nat} {e : Error}

theorem argument_eq_error_iff {p : Parameter} :
    r.argument p depth = .error e ↔ p.IsNamed ∧ r.classify p.type depth = .error e := by
  unfold argument
  split
  next hname => simp [Parameter.IsNamed, hname, pure, Except.pure]
  next name hname =>
    split
    next hempty =>
      have hempty := String.isEmpty_iff.1 hempty
      simp [Parameter.IsNamed, hname, hempty, pure, Except.pure]
    next hempty =>
      have hnamed : p.IsNamed := ⟨name, hname, fun h => hempty (String.isEmpty_iff.2 h)⟩
      rw [and_iff_right hnamed, Outcome.bind_eq_error, or_iff_left]
      rintro ⟨t?, -, h⟩
      cases t? <;> cases h

theorem arguments_eq_error_iff {ps : List Parameter} :
    r.arguments depth ps = .error e ↔ r.Faults depth ps e := by
  induction ps with
  | nil =>
    constructor
    · intro h
      cases h
    · rintro ⟨before, p, after, h, -⟩
      exact absurd h.symm (List.append_ne_nil_of_right_ne_nil _ (List.cons_ne_nil p after))
  | cons p rest ih =>
    rw [arguments, Outcome.bind_eq_error, argument_eq_error_iff]
    constructor
    · rintro (⟨hnamed, hfault⟩ | ⟨a?, ha, h⟩)
      · exact ⟨[], p, rest, rfl, List.forall_mem_nil _, hnamed, hfault⟩
      · cases a? with
        | none => cases h
        | some a =>
          rcases Outcome.bind_eq_error.1 h with h | ⟨as?, -, h⟩
          · obtain ⟨before, q, after, rfl, hbefore, hq⟩ := ih.1 h
            refine ⟨p :: before, q, after, rfl, List.forall_mem_cons.2 ⟨?_, hbefore⟩, hq⟩
            exact ⟨a, argument_eq_some_iff.1 ha⟩
          · cases h
    · rintro ⟨before, q, after, hps, hbefore, hq⟩
      rcases List.cons_eq_append_iff.1 hps with ⟨rfl, hcons⟩ | ⟨before, rfl, rfl⟩
      · obtain ⟨rfl, -⟩ := List.cons.inj hcons
        exact .inl hq
      · obtain ⟨⟨a, ha⟩, hbefore⟩ := List.forall_mem_cons.1 hbefore
        refine .inr ⟨some a, argument_eq_some_iff.2 ha, Outcome.bind_eq_error.2 (.inl ?_)⟩
        exact ih.2 ⟨before, q, after, rfl, hbefore, hq⟩

/-! ### One function -/

theorem isNamed_of_records {ps : List Parameter} {args : List Argument}
    (h : List.Forall₂ (r.Records depth) ps args) : ∀ p ∈ ps, p.IsNamed := by
  induction h with
  | nil => nofun
  | cons hrecords _ ih => exact List.forall_mem_cons.2 ⟨⟨_, hrecords.name, hrecords.named⟩, ih⟩

variable {f : Function} {name : String} {returns : Except Error (Option (Option TypeTerm))}

theorem overload_unnamed (h : ∃ p ∈ f.parameters, ¬ p.IsNamed) {k? : Option Contribution}
    (hk : r.overload f depth name returns = .ok k?) : k? = none := by
  cases k? with
  | none => rfl
  | some k =>
    obtain ⟨-, args, -, hargs, -⟩ := overload_eq_some_iff.1 hk
    obtain ⟨p, hp, hunnamed⟩ := h
    exact absurd (isNamed_of_records hargs p hp) hunnamed

theorem overload_unnamed_error_iff (h : ∃ p ∈ f.parameters, ¬ p.IsNamed) :
    r.overload f depth name returns = .error e ↔
      MethodKey.isPrivateName f.name = false ∧ r.Faults (depth + 1) f.parameters e := by
  unfold overload
  split
  next hprivate => simp [hprivate, pure, Except.pure]
  next hpublic =>
    rw [and_iff_right (Bool.eq_false_iff.2 hpublic), Outcome.bind_eq_error,
      arguments_eq_error_iff, or_iff_left]
    rintro ⟨args?, hargs, herror⟩
    cases args? with
    | none => cases herror
    | some args =>
      -- what comes after the parameters, the return type, is only reached when all have names
      obtain ⟨p, hp, hunnamed⟩ := h
      exact hunnamed (isNamed_of_records (arguments_eq_some_iff.1 hargs) p hp)

variable {n : Node} {role : FunctionRole}

theorem contribution_function (r : Resolver) (target : NodeId) (depth : Nat)
    (hkind : n.kind = .function role f) :
    ∃ name returns, r.contribution target n depth = r.overload f depth name returns := by
  unfold contribution
  rw [hkind]
  cases role with
  | constructor => exact ⟨_, _, rfl⟩
  | destructor => exact ⟨_, _, rfl⟩
  | method => exact ⟨_, _, rfl⟩

/-- Such a member contributes nothing, and ends in an error only if it refuses. -/
theorem contribution_unnamed (target : NodeId) (hkind : n.kind = .function role f)
    (h : ∃ p ∈ f.parameters, ¬ p.IsNamed) :
    (∀ k?, r.contribution target n (depth + 1) = .ok k? → k? = none) ∧
      ∀ e, r.contribution target n (depth + 1) = .error e ↔ r.Refuses depth f e := by
  obtain ⟨name, returns, hcontribution⟩ := contribution_function r target (depth + 1) hkind
  rw [hcontribution]
  exact ⟨fun _ => overload_unnamed h, fun _ => overload_unnamed_error_iff h⟩

end

end Resolver

/-! ### Leaving a member out -/

/-- The document in which the record under `target` does not list this member. -/
def Document.withoutMember (d : Document) (target id : NodeId) : Document :=
  d.relisted target (·.filter (· != id))

namespace Resolver
variable {r : Resolver} {target id : NodeId} {n : Node} {c : Record} {name : String}

theorem mem_of_listed {ids : List NodeId} {ns : List Node}
    (h : List.Forall₂ (fun id n => r.resolve id = .ok n) ids ns) (hid : id ∈ ids)
    (hn : r.resolve id = .ok n) : n ∈ ns := by
  induction h with
  | nil => cases hid
  | @cons id' m ids ns hm _ ih =>
    rcases List.mem_cons.1 hid with rfl | hid
    · rw [hn] at hm
      cases hm
      exact List.mem_cons_self ..
    · exact List.mem_cons_of_mem _ (ih hid)

/-- A public member function of the record, with a parameter that has no name. -/
structure HasUnnamed (r : Resolver) (c : Record) (id : NodeId) (f : Function) : Prop where
  listed : id ∈ c.members
  found : ∃ n role, r.resolve id = .ok n ∧ n.kind = .function role f
  isPublic : f.access? = some .publicAccess
  unnamed : ∃ p ∈ f.parameters, ¬ p.IsNamed

variable {f : Function} {s : Description} {e : Error}

theorem HasUnnamed.omits {m : Node} (hf : r.HasUnnamed c id f) (hm : r.resolve target = .ok m)
    (hrecord : m.record? = some c) : r.Omits target (· != id) := by
  obtain ⟨n, role, hn, hkind⟩ := hf.found
  intro i hi
  obtain rfl : i = id := by simpa using hi
  refine ⟨n, hn, ?_⟩
  rintro - rfl
  obtain rfl : n = m := Except.ok.inj (hn.symm.trans hm)
  rw [Node.record?, hkind] at hrecord
  cases hrecord

/-- Without the function a pass is the same, unless the function refuses in it. -/
theorem HasUnnamed.pass (hf : r.HasUnnamed c id f) (homits : r.Omits target (· != id))
    (depth : Nat) :
    r.pass target c depth = r.pass target (c.relisted (·.filter (· != id))) depth ∨
      ∃ e, r.Refuses depth f e ∧ r.pass target c depth = .error e := by
  obtain ⟨n, role, hn, hkind⟩ := hf.found
  have honly : ∀ m : Node, (m.id != id) = false → r.resolve m.id = .ok m → m = n := by
    intro m hid hm
    obtain hid : m.id = id := by simpa using hid
    exact Except.ok.inj (hm.symm.trans (hid ▸ hn))
  have hgives : ∀ m : Node, (m.id != id) = false → r.resolve m.id = .ok m →
      m.access? = some .publicAccess →
        ∀ k?, r.contribution target m (depth + 1) = .ok k? → k? = none :=
    fun m hid hm _ =>
      (contribution_unnamed target ((honly m hid hm).symm ▸ hkind) hf.unnamed).1
  rcases pass_filter (c := c) homits hgives with hsame | ⟨m, e, hid, hm, -, he, hfails⟩
  · exact .inl hsame
  · obtain rfl := honly m hid hm
    exact .inr ⟨e, ((contribution_unnamed target hkind hf.unnamed).2 e).1 he, hfails⟩

theorem HasUnnamed.describeRecord (hf : r.HasUnnamed c id f) (homits : r.Omits target (· != id))
    (name : String) :
    r.describeRecord name target c =
        r.describeRecord name target (c.relisted (·.filter (· != id))) ∨
      ∃ depth e, (depth = 0 ∨ r.listsItself target c = true) ∧ r.Refuses depth f e ∧
        r.describeRecord name target c = .error (.failed e) := by
  have hpasses : ∀ room depth,
      r.passes target c room depth =
          r.passes target (c.relisted (·.filter (· != id))) room depth ∨
        ∃ k e, (k = 0 ∨ r.listsItself target c = true) ∧ r.Refuses (depth + k) f e ∧
          r.passes target c room depth = .error (.failed e) := by
    intro room
    induction room with
    | zero => exact fun _ => .inl rfl
    | succ room ih =>
      intro depth
      rcases hf.pass homits depth with hsame | ⟨e, hrefuses, hfails⟩
      · cases hpass : r.pass target c depth with
        | error e =>
          rw [passes_of_error hpass, passes_of_error (hsame ▸ hpass)]
          exact .inl rfl
        | ok added =>
          rw [passes_of_ok hpass, passes_of_ok (hsame ▸ hpass), listsItself_filter homits]
          cases hself : r.listsItself target c with
          | false => exact .inl rfl
          | true =>
            rcases ih (depth + 1) with hlater | ⟨k, e, -, hrefuses, hfails⟩
            · exact .inl hlater
            · refine .inr ⟨k + 1, e, .inr rfl, ?_, hfails⟩
              rwa [Nat.add_right_comm] at hrefuses
      · exact .inr ⟨0, e, .inl rfl, hrefuses, passes_of_error hfails⟩
  rcases hpasses maxNesting 0 with hsame | ⟨k, e, hk, hrefuses, hfails⟩
  · exact .inl (by rw [Resolver.describeRecord, Resolver.describeRecord, hsame])
  · rw [Nat.zero_add] at hrefuses
    exact .inr ⟨k, e, hk, hrefuses, describeRecord_eq_error_iff.2 hfails⟩

theorem not_refuses_of_describeRecord (hf : r.HasUnnamed c id f)
    (h : r.describeRecord name target c = .ok s) : ¬ r.Refuses 0 f e := by
  intro hrefuses
  obtain ⟨n, role, hn, hkind⟩ := hf.found
  obtain ⟨-, -, members, cs, -, -, -, hmembers, -, hcs, -⟩ := describeRecord_eq_ok_iff.1 h
  obtain ⟨listed, hlisted, rfl⟩ := publicMembers_eq_ok_iff.1 hmembers
  have haccess : n.access? = some .publicAccess := by
    rw [Node.access?, hkind]
    exact hf.isPublic
  have hmem : n ∈ listed.filter (·.access? == some .publicAccess) :=
    List.mem_filter.2 ⟨mem_of_listed hlisted hf.listed hn, by rw [haccess]; rfl⟩
  obtain ⟨k?, hk⟩ := (gather_eq_ok_iff.1 hcs).1 n hmem
  rw [((contribution_unnamed target hkind hf.unnamed).2 e).2 hrefuses] at hk
  cases hk

end Resolver

/-- Unless it refuses, a function with an unnamed parameter might as well not be listed. Otherwise
the class is not described, though it may have failed before with the same error as without the
function. Only of a class that is among its own public members there is more than one pass for the
function to refuse in, and such a class is not described anyway. -/
theorem describe_unnamed {d : Document} {name : String} {onlyIn : List String} {r : Resolver}
    {target : NodeId} {c : Record} {id : NodeId} {f : Function}
    (hr : (Resolver.ofDocument d).restrict onlyIn = .ok r)
    (hlocate : r.locate name = .ok (target, c)) (hname : Catalog.isInstantiation name = false)
    (hf : r.HasUnnamed c id f) :
    (describe d name onlyIn = describe (d.withoutMember target id) name onlyIn ∨
        ∃ depth e, (depth = 0 ∨ r.listsItself target c = true) ∧ r.Refuses depth f e ∧
          describe d name onlyIn = .error (.failed e)) ∧
      ∀ s, describe (d.withoutMember target id) name onlyIn = .ok s →
        (describe d name onlyIn = .ok s ↔ ∀ e, ¬ r.Refuses 0 f e) := by
  obtain ⟨m, hm, hrecord⟩ :=
    Resolver.resolve_of_locate (Resolver.pairwise_nodes_of_restrict hr) hlocate
  have homits := hf.omits hm hrecord
  have hwithout := hf.describeRecord homits name
  rw [Document.withoutMember, describe_relisted hr hlocate hname,
    describe_eq_describeRecord hr hlocate]
  refine ⟨hwithout, fun s hs => ⟨fun h e => Resolver.not_refuses_of_describeRecord hf h, ?_⟩⟩
  intro hnone
  rcases hwithout with hsame | ⟨depth, e, rfl | hself, he, -⟩
  · rw [hsame, hs]
  · exact absurd he (hnone e)
  · have hnot := (Resolver.describeRecord_eq_ok_iff_pass.1 hs).1
    rw [Resolver.listsItself_filter homits, hself] at hnot
    cases hnot

/-- Its wide type has no name in the catalogue. -/
def setDial : Function where
  name := "set"
  context? := some "oven"
  access? := some .publicAccess
  returns? := none
  parameters := [⟨some "to", "wide", none⟩, ⟨none, "int", none⟩]
  file? := none

/-- The same parameters the other way round. -/
def turnDial : Function := { setDial with name := "turn", parameters := setDial.parameters.reverse }

def dialClass : Record := ⟨"Oven", none, none, none, ["set", "turn"], [], false⟩

def dialDocument : Document where
  nodes := [
    ⟨"int", .fundamental "int"⟩,
    ⟨"wide", .fundamental "wchar_t"⟩,
    ⟨"oven", .record .ofClass dialClass⟩,
    ⟨"set", .function .method setDial⟩,
    ⟨"turn", .function .method turnDial⟩]

theorem hasUnnamed_setDial :
    (Resolver.ofDocument dialDocument).HasUnnamed dialClass "set" setDial where
  listed := by decide
  found := ⟨_, _, rfl, rfl⟩
  isPublic := rfl
  unnamed := by
    refine ⟨⟨none, "int", none⟩, by decide, ?_⟩
    rintro ⟨name, hname, -⟩
    cases hname

theorem describe_without_setDial :
    describe (dialDocument.withoutMember "oven" "set") "Oven" [] =
      .ok { Description.named "Oven" with parents? := some [] } := rfl

theorem describe_unnamed_dial :
    (∃ e, (Resolver.ofDocument dialDocument).Refuses 0 setDial e ∧
        describe dialDocument "Oven" [] = .error (.failed e)) ∧
      ∃ s, describe (dialDocument.withoutMember "oven" "set") "Oven" [] = .ok s ∧
        describe dialDocument "Oven" [] ≠ .ok s := by
  obtain ⟨hsame, hiff⟩ :
      (describe dialDocument "Oven" [] =
          describe (dialDocument.withoutMember "oven" "set") "Oven" [] ∨ _) ∧ _ :=
    describe_unnamed rfl rfl rfl hasUnnamed_setDial
  have hrefuses :
      (Resolver.ofDocument dialDocument).Refuses 0 setDial (.unknownPrimitive "wchar_t") :=
    ⟨rfl, [], _, _, rfl, nofun, ⟨"to", rfl, by decide⟩, rfl⟩
  have hs := describe_without_setDial
  refine ⟨?_, _, hs, fun h => (hiff _ hs).1 h _ hrefuses⟩
  rcases hsame with hsame | ⟨depth, e, rfl | hself, he, hfails⟩
  · exact absurd hrefuses ((hiff _ hs).1 (hsame.trans hs) _)
  · exact ⟨e, he, hfails⟩
  · cases hself

theorem unnamed_leaves_trace :
    ¬ ∀ (d : Document) (name : String) (onlyIn : List String) (r : Resolver) (target : NodeId)
      (c : Record) (id : NodeId) (f : Function),
      (Resolver.ofDocument d).restrict onlyIn = .ok r → r.locate name = .ok (target, c) →
      Catalog.isInstantiation name = false → r.HasUnnamed c id f →
      describe d name onlyIn = describe (d.withoutMember target id) name onlyIn := by
  intro hall
  have hsame := hall dialDocument "Oven" [] _ _ _ _ _ rfl rfl rfl hasUnnamed_setDial
  have hfails : describe dialDocument "Oven" [] =
      .error (.failed (.unknownPrimitive "wchar_t")) := rfl
  rw [hfails, describe_without_setDial] at hsame
  cases hsame

end Bindery.Ast
