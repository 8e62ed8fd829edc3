import Mathlib.Data.List.TakeWhile
import Bindery.Proofs.Contributions
import Bindery.Proofs.LocatedRecords

/-!
# Records inside of themselves

A record is described in passes. Most take one. A record that is among its own public members is
gone through again from where it is met, one level deeper each time, so such a record is never
described: some pass ends in an error, or the program runs out of room
(`describeRecord_eq_overflow_iff`). Below `maxChain` levels all passes are alike, which is why the
room does not matter as long as there is more of it than that (`contributions_room`).
-/

namespace Bindery.Ast

theorem flatten_gather_cons {ε α β : Type} {f : α → Except ε (Option (List β))} (a : α)
    (rest : List α) : List.flatten <$> gather f (a :: rest) =
      f a >>= fun l? => List.flatten <$> gather f rest >>= fun l => pure (l?.getD [] ++ l) := by
  rw [gather]
  cases f a with
  | error e => rfl
  | ok l? =>
    cases gather f rest with
    | error e => rfl
    | ok bs => cases l? <;> rfl

namespace Resolver

/-- Whether the record under `target` is one of its own public members. -/
def listsItself (r : Resolver) (target : NodeId) (c : Record) : Bool :=
  match r.publicMembers c with
  | .ok members => members.any (·.id == target)
  | .error _ => false

/-- One pass over the record: its outline, and what its public members contribute up to the record
itself. -/
def pass (r : Resolver) (target : NodeId) (c : Record) (depth : Nat) :
    Except Error (List Contribution) := do
  let outline ← r.outline target c depth
  let members ← r.publicMembers c
  let added ← gather (r.contribution target · (depth + 1)) (members.takeWhile (·.id != target))
  pure (outline :: added)

/-- One pass after another, as long as the record has to be gone through again. -/
def passes (r : Resolver) (target : NodeId) (c : Record) :
    (room : Nat) → (depth : Nat) → Except Halt (List Contribution)
  | 0, _ => throw .overflow
  | room + 1, depth => do
    let added ← (r.pass target c depth).mapError .failed
    if r.listsItself target c then r.passes target c room (depth + 1) else pure added

/-- What the passes over a record come to. -/
def describeRecord (r : Resolver) (name : String) (target : NodeId) (c : Record) :
    Except Halt Description :=
  (·.foldl Contribution.addTo (.named name)) <$> r.passes target c maxNesting 0

section
variable {r : Resolver} {target : NodeId} {c : Record} {n : Node} {room depth : Nat} {e : Error}

theorem listsItself_of_publicMembers {members : List Node} (h : r.publicMembers c = .ok members) :
    r.listsItself target c = members.any (·.id == target) := by
  rw [listsItself, h]

theorem listsItself_eq_false_iff {members : List Node} (h : r.publicMembers c = .ok members) :
    r.listsItself target c = false ↔ ∀ m ∈ members, m.id ≠ target := by
  simp [listsItself_of_publicMembers h]

/-- Unless the record is among them, a pass goes over all public members. -/
theorem takeWhile_members {members : List Node} (h : ∀ m ∈ members, m.id ≠ target) :
    members.takeWhile (·.id != target) = members :=
  List.takeWhile_eq_self_iff.2 fun m hm => bne_iff_ne.2 (h m hm)

/-- Passes of which each is followed by another come to no result. -/
theorem exists_passes_error (hself : r.listsItself target c = true) (room depth : Nat) :
    ∃ h, r.passes target c room depth = .error h := by
  induction room generalizing depth with
  | zero => exact ⟨_, rfl⟩
  | succ room ih =>
    rw [passes, hself]
    cases r.pass target c depth with
    | error e => exact ⟨_, rfl⟩
    | ok _ => exact ih (depth + 1)

/-! ### The visitor's passes -/

/-- The record itself is described wherever it is met, be it a class or a struct. -/
theorem visit_record {describe : Record → Nat → Except Halt (List Contribution)}
    (hid : n.id = target) (hrecord : n.record? = some c) :
    (r.describer target describe).visit n depth = some <$> describe c depth := by
  unfold Node.record? at hrecord
  unfold Visitor.visit
  split at hrecord
  next tag _ hkind =>
    cases hrecord
    rw [hkind]
    cases tag <;> exact if_pos hid
  next => cases hrecord

/-- Members are gathered up to the record itself. Its own passes come to no result, so what is
behind it is never reached. -/
theorem gather_visit {describe : Record → Nat → Except Halt (List Contribution)}
    (hrecord : n.record? = some c) (hid : n.id = target) {members : List Node}
    (hmembers : ∀ m ∈ members, m.id = target → m = n)
    (hself : members.any (·.id == target) = true → ∃ h, describe c depth = .error h) :
    List.flatten <$> gather ((r.describer target describe).visit · depth) members =
      (gather (r.contribution target · depth) (members.takeWhile (·.id != target))).mapError .failed
        >>= fun added =>
          if members.any (·.id == target) then describe c depth else pure added := by
  induction members with
  | nil => rfl
  | cons m rest ih =>
    obtain ⟨hm, hrest⟩ := List.forall_mem_cons.1 hmembers
    rw [flatten_gather_cons]
    by_cases hmid : m.id = target
    · obtain rfl := hm hmid
      have hany : (m :: rest).any (·.id == target) = true := by simp [hmid]
      obtain ⟨h, hh⟩ := hself hany
      rw [visit_record hid hrecord, hh, hany, List.takeWhile_cons_of_neg (by simp [hmid])]
      rfl
    · have hany : (m :: rest).any (·.id == target) = rest.any (·.id == target) := by simp [hmid]
      rw [hany] at hself ⊢
      rw [ih hrest hself, visit_member hmid, List.takeWhile_cons_of_pos (by simp [hmid]), gather]
      cases r.contribution target m depth with
      | error e => rfl
      | ok b? =>
        cases gather (r.contribution target · depth) (rest.takeWhile (·.id != target)) with
        | error e => rfl
        | ok bs =>
          cases hlisted : rest.any (·.id == target) with
          | true =>
            obtain ⟨h, hh⟩ := hself hlisted
            simp only [if_true, hh]
            rfl
          | false => cases b? <;> rfl

theorem contributions_eq (hn : r.resolve target = .ok n) (hrecord : n.record? = some c)
    (room depth : Nat) : r.contributions target room c depth = r.passes target c room depth := by
  obtain ⟨-, hid⟩ := of_resolve_eq_ok hn
  induction room generalizing depth with
  | zero => rfl
  | succ room ih =>
    rw [contributions, passes, pass]
    cases r.outline target c depth with
    | error e => rfl
    | ok outline =>
    cases hpublic : r.publicMembers c with
    | error e => rfl
    | ok members =>
    have hmembers : ∀ m ∈ members, m.id = target → m = n := fun m hm hmid => by
      have hself := resolve_of_mem_publicMembers hpublic hm
      rw [hmid, hn] at hself
      exact (Except.ok.inj hself).symm
    have hlisted : r.listsItself target c = members.any (·.id == target) :=
      listsItself_of_publicMembers hpublic
    have herror : members.any (·.id == target) = true →
        ∃ h, r.contributions target room c (depth + 1) = .error h := fun hany => by
      rw [ih]
      exact exists_passes_error (hlisted.trans hany) room (depth + 1)
    have houtline : ∀ x : Except Halt (List (List Contribution)),
        (x >>= fun added => pure (outline :: added.flatten)) =
          List.flatten <$> x >>= fun added => pure (outline :: added) := by
      rintro (h | added) <;> rfl
    refine (houtline _).trans ?_
    rw [gather_visit hrecord hid hmembers herror, hlisted, ← ih]
    show _ = (gather _ _ >>= fun added => pure (outline :: added)).mapError Halt.failed >>= _
    cases gather (r.contribution target · (depth + 1)) (members.takeWhile (·.id != target)) with
    | error e => rfl
    | ok added =>
      cases hany : members.any (·.id == target) with
      | true =>
        obtain ⟨h, hh⟩ := herror hany
        simp only [if_true, hh]
        rfl
      | false => rfl

/-! ### Deep passes -/

theorem classify_of_le (h : maxChain ≤ depth) (id : NodeId) : r.classify id depth = pure none := by
  rw [classify, Nat.sub_eq_zero_of_le h]
  rfl

theorem argument_of_le (h : maxChain ≤ depth) (p : Parameter) : r.argument p depth = pure none := by
  unfold argument
  split
  next => rfl
  next =>
    split
    next => rfl
    next =>
      rw [classify_of_le h]
      rfl

theorem arguments_of_le {depth' : Nat} (h : maxChain ≤ depth) (h' : maxChain ≤ depth')
    (ps : List Parameter) : r.arguments depth ps = r.arguments depth' ps := by
  cases ps with
  | nil => rfl
  | cons p rest =>
    rw [arguments, arguments, argument_of_le h, argument_of_le h']
    rfl

theorem contribution_of_le {depth' : Nat} (h : maxChain ≤ depth) (h' : maxChain ≤ depth') :
    r.contribution target n depth = r.contribution target n depth' := by
  have hoverload : ∀ f name returns, r.overload f depth name returns =
      r.overload f depth' name returns := fun f name returns => by
    unfold overload
    rw [arguments_of_le (Nat.le_succ_of_le h) (Nat.le_succ_of_le h')]
  have hreturn : ∀ f, r.returnType f depth = r.returnType f depth' := fun f => by
    unfold returnType
    cases f.returns? with
    | none => rfl
    | some id => exact (classify_of_le h id).trans (classify_of_le h' id).symm
  unfold contribution
  cases n.kind with
  | field f =>
    show r.fieldAttr target f depth = r.fieldAttr target f depth'
    rw [fieldAttr, fieldAttr, classify_of_le h, classify_of_le h']
  | function role f =>
    show r.signature role f depth = r.signature role f depth'
    unfold signature
    simp only [hoverload, hreturn]
  | _ => rfl

/-- Further down no type is expressible, so passes do not change any more. -/
theorem pass_of_le (h : maxChain ≤ depth) : r.pass target c depth = r.pass target c maxChain := by
  have hsucc := Nat.le_succ_of_le h
  have houtline : r.outline target c depth = r.outline target c maxChain := by
    unfold outline
    simp only [classify_of_le h, classify_of_le hsucc, classify_of_le (Nat.le_refl maxChain),
      classify_of_le (Nat.le_succ maxChain)]
  have hmembers : (r.contribution target · (depth + 1)) =
      (r.contribution target · (maxChain + 1)) :=
    funext fun _ => contribution_of_le hsucc (Nat.le_succ maxChain)
  rw [pass, pass, houtline, hmembers]

/-! ### What passes come to -/

theorem passes_of_error (h : r.pass target c depth = .error e) :
    r.passes target c (room + 1) depth = .error (.failed e) := by
  rw [passes, h]
  rfl

theorem passes_of_ok {added : List Contribution} (h : r.pass target c depth = .ok added) :
    r.passes target c (room + 1) depth =
      if r.listsItself target c then r.passes target c room (depth + 1) else .ok added := by
  rw [passes, h]
  rfl

theorem passes_eq_ok_iff {added : List Contribution} :
    r.passes target c (room + 1) depth = .ok added ↔
      r.listsItself target c = false ∧ r.pass target c depth = .ok added := by
  cases hpass : r.pass target c depth with
  | error e => simp [passes_of_error hpass]
  | ok _ =>
    rw [passes_of_ok hpass]
    cases hself : r.listsItself target c with
    | true =>
      obtain ⟨h, hh⟩ := exists_passes_error hself room (depth + 1)
      simp [hh]
    | false => simp

/-- Passes come to the error of the first one that has any. -/
theorem passes_eq_failed_iff :
    r.passes target c room depth = .error (.failed e) ↔
      ∃ k < room, (k = 0 ∨ r.listsItself target c = true) ∧
        (∀ j < k, ∃ added, r.pass target c (depth + j) = .ok added) ∧
          r.pass target c (depth + k) = .error e := by
  induction room generalizing depth with
  | zero => simp [passes, throw, throwThe, MonadExceptOf.throw]
  | succ room ih =>
    cases hpass : r.pass target c depth with
    | error e' =>
      rw [passes_of_error hpass, Except.error.injEq, Halt.failed.injEq]
      constructor
      · rintro rfl
        exact ⟨0, Nat.succ_pos room, .inl rfl, nofun, hpass⟩
      · rintro ⟨_ | k, -, -, hbefore, hk⟩
        · exact Except.error.inj (hpass.symm.trans hk)
        · obtain ⟨added, hadded⟩ := hbefore 0 (Nat.succ_pos k)
          cases hpass.symm.trans hadded
    | ok added =>
      rw [passes_of_ok hpass]
      have hshift : ∀ k, depth + 1 + k = depth + (k + 1) := fun k => by omega
      cases hself : r.listsItself target c with
      | false =>
        refine iff_of_false nofun ?_
        rintro ⟨k, -, rfl | h, -, hk⟩
        · cases hpass.symm.trans hk
        · cases h
      | true =>
        rw [if_pos rfl, ih, hself]
        simp only [hshift, or_true, true_and]
        constructor
        · rintro ⟨k, hk, hbefore, hlast⟩
          refine ⟨k + 1, Nat.succ_lt_succ hk, fun j hj => ?_, hlast⟩
          cases j with
          | zero => exact ⟨added, hpass⟩
          | succ j => exact hbefore j (Nat.lt_of_succ_lt_succ hj)
        · rintro ⟨_ | k, hk, hbefore, hlast⟩
          · cases hpass.symm.trans hlast
          · exact ⟨k, Nat.lt_of_succ_lt_succ hk,
              fun j hj => hbefore (j + 1) (Nat.succ_lt_succ hj), hlast⟩

theorem passes_eq_overflow_iff :
    r.passes target c (room + 1) depth = .error .overflow ↔
      r.listsItself target c = true ∧
        ∀ j ≤ room, ∃ added, r.pass target c (depth + j) = .ok added := by
  constructor
  · intro h
    have hself : r.listsItself target c = true := by
      cases hself : r.listsItself target c with
      | true => rfl
      | false =>
        rw [passes, hself] at h
        cases hpass : r.pass target c depth <;> rw [hpass] at h <;> cases h
    refine ⟨hself, fun j hj => ?_⟩
    induction j using Nat.strongRecOn with
    | ind j ih =>
      cases hpass : r.pass target c (depth + j) with
      | ok added => exact ⟨added, rfl⟩
      | error e =>
        -- the first pass with an error would have ended them all
        have hfailed := passes_eq_failed_iff.2 ⟨j, Nat.lt_succ_of_le hj, .inr hself,
          fun i hi => ih i hi (Nat.le_trans (Nat.le_of_lt hi) hj), hpass⟩
        cases h.symm.trans hfailed
  · rintro ⟨hself, hall⟩
    obtain ⟨h, hh⟩ := exists_passes_error hself (room + 1) depth
    cases h with
    | overflow => exact hh
    | failed e =>
      obtain ⟨k, hk, -, -, hlast⟩ := passes_eq_failed_iff.1 hh
      obtain ⟨added, hadded⟩ := hall k (Nat.lt_succ_iff.1 hk)
      cases hadded.symm.trans hlast

theorem exists_pass_of_le (h : ∀ k ≤ maxChain, ∃ added, r.pass target c k = .ok added) (k : Nat) :
    ∃ added, r.pass target c k = .ok added := by
  rcases Nat.le_total k maxChain with hk | hk
  · exact h k hk
  · rw [pass_of_le hk]
    exact h maxChain (Nat.le_refl _)

theorem passes_eq_failed_iff_of_lt (h : maxChain < room) :
    r.passes target c room 0 = .error (.failed e) ↔
      ∃ depth, (depth = 0 ∨ r.listsItself target c = true) ∧
        (∀ k < depth, ∃ added, r.pass target c k = .ok added) ∧
          r.pass target c depth = .error e := by
  simp only [passes_eq_failed_iff, Nat.zero_add]
  refine exists_congr fun depth => ⟨And.right, fun hdepth => ⟨?_, hdepth⟩⟩
  obtain ⟨-, hbefore, hlast⟩ := hdepth
  by_contra hdeep
  obtain ⟨added, hadded⟩ := exists_pass_of_le (fun k hk => hbefore k (by omega)) depth
  cases hadded.symm.trans hlast

theorem passes_eq_overflow_iff_of_lt (h : maxChain < room) :
    r.passes target c room 0 = .error .overflow ↔
      r.listsItself target c = true ∧ ∀ depth, ∃ added, r.pass target c depth = .ok added := by
  obtain ⟨room, rfl⟩ := Nat.exists_eq_succ_of_ne_zero (Nat.ne_zero_of_lt h)
  rw [passes_eq_overflow_iff]
  simp only [Nat.zero_add]
  refine and_congr_right fun _ => ⟨fun hall => ?_, fun hall j _ => hall j⟩
  exact exists_pass_of_le fun k hk => hall k (by omega)

/-- Room for more than `maxChain` records is as good as any more. -/
theorem passes_room (h : maxChain < room) :
    r.passes target c room 0 = r.passes target c maxNesting 0 := by
  have hmax : maxChain < maxNesting := by decide
  cases hpasses : r.passes target c maxNesting 0 with
  | ok added =>
    obtain ⟨room, rfl⟩ := Nat.exists_eq_succ_of_ne_zero (Nat.ne_zero_of_lt h)
    exact passes_eq_ok_iff.2 (passes_eq_ok_iff.1 hpasses)
  | error halt =>
    cases halt with
    | failed e =>
      exact (passes_eq_failed_iff_of_lt h).2 ((passes_eq_failed_iff_of_lt hmax).1 hpasses)
    | overflow =>
      exact (passes_eq_overflow_iff_of_lt h).2 ((passes_eq_overflow_iff_of_lt hmax).1 hpasses)

theorem contributions_room (hn : r.resolve target = .ok n) (hrecord : n.record? = some c)
    (h : maxChain < room) :
    r.contributions target room c 0 = r.contributions target maxNesting c 0 := by
  rw [contributions_eq hn hrecord, contributions_eq hn hrecord, passes_room h]

/-- Records that have the same passes are described alike. -/
theorem describeRecord_congr {r' : Resolver} {c' : Record}
    (hpass : ∀ depth, r'.pass target c' depth = r.pass target c depth)
    (hself : r'.listsItself target c' = r.listsItself target c) (name : String) :
    r'.describeRecord name target c' = r.describeRecord name target c := by
  have hpasses : ∀ room depth,
      r'.passes target c' room depth = r.passes target c room depth := fun room => by
    induction room with
    | zero => exact fun _ => rfl
    | succ room ih =>
      intro depth
      rw [passes, passes, hpass, hself, ih]
  rw [describeRecord, describeRecord, hpasses]

variable {name : String} {d : Description}

/-- Only a record that is not among its own public members is described, and that in one pass. -/
theorem describeRecord_eq_ok_iff_pass :
    r.describeRecord name target c = .ok d ↔
      r.listsItself target c = false ∧ ∃ added, r.pass target c 0 = .ok added ∧
        d = added.foldl Contribution.addTo (.named name) := by
  simp only [describeRecord, Outcome.map_eq_ok, show maxNesting = 99 + 1 from rfl,
    passes_eq_ok_iff, and_assoc, exists_and_left, eq_comm (b := d)]

theorem describeRecord_eq_error_iff {h : Halt} :
    r.describeRecord name target c = .error h ↔ r.passes target c maxNesting 0 = .error h := by
  rw [describeRecord]
  cases r.passes target c maxNesting 0 <;> simp [Functor.map, Except.map]

/-- A record is refused with the first error of a pass, where only a record that is among its own
public members takes more passes than one. -/
theorem describeRecord_eq_failed_iff :
    r.describeRecord name target c = .error (.failed e) ↔
      ∃ depth, (depth = 0 ∨ r.listsItself target c = true) ∧
        (∀ k < depth, ∃ added, r.pass target c k = .ok added) ∧
          r.pass target c depth = .error e :=
  describeRecord_eq_error_iff.trans (passes_eq_failed_iff_of_lt (by decide))

/-- The program runs out of room over a record that is among its own public members if no pass over
it ends in an error, and over no other. -/
theorem describeRecord_eq_overflow_iff :
    r.describeRecord name target c = .error .overflow ↔
      r.listsItself target c = true ∧ ∀ depth, ∃ added, r.pass target c depth = .ok added :=
  describeRecord_eq_error_iff.trans (passes_eq_overflow_iff_of_lt (by decide))

end

end Resolver

section
variable {d : Document} {name : String} {onlyIn : List String} {r : Resolver} {target : NodeId}
  {c : Record}

/-- A class is described by passes over its record. -/
theorem describe_eq_describeRecord (hr : (Resolver.ofDocument d).restrict onlyIn = .ok r)
    (hlocate : r.locate name = .ok (target, c)) :
    describe d name onlyIn = r.describeRecord name target c := by
  obtain ⟨n, hn, hrecord⟩ :=
    Resolver.resolve_of_locate (Resolver.pairwise_nodes_of_restrict hr) hlocate
  unfold describe
  rw [hr]
  show ((r.locate name).mapError Halt.failed >>= _) = _
  rw [hlocate]
  show ((r.resolve target).mapError Halt.failed >>= _) = _
  rw [hn]
  show ((r.describer target _).visit n 0 >>= _) = _
  rw [Resolver.visit_record (Resolver.of_resolve_eq_ok hn).2 hrecord,
    Resolver.contributions_eq hn hrecord, Resolver.describeRecord]
  cases r.passes target c Resolver.maxNesting 0 <;> rfl

theorem of_describe_eq_ok {desc : Description} (h : describe d name onlyIn = .ok desc) :
    ∃ r target c, (Resolver.ofDocument d).restrict onlyIn = .ok r ∧
      r.locate name = .ok (target, c) ∧ r.describeRecord name target c = .ok desc := by
  obtain ⟨r, hr, hlocated⟩ := Outcome.bind_eq_ok.1 h
  obtain ⟨⟨target, c⟩, hlocate, -⟩ := Outcome.bind_eq_ok.1 hlocated
  rw [Outcome.mapError_eq_ok] at hr hlocate
  rw [describe_eq_describeRecord hr hlocate] at h
  exact ⟨r, target, c, hr, hlocate, h⟩

theorem describe_of_restrict_error {e : Error}
    (h : (Resolver.ofDocument d).restrict onlyIn = .error e) :
    describe d name onlyIn = .error (.failed e) := by
  unfold describe
  rw [h]
  rfl

theorem describe_of_restrict (hr : (Resolver.ofDocument d).restrict onlyIn = .ok r) :
    describe d name onlyIn =
      (r.locate name).mapError .failed >>= fun found => r.describeRecord name found.1 found.2 := by
  cases hlocate : r.locate name with
  | error e =>
    unfold describe
    rw [hr]
    show ((r.locate name).mapError Halt.failed >>= _) = _
    rw [hlocate]
    rfl
  | ok found => exact describe_eq_describeRecord hr hlocate

end

end Bindery.Ast
