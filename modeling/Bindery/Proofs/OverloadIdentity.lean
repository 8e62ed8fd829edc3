import Bindery.Method.Key
import Bindery.Proofs.MapLookup
import Mathlib.Data.List.Forall2

/-!
# What overloads are known by

The comparison of method keys, the test for the same overload and what a hasher is fed are three
definitions of their own. All of them go by the name and the names and types of the arguments
(`SameOverload`): the comparison orders the keys as far as these tell them apart, and what is fed
tells as many keys apart, since a value fed to a hasher can be read off again from in front of
anything else (`TypeTerm.feed_append_inj`). So it makes no difference in which kind of map overloads
are kept (`hashed_getElem?`).
-/

namespace Bindery

/-- The comparison orders the values, up to being the same. -/
structure Orders {α : Type} (cmp : α → α → Ordering) (same : α → α → Prop) : Prop where
  exactlyOne : ∀ a b,
    cmp a b = .lt ∧ ¬ same a b ∧ cmp b a ≠ .lt ∨
    cmp a b ≠ .lt ∧ same a b ∧ cmp b a ≠ .lt ∨
    cmp a b ≠ .lt ∧ ¬ same a b ∧ cmp b a = .lt
  swap : ∀ a b, cmp b a = (cmp a b).swap
  lt_trans : ∀ a b c, cmp a b = .lt → cmp b c = .lt → cmp a c = .lt
  isLE_trans : ∀ a b c, (cmp a b).isLE → (cmp b c).isLE → (cmp a c).isLE
  eq_iff : ∀ a b, cmp a b = .eq ↔ same a b

theorem Orders.of_transCmp {α : Type} {cmp : α → α → Ordering} [Std.TransCmp cmp]
    {same : α → α → Prop} (h : ∀ a b, cmp a b = .eq ↔ same a b) : Orders cmp same where
  exactlyOne a b := by
    cases hab : cmp a b with
    | lt =>
      have hba : cmp b a = .gt := Std.OrientedCmp.gt_iff_lt.2 hab
      simp [← h, hab, hba]
    | eq =>
      have hba : cmp b a = .eq := Std.OrientedCmp.eq_symm hab
      simp [← h, hab, hba]
    | gt =>
      have hba : cmp b a = .lt := Std.OrientedCmp.gt_iff_lt.1 hab
      simp [← h, hab, hba]
  swap _ _ := Std.OrientedCmp.eq_swap
  lt_trans _ _ _ := Std.TransCmp.lt_trans
  isLE_trans _ _ _ := Std.TransCmp.isLE_trans
  eq_iff := h

/-! ### What a hasher is fed -/

/-- Lists of one length are told apart by what they are written to, if their members are, each in
front of anything else. -/
theorem flatMap_append_inj {α β : Type} {f : α → List β} {same : α → α → Prop} {l r : List α}
    {x y : List β} (hlength : l.length = r.length)
    (hf : ∀ a ∈ l, ∀ b x y, f a ++ x = f b ++ y → same a b ∧ x = y)
    (h : l.flatMap f ++ x = r.flatMap f ++ y) : List.Forall₂ same l r ∧ x = y := by
  induction l generalizing r with
  | nil =>
    obtain rfl := List.length_eq_zero_iff.1 hlength.symm
    exact ⟨.nil, h⟩
  | cons a l ih =>
    cases r with
    | nil => cases hlength
    | cons b r =>
      obtain ⟨ha, hl⟩ := List.forall_mem_cons.1 hf
      rw [List.flatMap_cons, List.flatMap_cons, List.append_assoc, List.append_assoc] at h
      obtain ⟨hab, h⟩ := ha b _ _ h
      obtain ⟨hrest, hxy⟩ := ih (Nat.succ.inj hlength) hl h
      exact ⟨.cons hab hrest, hxy⟩

namespace TypeTerm

theorem feedAll_eq (l : List TypeTerm) : feedAll l = l.flatMap feed := by
  induction l with
  | nil => rfl
  | cons t rest ih => rw [feedAll, ih, List.flatMap_cons]

theorem feed_append_inj {s t : TypeTerm} {x y : List HashInput}
    (h : s.feed ++ x = t.feed ++ y) : s = t ∧ x = y := by
  induction s using TypeTerm.induction generalizing t x y with
  | atomic a =>
    cases t with
    | atomic b => simpa [feed] using h
    | _ => simp [feed] at h
  | template a as ih =>
    cases t with
    | template b bs =>
      simp only [feed, feedAll_eq, List.cons_append, List.cons.injEq, HashInput.text.injEq,
        HashInput.number.injEq, true_and] at h
      obtain ⟨rfl, hlength, h⟩ := h
      obtain ⟨hargs, hxy⟩ := flatMap_append_inj hlength (fun s hs t x y => ih s hs) h
      rw [List.forall₂_eq_eq_eq] at hargs
      exact ⟨hargs ▸ rfl, hxy⟩
    | _ => simp [feed] at h
  | refined r s ih =>
    cases t with
    | refined q t =>
      simp only [feed, List.cons_append, List.cons.injEq, HashInput.number.injEq, true_and] at h
      obtain ⟨hrank, h⟩ := h
      obtain ⟨rfl, hxy⟩ := ih h
      exact ⟨Refinement.rank_inj hrank ▸ rfl, hxy⟩
    | _ => simp [feed] at h

end TypeTerm

namespace MethodKey
variable {a b : MethodKey}

/-- The names are equal, and the arguments agree one by one in name and type. -/
def SameOverload (a b : MethodKey) : Prop :=
  a.name = b.name ∧ List.Forall₂ (fun x y => x.name = y.name ∧ x.type = y.type) a.args b.args

theorem identity_eq_iff : a.identity = b.identity ↔ SameOverload a b := by
  rw [identity, identity, Prod.mk.injEq, SameOverload, ← List.forall₂_eq_eq_eq,
    List.forall₂_map_left_iff, List.forall₂_map_right_iff]
  simp only [Prod.mk.injEq]

theorem same_iff : a.same b = true ↔ SameOverload a b := by
  rw [same, beq_iff_eq, cmp_eq_iff, identity_eq_iff]

theorem feed_eq_iff : a.feed = b.feed ↔ SameOverload a b := by
  constructor
  · intro h
    simp only [feed, List.cons.injEq, HashInput.text.injEq, HashInput.number.injEq] at h
    obtain ⟨hname, hlength, h⟩ := h
    refine ⟨hname, (flatMap_append_inj hlength ?_ (congrArg (· ++ []) h)).1⟩
    intro x _ y l r hxy
    simp only [List.cons_append, List.cons.injEq, HashInput.text.injEq] at hxy
    obtain ⟨htype, hlr⟩ := TypeTerm.feed_append_inj hxy.2
    exact ⟨⟨hxy.1, htype⟩, hlr⟩
  · rintro ⟨hname, hargs⟩
    have hlist : a.args.flatMap (fun x => .text x.name :: x.type.feed) =
        b.args.flatMap fun x => .text x.name :: x.type.feed := by
      generalize a.args = l, b.args = r at hargs
      induction hargs with
      | nil => rfl
      | cons hxy _ ih => rw [List.flatMap_cons, List.flatMap_cons, ih, hxy.1, hxy.2]
    rw [feed, feed, hname, hargs.length_eq, hlist]

/-- Equal keys have equal hashes. -/
theorem hash_eq_of_sameOverload (h : SameOverload a b) : hash a = hash b :=
  congrArg HashInput.digest (feed_eq_iff.2 h)

end MethodKey

/-! ### Maps of overloads -/

/-- A key that is told from others by the test for the same overload. -/
structure Overload where
  key : MethodKey

namespace Overload

instance : BEq Overload := ⟨fun a b => a.key.same b.key⟩

instance : Hashable Overload := ⟨fun a => hash a.key⟩

theorem beq_iff {a b : Overload} : (a == b) = true ↔ MethodKey.cmp a.key b.key = .eq := by
  show (MethodKey.cmp a.key b.key == .eq) = true ↔ _
  exact beq_iff_eq

instance : EquivBEq Overload where
  rfl := beq_iff.2 Std.ReflCmp.compare_self
  symm h := beq_iff.2 (Std.OrientedCmp.eq_symm (beq_iff.1 h))
  trans h₁ h₂ := beq_iff.2 (Std.TransCmp.eq_trans (beq_iff.1 h₁) (beq_iff.1 h₂))

instance : LawfulHashable Overload where
  hash_eq _ _ h := MethodKey.hash_eq_of_sameOverload (MethodKey.same_iff.1 h)

/-- The entries in a hashed map, entered in order. -/
def hashed {β : Type} (entries : List (MethodKey × β)) : Std.HashMap Overload β :=
  entries.foldl (fun m e => m.insert ⟨e.1⟩ e.2) ∅

/-- Hashed or in order, the same entries are found. -/
theorem hashed_getElem? {β : Type} (entries : List (MethodKey × β)) (k : MethodKey) :
    (hashed entries)[(⟨k⟩ : Overload)]? =
      (SortedMap.ofList entries : SortedMap MethodKey MethodKey.cmp β).get? k := by
  suffices h : ∀ (m : Std.HashMap Overload β) (n : SortedMap MethodKey MethodKey.cmp β),
      (∀ k, m[(⟨k⟩ : Overload)]? = n.get? k) →
        (entries.foldl (fun m e => m.insert ⟨e.1⟩ e.2) m)[(⟨k⟩ : Overload)]? =
          (n.insertAll entries).get? k from
    h ∅ .empty fun _ => Std.HashMap.getElem?_empty
  intro m n hmn
  induction entries generalizing m n with
  | nil => exact hmn k
  | cons e rest ih =>
    refine ih _ _ fun k => ?_
    have hkey : ((⟨e.1⟩ : Overload) == ⟨k⟩) = true ↔ MethodKey.cmp k e.1 = .eq :=
      beq_iff.trans ⟨Std.OrientedCmp.eq_symm, Std.OrientedCmp.eq_symm⟩
    rw [Std.HashMap.getElem?_insert, SortedMap.get?, SortedMap.find?_insert]
    by_cases hk : MethodKey.cmp k e.1 = .eq
    · rw [if_pos (hkey.2 hk), if_pos hk]
      rfl
    · rw [if_neg (mt hkey.1 hk), if_neg hk]
      exact hmn k

end Overload

/-- Method keys are in order up to being the same overload, whatever their defaults. The test for
the same overload and what a hasher is fed go by that too, and so does what is found in a map,
hashed or in order. Terms are in order and equal only to themselves. -/
theorem overloads_ordered :
    Orders MethodKey.cmp MethodKey.SameOverload ∧
      (∀ a b : MethodKey, a.same b = true ↔ a.SameOverload b) ∧
      (∀ a b : MethodKey, a.feed = b.feed ↔ a.SameOverload b) ∧
      (∀ (β : Type) (entries : List (MethodKey × β)) (k : MethodKey),
        (Overload.hashed entries)[(⟨k⟩ : Overload)]? =
          (SortedMap.ofList entries : SortedMap MethodKey MethodKey.cmp β).get? k) ∧
      Orders TypeTerm.cmp Eq :=
  ⟨.of_transCmp fun _ _ => MethodKey.cmp_eq_iff.trans MethodKey.identity_eq_iff,
    fun _ _ => MethodKey.same_iff, fun _ _ => MethodKey.feed_eq_iff,
    fun _ => Overload.hashed_getElem?, .of_transCmp TypeTerm.cmp_eq_iff⟩

example :
    let plain : MethodKey := ⟨"write", [⟨"path", .str, none⟩]⟩
    let defaulted : MethodKey := ⟨"write", [⟨"path", .str, some "out"⟩]⟩
    plain ≠ defaulted ∧ plain.same defaulted = true ∧ plain.feed = defaulted.feed := by
  decide

end Bindery
