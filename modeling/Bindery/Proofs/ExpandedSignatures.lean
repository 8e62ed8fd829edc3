import Bindery.Description.Signatures
import Bindery.Proofs.MapLookup
import Bindery.Proofs.TrailingDefaults

/-!
# Which overloads are on offer

`Methods.Offers` says of an overload that an entry has its arguments, and defaults for all that
follow them. The expanded signatures are the overloads on offer, each key once and in key order, with
the least of the return types that it is offered with (`pairwise_signatures`, `mem_signatures_iff`).
So they hang on nothing but what is on offer (`signatures_congr`).
-/

namespace Bindery

namespace MethodKey
variable {k k' : MethodKey}

/-- A key without default literals. -/
def IsBare (k : MethodKey) : Prop := ∀ a ∈ k.args, a.default? = none

theorem IsBare.map_withoutDefault (h : k.IsBare) : k.args.map Argument.withoutDefault = k.args := by
  refine (List.map_congr_left fun a ha => ?_).trans (List.map_id _)
  rw [Argument.withoutDefault, ← h a ha]
  rfl

/-- Without defaults there is nothing to a key but its identity. -/
theorem IsBare.eq_of_cmp (h : k.IsBare) (h' : k'.IsBare) (heq : cmp k k' = .eq) : k = k' := by
  obtain ⟨hname, hargs⟩ := Prod.ext_iff.1 (cmp_eq_iff.1 heq)
  have hrebuild : ∀ {k : MethodKey}, k.IsBare →
      k.args = k.identity.2.map fun p => ⟨p.1, p.2, none⟩ := by
    intro k hk
    rw [← hk.map_withoutDefault, identity, List.map_map]
    rfl
  have hsame : k.args = k'.args := by rw [hrebuild h, hrebuild h', hargs]
  cases k
  cases k'
  cases hsame
  cases hname
  rfl

/-- An overload stands for its own arguments and for those that are left without some of its
trailing defaults. -/
theorem mem_expand_iff :
    k' ∈ k.expand ↔ ∃ args rest, k.args = args ++ rest ∧ (∀ a ∈ rest, a.default?.isSome = true) ∧
      k' = ⟨k.name, args.map Argument.withoutDefault⟩ := by
  simp only [expand, List.mem_map, List.mem_range]
  constructor
  · rintro ⟨i, hi, rfl⟩
    refine ⟨k.args.take (k.args.length - i), k.args.drop (k.args.length - i),
      (List.take_append_drop ..).symm, mandatory_le_iff.1 ?_, rfl⟩
    have hbound := mandatory_le_length k.args
    rw [firstDefaulted] at hi
    omega
  · rintro ⟨args, rest, hk, hrest, rfl⟩
    have hmandatory : mandatory k.args ≤ args.length := by
      rw [mandatory_le_iff, hk, List.drop_left]
      exact hrest
    refine ⟨rest.length, ?_, ?_⟩
    · rw [firstDefaulted, hk, List.length_append]
      rw [hk] at hmandatory
      omega
    · rw [shortened, hk, List.length_append, Nat.add_sub_cancel, List.take_left]

end MethodKey

/-! ### Order -/

instance : Std.TransCmp cmpReturns where
  eq_swap {a b} := by
    cases a <;> cases b <;> try rfl
    exact TypeTerm.cmp_swap _ _
  isLE_trans {a b c} h₁ h₂ := by
    cases b with
    | none =>
      cases a with
      | none => exact h₂
      | some s => cases h₁
    | some t =>
      cases c with
      | none => cases h₂
      | some u =>
        cases a with
        | none => rfl
        | some s =>
          have hst : (TypeTerm.cmp s t).isLE = true := h₁
          have hsu : (TypeTerm.cmp s u).isLE = true := Std.TransCmp.isLE_trans hst h₂
          exact hsu

theorem cmpReturns_eq_iff {a b : Option TypeTerm} : cmpReturns a b = .eq ↔ a = b := by
  cases a <;> cases b <;> simp [cmpReturns]

namespace Signature

instance : Std.TransCmp cmp := by
  have keys : Std.TransCmp fun a b : Signature => MethodKey.cmp a.1 b.1 :=
    { eq_swap := Std.OrientedCmp.eq_swap, isLE_trans := Std.TransCmp.isLE_trans }
  have returns : Std.TransCmp fun a b : Signature => cmpReturns a.2 b.2 :=
    { eq_swap := Std.OrientedCmp.eq_swap, isLE_trans := Std.TransCmp.isLE_trans }
  exact inferInstanceAs (Std.TransCmp
    (compareLex (fun a b : Signature => MethodKey.cmp a.1 b.1) fun a b => cmpReturns a.2 b.2))

variable {a b s t : Signature} {l : List Signature}

theorem cmp_of_same_key (k : MethodKey) (r r' : Option TypeTerm) :
    cmp (k, r) (k, r') = cmpReturns r r' := by
  have hself : MethodKey.cmp k k = .eq := Std.ReflCmp.compare_self
  rw [cmp, hself]
  rfl

theorem key_lt_of_isLE (h : (cmp a b).isLE = true) (hne : MethodKey.cmp b.1 a.1 ≠ .eq) :
    MethodKey.cmp a.1 b.1 = .lt := by
  rw [cmp] at h
  cases hkey : MethodKey.cmp a.1 b.1 with
  | lt => rfl
  | eq => exact absurd (Std.OrientedCmp.eq_symm hkey) hne
  | gt => rw [hkey] at h; cases h

/-! ### Repeated keys -/

theorem dropAfter_sublist (a : Signature) (l : List Signature) :
    (dropRepeated.dropAfter a l).Sublist l := by
  induction l generalizing a with
  | nil => exact .slnil
  | cons b rest ih =>
    rw [dropRepeated.dropAfter]
    split
    · exact (ih a).cons b
    · exact (ih b).cons_cons b

theorem dropRepeated_sublist (l : List Signature) : (dropRepeated l).Sublist l := by
  cases l with
  | nil => exact .slnil
  | cons a rest => exact (dropAfter_sublist a rest).cons_cons a

/-- In a sorted list the keys that are kept rise strictly. -/
theorem pairwise_cons_dropAfter (h : (a :: l).Pairwise fun a b => (cmp a b).isLE = true) :
    (a :: dropRepeated.dropAfter a l).Pairwise fun a b => MethodKey.cmp a.1 b.1 = .lt := by
  induction l generalizing a with
  | nil => exact List.pairwise_singleton ..
  | cons b rest ih =>
    obtain ⟨ha, hrest⟩ := List.pairwise_cons.1 h
    rw [dropRepeated.dropAfter]
    split
    next => exact ih (h.sublist ((List.sublist_cons_self b rest).cons_cons a))
    next hne =>
      have hab : MethodKey.cmp a.1 b.1 = .lt :=
        key_lt_of_isLE (ha b (List.mem_cons_self ..)) (by simpa [MethodKey.same] using hne)
      have hkept := ih hrest
      refine List.pairwise_cons.2 ⟨fun c hc => ?_, hkept⟩
      rcases List.mem_cons.1 hc with rfl | hc
      · exact hab
      · exact Std.TransCmp.lt_trans hab ((List.pairwise_cons.1 hkept).1 c hc)

theorem pairwise_dropRepeated (h : l.Pairwise fun a b => (cmp a b).isLE = true) :
    (dropRepeated l).Pairwise fun a b => MethodKey.cmp a.1 b.1 = .lt := by
  cases l with
  | nil => exact .nil
  | cons a rest => exact pairwise_cons_dropAfter h

/-- For every signature one with the same key is kept that does not come after it. -/
theorem exists_mem_dropAfter (h : (a :: l).Pairwise fun a b => (cmp a b).isLE = true)
    (hs : s ∈ a :: l) : ∃ t ∈ a :: dropRepeated.dropAfter a l,
      MethodKey.cmp t.1 s.1 = .eq ∧ (cmp t s).isLE = true := by
  induction l generalizing a with
  | nil =>
    obtain rfl := List.mem_singleton.1 hs
    exact ⟨s, List.mem_cons_self .., Std.ReflCmp.compare_self, Std.ReflCmp.isLE_rfl⟩
  | cons b rest ih =>
    obtain ⟨ha, hrest⟩ := List.pairwise_cons.1 h
    have hskip := h.sublist ((List.sublist_cons_self b rest).cons_cons a)
    rcases List.mem_cons.1 hs with rfl | hs
    · exact ⟨s, List.mem_cons_self .., Std.ReflCmp.compare_self, Std.ReflCmp.isLE_rfl⟩
    rw [dropRepeated.dropAfter]
    split
    next hsame =>
      rcases List.mem_cons.1 hs with rfl | hs
      · refine ⟨a, List.mem_cons_self .., ?_, ha s (List.mem_cons_self ..)⟩
        exact Std.OrientedCmp.eq_symm (by simpa [MethodKey.same] using hsame)
      · exact ih hskip (List.mem_cons_of_mem a hs)
    next =>
      obtain ⟨t, ht, hkey, hle⟩ := ih hrest hs
      exact ⟨t, List.mem_cons_of_mem a ht, hkey, hle⟩

theorem exists_mem_dropRepeated (h : l.Pairwise fun a b => (cmp a b).isLE = true) (hs : s ∈ l) :
    ∃ t ∈ dropRepeated l, MethodKey.cmp t.1 s.1 = .eq ∧ (cmp t s).isLE = true := by
  cases l with
  | nil => cases hs
  | cons a rest => exact exists_mem_dropAfter h hs

end Signature

namespace Methods
variable {m n : Methods} {s : Signature}

/-- The overload may be called: some entry has its arguments, and defaults for all that follow
them. -/
def Offers (m : Methods) (s : Signature) : Prop :=
  ∃ e ∈ m.entries, ∃ args rest, e.1.args = args ++ rest ∧
    (∀ a ∈ rest, a.default?.isSome = true) ∧
      s = (⟨e.1.name, args.map Argument.withoutDefault⟩, e.2)

/-- The overloads that the entries stand for, in order and with repetitions. -/
def sortedOffers (m : Methods) : List Signature :=
  (m.entries.flatMap fun e => e.1.expand.map fun k => (k, e.2)).mergeSort
    fun a b => (Signature.cmp a b).isLE

theorem signatures_eq (m : Methods) : m.signatures = Signature.dropRepeated m.sortedOffers := rfl

theorem mem_sortedOffers_iff : s ∈ m.sortedOffers ↔ m.Offers s := by
  simp only [sortedOffers, List.mem_mergeSort, List.mem_flatMap, List.mem_map,
    MethodKey.mem_expand_iff]
  constructor
  · rintro ⟨e, he, k, ⟨args, rest, hargs, hrest, rfl⟩, rfl⟩
    exact ⟨e, he, args, rest, hargs, hrest, rfl⟩
  · rintro ⟨e, he, args, rest, hargs, hrest, rfl⟩
    exact ⟨e, he, _, ⟨args, rest, hargs, hrest, rfl⟩, rfl⟩

theorem pairwise_sortedOffers (m : Methods) :
    m.sortedOffers.Pairwise fun a b => (Signature.cmp a b).isLE = true := by
  refine List.pairwise_mergeSort (fun a b c => Std.TransCmp.isLE_trans) (fun a b => ?_) _
  have hswap : Signature.cmp b a = (Signature.cmp a b).swap := Std.OrientedCmp.eq_swap
  rw [hswap]
  cases Signature.cmp a b <;> rfl

theorem Offers.isBare (h : m.Offers s) : s.1.IsBare := by
  obtain ⟨e, -, args, rest, -, -, rfl⟩ := h
  intro a ha
  obtain ⟨b, -, rfl⟩ := List.mem_map.1 ha
  rfl

/-- Signatures stand in key order, no key twice. -/
theorem pairwise_signatures (m : Methods) :
    m.signatures.Pairwise fun a b => MethodKey.cmp a.1 b.1 = .lt :=
  Signature.pairwise_dropRepeated m.pairwise_sortedOffers

/-- A signature is an overload on offer, with the least type that it is offered with. -/
theorem mem_signatures_iff :
    s ∈ m.signatures ↔ m.Offers s ∧ ∀ r, m.Offers (s.1, r) → (cmpReturns s.2 r).isLE = true := by
  have hsorted := m.pairwise_sortedOffers
  have hkey : ∀ r, cmpReturns s.2 r = Signature.cmp s (s.1, r) := fun r =>
    (Signature.cmp_of_same_key s.1 s.2 r).symm
  simp only [hkey, signatures_eq]
  constructor
  · intro hs
    have hoffer := (Signature.dropRepeated_sublist _).subset hs
    refine ⟨mem_sortedOffers_iff.1 hoffer, fun r hr => ?_⟩
    obtain ⟨t, ht, hts, hle⟩ :=
      Signature.exists_mem_dropRepeated hsorted (mem_sortedOffers_iff.2 hr)
    -- of the signatures that are kept only `s` itself has this key
    obtain rfl : t = s := by
      let kept : Methods := ⟨_, Signature.pairwise_dropRepeated hsorted⟩
      exact SortedMap.eq_of_mem_of_cmp (m := kept) ht hs hts
    exact hle
  · rintro ⟨hoffer, hleast⟩
    obtain ⟨t, ht, hts, hle⟩ :=
      Signature.exists_mem_dropRepeated hsorted (mem_sortedOffers_iff.2 hoffer)
    have htoffer := mem_sortedOffers_iff.1 ((Signature.dropRepeated_sublist _).subset ht)
    have hsame : t.1 = s.1 := htoffer.isBare.eq_of_cmp hoffer.isBare hts
    obtain ⟨key, r⟩ := t
    obtain rfl : key = s.1 := hsame
    have hequal : cmpReturns r s.2 = .eq := by
      rw [← Signature.cmp_of_same_key s.1]
      exact Std.OrientedCmp.isLE_antisymm hle (hleast r htoffer)
    rwa [cmpReturns_eq_iff.1 hequal] at ht

/-- What is not on offer does not show in the signatures. -/
theorem signatures_congr (h : ∀ s, m.Offers s ↔ n.Offers s) : m.signatures = n.signatures := by
  have hsame : (⟨m.signatures, m.pairwise_signatures⟩ : Methods) =
      ⟨n.signatures, n.pairwise_signatures⟩ := by
    refine SortedMap.ext_mem fun s => ?_
    show s ∈ m.signatures ↔ s ∈ n.signatures
    simp only [mem_signatures_iff, h]
  exact congrArg SortedMap.entries hsame

/-! ### Maps without defaults -/

theorem offers_iff_of_bare (h : ∀ e ∈ m.entries, e.1.IsBare) : m.Offers s ↔ s ∈ m.entries := by
  constructor
  · rintro ⟨e, he, args, rest, hargs, hrest, rfl⟩
    cases rest with
    | nil =>
      rw [List.append_nil] at hargs
      rw [← hargs, (h e he).map_withoutDefault]
      exact he
    | cons a rest =>
      have hnone := h e he a (hargs ▸ List.mem_append_right args (List.mem_cons_self ..))
      have hsome := hrest a (List.mem_cons_self ..)
      rw [hnone] at hsome
      cases hsome
  · intro hs
    refine ⟨s, hs, s.1.args, [], (List.append_nil _).symm, nofun, ?_⟩
    rw [(h s hs).map_withoutDefault]

/-- Where nothing has a default, the entries are the signatures. -/
theorem signatures_of_bare (h : ∀ e ∈ m.entries, e.1.IsBare) : m.signatures = m.entries := by
  have hsame : (⟨m.signatures, m.pairwise_signatures⟩ : Methods) = m := by
    refine SortedMap.ext_mem fun s => ?_
    show s ∈ m.signatures ↔ s ∈ m.entries
    rw [mem_signatures_iff, offers_iff_of_bare h]
    refine ⟨fun hs => hs.1, fun hs => ⟨hs, fun r hr => ?_⟩⟩
    rw [offers_iff_of_bare h] at hr
    have hsame := SortedMap.eq_of_mem_of_cmp hs hr Std.ReflCmp.compare_self
    rw [hsame]
    exact Std.ReflCmp.isLE_rfl
  exact congrArg SortedMap.entries hsame

end Methods

end Bindery
