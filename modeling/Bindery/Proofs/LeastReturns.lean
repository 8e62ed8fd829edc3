import Bindery.Proofs.ExpandedSignatures

/-!
# What a call returns

A call gives some leading arguments of an overload and leaves the rest to their defaults
(`MethodKey.Covers`). Several overloads may cover one call. Of what they return the expanded
signatures show the least, once for each call that is covered at all: `signatures_least_return`.
-/

namespace Bindery

namespace MethodKey
variable {key k : MethodKey}

/-- A call by the arguments of `k` is one of the overload `key`: they are the first of its arguments
by name and type, and all others have defaults. -/
structure Covers (key k : MethodKey) : Prop where
  name : key.name = k.name
  args : k.args.map (fun a => (a.name, a.type)) <+: key.args.map fun a => (a.name, a.type)
  defaults : ∀ a ∈ key.args.drop k.args.length, a.default?.isSome = true

theorem covers_of_append {args rest : List Argument} (hargs : key.args = args ++ rest)
    (hrest : ∀ a ∈ rest, a.default?.isSome = true) :
    Covers key ⟨key.name, args.map Argument.withoutDefault⟩ where
  name := rfl
  args := by
    rw [hargs, List.map_map, List.map_append]
    exact List.prefix_append ..
  defaults := by
    rwa [hargs, List.length_map, List.drop_left]

/-- A bare call that an overload covers has the overload's own arguments, apart from the defaults. -/
theorem Covers.eq_of_bare (h : key.Covers k) (hbare : k.IsBare) :
    k = ⟨key.name, (key.args.take k.args.length).map Argument.withoutDefault⟩ := by
  have htaken : IsBare ⟨key.name, (key.args.take k.args.length).map Argument.withoutDefault⟩ := by
    intro a ha
    obtain ⟨b, -, rfl⟩ := List.mem_map.1 ha
    rfl
  refine hbare.eq_of_cmp htaken (cmp_eq_iff.2 (Prod.ext h.name.symm ?_))
  have hprefix := List.prefix_iff_eq_take.1 h.args
  rw [List.length_map, ← List.map_take] at hprefix
  rw [identity, identity, List.map_map]
  exact hprefix

end MethodKey

namespace Methods
variable {m : Methods} {k : MethodKey} {r : Option TypeTerm}

/-- Some overload covers the call and returns this. -/
def Returns (m : Methods) (k : MethodKey) (r : Option TypeTerm) : Prop :=
  ∃ e ∈ m.entries, e.1.Covers k ∧ e.2 = r

/-- What is on offer are the bare calls that are covered. -/
theorem offers_iff_returns : m.Offers (k, r) ↔ k.IsBare ∧ m.Returns k r := by
  constructor
  · intro h
    refine ⟨h.isBare, ?_⟩
    obtain ⟨e, he, args, rest, hargs, hrest, heq⟩ := h
    obtain ⟨rfl, rfl⟩ := Prod.mk.inj heq
    exact ⟨e, he, MethodKey.covers_of_append hargs hrest, rfl⟩
  · rintro ⟨hbare, e, he, hcovers, rfl⟩
    refine ⟨e, he, e.1.args.take k.args.length, e.1.args.drop k.args.length,
      (List.take_append_drop ..).symm, hcovers.defaults, ?_⟩
    exact Prod.ext (hcovers.eq_of_bare hbare) rfl

theorem exists_mem_signatures (h : m.Offers (k, r)) : ∃ r', (k, r') ∈ m.signatures := by
  -- what stays of equal keys is bare as well, so it is this very call
  obtain ⟨⟨k', r'⟩, hmem, hcmp, -⟩ :=
    Signature.exists_mem_dropRepeated m.pairwise_sortedOffers (mem_sortedOffers_iff.2 h)
  have hbare : k'.IsBare := (mem_signatures_iff.1 hmem).1.isBare
  obtain rfl : k' = k := hbare.eq_of_cmp h.isBare hcmp
  exact ⟨r', hmem⟩

/-- The expanded signatures rise strictly in key order and have no defaults left. A call is among
them if and only if some overload covers it, with the least of what these overloads return. -/
theorem signatures_least_return (m : Methods) :
    m.signatures.Pairwise (fun s t => MethodKey.cmp s.1 t.1 = .lt) ∧
      (∀ s ∈ m.signatures, s.1.IsBare) ∧
      (∀ k r, k.IsBare → ((k, r) ∈ m.signatures ↔
        m.Returns k r ∧ ∀ r', m.Returns k r' → (cmpReturns r r').isLE = true)) ∧
      ∀ k, k.IsBare → ((∃ r, (k, r) ∈ m.signatures) ↔ ∃ e ∈ m.entries, e.1.Covers k) := by
  have hbare : ∀ s ∈ m.signatures, s.1.IsBare := fun s hs => (mem_signatures_iff.1 hs).1.isBare
  refine ⟨m.pairwise_signatures, hbare, fun k r hk => ?_, fun k hk => ⟨?_, ?_⟩⟩
  · simp only [mem_signatures_iff, offers_iff_returns, hk, true_and]
  · rintro ⟨r, hr⟩
    obtain ⟨-, e, he, hcovers, -⟩ := offers_iff_returns.1 (mem_signatures_iff.1 hr).1
    exact ⟨e, he, hcovers⟩
  · rintro ⟨e, he, hcovers⟩
    exact exists_mem_signatures (offers_iff_returns.2 ⟨hk, e, he, hcovers, rfl⟩)

/-- Two ways to write a file that both take no arguments, one of them by its defaults. -/
def writers : Methods :=
  (SortedMap.empty.insert ⟨"write", []⟩ (some .void)).insert
    ⟨"write", [⟨"path", .str, some "\"out.txt\""⟩]⟩ (some (.atomic "int32"))

theorem signatures_least_return_write :
    MethodKey.IsBare ⟨"write", []⟩ ∧
      writers.Returns ⟨"write", []⟩ (some .void) ∧
      writers.Returns ⟨"write", []⟩ (some (.atomic "int32")) ∧
      (⟨"write", []⟩, some (.atomic "int32")) ∈ writers.signatures := by
  have hbare : MethodKey.IsBare ⟨"write", []⟩ := nofun
  obtain ⟨-, -, hleast, -⟩ := signatures_least_return writers
  have hvoid : writers.Returns ⟨"write", []⟩ (some .void) :=
    ⟨_, List.mem_cons_self .., ⟨rfl, List.nil_prefix, nofun⟩, rfl⟩
  have hnumber : writers.Returns ⟨"write", []⟩ (some (.atomic "int32")) :=
    ⟨_, List.mem_cons_of_mem _ (List.mem_cons_self ..), ⟨rfl, List.nil_prefix, by decide⟩, rfl⟩
  refine ⟨hbare, hvoid, hnumber, (hleast _ _ hbare).2 ⟨hnumber, ?_⟩⟩
  rintro r ⟨e, he, -, rfl⟩
  have hboth : ∀ e ∈ writers.entries,
      (cmpReturns (some (.atomic "int32")) e.2).isLE = true := by decide
  exact hboth e he

end Methods

end Bindery
