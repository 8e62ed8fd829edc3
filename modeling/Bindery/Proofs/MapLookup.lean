import Bindery.SortedMap

/-!
# What is found in a map

Of the entries that are entered under one key the last stays: `find?_insertAll` and `find?_overlay`
say so of look-ups, `mem_ofList_iff` of the stored entries. A map is told by its own entries
(`ofList_entries`), and `sortedDistinct` keeps the members of a list and nothing else.
-/

namespace Bindery

namespace SortedMap
variable {κ β : Type} {cmp : κ → κ → Ordering}

theorem find?_eq_none_iff {m : SortedMap κ cmp β} {k : κ} :
    m.find? k = none ↔ ∀ e ∈ m.entries, cmp k e.1 ≠ .eq := by
  simp [find?]

section
variable [Std.TransCmp cmp] {m : SortedMap κ cmp β} {k k' : κ} {e e' : κ × β}

theorem find?_congr (h : cmp k k' = .eq) : m.find? k = m.find? k' := by
  have hkey : ∀ x : κ × β, (cmp k x.1 == .eq) = (cmp k' x.1 == .eq) := fun x => by
    rw [Std.TransCmp.congr_left h]
  simp only [find?, hkey]

theorem find?_eq_some_iff : m.find? k = some e ↔ e ∈ m.entries ∧ cmp k e.1 = .eq := by
  constructor
  · exact mem_of_find?
  · rintro ⟨he, hk⟩
    rw [find?_congr hk]
    exact find?_of_mem he

theorem mem_entries_iff : e ∈ m.entries ↔ m.find? e.1 = some e :=
  ⟨find?_of_mem, fun h => (mem_of_find? h).1⟩

/-- Maps with the same entries are the same. -/
theorem ext_mem {n : SortedMap κ cmp β} (h : ∀ e, e ∈ m.entries ↔ e ∈ n.entries) : m = n :=
  ext_find? fun k => Option.ext fun e => by rw [find?_eq_some_iff, find?_eq_some_iff, h]

/-- Each key is stored once. -/
theorem eq_of_mem_of_cmp (he : e ∈ m.entries) (he' : e' ∈ m.entries) (h : cmp e.1 e'.1 = .eq) :
    e = e' := by
  have hfind : m.find? e.1 = some e' := find?_eq_some_iff.2 ⟨he', h⟩
  rw [find?_of_mem he] at hfind
  exact Option.some.inj hfind

/-- Searching the entries from their end finds no other entry. -/
theorem find?_reverse_entries (m : SortedMap κ cmp β) (k : κ) :
    m.entries.reverse.find? (fun e => cmp k e.1 == .eq) = m.find? k := by
  cases hrev : m.entries.reverse.find? fun e => cmp k e.1 == .eq with
  | none =>
    rw [List.find?_eq_none] at hrev
    refine (find?_eq_none_iff.2 fun e he hk => ?_).symm
    exact hrev e (List.mem_reverse.2 he) (by simp [hk])
  | some e =>
    have he : e ∈ m.entries := List.mem_reverse.1 (List.mem_of_find?_eq_some hrev)
    have hk : cmp k e.1 = .eq := by simpa using List.find?_some hrev
    exact (find?_eq_some_iff.2 ⟨he, hk⟩).symm

/-- Entering a list leaves the last of its entries with the key, or else what was there before. -/
theorem find?_insertAll (m : SortedMap κ cmp β) (l : List (κ × β)) (k : κ) :
    (m.insertAll l).find? k =
      (l.reverse.find? fun e => cmp k e.1 == .eq).or (m.find? k) := by
  induction l generalizing m with
  | nil => rfl
  | cons e rest ih =>
    show ((m.insert e.1 e.2).insertAll rest).find? k = _
    rw [ih, List.reverse_cons, List.find?_append, Option.or_assoc, find?_insert]
    congr 1
    by_cases h : cmp k e.1 = .eq <;> simp [h]

theorem find?_ofList (l : List (κ × β)) (k : κ) :
    (ofList l : SortedMap κ cmp β).find? k = l.reverse.find? fun e => cmp k e.1 == .eq := by
  rw [ofList, find?_insertAll, find?_empty, Option.or_none]

/-- The upper map is asked first. -/
theorem find?_overlay (low high : SortedMap κ cmp β) (k : κ) :
    (low.overlay high).find? k = (high.find? k).or (low.find? k) := by
  rw [overlay, find?_insertAll, find?_reverse_entries]

theorem ofList_entries (m : SortedMap κ cmp β) : ofList m.entries = m :=
  ext_find? fun k => by rw [find?_ofList, find?_reverse_entries]

theorem empty_overlay (m : SortedMap κ cmp β) : (∅ : SortedMap κ cmp β).overlay m = m :=
  ofList_entries m

theorem overlay_assoc (low mid high : SortedMap κ cmp β) :
    (low.overlay mid).overlay high = low.overlay (mid.overlay high) :=
  ext_find? fun k => by simp only [find?_overlay, Option.or_assoc]

theorem mem_overlay {low high : SortedMap κ cmp β} (h : e ∈ (low.overlay high).entries) :
    e ∈ low.entries ∨ e ∈ high.entries := by
  rw [mem_entries_iff, find?_overlay, Option.or_eq_some_iff] at h
  rcases h with h | ⟨-, h⟩
  · exact .inr (mem_of_find? h).1
  · exact .inl (mem_of_find? h).1

/-- The stored entries are those that no later entry of the list has the key of. -/
theorem mem_ofList_iff {l : List (κ × β)} :
    e ∈ (ofList l : SortedMap κ cmp β).entries ↔
      ∃ before after, l = before ++ e :: after ∧ ∀ x ∈ after, cmp e.1 x.1 ≠ .eq := by
  rw [mem_entries_iff, find?_ofList, List.find?_eq_some_iff_append]
  constructor
  · rintro ⟨-, as, bs, hl, has⟩
    refine ⟨bs.reverse, as.reverse, ?_, fun x hx => ?_⟩
    · simpa using congrArg List.reverse hl
    · simpa using has x (List.mem_reverse.1 hx)
  · rintro ⟨before, after, rfl, hafter⟩
    refine ⟨by simp [Std.ReflCmp.compare_self], after.reverse, before.reverse, by simp, ?_⟩
    intro x hx
    simpa using hafter x (List.mem_reverse.1 hx)

/-- The same for entries that the members of a list give, where they give any. -/
theorem mem_ofList_filterMap {α : Type} {g : α → Option (κ × β)} {l : List α} :
    e ∈ (ofList (l.filterMap g) : SortedMap κ cmp β).entries ↔
      ∃ before a after, l = before ++ a :: after ∧ g a = some e ∧
        ∀ a' ∈ after, ∀ e', g a' = some e' → cmp e.1 e'.1 ≠ .eq := by
  rw [mem_ofList_iff]
  constructor
  · rintro ⟨before, after, hl, hafter⟩
    obtain ⟨l₁, l₂, rfl, -, hl₂⟩ := List.filterMap_eq_append_iff.1 hl
    obtain ⟨skipped, a, rest, rfl, -, ha, rfl⟩ := List.filterMap_eq_cons_iff.1 hl₂
    refine ⟨l₁ ++ skipped, a, rest, by simp, ha, fun a' ha' e' he' => ?_⟩
    exact hafter e' (List.mem_filterMap.2 ⟨a', ha', he'⟩)
  · rintro ⟨before, a, after, rfl, ha, hafter⟩
    refine ⟨before.filterMap g, after.filterMap g, by simp [ha], fun x hx => ?_⟩
    obtain ⟨a', ha', he'⟩ := List.mem_filterMap.1 hx
    exact hafter a' ha' x he'

theorem get?_eq_some_iff {v : β} :
    m.get? k = some v ↔ ∃ e ∈ m.entries, cmp k e.1 = .eq ∧ e.2 = v := by
  simp only [get?, Option.map_eq_some_iff, find?_eq_some_iff, and_assoc]

theorem get?_eq_some_iff_mem [Std.LawfulEqCmp cmp] {v : β} :
    m.get? k = some v ↔ (k, v) ∈ m.entries := by
  rw [get?_eq_some_iff]
  constructor
  · rintro ⟨e, he, hk, rfl⟩
    rw [Std.LawfulEqCmp.eq_of_compare hk]; exact he
  · intro he
    exact ⟨_, he, Std.ReflCmp.compare_self, rfl⟩

theorem get?_overlay (low high : SortedMap κ cmp β) (k : κ) :
    (low.overlay high).get? k = (high.get? k).or (low.get? k) := by
  rw [get?, find?_overlay, Option.map_or]; rfl

end

theorem mem_filter {p : κ → β → Bool} {m : SortedMap κ cmp β} {e : κ × β} :
    e ∈ (m.filter p).entries ↔ e ∈ m.entries ∧ p e.1 e.2 = true := by
  simp [filter]

/-- A filtered map shows what it did, where the filter lets it. -/
theorem find?_filter [Std.TransCmp cmp] (p : κ → β → Bool) (m : SortedMap κ cmp β) (k : κ) :
    (m.filter p).find? k = (m.find? k).filter fun e => p e.1 e.2 := by
  ext e
  rw [Option.filter_eq_some_iff, find?_eq_some_iff, find?_eq_some_iff, mem_filter, and_right_comm]

end SortedMap

section
variable {α : Type} {cmp : α → α → Ordering} [Std.TransCmp cmp] {l : List α} {a : α}

theorem mem_sortedDistinct [Std.LawfulEqCmp cmp] : a ∈ sortedDistinct cmp l ↔ a ∈ l := by
  simp only [sortedDistinct, SortedMap.keys, List.mem_map]
  constructor
  · rintro ⟨e, he, rfl⟩
    obtain ⟨before, after, hl, -⟩ := SortedMap.mem_ofList_iff.1 he
    have hmem : e ∈ l.map fun a => (a, ()) := by rw [hl]; simp
    obtain ⟨b, hb, rfl⟩ := List.mem_map.1 hmem
    exact hb
  · intro ha
    -- some entry is found under `a`, and its key can only be `a`
    have hsome : ((l.map fun a => (a, ())).reverse.find? fun e => cmp a e.1 == .eq).isSome := by
      rw [List.find?_isSome]
      exact ⟨(a, ()), by simpa using ha, by simp [Std.ReflCmp.compare_self]⟩
    obtain ⟨e, he⟩ := Option.isSome_iff_exists.1 hsome
    rw [← SortedMap.find?_ofList, SortedMap.find?_eq_some_iff] at he
    exact ⟨e, he.1, (Std.LawfulEqCmp.eq_of_compare he.2).symm⟩

theorem pairwise_sortedDistinct : (sortedDistinct cmp l).Pairwise fun a b => cmp a b = .lt :=
  List.pairwise_map.2 (SortedMap.ascending _)

/-- Neither order nor repetition in a list matters to its distinct members. -/
theorem sortedDistinct_congr [Std.LawfulEqCmp cmp] {r : List α} (h : ∀ a, a ∈ l ↔ a ∈ r) :
    sortedDistinct cmp l = sortedDistinct cmp r := by
  have hkeys : ∀ (l : List α) (e : α × Unit),
      e ∈ (SortedMap.ofList (l.map fun a => (a, ())) : SortedMap α cmp Unit).entries ↔ e.1 ∈ l := by
    intro l e
    refine Iff.trans ?_ (mem_sortedDistinct : e.1 ∈ sortedDistinct cmp l ↔ e.1 ∈ l)
    rw [sortedDistinct, SortedMap.keys, List.mem_map]
    constructor
    · intro he
      exact ⟨e, he, rfl⟩
    · rintro ⟨⟨a, value⟩, ha, rfl⟩
      exact ha
  refine congrArg SortedMap.keys (SortedMap.ext_mem fun e => ?_)
  rw [hkeys, hkeys, h]

end

end Bindery
