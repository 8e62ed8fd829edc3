/-!
# Maps kept in key order

`SortedMap κ cmp β` lists its entries strictly ascending under `cmp`. The comparison may ignore a
part of the key; inserting then replaces the stored key together with its value, so the newest
spelling of a key is the one that is kept. `find?_insert` says what a look-up sees after an
insertion, and `SortedMap.ext_find?` that look-ups determine the map.
-/

namespace Bindery

/-- Entries strictly ascending by key. -/
structure SortedMap (κ : Type) (cmp : κ → κ → Ordering) (β : Type) where
  entries : List (κ × β)
  ascending : entries.Pairwise (fun a b => cmp a.1 b.1 = .lt)

namespace SortedMap
variable {κ β γ : Type} {cmp : κ → κ → Ordering}

@[ext]
theorem ext {m n : SortedMap κ cmp β} (h : m.entries = n.entries) : m = n := by
  cases m; cases n; cases h; rfl

instance [DecidableEq κ] [DecidableEq β] : DecidableEq (SortedMap κ cmp β) := fun m n =>
  decidable_of_iff (m.entries = n.entries) ⟨SortedMap.ext, fun h => h ▸ rfl⟩

def empty : SortedMap κ cmp β := ⟨[], .nil⟩

instance : EmptyCollection (SortedMap κ cmp β) := ⟨empty⟩

instance : Inhabited (SortedMap κ cmp β) := ⟨empty⟩

def size (m : SortedMap κ cmp β) : Nat := m.entries.length

def isEmpty (m : SortedMap κ cmp β) : Bool := m.entries.isEmpty

def keys (m : SortedMap κ cmp β) : List κ := m.entries.map (·.1)

/-- The stored entry under a key that compares equal to `k`. -/
def find? (m : SortedMap κ cmp β) (k : κ) : Option (κ × β) :=
  m.entries.find? (fun e => cmp k e.1 == .eq)

def get? (m : SortedMap κ cmp β) (k : κ) : Option β := (m.find? k).map (·.2)

/-- Puts an entry at its place in an ascending list, in place of one with an equal key. -/
def insertEntry (cmp : κ → κ → Ordering) (k : κ) (v : β) : List (κ × β) → List (κ × β)
  | [] => [(k, v)]
  | e :: rest =>
    match cmp k e.1 with
    | .lt => (k, v) :: e :: rest
    | .eq => (k, v) :: rest
    | .gt => e :: insertEntry cmp k v rest

theorem mem_insertEntry {k : κ} {v : β} {l : List (κ × β)} {a : κ × β}
    (h : a ∈ insertEntry cmp k v l) : a = (k, v) ∨ a ∈ l := by
  induction l with
  | nil => exact .inl (by simpa [insertEntry] using h)
  | cons e rest ih =>
    rw [insertEntry] at h
    split at h
    · rcases List.mem_cons.1 h with h | h
      · exact .inl h
      · exact .inr h
    · rcases List.mem_cons.1 h with h | h
      · exact .inl h
      · exact .inr (List.mem_cons_of_mem _ h)
    · rcases List.mem_cons.1 h with h | h
      · exact .inr (h ▸ List.mem_cons_self ..)
      · exact (ih h).imp_right (List.mem_cons_of_mem _)

theorem pairwise_insertEntry [Std.TransCmp cmp] (k : κ) (v : β) {l : List (κ × β)}
    (h : l.Pairwise (fun a b => cmp a.1 b.1 = .lt)) :
    (insertEntry cmp k v l).Pairwise (fun a b => cmp a.1 b.1 = .lt) := by
  induction l with
  | nil => simp [insertEntry]
  | cons e rest ih =>
    have hr := List.pairwise_cons.1 h
    rw [insertEntry]
    split
    next hk =>
      refine List.pairwise_cons.2 ⟨fun b hb => ?_, h⟩
      rcases List.mem_cons.1 hb with rfl | hb
      · exact hk
      · exact Std.TransCmp.lt_trans hk (hr.1 b hb)
    next hk =>
      exact List.pairwise_cons.2
        ⟨fun b hb => Std.TransCmp.lt_of_eq_of_lt hk (hr.1 b hb), hr.2⟩
    next hk =>
      refine List.pairwise_cons.2 ⟨fun b hb => ?_, ih hr.2⟩
      rcases mem_insertEntry hb with rfl | hb
      · exact Std.OrientedCmp.gt_iff_lt.1 hk
      · exact hr.1 b hb

def insert [Std.TransCmp cmp] (m : SortedMap κ cmp β) (k : κ) (v : β) : SortedMap κ cmp β :=
  ⟨insertEntry cmp k v m.entries, pairwise_insertEntry k v m.ascending⟩

def filter (p : κ → β → Bool) (m : SortedMap κ cmp β) : SortedMap κ cmp β :=
  ⟨m.entries.filter (fun e => p e.1 e.2), m.ascending.sublist List.filter_sublist⟩

/-- Enters a list of entries in order, so that of two equal keys the later stays. -/
def insertAll [Std.TransCmp cmp] (m : SortedMap κ cmp β) (l : List (κ × β)) : SortedMap κ cmp β :=
  l.foldl (fun m e => m.insert e.1 e.2) m

def ofList [Std.TransCmp cmp] (l : List (κ × β)) : SortedMap κ cmp β := empty.insertAll l

/-- The entries of `high` on top of those of `low`. -/
def overlay [Std.TransCmp cmp] (low high : SortedMap κ cmp β) : SortedMap κ cmp β :=
  low.insertAll high.entries

@[simp]
theorem entries_empty : (empty : SortedMap κ cmp β).entries = [] := rfl

@[simp]
theorem find?_empty (k : κ) : (empty : SortedMap κ cmp β).find? k = none := rfl

/-- After an insertion a look-up finds the inserted entry under every key equal to the new one,
and what it found before under every other key. -/
theorem find?_insert [Std.TransCmp cmp] (m : SortedMap κ cmp β) (k k' : κ) (v : β) :
    (m.insert k v).find? k' = if cmp k' k = .eq then some (k, v) else m.find? k' := by
  suffices h : ∀ l : List (κ × β), l.Pairwise (fun a b => cmp a.1 b.1 = .lt) →
      (insertEntry cmp k v l).find? (fun e => cmp k' e.1 == .eq) =
        if cmp k' k = .eq then some (k, v) else l.find? (fun e => cmp k' e.1 == .eq) from
    h m.entries m.ascending
  intro l hl
  induction l with
  | nil =>
    by_cases hk : cmp k' k = .eq <;> simp [insertEntry, hk]
  | cons e rest ih =>
    have hr := List.pairwise_cons.1 hl
    rw [insertEntry]
    by_cases hk : cmp k' k = .eq
    · rw [if_pos hk]
      split
      · simp [hk]
      · simp [hk]
      next he =>
        have hne : cmp k' e.1 ≠ .eq := fun h => by
          have := Std.TransCmp.eq_trans (Std.OrientedCmp.eq_symm hk) h
          rw [he] at this; cases this
        rw [List.find?_cons_of_neg (by simpa using hne), ih hr.2, if_pos hk]
    · rw [if_neg hk]
      split
      · rw [List.find?_cons_of_neg (by simpa using hk)]
      next he =>
        have hne : cmp k' e.1 ≠ .eq := fun h =>
          hk (Std.TransCmp.eq_trans h (Std.OrientedCmp.eq_symm he))
        rw [List.find?_cons_of_neg (by simpa using hk), List.find?_cons_of_neg (by simpa using hne)]
      next he =>
        rw [List.find?_cons, List.find?_cons, ih hr.2, if_neg hk]

/-- A stored entry is found under its own key. -/
theorem find?_of_mem [Std.TransCmp cmp] {m : SortedMap κ cmp β} {e : κ × β}
    (h : e ∈ m.entries) : m.find? e.1 = some e := by
  obtain ⟨l, hl⟩ := m
  rw [find?]
  induction l with
  | nil => cases h
  | cons a rest ih =>
    have hr := List.pairwise_cons.1 hl
    rcases List.mem_cons.1 h with rfl | h
    · simp [Std.ReflCmp.compare_self]
    · have ha := hr.1 e h
      have hne : cmp e.1 a.1 ≠ .eq := fun h' => by
        rw [Std.OrientedCmp.eq_symm h'] at ha; cases ha
      rw [List.find?_cons_of_neg (by simpa using hne)]
      exact ih hr.2 h

theorem mem_of_find? {m : SortedMap κ cmp β} {k : κ} {e : κ × β} (h : m.find? k = some e) :
    e ∈ m.entries ∧ cmp k e.1 = .eq :=
  ⟨List.mem_of_find?_eq_some h, by simpa using List.find?_some h⟩

/-- Two maps that agree on every look-up are the same map. -/
theorem ext_find? [Std.TransCmp cmp] {m n : SortedMap κ cmp β}
    (h : ∀ k, m.find? k = n.find? k) : m = n := by
  have mem_iff : ∀ e, e ∈ m.entries ↔ e ∈ n.entries := fun e =>
    ⟨fun he => (mem_of_find? ((h e.1).symm.trans (find?_of_mem he))).1,
      fun he => (mem_of_find? ((h e.1).trans (find?_of_mem he))).1⟩
  obtain ⟨l, hl⟩ := m
  obtain ⟨r, hr⟩ := n
  refine SortedMap.ext ?_
  simp only at mem_iff ⊢
  clear h
  induction l generalizing r with
  | nil =>
    cases r with
    | nil => rfl
    | cons b r => exact absurd ((mem_iff b).2 (List.mem_cons_self ..)) (by simp)
  | cons a l ih =>
    cases r with
    | nil => exact absurd ((mem_iff a).1 (List.mem_cons_self ..)) (by simp)
    | cons b r =>
      have hl' := List.pairwise_cons.1 hl
      have hr' := List.pairwise_cons.1 hr
      have hab : a = b := by
        rcases List.mem_cons.1 ((mem_iff a).1 (List.mem_cons_self ..)) with h | h
        · exact h
        rcases List.mem_cons.1 ((mem_iff b).2 (List.mem_cons_self ..)) with h' | h'
        · exact h'.symm
        have hlt := Std.TransCmp.lt_trans (hr'.1 a h) (hl'.1 b h')
        have hself : cmp b.1 b.1 = .eq := Std.ReflCmp.compare_self
        rw [hself] at hlt; cases hlt
      subst hab
      have self : ∀ {s : List (κ × β)}, (∀ x ∈ s, cmp a.1 x.1 = .lt) → a ∉ s := fun hs ha => by
        have hlt := hs a ha
        have hself : cmp a.1 a.1 = .eq := Std.ReflCmp.compare_self
        rw [hself] at hlt; cases hlt
      refine congrArg (a :: ·) (ih hl'.2 r hr'.2 fun e => ⟨fun he => ?_, fun he => ?_⟩)
      · rcases List.mem_cons.1 ((mem_iff e).1 (List.mem_cons_of_mem _ he)) with rfl | h
        · exact absurd he (self hl'.1)
        · exact h
      · rcases List.mem_cons.1 ((mem_iff e).2 (List.mem_cons_of_mem _ he)) with rfl | h
        · exact absurd he (self hr'.1)
        · exact h

end SortedMap

/-- The distinct members of a list, ascending. -/
def sortedDistinct {α : Type} (cmp : α → α → Ordering) [Std.TransCmp cmp] (l : List α) : List α :=
  (SortedMap.ofList (l.map fun a => (a, ())) : SortedMap α cmp Unit).keys

end Bindery
