import Bindery.Description.Interchange
import Bindery.Proofs.LastWriter

/-!
# Overloads through updates

A map that is told to put a value under a key that it has keeps the key it has, and for an overload
that would be the old default literals. So an entry is taken out before the new one is put in, and
that is what `insertMethod` comes to (`insertEntry_eq`). A `Change` is one of the things that are
done to a description; `updates_keep_newest` says what any run of them leaves of the overloads, and
what loading a list of methods has to do with it.
-/

namespace Bindery

namespace SortedMap
variable {κ β : Type} {cmp : κ → κ → Ordering} {k : κ} {v : β} {l : List (κ × β)}

def takeOut (cmp : κ → κ → Ordering) (k : κ) (l : List (κ × β)) : List (κ × β) :=
  l.filter fun e => cmp k e.1 != .eq

/-- Puts a value at its place in an ascending list. A key that is stored already stays. -/
def putIn (cmp : κ → κ → Ordering) (k : κ) (v : β) : List (κ × β) → List (κ × β)
  | [] => [(k, v)]
  | e :: rest =>
    match cmp k e.1 with
    | .lt => (k, v) :: e :: rest
    | .eq => (e.1, v) :: rest
    | .gt => e :: putIn cmp k v rest

/-- Takes the entry under the key out and puts the new one in. -/
def replace (cmp : κ → κ → Ordering) (l : List (κ × β)) (e : κ × β) : List (κ × β) :=
  putIn cmp e.1 e.2 (takeOut cmp e.1 l)

theorem takeOut_of_lt (h : ∀ e ∈ l, cmp k e.1 = .lt) : takeOut cmp k l = l :=
  List.filter_eq_self.2 fun e he => by simp [h e he]

theorem putIn_of_lt (h : ∀ e ∈ l, cmp k e.1 = .lt) : putIn cmp k v l = (k, v) :: l := by
  cases l with
  | nil => rfl
  | cons e rest => rw [putIn, h e (List.mem_cons_self ..)]

theorem insertEntry_eq [Std.TransCmp cmp] (hl : l.Pairwise fun a b => cmp a.1 b.1 = .lt) :
    insertEntry cmp k v l = replace cmp l (k, v) := by
  rw [replace]
  induction l with
  | nil => rfl
  | cons e rest ih =>
    obtain ⟨he, hrest⟩ := List.pairwise_cons.1 hl
    rw [insertEntry]
    split
    next hk =>
      have hlt : ∀ x ∈ e :: rest, cmp k x.1 = .lt :=
        List.forall_mem_cons.2 ⟨hk, fun x hx => Std.TransCmp.lt_trans hk (he x hx)⟩
      rw [takeOut_of_lt hlt, putIn_of_lt hlt]
    next hk =>
      have hlt : ∀ x ∈ rest, cmp k x.1 = .lt :=
        fun x hx => Std.TransCmp.lt_of_eq_of_lt hk (he x hx)
      have hout : takeOut cmp k (e :: rest) = takeOut cmp k rest :=
        List.filter_cons_of_neg (by simp [hk])
      rw [hout, takeOut_of_lt hlt, putIn_of_lt hlt]
    next hk =>
      have hout : takeOut cmp k (e :: rest) = e :: takeOut cmp k rest :=
        List.filter_cons_of_pos (by simp [hk])
      rw [hout, putIn, hk, ih hrest]

/-- Putting alone leaves the old default literal. -/
example :
    let plain : MethodKey := ⟨"write", [⟨"path", .str, none⟩]⟩
    let defaulted : MethodKey := ⟨"write", [⟨"path", .str, some "out"⟩]⟩
    putIn MethodKey.cmp defaulted 2 [(plain, 1)] = [(plain, 2)] ∧
      replace MethodKey.cmp [(plain, 1)] (defaulted, 2) = [(defaulted, 2)] := by
  decide

end SortedMap

namespace Description
variable {d m : Description} {calls : List (MethodKey × Option TypeTerm)}
  {e : MethodKey × Option TypeTerm} {key k : MethodKey} {returns : Option TypeTerm}

/-! ### Calls -/

def insertMethods (d : Description) (calls : List (MethodKey × Option TypeTerm)) : Description :=
  calls.foldl (fun d e => d.insertMethod e.1 e.2) d

/-- The last call for the identity of a key. -/
def LastCall (calls : List (MethodKey × Option TypeTerm)) (k : MethodKey)
    (e : MethodKey × Option TypeTerm) : Prop :=
  ∃ before after, calls = before ++ e :: after ∧ e.1.identity = k.identity ∧
    ∀ x ∈ after, x.1.identity ≠ k.identity

theorem insertMethods_eq (d : Description) (calls : List (MethodKey × Option TypeTerm)) :
    d.insertMethods calls = { d with methods := d.methods.insertAll calls } := by
  induction calls generalizing d with
  | nil => rfl
  | cons e rest ih => exact ih (d.insertMethod e.1 e.2)

theorem entries_insertMethods (d : Description) (calls : List (MethodKey × Option TypeTerm)) :
    (d.insertMethods calls).methods.entries =
      calls.foldl (SortedMap.replace MethodKey.cmp) d.methods.entries := by
  induction calls generalizing d with
  | nil => rfl
  | cons e rest ih =>
    rw [List.foldl_cons, ← SortedMap.insertEntry_eq d.methods.ascending]
    exact ih (d.insertMethod e.1 e.2)

theorem find?_reverse_eq_none (h : ∀ x ∈ calls, x.1.identity ≠ k.identity) :
    calls.reverse.find? (fun x => MethodKey.cmp k x.1 == .eq) = none := by
  refine List.find?_eq_none.2 fun x hx hk => ?_
  exact h x (List.mem_reverse.1 hx) (MethodKey.cmp_eq_iff.1 (beq_iff_eq.1 hk)).symm

theorem find?_insertMethods_of_lastCall (h : LastCall calls k e) :
    (d.insertMethods calls).methods.find? k = some e := by
  obtain ⟨before, after, rfl, he, hafter⟩ := h
  have hlast : (e :: before.reverse).find? (fun x => MethodKey.cmp k x.1 == .eq) = some e :=
    List.find?_cons_of_pos (beq_iff_eq.2 (MethodKey.cmp_eq_iff.2 he.symm))
  rw [insertMethods_eq, SortedMap.find?_insertAll, List.reverse_append, List.reverse_cons,
    List.append_assoc, List.find?_append, find?_reverse_eq_none hafter, Option.none_or,
    List.singleton_append, hlast, Option.some_or]

theorem find?_insertMethods_of_forall_ne (h : ∀ x ∈ calls, x.1.identity ≠ k.identity) :
    (d.insertMethods calls).methods.find? k = d.methods.find? k := by
  rw [insertMethods_eq, SortedMap.find?_insertAll, find?_reverse_eq_none h, Option.none_or]

theorem mem_insertMethod_of_ne (h : e.1.identity ≠ key.identity) :
    e ∈ (d.insertMethod key returns).methods.entries ↔ e ∈ d.methods.entries := by
  have hcall : ∀ x ∈ [(key, returns)], x.1.identity ≠ e.1.identity := by simpa using h.symm
  rw [SortedMap.mem_entries_iff, SortedMap.mem_entries_iff,
    ← find?_insertMethods_of_forall_ne (d := d) hcall]
  rfl

/-! ### Changes -/

inductive Change where
  | insert (key : MethodKey) (returns : Option TypeTerm)
  | sanitize (className : String)
  /-- Merges with descriptions below and above. -/
  | merge (base overrides : List Description)

namespace Change

/-- The description after the change; a merge that fails gives none, and the old one stays. -/
def apply (d : Description) : Change → Description
  | .insert key returns => d.insertMethod key returns
  | .sanitize className => d.sanitize className
  | .merge base overrides =>
    match d.layered base overrides with
    | .ok merged => merged
    | .error _ => d

/-- The overloads that take the place of what is there. -/
def onTop : Change → List (MethodKey × Option TypeTerm)
  | .insert key returns => [(key, returns)]
  | .sanitize _ => []
  | .merge _ overrides => overrides.flatMap (·.methods.entries)

/-- The overloads that give way to what is there. -/
def beneath : Change → List (MethodKey × Option TypeTerm)
  | .insert _ _ | .sanitize _ => []
  | .merge base _ => base.flatMap (·.methods.entries)

end Change

def run (d : Description) (changes : List Change) : Description := changes.foldl Change.apply d

/-- A merge stores the last entries that its name lets stay. -/
theorem mem_layered {base overrides : List Description} (h : d.layered base overrides = .ok m) :
    e ∈ m.methods.entries ↔ LastEntry (base ++ d :: overrides) e ∧ m.Keeps e := by
  obtain ⟨-, -, name, hname, rfl, -⟩ := merge_eq_ok_iff.1 h
  exact mem_sanitize_stack (className_eq_ok_iff.1 hname).1

/-- No change makes up an overload. -/
theorem mem_of_mem_apply {c : Change} (h : e ∈ (c.apply d).methods.entries) :
    e ∈ d.methods.entries ∨ e ∈ c.onTop ++ c.beneath := by
  cases c with
  | insert key returns =>
    rcases SortedMap.mem_insertEntry h with rfl | h
    · exact .inr (List.mem_singleton_self _)
    · exact .inl h
  | sanitize className => exact .inl (SortedMap.mem_filter.1 h).1
  | merge base overrides =>
    rw [Change.apply] at h
    split at h
    next merged hmerged =>
      obtain ⟨⟨low, x, high, hlayers, hx, -⟩, -⟩ := (mem_layered hmerged).1 h
      have hmem : x ∈ base ++ d :: overrides := by rw [hlayers]; simp
      rcases List.mem_append.1 hmem with hmem | hmem
      · exact .inr (List.mem_append_right _ (List.mem_flatMap.2 ⟨x, hmem, hx⟩))
      rcases List.mem_cons.1 hmem with rfl | hmem
      · exact .inl hx
      · exact .inr (List.mem_append_left _ (List.mem_flatMap.2 ⟨x, hmem, hx⟩))
    next => exact .inl h

/-- A method stays as it is until one of its identity comes on top. -/
theorem mem_apply {c : Change} (he : e ∈ d.methods.entries) (hreturns : e.2.isSome = true)
    (htop : ∀ x ∈ c.onTop, x.1.identity ≠ e.1.identity) : e ∈ (c.apply d).methods.entries := by
  cases c with
  | insert key returns =>
    exact (mem_insertMethod_of_ne (htop _ (List.mem_singleton_self _)).symm).2 he
  | sanitize className =>
    exact SortedMap.mem_filter.2 ⟨he, by rw [Methods.belongs, hreturns, Bool.true_or]⟩
  | merge base overrides =>
    rw [Change.apply]
    split
    next merged hmerged =>
      have hlast : LastEntry (base ++ d :: overrides) e :=
        ⟨base, d, overrides, rfl, he, fun o ho x hx => htop x (List.mem_flatMap.2 ⟨o, ho, hx⟩)⟩
      exact (mem_layered hmerged).2 ⟨hlast, .inl hreturns⟩
    next => exact he

/-- What a run of changes leaves of the overloads. -/
structure KeepsNewest (d : Description) (changes : List Change) (m : Methods) : Prop where
  ascending : m.entries.Pairwise fun e e' => MethodKey.cmp e.1 e'.1 = .lt
  distinct : m.entries.Pairwise fun e e' => e.1.identity ≠ e'.1.identity
  origin : ∀ e ∈ m.entries, e ∈ d.methods.entries ∨ ∃ c ∈ changes, e ∈ c.onTop ++ c.beneath
  survives : ∀ e ∈ d.methods.entries, e.2.isSome = true →
    (∀ c ∈ changes, ∀ x ∈ c.onTop, x.1.identity ≠ e.1.identity) → e ∈ m.entries

theorem run_keepsNewest (d : Description) (changes : List Change) :
    KeepsNewest d changes (d.run changes).methods where
  ascending := (d.run changes).methods.ascending
  distinct := (d.run changes).methods.ascending.imp fun h hsame => by
    rw [MethodKey.cmp_eq_iff.2 hsame] at h
    cases h
  origin e he := by
    induction changes generalizing d with
    | nil => exact .inl he
    | cons c rest ih =>
      rcases ih (c.apply d) he with h | ⟨c', hc', h⟩
      · exact (mem_of_mem_apply h).imp_right fun h => ⟨c, List.mem_cons_self .., h⟩
      · exact .inr ⟨c', List.mem_cons_of_mem _ hc', h⟩
  survives e he hreturns htop := by
    induction changes generalizing d with
    | nil => exact he
    | cons c rest ih =>
      obtain ⟨hc, hrest⟩ := List.forall_mem_cons.1 htop
      exact ih (c.apply d) (mem_apply he hreturns hc) hrest

/-- What a run of calls leaves of the overloads, and where their keys come from. -/
structure Records (d : Description) (calls : List (MethodKey × Option TypeTerm)) (m : Methods) :
    Prop where
  replaced : m.entries = calls.foldl (SortedMap.replace MethodKey.cmp) d.methods.entries
  last : ∀ k e, LastCall calls k e → m.find? k = some e
  untouched : ∀ k, (∀ x ∈ calls, x.1.identity ≠ k.identity) → m.find? k = d.methods.find? k

/-- Overloads stay in order and apart whatever is done to a description, each as it came in; the
last call for an identity is the one that is found, and other identities do not notice it. A list of
methods is loaded by such calls. -/
theorem updates_keep_newest :
    (∀ (d : Description) (changes : List Change),
      KeepsNewest d changes (d.run changes).methods) ∧
    (∀ (d : Description) (calls : List (MethodKey × Option TypeTerm)),
      Records d calls (d.insertMethods calls).methods) ∧
    (∀ (d : Description) (key : MethodKey) (returns : Option TypeTerm)
        (e : MethodKey × Option TypeTerm), e.1.identity ≠ key.identity →
      (e ∈ (d.insertMethod key returns).methods.entries ↔ e ∈ d.methods.entries)) ∧
    ∀ r : Json.Reading, Methods.load r =
      (fun entries => (empty.insertMethods (entries.map fun e => (e.key, e.returns))).methods) <$>
        r.loadList MethodEntry.load := by
  refine ⟨run_keepsNewest, fun d calls => ?_, fun d key returns e => mem_insertMethod_of_ne,
    fun r => ?_⟩
  · exact ⟨entries_insertMethods d calls, fun k e => find?_insertMethods_of_lastCall,
      fun k => find?_insertMethods_of_forall_ne⟩
  · simp only [insertMethods_eq]
    rfl

def plainWrite : MethodKey := ⟨"write", [⟨"path", .str, none⟩]⟩

def defaultedWrite : MethodKey := ⟨"write", [⟨"path", .str, some "\"out.txt\""⟩]⟩

theorem updates_keep_newest_write :
    let calls := [(plainWrite, some .void), (defaultedWrite, none), (⟨"eject", []⟩, some .void)]
    let changes : List Change := [.sanitize "Oven", .merge [ovenLayer] []]
    (LastCall calls plainWrite (defaultedWrite, none) ∧
      (toasterLayer.insertMethods calls).methods.find? plainWrite = some (defaultedWrite, none)) ∧
    (plainWrite, some .void) ∈ toasterLayer.methods.entries ∧
      (plainWrite, some .void) ∈ (toasterLayer.run changes).methods.entries := by
  intro calls changes
  have hlast : LastCall calls plainWrite (defaultedWrite, none) :=
    ⟨[_], [_], rfl, by decide, by decide⟩
  have hstored : (plainWrite, some .void) ∈ toasterLayer.methods.entries := by decide
  obtain ⟨hchanges, hcalls, -⟩ := updates_keep_newest
  refine ⟨⟨hlast, (hcalls toasterLayer calls).last _ _ hlast⟩, hstored, ?_⟩
  refine (hchanges toasterLayer changes).survives _ hstored rfl ?_
  simp [changes, Change.onTop]

end Description

end Bindery
