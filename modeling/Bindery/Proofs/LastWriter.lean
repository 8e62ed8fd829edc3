import Bindery.Proofs.Layers

/-!
# The last writer wins

`LastWins layers m` spells out what a merge is of its layers, part by part: whole replacement for
the name, the parents, the scope and the extra fragments, union for everything kept by name or by
identity, and the sanitizing of overloads by the name that the merge ends up with. The overloads
are counted by identity and told with their default literals.
-/

namespace Bindery.Description
variable {layers : List Description} {m : Description} {e : MethodKey × Option TypeTerm}

/-- The entry for its identity in the last layer that has one. -/
def LastEntry (layers : List Description) (e : MethodKey × Option TypeTerm) : Prop :=
  ∃ low d high, layers = low ++ d :: high ∧ e ∈ d.methods.entries ∧
    ∀ h ∈ high, ∀ x ∈ h.methods.entries, x.1.identity ≠ e.1.identity

/-- An overload that a class keeps has a return type, or the class's name ends its own. -/
def Keeps (m : Description) (e : MethodKey × Option TypeTerm) : Prop :=
  e.2.isSome ∨ ∃ name, m.name? = some name ∧ name.toList <:+ e.1.name.toList

structure LastWins (layers : List Description) (m : Description) : Prop where
  name : m.name? = lastSaid (·.name?) layers
  parents : m.parents? = lastSaid (·.parents?) layers
  scope : m.scope? = lastSaid (·.scope?) layers
  extra : m.extra? = lastSaid (·.extra?) layers
  attrs : ∀ n, m.attrs.get? n = lastSaid (·.attrs.get? n) layers
  /-- Of each identity among the layers the last entry is stored, as it is, or nothing. -/
  methods : ∀ d ∈ layers, ∀ x ∈ d.methods.entries,
    ∃ e, LastEntry layers e ∧ e.1.identity = x.1.identity ∧
      (m.Keeps e → ∀ y, y ∈ m.methods.entries ∧ y.1.identity = x.1.identity ↔ y = e) ∧
      (¬ m.Keeps e → ∀ y ∈ m.methods.entries, y.1.identity ≠ x.1.identity)
  /-- No other identity is stored. -/
  only : ∀ y ∈ m.methods.entries,
    ∃ d ∈ layers, ∃ x ∈ d.methods.entries, x.1.identity = y.1.identity
  noDocstrings : m.docstrings? = none ↔ ∀ d ∈ layers, d.docstrings? = none
  docModule : ∀ docs, m.docstrings? = some docs →
    docs.module? = lastSaid (·.docstrings?.bind (·.module?)) layers
  docClass : ∀ docs, m.docstrings? = some docs →
    docs.class? = lastSaid (·.docstrings?.bind (·.class?)) layers
  docAttrs : ∀ docs, m.docstrings? = some docs →
    ∀ n, docs.attrs.get? n = lastSaid (·.docstrings?.bind (·.attrs.get? n)) layers
  docMethods : ∀ docs, m.docstrings? = some docs →
    ∀ n, docs.methods.get? n = lastSaid (·.docstrings?.bind (·.methods.get? n)) layers

/-! ### Overloads -/

theorem lastEntry_iff_lastSaid :
    LastEntry layers e ↔ lastSaid (·.methods.find? e.1) layers = some e := by
  simp only [LastEntry, lastSaid_eq_some_iff, ← SortedMap.mem_entries_iff,
    SortedMap.find?_eq_none_iff, ne_eq, MethodKey.cmp_eq_iff, eq_comm (a := e.1.identity)]

/-- A stack stores the last entries and no others. -/
theorem mem_stack_methods : e ∈ (stack layers).methods.entries ↔ LastEntry layers e := by
  rw [SortedMap.mem_entries_iff, lastEntry_iff_lastSaid, ← (isSlot_method e.1).stack rfl]

theorem belongs_iff {name : String} (hname : m.name? = some name) :
    Methods.belongs name e.1 e.2 = true ↔ m.Keeps e := by
  simp [Methods.belongs, Keeps, hname]

theorem mem_sanitize_methods {name : String} (hname : m.name? = some name) :
    e ∈ (m.sanitize name).methods.entries ↔ e ∈ m.methods.entries ∧ m.Keeps e := by
  rw [← belongs_iff hname]
  exact SortedMap.mem_filter

/-- Each identity among the layers has a last entry. -/
theorem exists_lastEntry {d : Description} {x : MethodKey × Option TypeTerm} (hd : d ∈ layers)
    (hx : x ∈ d.methods.entries) : ∃ e, LastEntry layers e ∧ e.1.identity = x.1.identity := by
  cases hlast : lastSaid (·.methods.find? x.1) layers with
  | none =>
    have hnone := lastSaid_eq_none_iff.1 hlast d hd
    rw [SortedMap.find?_of_mem hx] at hnone
    cases hnone
  | some e =>
    have hfound : (stack layers).methods.find? x.1 = some e := by
      rw [(isSlot_method x.1).stack rfl, hlast]
    obtain ⟨he, hcmp⟩ := SortedMap.find?_eq_some_iff.1 hfound
    exact ⟨e, mem_stack_methods.1 he, (MethodKey.cmp_eq_iff.1 hcmp).symm⟩

theorem eq_of_stack_identity {y : MethodKey × Option TypeTerm} (hy : LastEntry layers y)
    (he : LastEntry layers e) (h : y.1.identity = e.1.identity) : y = e :=
  SortedMap.eq_of_mem_of_cmp (mem_stack_methods.2 hy) (mem_stack_methods.2 he)
    (MethodKey.cmp_eq_iff.2 h)

/-- A merge under a name stores the last entries that the name lets stay. -/
theorem mem_sanitize_stack {name : String} (hname : (stack layers).name? = some name) :
    e ∈ ((stack layers).sanitize name).methods.entries ↔
      LastEntry layers e ∧ (stack layers).Keeps e := by
  rw [mem_sanitize_methods hname, mem_stack_methods]

/-- What becomes of the last entry for an identity: it is all that is stored, or nothing is. -/
theorem stored_of_lastEntry {name : String} (hname : (stack layers).name? = some name)
    (he : LastEntry layers e) :
    ((stack layers).Keeps e → ∀ y, y ∈ ((stack layers).sanitize name).methods.entries ∧
        y.1.identity = e.1.identity ↔ y = e) ∧
      (¬ (stack layers).Keeps e → ∀ y ∈ ((stack layers).sanitize name).methods.entries,
        y.1.identity ≠ e.1.identity) := by
  constructor
  · intro hk y
    constructor
    · rintro ⟨hy, hye⟩
      exact eq_of_stack_identity ((mem_sanitize_stack hname).1 hy).1 he hye
    · rintro rfl
      exact ⟨(mem_sanitize_stack hname).2 ⟨he, hk⟩, rfl⟩
  · intro hk y hy hye
    obtain ⟨hlast, hkeep⟩ := (mem_sanitize_stack hname).1 hy
    exact hk (eq_of_stack_identity hlast he hye ▸ hkeep)

/-- A part of the docstrings of a stack, where there are any. -/
theorem docPart_stack {α : Type} {part : Docstrings → Option α}
    (hs : IsSlot (·.docstrings?.bind part)) {docs : Docstrings}
    (hdocs : (stack layers).docstrings? = some docs) :
    part docs = lastSaid (·.docstrings?.bind part) layers := by
  rw [← hs.stack rfl, hdocs, Option.bind_some]

/-- Whatever layers merge to, each of its parts is what the last layer with that part has. -/
theorem merge_lastWins (h : merge layers = .ok m) : LastWins layers m := by
  obtain ⟨-, -, name, hname, rfl, -⟩ := merge_eq_ok_iff.1 h
  have hname : (stack layers).name? = some name := (className_eq_ok_iff.1 hname).1
  exact {
    name := isSlot_name.stack rfl
    parents := isSlot_parents.stack rfl
    scope := isSlot_scope.stack rfl
    extra := isSlot_extra.stack rfl
    attrs := fun n => (isSlot_attr n).stack rfl
    methods := fun d hd x hx => by
      obtain ⟨e, he, hex⟩ := exists_lastEntry hd hx
      rw [← hex]
      exact ⟨e, he, rfl, stored_of_lastEntry hname he⟩
    only := fun y hy => by
      obtain ⟨low, d, high, rfl, hyd, -⟩ := ((mem_sanitize_stack hname).1 hy).1
      exact ⟨d, by simp, y, hyd, rfl⟩
    noDocstrings := stack_docstrings_eq_none_iff
    docModule := fun docs hdocs => docPart_stack isSlot_docModule hdocs
    docClass := fun docs hdocs => docPart_stack isSlot_docClass hdocs
    docAttrs := fun docs hdocs n => docPart_stack (isSlot_docAttr n) hdocs
    docMethods := fun docs hdocs n => docPart_stack (isSlot_docMethod n) hdocs }

/-- What a library says of its toasters. -/
def toasterLayer : Description :=
  (((named "Toaster").insertMethod ⟨"Toaster", []⟩ none).insertMethod
    ⟨"write", [⟨"path", .str, none⟩]⟩ (some .void)).insertAttr "rate" (.atomic "float32")

/-- An oven that is described on top of it: the constructor of a toaster has to go, and a default
literal is added to a method. -/
def ovenLayer : Description :=
  { ((named "Oven").insertMethod ⟨"Oven", []⟩ none).insertMethod
      ⟨"write", [⟨"path", .str, some "\"out.txt\""⟩]⟩ (some (.atomic "int32")) with
    parents? := some [] }

theorem merge_lastWins_oven :
    merge [toasterLayer, ovenLayer] = .ok ((toasterLayer.overlay ovenLayer).sanitize "Oven") ∧
      LastWins [toasterLayer, ovenLayer] ((toasterLayer.overlay ovenLayer).sanitize "Oven") :=
  ⟨rfl, merge_lastWins rfl⟩

end Bindery.Description
