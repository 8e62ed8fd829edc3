import Bindery.Proofs.MapLookup
import Bindery.Proofs.WrittenRecords

/-!
# Nothing is lost in writing

Reading the JSON value of a description gives the description back: its absent parts stay absent
and its empty ones empty, the literals of its defaults stay, and so does the order of its extra
keys. Hence to load a value and write what was loaded is to bring it into a form that does not
change any more.
-/

namespace Bindery
open Json (Fields Reading)

theorem SortedMap.load_toJson {β : Type} {f : Reading → Json.Load β} {g : β → Json}
    (m : SortedMap String compare β) (h : ∀ b, f (.ofJson (g b)) = .ok b) :
    SortedMap.load f (.ofJson (m.toJson g)) = .ok m := by
  have hentries : Reading.loadObject f (.ofJson (m.toJson g)) = .ok m.entries :=
    Reading.loadObject_ofJson fun e _ => h e.2
  exact Outcome.map_eq_ok.mpr ⟨_, hentries, m.ofList_entries⟩

namespace TypeTerm

theorem load_toJson (t : TypeTerm) : load (.ofJson t.toJson) = .ok t := by
  rw [load, Reading.loadJson_ofJson]
  simp only [bind, Except.bind, ofJson?_toJson]
  rfl

theorem toJson_ne_null (t : TypeTerm) : t.toJson ≠ .null := by
  cases t <;> simp [toJson]

end TypeTerm

theorem Argument.load_toJson (a : Argument) : load (.ofJson a.toJson) = .ok a := by
  obtain ⟨name, type, default?⟩ := a
  refine Fields.load_of_written (by decide) (by decide) ?_
  refine .put (t := ⟨name, default, none⟩) rfl ?_
  have htype : fields.put "type" (.ofJson type.toJson) ⟨name, default, none⟩ =
      .ok ⟨name, type, none⟩ := Outcome.bind_eq_ok.mpr ⟨type, type.load_toJson, rfl⟩
  refine .put htype ?_
  cases default? with
  | none => exact .leave (by decide) .nil
  | some text => exact .put rfl .nil

theorem MethodEntry.load_toJson (e : MethodEntry) : load (.ofJson e.toJson) = .ok e := by
  obtain ⟨⟨name, args⟩, returns⟩ := e
  have hargs : Reading.loadList Argument.load (.ofJson (.array (args.map Argument.toJson))) =
      .ok args := Reading.loadList_ofJson fun a _ => a.load_toJson
  have hreturns : Reading.loadOptional TypeTerm.load
      (.ofJson (Json.optional TypeTerm.toJson returns)) = .ok returns := by
    cases returns with
    | none => rfl
    | some t => exact Reading.loadOptional_ofJson t.toJson_ne_null t.load_toJson
  refine Fields.load_of_written (by decide) (by decide) ?_
  refine .put (t := ⟨⟨name, []⟩, none⟩) rfl ?_
  refine .put (t := ⟨⟨name, args⟩, none⟩) (Outcome.bind_eq_ok.mpr ⟨_, hargs, rfl⟩) ?_
  exact .put (Outcome.bind_eq_ok.mpr ⟨_, hreturns, rfl⟩) .nil

/-- The list of entries is rebuilt into a map with the very keys that were written. -/
theorem Methods.load_toJson (m : Methods) : load (.ofJson (toJson m)) = .ok m := by
  have hmap : (m.entries.map fun e => MethodEntry.toJson ⟨e.1, e.2⟩) =
      (m.entries.map fun e => MethodEntry.mk e.1 e.2).map MethodEntry.toJson := by
    rw [List.map_map]
    rfl
  have hentries : Reading.loadList MethodEntry.load (.ofJson (toJson m)) =
      .ok (m.entries.map fun e => ⟨e.1, e.2⟩) := by
    rw [toJson, hmap]
    exact Reading.loadList_ofJson fun e _ => e.load_toJson
  refine Outcome.map_eq_ok.mpr ⟨_, hentries, ?_⟩
  rw [List.map_map]
  exact (congrArg SortedMap.ofList (List.map_id _)).trans m.ofList_entries

namespace Docstrings

/-- Notes are left out if there are none, which is also what a missing field is taken for. -/
theorem written_notes {key : String} {names : List String} {s s' : Docstrings}
    {rest : List (String × Json)} {u : Notes → Docstrings} {notes : Notes}
    (hput : ∀ r, fields.put key r s = do return u (← SortedMap.load Reading.loadString r))
    (hempty : u ∅ = s) (hrest : fields.Written names (u notes) rest s') :
    fields.Written (key :: names) s
      ((if notes.isEmpty then [] else [(key, notes.toJson .string)]) ++ rest) s' := by
  refine .part (List.not_mem_nil) ?_ hrest
  split
  next hnone =>
    have hnotes : notes = ∅ := SortedMap.ext (List.isEmpty_iff.mp hnone)
    exact .inl ⟨rfl, by rw [hnotes, hempty]⟩
  next =>
    have hload : SortedMap.load Reading.loadString (.ofJson (notes.toJson .string)) = .ok notes :=
      notes.load_toJson Reading.loadString_ofJson
    exact .inr ⟨_, rfl, by rw [hput, hload]; rfl⟩

theorem load_toJson (d : Docstrings) : load (.ofJson d.toJson) = .ok d := by
  obtain ⟨module?, class?, attrs, methods⟩ := d
  refine Fields.load_of_written (by decide) (by decide) (.of_append_nil ?_)
  simp only [List.append_assoc]
  refine .field? (u := fun o => ⟨o, none, ∅, ∅⟩) (by decide) (fun _ => rfl) rfl (by simp)
    Reading.loadString_ofJson ?_
  refine .field? (u := fun o => ⟨module?, o, ∅, ∅⟩) (by decide) (fun _ => rfl) rfl (by simp)
    Reading.loadString_ofJson ?_
  refine written_notes (u := fun n => ⟨module?, class?, n, ∅⟩) (fun _ => rfl) rfl ?_
  exact written_notes (u := fun n => ⟨module?, class?, attrs, n⟩) (fun _ => rfl) rfl .nil

end Docstrings

namespace Description

theorem loadExtra_ofJson (o : JsonObject) : loadExtra (.ofJson (.object o.members)) = .ok o := by
  have hmembers : Reading.loadObject Reading.loadJson (.ofJson (.object o.members)) =
      .ok o.members := by
    have h := Reading.loadObject_ofJson (g := id) (l := o.members)
      fun e _ => Reading.loadJson_ofJson e.2
    simpa using h
  exact Outcome.map_eq_ok.mpr ⟨_, hmembers, o.ofMembers_members⟩

theorem load_toJson (d : Description) : load (.ofJson d.toJson) = .ok d := by
  obtain ⟨name?, parents?, scope?, attrs, methods, docstrings?, extra?⟩ := d
  have hattrs : SortedMap.load TypeTerm.load (.ofJson (attrs.toJson TypeTerm.toJson)) =
      .ok attrs := attrs.load_toJson TypeTerm.load_toJson
  refine Fields.load_of_written (by decide) (by decide) (.of_append_nil ?_)
  simp only [List.append_assoc]
  refine .field? (u := fun o => ⟨o, none, none, ∅, ∅, none, none⟩) (by decide) (fun _ => rfl)
    rfl (by simp) Reading.loadString_ofJson ?_
  refine .field? (u := fun o => ⟨name?, o, none, ∅, ∅, none, none⟩) (by decide) (fun _ => rfl)
    rfl (by simp) (fun l => Reading.loadList_ofJson fun t _ => t.load_toJson) ?_
  refine .field? (u := fun o => ⟨name?, parents?, o, ∅, ∅, none, none⟩) (by decide)
    (fun _ => rfl) rfl (by simp) Reading.loadString_ofJson ?_
  refine .put (t := ⟨name?, parents?, scope?, attrs, ∅, none, none⟩)
    (Outcome.bind_eq_ok.mpr ⟨_, hattrs, rfl⟩) ?_
  refine .put (t := ⟨name?, parents?, scope?, attrs, methods, none, none⟩)
    (Outcome.bind_eq_ok.mpr ⟨_, methods.load_toJson, rfl⟩) ?_
  refine .field? (u := fun o => ⟨name?, parents?, scope?, attrs, methods, o, none⟩) (by decide)
    (fun _ => rfl) rfl (by simp [Docstrings.toJson]) Docstrings.load_toJson ?_
  exact .field? (u := fun o => ⟨name?, parents?, scope?, attrs, methods, docstrings?, o⟩)
    (by decide) (fun _ => rfl) rfl (by simp) loadExtra_ofJson .nil

/-- Loads a value and writes what was loaded. -/
def rewritten (v : Json) : Json.Load Json := toJson <$> load (.ofJson v)

/-- A description is the one that is loaded from its own value, and whatever value was loaded, the
one written for it loads alike and is written again as it stands. -/
theorem interchange_lossless :
    (∀ d : Description, load (.ofJson d.toJson) = .ok d) ∧
      ∀ (v : Json) (d : Description), load (.ofJson v) = .ok d →
        load (.ofJson d.toJson) = .ok d ∧ rewritten v = .ok d.toJson ∧
          rewritten d.toJson = .ok d.toJson := by
  refine ⟨load_toJson, ?_⟩
  intro v d hv
  have hagain : load (.ofJson d.toJson) = .ok d := load_toJson d
  refine ⟨hagain, ?_, ?_⟩
  · rw [rewritten, hv]
    rfl
  · rw [rewritten, hagain]
    rfl

/-- One overload in two spellings, a list for a record, and parts that are present but empty. -/
def looseValue : Json :=
  .object [
    ("extra", .object [("z", .null), ("a", .bool true), ("z", .string "last")]),
    ("methods", .array [
      .object [("name", .string "bake"), ("args", .array [
        .object [("name", .string "minutes"), ("type", .string "int"),
          ("default", .string "30")]])],
      .array [.string "bake", .array [
        .array [.string "minutes", .string "int", .string "45"]]]]),
    ("parents", .array []),
    ("docstrings", .object [])]

def looseDescription : Description where
  name? := none
  parents? := some []
  scope? := none
  attrs := ∅
  methods := SortedMap.ofList [(⟨"bake", [⟨"minutes", .atomic "int", some "45"⟩]⟩, none)]
  docstrings? := some .empty
  extra? := some ⟨[("z", .string "last"), ("a", .bool true)], rfl⟩

theorem interchange_lossless_loose :
    load (.ofJson looseValue) = .ok looseDescription ∧
      rewritten looseDescription.toJson = .ok looseDescription.toJson :=
  have hloose : load (.ofJson looseValue) = .ok looseDescription := rfl
  ⟨hloose, (interchange_lossless.2 looseValue looseDescription hloose).2.2⟩

end Description

end Bindery
