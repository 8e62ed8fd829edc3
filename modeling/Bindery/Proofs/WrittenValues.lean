import Bindery.Json.Load
import Bindery.Proofs.Outcome

/-!
# Written values

The reading of a value that was written has no fault, so that a loader meets in it, part by part,
what the writer put there. Settling repeated keys changes nothing in a value that has none.
-/

namespace Bindery

namespace Json
variable {l : List (String × Json)} {key : String}

/-! ### Nothing to settle -/

theorem putMember_eq_append {value : Json} (h : key ∉ l.map Prod.fst) :
    putMember key value l = l ++ [(key, value)] := by
  induction l with
  | nil => rfl
  | cons e rest ih =>
    rw [List.map_cons, List.mem_cons, not_or] at h
    rw [putMember, if_neg (Ne.symm h.1), ih h.2, List.cons_append]

/-- Keys that are all different are put in one after the other. -/
theorem putAll_eq_self (h : (l.map Prod.fst).Nodup) : putAll l = l := by
  suffices ∀ acc : List (String × Json), ((acc ++ l).map Prod.fst).Nodup →
      l.foldl (fun acc e => putMember e.1 e.2 acc) acc = acc ++ l from this [] h
  clear h
  induction l with
  | nil => intro acc _; simp
  | cons e rest ih =>
    intro acc hacc
    have hnew : e.1 ∉ acc.map Prod.fst := by
      intro hmem
      rw [List.map_append, List.nodup_append] at hacc
      exact hacc.2.2 _ hmem _ (by simp) rfl
    rw [List.foldl_cons, putMember_eq_append hnew, ih _ (by simpa using hacc)]
    simp

theorem nodup_of_distinctKeysMembers (h : distinctKeysMembers l = true) :
    (l.map Prod.fst).Nodup := by
  induction l with
  | nil => exact .nil
  | cons e rest ih =>
    obtain ⟨k, v⟩ := e
    simp only [distinctKeysMembers, Bool.and_eq_true, Bool.not_eq_true', List.any_eq_false] at h
    refine List.nodup_cons.mpr ⟨?_, ih h.2⟩
    intro hk
    obtain ⟨e', he', heq⟩ := List.mem_map.mp hk
    exact h.1.2 e' he' (beq_iff_eq.mpr heq)

mutual

theorem lastWins_of_distinctKeys (v : Json) (h : distinctKeys v = true) : lastWins v = v := by
  cases v with
  | array items =>
    rw [lastWins, lastWinsItems_of_distinctKeys items (by simpa only [distinctKeys] using h)]
  | object members =>
    rw [distinctKeys] at h
    rw [lastWins, lastWinsMembers_of_distinctKeys members h,
      putAll_eq_self (nodup_of_distinctKeysMembers h)]
  | _ => rfl

theorem lastWinsItems_of_distinctKeys (l : List Json) (h : distinctKeysItems l = true) :
    lastWinsItems l = l := by
  cases l with
  | nil => rfl
  | cons v rest =>
    rw [distinctKeysItems, Bool.and_eq_true] at h
    rw [lastWinsItems, lastWins_of_distinctKeys v h.1, lastWinsItems_of_distinctKeys rest h.2]

theorem lastWinsMembers_of_distinctKeys (l : List (String × Json))
    (h : distinctKeysMembers l = true) : lastWinsMembers l = l := by
  cases l with
  | nil => rfl
  | cons e rest =>
    obtain ⟨k, v⟩ := e
    simp only [distinctKeysMembers, Bool.and_eq_true] at h
    rw [lastWinsMembers, lastWins_of_distinctKeys v h.1.1,
      lastWinsMembers_of_distinctKeys rest h.2]

end

end Json

theorem JsonObject.ofMembers_members (o : JsonObject) : ofMembers o.members = o := by
  obtain ⟨members, hdistinct⟩ := o
  simp only [ofMembers, Json.lastWinsMembers_of_distinctKeys members hdistinct,
    Json.putAll_eq_self (Json.nodup_of_distinctKeysMembers hdistinct)]

namespace Json

@[simp]
theorem Load.under_ok {α : Type} (s : Step) (a : α) : Load.under s (.ok a) = .ok a := rfl

namespace Reading
variable {α : Type} {f : Reading → Load α} {g : α → Json}

/-! ### Loading -/

theorem ofItems_eq_map (l : List Json) : ofItems l = l.map ofJson := by
  induction l with
  | nil => rfl
  | cons v rest ih => rw [ofItems, ih, List.map_cons]

theorem ofMembers_eq_map (l : List (String × Json)) :
    ofMembers l = l.map fun e => (some e.1, ofJson e.2) := by
  induction l with
  | nil => rfl
  | cons e rest ih =>
    obtain ⟨k, v⟩ := e
    rw [ofMembers, ih, List.map_cons]

theorem loadJson_ofJson (v : Json) : (ofJson v).loadJson = .ok v := by
  rw [loadJson, toJson?_ofJson]
  rfl

theorem loadString_ofJson (s : String) : (ofJson (.string s)).loadString = .ok s := rfl

/-- What is not written as `null` is loaded as something. -/
theorem loadOptional_ofJson {v : Json} {a : α} (hv : v ≠ .null) (h : f (ofJson v) = .ok a) :
    loadOptional f (ofJson v) = .ok (some a) := by
  cases v with
  | null => exact absurd rfl hv
  | _ => exact Outcome.map_eq_ok.mpr ⟨a, h, rfl⟩

theorem loadItems_map {r : α → Reading} (i : Nat) {l : List α} (h : ∀ a ∈ l, f (r a) = .ok a) :
    loadItems f i (l.map r) = .ok l := by
  induction l generalizing i with
  | nil => rfl
  | cons a rest ih =>
    have hrest := ih (i + 1) fun b hb => h b (List.mem_cons_of_mem _ hb)
    simp only [List.map_cons, loadItems, h a (List.mem_cons_self ..), hrest, Load.under_ok]
    rfl

theorem loadList_ofJson {l : List α} (h : ∀ a ∈ l, f (ofJson (g a)) = .ok a) :
    loadList f (ofJson (.array (l.map g))) = .ok l := by
  have hitems : loadItems f 0 (l.map (ofJson ∘ g)) = .ok l := loadItems_map 0 h
  rw [ofJson, ofItems_eq_map, List.map_map, loadList, hitems]
  rfl

theorem loadMembers_map {r : α → Reading} {l : List (String × α)}
    (h : ∀ e ∈ l, f (r e.2) = .ok e.2) :
    loadMembers f (l.map fun e => (some e.1, r e.2)) = .ok l := by
  induction l with
  | nil => rfl
  | cons e rest ih =>
    have hrest := ih fun b hb => h b (List.mem_cons_of_mem _ hb)
    simp only [List.map_cons, loadMembers, h e (List.mem_cons_self ..), hrest, Load.under_ok]
    rfl

theorem loadObject_ofJson {l : List (String × α)} (h : ∀ e ∈ l, f (ofJson (g e.2)) = .ok e.2) :
    loadObject f (ofJson (.object (l.map fun e => (e.1, g e.2)))) = .ok l := by
  have hmembers : loadMembers f (ofMembers (l.map fun e => (e.1, g e.2))) = .ok l := by
    rw [ofMembers_eq_map, List.map_map]
    exact loadMembers_map (r := ofJson ∘ g) h
  rw [ofJson, loadObject, hmembers]
  rfl

end Reading

end Json

end Bindery
