import Bindery.Batch
import Bindery.Proofs.Outcome

/-!
# Batches and single classes

There is a report of a batch if and only if no outcome is an overflow, and then it is the report of
all outcomes. What it has as a success is what one of the documents gives for the class by itself.
-/

namespace Bindery

theorem Halt.reported?_eq_some_iff {α : Type} {o : Except Halt α} {x : Except Error α} :
    Halt.reported? o = some x ↔ o = x.mapError .failed := by
  constructor
  · intro h
    unfold Halt.reported? at h
    split at h <;> cases h
    · rfl
    · rfl
  · rintro rfl
    cases x <;> rfl

theorem Halt.reported?_eq_none_iff {α : Type} {o : Except Halt α} :
    Halt.reported? o = none ↔ o = .error .overflow := by
  constructor
  · intro h
    unfold Halt.reported? at h
    split at h <;> cases h
    rfl
  · rintro rfl
    rfl

namespace BatchReport
variable {α : Type} {l : List (String × Except Halt α)}

theorem ofHalts?_eq_some_iff {report : BatchReport α} :
    ofHalts? l = some report ↔ ∃ outcomes : List (String × Except Error α),
      l = outcomes.map (fun x => (x.1, x.2.mapError .failed)) ∧ report = ofOutcomes outcomes := by
  have hmapM : ∀ outcomes : List (String × Except Error α),
      (l.mapM fun x => (Halt.reported? x.2).map (x.1, ·)) = some outcomes ↔
        l = outcomes.map (fun x => (x.1, x.2.mapError .failed)) := by
    intro outcomes
    induction l generalizing outcomes with
    | nil => cases outcomes <;> simp
    | cons x rest ih =>
      simp only [List.mapM_cons, Option.bind_eq_bind, Option.bind_eq_some_iff,
        Option.map_eq_some_iff, Halt.reported?_eq_some_iff, ih]
      constructor
      · rintro ⟨_, ⟨y, hy, rfl⟩, ys, rfl, h⟩
        cases h
        rw [List.map_cons, ← hy]
      · intro h
        cases outcomes with
        | nil => cases h
        | cons y ys =>
          obtain ⟨rfl, rfl⟩ := List.cons.inj h
          exact ⟨y, ⟨y.2, rfl, rfl⟩, ys, rfl, rfl⟩
  simp only [ofHalts?, Option.map_eq_some_iff, hmapM, eq_comm (b := report)]

theorem ofHalts?_eq_none_iff : ofHalts? l = none ↔ ∃ x ∈ l, x.2 = .error .overflow := by
  rw [ofHalts?, Option.map_eq_none_iff]
  induction l with
  | nil => simp
  | cons x rest ih =>
    have hcons : (∃ y ∈ x :: rest, y.2 = .error .overflow) ↔
        Halt.reported? x.2 = none ∨ ∃ y ∈ rest, y.2 = .error .overflow := by
      simp [Halt.reported?_eq_none_iff]
    rw [hcons, ← ih, List.mapM_cons]
    cases Halt.reported? x.2 with
    | none => simp
    | some y => cases rest.mapM fun x => (Halt.reported? x.2).map (x.1, ·) <;> simp

end BatchReport

theorem BatchReport.mem_succeeded_ofOutcomes {α : Type} {l : List (String × Except Error α)}
    {label : String} {a : α} : (label, a) ∈ (ofOutcomes l).succeeded ↔ (label, .ok a) ∈ l := by
  induction l with
  | nil => simp [ofOutcomes]
  | cons o rest ih =>
    obtain ⟨other, outcome⟩ := o
    cases outcome with
    | ok b => simp [ofOutcomes, ih]
    | error e => simp [ofOutcomes, ih]

/-- Misses are passed over on the way to the document that has the class. -/
theorem describeIn_eq_ok {name : String} {onlyIn : List String} {miss? : Option Error}
    {documents : List Ast.Document} {d : Description}
    (h : describeIn name onlyIn miss? documents = .ok d) :
    ∃ doc ∈ documents, Ast.describe doc name (onlyIn.filter doc.hasFile) = .ok d := by
  induction documents generalizing miss? with
  | nil => cases h
  | cons doc rest ih =>
    have hlater : ∀ {miss?}, describeIn name onlyIn miss? rest = .ok d →
        ∃ doc' ∈ doc :: rest, Ast.describe doc' name (onlyIn.filter doc'.hasFile) = .ok d := by
      intro miss? h
      obtain ⟨doc', hdoc', hd⟩ := ih h
      exact ⟨doc', List.mem_cons_of_mem _ hdoc', hd⟩
    rw [describeIn] at h
    split at h
    next => exact hlater h
    next =>
      split at h
      next desc hdesc =>
        cases h
        exact ⟨doc, List.mem_cons_self .., hdesc⟩
      next => cases h
      next e he =>
        split at h
        next => exact hlater h
        next => cases h

theorem describeAll_succeeded {documents : List Ast.Document} {names onlyIn : List String}
    {report : BatchReport Description} {name : String} {d : Description}
    (hreport : describeAll documents names onlyIn = some report)
    (h : (name, d) ∈ report.succeeded) :
    ∃ doc ∈ documents, Ast.describe doc name (onlyIn.filter doc.hasFile) = .ok d := by
  obtain ⟨outcomes, hl, rfl⟩ := BatchReport.ofHalts?_eq_some_iff.1 hreport
  have hmem := List.mem_map_of_mem (f := fun x : String × Except Error Description =>
    (x.1, x.2.mapError Halt.failed)) (BatchReport.mem_succeeded_ofOutcomes.1 h)
  rw [← hl, List.mem_map] at hmem
  obtain ⟨name', -, houtcome⟩ := hmem
  obtain ⟨rfl, h⟩ := Prod.ext_iff.1 houtcome
  split at h
  next => cases h
  next => exact describeIn_eq_ok h

end Bindery
