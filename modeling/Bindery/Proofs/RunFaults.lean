import Bindery.Proofs.RunSteps

/-!
# What runs fail with

A run fails early, over what it reads, or late: over a file that it cannot save, or because it has
failures to count in the end (`RunFault.IsLate`). Each step fails in one of these ways only
(`Steps.Fails`), apart from describing, which may also run out of room.
-/

namespace Bindery.CommandLine

/-- There is a result, but no place for it. -/
inductive RunFault.OfSaving : RunFault → Prop where
  | cannotCreate (folder : String) (fault : FileFault) : OfSaving (.cannotCreate folder fault)
  | cannotWrite (path : String) (fault : FileFault) : OfSaving (.cannotWrite path fault)

/-- The fault shows only once there are results to deliver. -/
inductive RunFault.IsLate : RunFault → Prop where
  | saving {fault : RunFault} : fault.OfSaving → IsLate fault
  | incomplete (failures total : Nat) : IsLate (.incomplete failures total)

/-- The run ends with a fault of a kind. -/
inductive Ending.IsFault (P : RunFault → Prop) : Ending → Prop where
  | intro {fault : RunFault} : P fault → IsFault P (.fault fault)

abbrev Ending.IsEarly : Ending → Prop := IsFault fun fault => ¬ fault.IsLate

abbrev Ending.IsLate : Ending → Prop := IsFault RunFault.IsLate

abbrev Ending.OfSaving : Ending → Prop := IsFault RunFault.OfSaving

namespace Steps
variable {α β ε : Type} {P Q : Ending → Prop} {x : Steps α}

/-- If the steps end the run, it is in one of these ways. -/
def Fails (P : Ending → Prop) (x : Steps α) : Prop :=
  ∀ (s s' : Session) (e : Ending), s.perform x = (.error e, s') → P e

namespace Fails

theorem mono (h : Fails P x) (hPQ : ∀ e, P e → Q e) : Fails Q x :=
  fun s s' e he => hPQ e (h s s' e he)

theorem late (h : Fails Ending.OfSaving x) : Fails Ending.IsLate x :=
  h.mono fun _ ⟨hsaving⟩ => ⟨.saving hsaving⟩

theorem pure (a : α) : Fails P (Pure.pure a : Steps α) := by
  rintro s s' e ⟨⟩

theorem lift (y : StateM Session α) : Fails P (liftM y : Steps α) := by
  rintro s s' e ⟨⟩

theorem fail {fault : RunFault} (h : P (.fault fault)) :
    Fails P (CommandLine.fail fault : Steps α) := by
  rintro s s' e ⟨⟩
  exact h

theorem demand {fault : ε → RunFault} (h : ∀ e, P (.fault (fault e))) (y : Except ε α) :
    Fails P (CommandLine.demand fault y : Steps α) := by
  cases y with
  | ok a => exact pure a
  | error e => exact fail (h e)

theorem bind {f : α → Steps β} (hx : Fails P x) (hf : ∀ a, Fails P (f a)) : Fails P (x >>= f) := by
  intro s s' e h
  rcases Session.of_perform_bind h with ⟨a, s₁, -, ha⟩ | ⟨e', he', ⟨⟩⟩
  · exact hf a s₁ s' e ha
  · exact hx s s' e he'

end Fails

/-- If a run does not end early, then it is past its first steps. -/
theorem Silent.of_perform_bind {f : α → Steps β} {s s' : Session} {r : Except Ending β}
    (hx : Silent x) (hfails : Fails Ending.IsEarly x) (hpast : ∀ e, r = .error e → ¬ e.IsEarly)
    (h : s.perform (x >>= f) = (r, s')) :
    ∃ a, s.perform x = (.ok a, s) ∧ s.perform (f a) = (r, s') := by
  rcases Session.of_perform_bind h with ⟨a, s₁, ha, hrest⟩ | ⟨e, he, rfl⟩
  · obtain rfl := hx.eq_of_perform ha
    exact ⟨a, ha, hrest⟩
  · exact absurd (hfails _ _ e he) (hpast e rfl)

end Steps

namespace Session
open Steps (Fails)

variable (host : Host)

/-! ### Early faults -/

theorem expandOne_fails (text : String) :
    Fails Ending.IsEarly ((console host).expandOne text) := by
  unfold Console.expandOne
  split
  · split
    · exact .fail ⟨nofun⟩
    · refine (Fails.lift _).bind fun _ => (Fails.demand (fun _ => ⟨nofun⟩) _).bind fun _ => ?_
      split
      · exact .fail ⟨nofun⟩
      · exact .pure _
  · exact .pure _

theorem expand_fails (texts : List String) :
    Fails Ending.IsEarly ((console host).expand texts) := by
  induction texts with
  | nil => exact .pure _
  | cons text rest ih => exact (expandOne_fails host text).bind fun _ => ih.bind fun _ => .pure _

theorem loadDocuments_fails (paths : List String) :
    Fails Ending.IsEarly ((console host).loadDocuments paths) := by
  induction paths with
  | nil => exact .pure _
  | cons path rest ih =>
    refine (Fails.lift _).bind fun _ => ?_
    exact (Fails.demand (fun _ => ⟨nofun⟩) _).bind fun _ => ih.bind fun _ => .pure _

theorem loadDescriptions_fails (paths : List String) :
    Fails Ending.IsEarly ((console host).loadDescriptions paths) := by
  induction paths with
  | nil => exact .pure _
  | cons path rest ih =>
    refine (Fails.lift _).bind fun _ => ?_
    exact (Fails.demand (fun _ => ⟨nofun⟩) _).bind fun _ => ih.bind fun _ => .pure _

theorem gatherDocuments_fails (input : ClassInput) :
    Fails Ending.IsEarly ((console host).gatherDocuments input) := by
  refine (expand_fails host input.documents).bind fun paths => ?_
  refine (loadDocuments_fails host paths).bind fun documents => ?_
  split
  · exact .pure _
  · refine (Fails.demand (fun _ => ⟨nofun⟩) _).bind fun command => ?_
    exact (expand_fails host input.sources).bind fun _ => (Fails.lift _).bind fun _ => .pure _

/-! ### Late faults -/

theorem save_fails (path text : String) :
    Fails Ending.OfSaving ((console host).save path text) := by
  have hwrite : Fails Ending.OfSaving (liftM ((console host).write path text) >>=
      demand (.cannotWrite path)) :=
    (Fails.lift _).bind fun _ => Fails.demand (fun _ => ⟨.cannotWrite ..⟩) _
  unfold Console.save
  split
  next folder _ =>
    refine (Fails.lift _).bind fun _ => ?_
    exact (Fails.demand (fun _ => ⟨.cannotCreate folder _⟩) _).bind fun _ => hwrite
  next => exact hwrite

/-- A text is made between one file and the next, but that never fails. -/
theorem deliverDescriptions_fails (out? : Option String) (l : List (String × Description)) :
    Fails Ending.OfSaving ((console host).deliverDescriptions out? l) := by
  induction l with
  | nil => exact .pure _
  | cons x rest ih =>
    have htext : Fails Ending.OfSaving (demand .failed (serialize x.2.toJson)) := .pure _
    refine htext.bind fun text => ?_
    cases out? with
    | some folder => exact (save_fails host _ text).bind fun _ => (Fails.lift _).bind fun _ => ih
    | none => exact (Fails.lift _).bind fun _ => ih

theorem saveArtifacts_fails (out : String) (l : List Artifact) :
    Fails Ending.OfSaving ((console host).saveArtifacts out l) := by
  induction l with
  | nil => exact .pure _
  | cons x rest ih => exact (save_fails host _ x.text).bind fun _ => ih.bind fun _ => .pure _

theorem deliverArtifacts_fails (out : String) (l : List (String × Artifacts)) :
    Fails Ending.OfSaving ((console host).deliverArtifacts out l) := by
  induction l with
  | nil => exact .pure _
  | cons x rest ih =>
    exact (saveArtifacts_fails host out x.2.toList).bind fun _ => (Fails.lift _).bind fun _ => ih

theorem finish_fails {α : Type} (report : BatchReport α) :
    Fails Ending.IsLate ((console host).finish report) := by
  refine (Fails.lift _).bind fun _ => ?_
  split
  · exact .pure _
  · exact .fail ⟨.incomplete ..⟩

end Session

end Bindery.CommandLine
