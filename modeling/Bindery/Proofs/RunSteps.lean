import Bindery.CommandLine.Session
import Bindery.Proofs.Outcome

/-!
# Steps of a run

`Session.perform` is what some steps of a run come to on a session. Steps that follow on others
start from what the others have left (`perform_bind`). Reading is `Silent`: it leaves a session as
it is. As soon as programs are run it is only `Quiet`, for they may change the disk.
-/

namespace Bindery.CommandLine

/-- Some steps of a run on a session. -/
abbrev Steps (α : Type) := ExceptT Ending (StateM Session) α

namespace Session
variable {α β ε : Type} {x : Steps α} {f : α → Steps β} {s s' : Session}

/-- How steps end on a session, and what they leave. -/
def perform (s : Session) (x : Steps α) : Except Ending α × Session := x.run.run s

theorem perform_bind (s : Session) (x : Steps α) (f : α → Steps β) :
    s.perform (x >>= f) =
      match s.perform x with
      | (.ok a, s') => s'.perform (f a)
      | (.error e, s') => (.error e, s') := by
  unfold perform
  rw [ExceptT.run_bind, StateT.run_bind]
  generalize x.run.run s = p
  obtain ⟨e | a, s'⟩ := p <;> rfl

/-- Steps end where their first half does, or where their second half does after the first. -/
theorem of_perform_bind {r : Except Ending β} (h : s.perform (x >>= f) = (r, s')) :
    (∃ a s₁, s.perform x = (.ok a, s₁) ∧ s₁.perform (f a) = (r, s')) ∨
      ∃ e, s.perform x = (.error e, s') ∧ r = .error e := by
  rw [perform_bind] at h
  rcases hx : s.perform x with ⟨e | a, s₁⟩
  · rw [hx] at h
    cases h
    exact .inr ⟨e, rfl, rfl⟩
  · rw [hx] at h
    exact .inl ⟨a, s₁, rfl, h⟩

theorem perform_bind_eq_ok {b : β} : s.perform (x >>= f) = (.ok b, s') ↔
    ∃ a s₁, s.perform x = (.ok a, s₁) ∧ s₁.perform (f a) = (.ok b, s') := by
  constructor
  · intro h
    rcases of_perform_bind h with h | ⟨e, -, he⟩
    · exact h
    · cases he
  · rintro ⟨a, s₁, hx, hf⟩
    rw [perform_bind, hx]
    exact hf

/-- A step of the console never ends the run by itself. -/
theorem perform_lift (s : Session) (y : StateM Session α) :
    s.perform (liftM y) = (.ok (y.run s).1, (y.run s).2) := rfl

theorem perform_demand (s : Session) (fault : ε → RunFault) (y : Except ε α) :
    s.perform (demand fault y) = (y.mapError fun e => .fault (fault e), s) := by
  cases y <;> rfl

end Session

/-- How the run of a command ends, and what it says last. -/
theorem run_eq (host : Host) (d : Disk) (c : Command) :
    run host d c =
      match (Session.start d).perform ((Session.console host).work c) with
      | (.ok (), s) => (.status 0, s)
      | (.error (.fault f), s) =>
        (.status 1, { s with notes := s.notes ++ ["error: " ++ f.message] })
      | (.error .overflow, s) => (.killed, s) := by
  unfold run Console.run
  unfold Session.perform
  rw [StateT.run_bind]
  generalize ((Session.console host).work c).run.run (.start d) = p
  obtain ⟨(f | _) | ⟨⟩, s⟩ := p <;> rfl

/-! ### Reading -/

namespace Steps
variable {α β ε : Type}

/-- The steps leave every session as it is. -/
def Silent (x : Steps α) : Prop := ∀ s : Session, (s.perform x).2 = s

namespace Silent
variable {x : Steps α}

theorem pure (a : α) : Silent (Pure.pure a : Steps α) := fun _ => rfl

theorem fail (fault : RunFault) : Silent (CommandLine.fail fault : Steps α) := fun _ => rfl

theorem demand (fault : ε → RunFault) (y : Except ε α) :
    Silent (CommandLine.demand fault y : Steps α) := fun s => by
  rw [Session.perform_demand]

theorem bind {f : α → Steps β} (hx : Silent x) (hf : ∀ a, Silent (f a)) : Silent (x >>= f) := by
  intro s
  have hs := hx s
  rw [Session.perform_bind]
  rcases h : s.perform x with ⟨e | a, s'⟩
  · rw [h] at hs
    exact hs
  · rw [h] at hs
    exact (hf a s').trans hs

theorem eq_of_perform {s s' : Session} {r : Except Ending α} (hx : Silent x)
    (h : s.perform x = (r, s')) : s' = s := by
  rw [← hx s, h]

end Silent

end Steps

/-- No program changes the disk. -/
def Host.KeepsDisk (host : Host) : Prop :=
  ∀ d program words, (host.execute d program words).2 = d

namespace Session
variable {host : Host} {s s' s'' : Session}

/-- Nothing was said in between, and only programs have changed the disk. -/
structure Quiet (host : Host) (s s' : Session) : Prop where
  output : s'.output = s.output
  notes : s'.notes = s.notes
  disk : host.KeepsDisk → s'.disk = s.disk

theorem Quiet.refl (host : Host) (s : Session) : Quiet host s s := ⟨rfl, rfl, fun _ => rfl⟩

theorem Quiet.trans (h : Quiet host s s') (h' : Quiet host s' s'') : Quiet host s s'' where
  output := h'.output.trans h.output
  notes := h'.notes.trans h.notes
  disk hhost := (h'.disk hhost).trans (h.disk hhost)

theorem Quiet.eq_start {d : Disk} (h : Quiet host (.start d) s) : s = .start s.disk := by
  obtain ⟨disk, output, notes⟩ := s
  obtain rfl : output = "" := h.output
  obtain rfl : notes = [] := h.notes
  rfl

theorem Quiet.eq (h : Quiet host s s') (hhost : host.KeepsDisk) : s' = s := by
  obtain ⟨disk, output, notes⟩ := s
  obtain ⟨disk', output', notes'⟩ := s'
  obtain ⟨rfl, rfl, hdisk⟩ := h
  obtain rfl : disk' = disk := hdisk hhost
  rfl

end Session

namespace Steps
variable {α β : Type} {host : Host} {x : Steps α}

/-- The steps say nothing, and only the programs that they run change the disk. -/
def Quiet (host : Host) (x : Steps α) : Prop := ∀ s, Session.Quiet host s (s.perform x).2

theorem Silent.quiet (h : Silent x) : Quiet host x := fun s => by
  rw [h s]
  exact .refl host s

theorem Quiet.bind {f : α → Steps β} (hx : Quiet host x) (hf : ∀ a, Quiet host (f a)) :
    Quiet host (x >>= f) := by
  intro s
  have hs := hx s
  rw [Session.perform_bind]
  rcases h : s.perform x with ⟨e | a, s'⟩
  · rw [h] at hs
    exact hs
  · rw [h] at hs
    exact hs.trans (hf a s')

theorem Quiet.of_perform {s s' : Session} {r : Except Ending α} (hx : Quiet host x)
    (h : s.perform x = (r, s')) : Session.Quiet host s s' := by
  have hs := hx s
  rwa [h] at hs

end Steps

/-! ### Inputs -/

namespace Steps
open Session (console)

variable (host : Host)

theorem silent_load {α : Type} (loader : Json.Reading → Json.Load α) (path : String) :
    Silent (liftM ((console host).load loader path)) := fun _ => rfl

theorem silent_expandOne (text : String) : Silent ((console host).expandOne text) := by
  have hglob : ∀ p, Silent (liftM ((console host).glob p)) := fun _ _ => rfl
  unfold Console.expandOne
  split
  · split
    · exact .fail _
    · refine (hglob _).bind fun found => (Silent.demand _ _).bind fun paths => ?_
      split
      · exact .fail _
      · exact .pure _
  · exact .pure _

theorem silent_expand (texts : List String) : Silent ((console host).expand texts) := by
  induction texts with
  | nil => exact .pure _
  | cons text rest ih =>
    exact (silent_expandOne host text).bind fun _ => ih.bind fun _ => .pure _

theorem silent_loadDocuments (paths : List String) :
    Silent ((console host).loadDocuments paths) := by
  induction paths with
  | nil => exact .pure _
  | cons path rest ih =>
    refine (silent_load host _ path).bind fun _ => ?_
    exact (Silent.demand _ _).bind fun _ => ih.bind fun _ => .pure _

theorem silent_loadDescriptions (paths : List String) :
    Silent ((console host).loadDescriptions paths) := by
  induction paths with
  | nil => exact .pure _
  | cons path rest ih =>
    refine (silent_load host _ path).bind fun _ => ?_
    exact (Silent.demand _ _).bind fun _ => ih.bind fun _ => .pure _

theorem quiet_parse (p : ParserCommand) (source : String) :
    Quiet host (liftM ((console host).parse p source)) := fun s =>
  ⟨rfl, rfl, fun hhost => hhost s.disk p.program (p.words source)⟩

theorem quiet_parseAll (p : ParserCommand) (sources : List String) :
    Quiet host (liftM ((console host).parseAll p sources)) := by
  induction sources with
  | nil => exact fun s => Session.Quiet.refl host s
  | cons source rest ih => exact fun s => (quiet_parse host p source s).trans (ih _)

theorem quiet_gatherDocuments (input : ClassInput) :
    Quiet host ((console host).gatherDocuments input) := by
  refine (silent_expand host input.documents).quiet.bind fun paths => ?_
  refine (silent_loadDocuments host paths).quiet.bind fun documents => ?_
  split
  · exact (Silent.pure _).quiet
  · refine (Silent.demand _ _).quiet.bind fun command => ?_
    refine (silent_expand host input.sources).quiet.bind fun sources => ?_
    exact (quiet_parseAll host command sources).bind fun _ => (Silent.pure _).quiet

theorem quiet_describeClasses (input : ClassInput) :
    Quiet host ((console host).describeClasses input) := by
  unfold Console.describeClasses
  split
  · exact (Silent.fail _).quiet
  refine (quiet_gatherDocuments host input).bind fun gathered => ?_
  split
  · exact (Silent.fail _).quiet
  split
  · exact fun s => Session.Quiet.refl host s
  · exact (Silent.pure _).quiet

theorem quiet_describeIfGiven (input : ClassInput) :
    Quiet host ((console host).describeIfGiven input) := by
  unfold Console.describeIfGiven
  split
  · exact (Silent.pure _).quiet
  · exact quiet_describeClasses host input

end Steps

end Bindery.CommandLine
