import Bindery.Proofs.RunFaults
import Bindery.Proofs.TwoSteps

/-!
# Faults before anything is written

The steps of a run are `Orderly` if they only fail early as long as they were quiet. Whatever is
read is read quietly, and nothing that is delivered fails early, so every command is orderly because
its steps come in that order (`work_orderly`). A run that ends in an early fault has therefore left
everything as it was (`run_early_fault`).
-/

namespace Bindery.CommandLine
open Session (console)

namespace Steps
variable {α β : Type} {host : Host} {x : Steps α}

/-- If the steps fail early, nothing was said, and only programs have changed the disk. -/
def Orderly (host : Host) (x : Steps α) : Prop :=
  ∀ (s s' : Session) (e : Ending), s.perform x = (.error e, s') →
    e.IsLate ∨ Session.Quiet host s s'

namespace Orderly

theorem of_quiet (h : Quiet host x) : Orderly host x := fun _ _ _ he => .inr (h.of_perform he)

theorem of_late (h : Fails Ending.IsLate x) : Orderly host x := fun s s' e he => .inl (h s s' e he)

/-- What is quiet may come first, whatever follows. -/
theorem bind {f : α → Steps β} (hx : Quiet host x) (hf : ∀ a, Orderly host (f a)) :
    Orderly host (x >>= f) := by
  intro s s' e h
  rcases Session.of_perform_bind h with ⟨a, s₁, ha, h⟩ | ⟨e', he', -⟩
  · exact (hf a s₁ s' e h).imp_right (hx.of_perform ha).trans
  · exact .inr (hx.of_perform he')

end Orderly

variable (host)

theorem describe_orderly (input : ClassInput) (out? : Option String) :
    Orderly host ((console host).describe input out?) := by
  refine .bind (quiet_describeClasses host input) fun report => .of_late ?_
  have hdelivered := Session.deliverDescriptions_fails host out? report.succeeded
  exact hdelivered.late.bind fun _ => Session.finish_fails host report

theorem merge_orderly (paths : List String) (out? : Option String) :
    Orderly host ((console host).merge paths out?) := by
  refine .bind (silent_loadDescriptions host paths).quiet fun descs => ?_
  refine .bind (Silent.demand _ _).quiet fun merged => ?_
  refine .bind (Silent.demand _ _).quiet fun text => .of_late ?_
  cases out? with
  | some path => exact (Session.save_fails host path text).late
  | none => exact .lift _

theorem generate_orderly (input : ClassInput) (paths base overrides : List String)
    (marker? : Option String) (out : String) :
    Orderly host ((console host).generate input paths base overrides marker? out) := by
  unfold Console.generate
  split
  · exact .of_quiet (Silent.fail _).quiet
  refine .bind (silent_loadDescriptions host base).quiet fun bases => ?_
  refine .bind (silent_loadDescriptions host overrides).quiet fun overridings => ?_
  refine .bind (quiet_describeIfGiven host input) fun described => ?_
  refine .bind (silent_expand host paths).quiet fun files => ?_
  refine .bind (silent_loadDescriptions host files).quiet fun loaded => .of_late ?_
  exact (Session.deliverArtifacts_fails host out _).late.bind fun _ => Session.finish_fails host _

theorem work_orderly (c : Command) : Orderly host ((console host).work c) := by
  cases c with
  | describe input out? => exact describe_orderly host input out?
  | merge paths out? => exact merge_orderly host paths out?
  | generate input paths base overrides marker? out =>
    exact generate_orderly host input paths base overrides marker? out

end Steps

/-- A run that ends in an early fault has left everything as it was, and so has one that is killed.
What a run says in the end tells its fault: if it does not end well, and its last line is neither
about a file that could not be saved nor counts failures, then its fault was early or it was
killed. -/
theorem run_early_fault {host : Host} (hhost : host.KeepsDisk) (d : Disk) (c : Command) :
    (∀ f s, (Session.start d).perform ((console host).work c) = (.error (.fault f), s) →
      ¬ f.IsLate → s = .start d ∧
        run host d c = (.status 1, ⟨d, "", ["error: " ++ f.message]⟩)) ∧
      ∀ exit s, run host d c = (exit, s) → exit ≠ .status 0 →
        (∀ f : RunFault, f.IsLate → s.notes.getLast? ≠ some ("error: " ++ f.message)) →
          s.disk = d ∧ s.output = "" ∧
            (exit = .killed ∧ s.notes = [] ∨ exit = .status 1 ∧
              ∃ f : RunFault, ¬ f.IsLate ∧ s.notes = ["error: " ++ f.message]) := by
  have horderly := Steps.work_orderly host c (.start d)
  refine ⟨fun f s hends hearly => ?_, fun exit s hrun hstatus hlate => ?_⟩
  · rcases horderly s _ hends with ⟨⟨hf⟩⟩ | hquiet
    · exact absurd hf hearly
    · obtain rfl := hquiet.eq hhost
      rw [run_eq, hends]
      exact ⟨rfl, rfl⟩
  · rw [run_eq] at hrun
    rcases hends : (Session.start d).perform ((console host).work c) with ⟨(f | _) | ⟨⟩, s'⟩
    · rw [hends] at hrun
      cases hrun
      rcases horderly _ _ hends with ⟨⟨hf⟩⟩ | hquiet
      · exact absurd List.getLast?_concat (hlate f hf)
      · obtain rfl := hquiet.eq hhost
        refine ⟨rfl, rfl, .inr ⟨rfl, f, fun hf => ?_, rfl⟩⟩
        exact absurd List.getLast?_concat (hlate f hf)
    · rw [hends] at hrun
      cases hrun
      rcases horderly _ _ hends with ⟨⟨⟩⟩ | hquiet
      obtain rfl := hquiet.eq hhost
      exact ⟨rfl, rfl, .inl ⟨rfl, rfl⟩⟩
    · rw [hends] at hrun
      cases hrun
      exact absurd rfl hstatus

/-- By its first or last character the text of a late fault is told from other texts. -/
theorem RunFault.IsLate.text {f : RunFault} (h : f.IsLate) :
    f.message.toList.head? = some 'f' ∨ f.message.toList.getLast? = some 'd' := by
  have hhead : ∀ {s : String}, s.toList.head? = some 'f' →
      ∀ t : String, (s ++ t).toList.head? = some 'f' := by
    intro s hs t
    rw [String.toList_append, List.head?_append, hs, Option.some_or]
  have hlast : ∀ {t : String}, t.toList.getLast? = some 'd' →
      ∀ s : String, (s ++ t).toList.getLast? = some 'd' := by
    intro t ht s
    rw [String.toList_append, List.getLast?_append, ht, Option.some_or]
  cases h with
  | saving h =>
    cases h with
    | cannotCreate folder fault =>
      have hword : "failed to create ".toList.head? = some 'f' := by decide
      exact .inl (hhead (hhead (hhead hword folder) ": ") fault.message)
    | cannotWrite path fault =>
      have hword : "failed to write ".toList.head? = some 'f' := by decide
      exact .inl (hhead (hhead (hhead hword path) ": ") fault.message)
  | incomplete failures total =>
    have hword : " classes failed".toList.getLast? = some 'd' := by decide
    exact .inr (hlast hword _)

/-- A base layer that can be read, and a pattern that no file matches. -/
def unmatchedCommand : Command :=
  .generate ⟨[], [], none, [], []⟩ ["*.yaml"] ["out/Oven.json"] [] (some defaultMarker) "out"

theorem perform_unmatched {d : Disk} {descs : List Description}
    (hbase : (Session.start d).perform ((console .bare).loadDescriptions ["out/Oven.json"]) =
      (.ok descs, .start d))
    (hpattern : (Session.start d).perform ((console .bare).expand ["*.yaml"]) =
      (.error (.fault (.noMatch "*.yaml")), .start d)) :
    (Session.start d).perform ((console .bare).work unmatchedCommand) =
      (.error (.fault (.noMatch "*.yaml")), .start d) := by
  have hnone : (Session.start d).perform ((console .bare).loadDescriptions []) =
      (.ok [], .start d) := rfl
  have hempty : (Session.start d).perform ((console .bare).describeIfGiven
      ⟨[], [], none, [], []⟩) = (.ok ⟨[], []⟩, .start d) := rfl
  rw [unmatchedCommand, Console.work, Console.generate, if_neg (by decide)]
  simp only [Session.perform_bind, hbase, hnone, hempty, hpattern]

/-- Patterns are matched against names, whatever the text of the file is. -/
theorem perform_expand_unmatched : (Session.start ovenDisk).perform
    ((console .bare).expand ["*.yaml"]) =
      (.error (.fault (.noMatch "*.yaml")), .start ovenDisk) := by
  unfold ovenDisk
  generalize ovenDescription.toJson.pretty = text
  rfl

theorem run_early_fault_unmatched :
    Host.KeepsDisk .bare ∧
      ∃ s, run .bare ovenDisk unmatchedCommand = (.status 1, s) ∧
        (∀ f : RunFault, f.IsLate → s.notes.getLast? ≠ some ("error: " ++ f.message)) ∧
        s.disk = ovenDisk ∧ s.output = "" := by
  have hbare : Host.KeepsDisk .bare := fun _ _ _ => rfl
  obtain ⟨hearly, hends⟩ := run_early_fault hbare ovenDisk unmatchedCommand
  obtain ⟨-, hrun⟩ := hearly _ _
    (perform_unmatched perform_loadDescriptions_oven perform_expand_unmatched) nofun
  -- no late fault has this text, whatever its folder, path or counts
  have hlate : ∀ f : RunFault, f.IsLate →
      some ("error: " ++ (RunFault.noMatch "*.yaml").message) ≠ some ("error: " ++ f.message) := by
    intro f hf h
    have hline := congrArg String.toList (Option.some.inj h)
    rw [String.toList_append, String.toList_append] at hline
    have htext := List.append_cancel_left hline
    rcases hf.text with hhead | hlast
    · rw [← htext] at hhead
      exact absurd hhead (by decide)
    · rw [← htext] at hlast
      exact absurd hlast (by decide)
  obtain ⟨hdisk, houtput, -⟩ := hends _ _ hrun (by decide) hlate
  exact ⟨hbare, _, hrun, hlate, hdisk, houtput⟩

end Bindery.CommandLine
