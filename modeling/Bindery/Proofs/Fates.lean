import Mathlib.Data.List.Forall2
import Bindery.Proofs.BatchOutcome
import Bindery.Proofs.RenderedContext
import Bindery.Proofs.RunFaults

/-!
# What becomes of every input

A run that generates takes up sources that cannot be parsed, classes that are asked for and
description files. Each of them has one fate: it fails in one of four stages, or the files of a
class are delivered. What describing, merging and generating come to are the fates of all inputs and
no others (`exists_fates`).
-/

namespace Bindery.CommandLine
open Ast (Document)

/-- Where an input may fail. -/
inductive Stage where
  | parsing
  | describing
  | merging
  | generating
deriving DecidableEq

inductive Fate where
  | failed (stage : Stage) (label : String) (e : Error)
  | delivered (name : String) (files : Artifacts)

namespace Fate

def delivered? : Fate → Option (String × Artifacts)
  | .delivered name files => some (name, files)
  | .failed .. => none

def failedIn? (stage : Stage) : Fate → Option (String × Error)
  | .failed s label e => if s = stage then some (label, e) else none
  | .delivered .. => none

/-- The failures of one stage, in the order of the inputs. -/
def failuresIn (stage : Stage) (fates : List Fate) : List (String × Error) :=
  fates.filterMap (failedIn? stage)

/-- All failures, those of the first stage first. -/
def failures (fates : List Fate) : List (String × Error) :=
  [.parsing, .describing, .merging, .generating].flatMap fun stage =>
    failuresIn stage fates

def successes (fates : List Fate) : List (String × Artifacts) := fates.filterMap delivered?

theorem successes_cons (f : Fate) (fates : List Fate) :
    successes (f :: fates) = f.delivered?.toList ++ successes fates := by
  cases f <;> rfl

theorem failuresIn_cons (stage : Stage) (f : Fate) (fates : List Fate) :
    failuresIn stage (f :: fates) = (f.failedIn? stage).toList ++ failuresIn stage fates := by
  rw [failuresIn, List.filterMap_cons]
  cases f.failedIn? stage <;> rfl

/-- Every fate is either a success or a failure of one stage. -/
theorem length_successes_failures (fates : List Fate) :
    (successes fates).length + (failures fates).length = fates.length := by
  induction fates with
  | nil => rfl
  | cons f rest ih =>
    simp only [failures, List.flatMap_cons, List.flatMap_nil, successes_cons, failuresIn_cons,
      List.length_append, List.length_nil, List.length_cons] at ih ⊢
    have hone : f.delivered?.toList.length + ((f.failedIn? .parsing).toList.length +
        (f.failedIn? .describing).toList.length + (f.failedIn? .merging).toList.length +
        (f.failedIn? .generating).toList.length) = 1 := by
      cases f with
      | delivered => rfl
      | failed stage => cases stage <;> rfl
    omega

theorem successes_append (fates more : List Fate) :
    successes (fates ++ more) = successes fates ++ successes more := List.filterMap_append

theorem failuresIn_append (stage : Stage) (fates more : List Fate) :
    failuresIn stage (fates ++ more) = failuresIn stage fates ++ failuresIn stage more :=
  List.filterMap_append

def allDelivered (l : List (String × Artifacts)) : List Fate := l.map fun x => .delivered x.1 x.2

theorem successes_allDelivered (l : List (String × Artifacts)) :
    successes (allDelivered l) = l := by
  rw [successes, allDelivered, List.filterMap_map]
  exact List.filterMap_some

theorem failuresIn_allDelivered (stage : Stage) (l : List (String × Artifacts)) :
    failuresIn stage (allDelivered l) = [] := by
  rw [failuresIn, allDelivered, List.filterMap_map]
  exact List.filterMap_eq_nil_iff.2 fun _ _ => rfl

def allFailed (stage : Stage) (l : List (String × Error)) : List Fate :=
  l.map fun x => .failed stage x.1 x.2

theorem successes_allFailed (stage : Stage) (l : List (String × Error)) :
    successes (allFailed stage l) = [] := by
  rw [successes, allFailed, List.filterMap_map]
  exact List.filterMap_eq_nil_iff.2 fun _ _ => rfl

theorem failuresIn_allFailed (stage : Stage) (l : List (String × Error)) :
    failuresIn stage (allFailed stage l) = l := by
  have hself : failedIn? stage ∘ (fun x : String × Error => .failed stage x.1 x.2) = some := by
    funext x
    exact if_pos rfl
  rw [failuresIn, allFailed, List.filterMap_map, hself, List.filterMap_some]

theorem failuresIn_allFailed_of_ne {stage stage' : Stage} (h : stage ≠ stage')
    (l : List (String × Error)) : failuresIn stage (allFailed stage' l) = [] := by
  rw [failuresIn, allFailed, List.filterMap_map]
  exact List.filterMap_eq_nil_iff.2 fun _ _ => if_neg h.symm

end Fate

inductive Item where
  /-- A source that no document can be made of. -/
  | source (path : String) (e : Error)
  /-- A class that is asked for, and what describing it comes to. -/
  | requested (name : String) (outcome : Except Halt Description)
  /-- A description from a file. -/
  | given (d : Description)

section
variable (base overrides : List Description) (marker? : Option String)

/-- What may become of a description. One without a name is labelled by a number. -/
inductive Meets (d : Description) : Fate → Prop where
  | unmerged {e : Error} (i : Nat) :
      d.layered base overrides = .error e → Meets d (.failed .merging (d.label i) e)
  | ungenerated {merged : Description} {e : Error} (i : Nat) :
      d.layered base overrides = .ok merged →
        Cython.backend.generate merged marker? = .error e →
          Meets d (.failed .generating (merged.label i) e)
  | delivered {merged : Description} {name : String} {files : Artifacts} :
      d.layered base overrides = .ok merged →
        Cython.backend.generate merged marker? = .ok files → merged.name? = some name →
          Meets d (.delivered name files)

inductive Fares : Item → Fate → Prop where
  | unparsed {path : String} {e : Error} : Fares (.source path e) (.failed .parsing path e)
  | undescribed {name : String} {e : Error} :
      Fares (.requested name (.error (.failed e))) (.failed .describing name e)
  | described {name : String} {d : Description} {f : Fate} :
      Meets base overrides marker? d f → Fares (.requested name (.ok d)) f
  | loaded {d : Description} {f : Fate} :
      Meets base overrides marker? d f → Fares (.given d) f

end

/-! ### Stage by stage -/

/-- Failures of a stage are final, and what passes it has a fate later. -/
inductive Passes {α : Type} (stage : Stage) (P : String × α → Fate → Prop)
    (o : String × Except Error α) : Fate → Prop where
  | failed {e : Error} : o.2 = .error e → Passes stage P o (.failed stage o.1 e)
  | passed {a : α} {f : Fate} : o.2 = .ok a → P (o.1, a) f → Passes stage P o f

/-- The fates of what passes a stage, with the failures of that stage put in where they belong. -/
theorem exists_passes {α : Type} (stage : Stage) {P : String × α → Fate → Prop}
    {l : List (String × Except Error α)} {later : List Fate}
    (h : List.Forall₂ P (BatchReport.ofOutcomes l).succeeded later) :
    ∃ fates, List.Forall₂ (Passes stage P) l fates ∧
      Fate.successes fates = Fate.successes later ∧
      (∀ s, s ≠ stage → Fate.failuresIn s fates = Fate.failuresIn s later) ∧
      (Fate.failuresIn stage later = [] →
        Fate.failuresIn stage fates = (BatchReport.ofOutcomes l).failed) := by
  -- a failure adds a fate of its own, anything else takes the next one of `later`
  induction l generalizing later with
  | nil =>
    cases h
    exact ⟨[], .nil, rfl, fun _ _ => rfl, fun _ => rfl⟩
  | cons o rest ih =>
    obtain ⟨label, outcome⟩ := o
    cases outcome with
    | error e =>
      obtain ⟨fates, hpasses, hsuccesses, hothers, hfailed⟩ := ih h
      refine ⟨.failed stage label e :: fates, .cons (.failed rfl) hpasses, hsuccesses,
        fun s hs => ?_, fun hnone => ?_⟩
      · rw [Fate.failuresIn_cons, Fate.failedIn?, if_neg hs.symm]
        exact hothers s hs
      · rw [Fate.failuresIn_cons, Fate.failedIn?, if_pos rfl]
        exact congrArg ((label, e) :: ·) (hfailed hnone)
    | ok a =>
      cases h with
      | @cons _ f _ later' hf hlater =>
        obtain ⟨fates, hpasses, hsuccesses, hothers, hfailed⟩ := ih hlater
        refine ⟨f :: fates, .cons (.passed rfl hf) hpasses, ?_, fun s hs => ?_, fun hnone => ?_⟩
        · rw [Fate.successes_cons, Fate.successes_cons, hsuccesses]
        · rw [Fate.failuresIn_cons, Fate.failuresIn_cons, hothers s hs]
        · rw [Fate.failuresIn_cons, List.append_eq_nil_iff] at hnone
          rw [Fate.failuresIn_cons, hnone.1, hfailed hnone.2]
          rfl

/-- What follows from a list with numbers, whatever they are. -/
theorem forall₂_of_zipIdx {α β : Type} {g : α × Nat → β} {S : β → Fate → Prop}
    {R : α → Fate → Prop} {l : List α} {fates : List Fate}
    (h : List.Forall₂ S (l.zipIdx.map g) fates)
    (hR : ∀ a i f, S (g (a, i)) f → R a f) : List.Forall₂ R l fates := by
  have hpairs : List.Forall₂ (fun x f => R x.1 f) l.zipIdx fates :=
    (List.forall₂_map_left_iff.1 h).imp fun (x : α × Nat) f => hR x.1 x.2 f
  have hfirst := List.forall₂_map_left_iff.2 hpairs
  rwa [List.zipIdx_map_fst] at hfirst

theorem forall₂_append_left {α : Type} {R : α → Fate → Prop} {l l' : List α} {fates : List Fate}
    (h : List.Forall₂ R (l ++ l') fates) :
    ∃ fs fs', fates = fs ++ fs' ∧ List.Forall₂ R l fs ∧ List.Forall₂ R l' fs' := by
  induction l generalizing fates with
  | nil => exact ⟨[], fates, rfl, .nil, h⟩
  | cons a rest ih =>
    cases h with
    | cons ha hrest =>
      obtain ⟨fs, fs', rfl, hfs, hfs'⟩ := ih hrest
      exact ⟨_ :: fs, fs', rfl, .cons ha hfs, hfs'⟩

section
variable {base overrides : List Description} {marker? : Option String}

/-- The fates of descriptions, as they are merged and then generated. -/
theorem exists_meets (base overrides : List Description) (marker? : Option String)
    (descs : List Description) :
    ∃ fates, List.Forall₂ (Meets base overrides marker?) descs fates ∧
      Fate.successes fates = (generateAll Cython.backend
        ((layerAll base overrides descs).succeeded.map (·.2)) marker?).succeeded ∧
      (∀ s, s ≠ .merging → s ≠ .generating → Fate.failuresIn s fates = []) ∧
      Fate.failuresIn .merging fates = (layerAll base overrides descs).failed ∧
      Fate.failuresIn .generating fates = (generateAll Cython.backend
        ((layerAll base overrides descs).succeeded.map (·.2)) marker?).failed := by
  let layered := layerAll base overrides descs
  let generated := generateAll Cython.backend (layered.succeeded.map (·.2)) marker?
  -- from the last stage to the first, as a failure only takes place where the next stage is known
  have hdelivered : List.Forall₂ (fun x f => f = Fate.delivered x.1 x.2) generated.succeeded
      (Fate.allDelivered generated.succeeded) :=
    List.forall₂_map_right_iff.2 (List.forall₂_same.2 fun _ _ => rfl)
  have hclean : ∀ s, Fate.failuresIn s (Fate.allDelivered generated.succeeded) = [] :=
    fun s => Fate.failuresIn_allDelivered s _
  obtain ⟨fates, hgenerated, hsuccesses, hothers, hfailed⟩ := exists_passes .generating hdelivered
  have hmerged := List.forall₂_map_left_iff.1
    (forall₂_of_zipIdx (R := fun m f => ∃ i, Passes .generating _ (m.label i,
      Cython.backend.generate m marker?) f) hgenerated fun _ i _ h => ⟨i, h⟩)
  obtain ⟨fates', hlayered, hsuccesses', hothers', hfailed'⟩ := exists_passes .merging hmerged
  refine ⟨fates', forall₂_of_zipIdx hlayered fun d i f h => ?_, ?_, fun s hm hg => ?_, ?_, ?_⟩
  · rcases h with he | ⟨hok, j, hpasses⟩
    · exact .unmerged i he
    rcases hpasses with he | ⟨hfiles, rfl⟩
    · exact .ungenerated j hok he
    obtain ⟨-, name, hclass, -⟩ := Backend.generate_eq_ok_iff.1 hfiles
    have hname := (Description.className_eq_ok_iff.1 hclass).1
    refine .delivered hok hfiles ?_
    rw [Description.label, hname]
    rfl
  · rw [hsuccesses', hsuccesses, Fate.successes_allDelivered]
  · rw [hothers' s hm, hothers s hg, hclean]
  · exact hfailed' (by rw [hothers .merging (by decide), hclean])
  · rw [hothers' .generating (by decide)]
    exact hfailed (hclean _)

theorem exists_fares_requested {documents : List Document} {names onlyIn : List String}
    {report : BatchReport Description} {later : List Fate}
    (hreport : describeAll documents names onlyIn = some report)
    (hlater : List.Forall₂ (Meets base overrides marker?) (report.succeeded.map (·.2)) later)
    (hclean : Fate.failuresIn .describing later = []) :
    ∃ fates, List.Forall₂ (Fares base overrides marker?)
        (names.map fun n => .requested n (classOutcome documents onlyIn n)) fates ∧
      Fate.successes fates = Fate.successes later ∧
      (∀ s, s ≠ .describing → Fate.failuresIn s fates = Fate.failuresIn s later) ∧
      Fate.failuresIn .describing fates = report.failed := by
  rw [describeAll_eq] at hreport
  obtain ⟨outcomes, hl, rfl⟩ := BatchReport.ofHalts?_eq_some_iff.1 hreport
  obtain ⟨fates, hdescribed, hsuccesses, hothers, hfailed⟩ :=
    exists_passes .describing (List.forall₂_map_left_iff.1 hlater)
  refine ⟨fates, ?_, hsuccesses, hothers, hfailed hclean⟩
  have hitems := congrArg (List.map fun x : String × Except Halt Description =>
    Item.requested x.1 x.2) hl
  rw [List.map_map, List.map_map] at hitems
  refine (congrArg (List.Forall₂ _ · fates) hitems).mpr (List.forall₂_map_left_iff.2 ?_)
  refine hdescribed.imp fun o f h => ?_
  obtain ⟨name, outcome⟩ := o
  rcases h with ⟨⟨⟩⟩ | ⟨⟨⟩, hmeets⟩
  · exact .undescribed
  · exact .described hmeets

end

/-! ### All inputs -/

/-- The documents that a parser command makes of sources, one source after another. -/
inductive Parses (host : Host) (p : ParserCommand) :
    Disk → List (String × Except Error Document) → Disk → Prop where
  | nil {disk : Disk} : Parses host p disk [] disk
  | cons {disk disk' after : Disk} {source : String} {answer : Except FileFault Finished}
      {rest : List (String × Except Error Document)} :
      host.execute disk p.program (p.words source) = (answer, disk') →
        Parses host p disk' rest after →
          Parses host p disk ((source, p.document source answer) :: rest) after

/-- The sources that no document can be made of, each with what goes wrong, and the disk when all
have been tried. -/
inductive Unparsed (host : Host) (disk : Disk) (input : ClassInput) :
    List (String × Error) → Disk → Prop where
  | noSources : input.sources = [] → Unparsed host disk input [] disk
  | sources {command : ParserCommand} {outcomes : List (String × Except Error Document)}
      {between : Disk} :
      ParserCommand.ofLine (input.parserCommand?.getD "") = .ok command →
        (Session.start disk).perform ((Session.console host).expand input.sources) =
          (.ok (outcomes.map (·.1)), .start disk) →
        Parses host command disk outcomes between →
          Unparsed host disk input
            (outcomes.filterMap fun o => (Outcome.fault? o.2).map (o.1, ·)) between

/-- What a run has to account for. -/
structure Inputs where
  unparsed : List (String × Error)
  documents : List Document
  classes : List String
  onlyIn : List String
  given : List Description

def Inputs.items (x : Inputs) : List Item :=
  x.unparsed.map (fun s => .source s.1 s.2) ++
    x.classes.map (fun n => .requested n (classOutcome x.documents x.onlyIn n)) ++
      x.given.map .given

/-- The sources and classes are those that the command line asks for; between the disk as it was and
the disk as it is now, programs have run. -/
structure Inputs.Asked (host : Host) (disk between : Disk) (input : ClassInput) (x : Inputs) :
    Prop where
  unparsed : Unparsed host disk input x.unparsed between
  /-- Classes are only described if there is something to describe them from. -/
  classes : x.classes = if input.isEmpty then [] else input.classes
  documents : input.isEmpty = false → ∃ gathered,
    (Session.start disk).perform ((Session.console host).gatherDocuments input) =
        (.ok gathered, .start between) ∧
      x.documents = gathered.succeeded.map (·.2)
  onlyIn : x.onlyIn = input.onlyIn

/-- The descriptions are those of the files that the command line names. -/
def Inputs.Given (host : Host) (disk : Disk) (paths : List String) (x : Inputs) : Prop :=
  ∃ files, (Session.start disk).perform ((Session.console host).expand paths) =
      (.ok files, .start disk) ∧
    (Session.start disk).perform ((Session.console host).loadDescriptions files) =
      (.ok x.given, .start disk) ∧ x.given.length = files.length

section
variable {host : Host} {disk : Disk} {input : ClassInput} {s s' : Session}

theorem length_loadDescriptions {files : List String} {given : List Description}
    (h : s.perform ((Session.console host).loadDescriptions files) = (.ok given, s')) :
    given.length = files.length := by
  induction files generalizing given s with
  | nil =>
    cases h
    rfl
  | cons path rest ih =>
    obtain ⟨loaded, s₁, -, h⟩ := Session.perform_bind_eq_ok.1 h
    obtain ⟨d, s₂, -, h⟩ := Session.perform_bind_eq_ok.1 h
    obtain ⟨more, s₃, hmore, h⟩ := Session.perform_bind_eq_ok.1 h
    cases h
    exact congrArg (· + 1) (ih hmore)

theorem parses_parseAll (host : Host) (p : ParserCommand) (sources : List String) (s : Session) :
    ∃ outcomes after, ((Session.console host).parseAll p sources).run s =
        (outcomes, { s with disk := after }) ∧
      outcomes.map (·.1) = sources ∧ Parses host p s.disk outcomes after := by
  induction sources generalizing s with
  | nil => exact ⟨[], s.disk, rfl, rfl, .nil⟩
  | cons source rest ih =>
    let r := host.execute s.disk p.program (p.words source)
    obtain ⟨outcomes, after, hrun, hsources, hparses⟩ := ih { s with disk := r.2 }
    refine ⟨(source, p.document source r.1) :: outcomes, after, ?_, ?_, .cons rfl hparses⟩
    · rw [Console.parseAll, StateT.run_bind]
      show (((Session.console host).parseAll p rest >>= fun more => pure (_ :: more)).run
        { s with disk := r.2 }) = _
      rw [StateT.run_bind, hrun]
      rfl
    · rw [List.map_cons, hsources]

theorem unparsed_of_gatherDocuments {gathered : BatchReport Document}
    (h : (Session.start disk).perform ((Session.console host).gatherDocuments input) =
      (.ok gathered, s)) : Unparsed host disk input gathered.failed s.disk := by
  obtain ⟨files, s₁, hfiles, h⟩ := Session.perform_bind_eq_ok.1 h
  obtain rfl := (Steps.silent_expand host _).eq_of_perform hfiles
  obtain ⟨documents, s₂, hdocuments, h⟩ := Session.perform_bind_eq_ok.1 h
  obtain rfl := (Steps.silent_loadDocuments host _).eq_of_perform hdocuments
  split at h
  next hempty =>
    cases h
    exact .noSources (List.isEmpty_iff.1 hempty)
  next =>
    obtain ⟨command, s₃, hcommand, h⟩ := Session.perform_bind_eq_ok.1 h
    rw [Session.perform_demand] at hcommand
    obtain ⟨hcommand, rfl⟩ := Prod.ext_iff.1 hcommand
    obtain ⟨sources, s₄, hsources, h⟩ := Session.perform_bind_eq_ok.1 h
    obtain rfl := (Steps.silent_expand host _).eq_of_perform hsources
    obtain ⟨outcomes, after, hrun, rfl, hparses⟩ :=
      parses_parseAll host command sources (.start disk)
    obtain ⟨outcomes', s₅, hparsed, h⟩ := Session.perform_bind_eq_ok.1 h
    rw [Session.perform_lift, hrun] at hparsed
    cases hparsed
    cases h
    rw [BatchReport.failed_ofOutcomes]
    exact .sources (Outcome.mapError_eq_ok.1 hcommand) hsources hparses

/-- What describing comes to with sources that failed and what the batch comes to. -/
inductive Reported (unparsed : List (String × Error)) :
    Option (BatchReport Description) → Except Ending (BatchReport Description) → Prop where
  | overflow : Reported unparsed none (.error .overflow)
  | reported {report : BatchReport Description} :
      Reported unparsed (some report) (.ok { report with failed := unparsed ++ report.failed })

/-- Unless a fault ends it, describing comes to what the batch does. -/
theorem asked_of_describeClasses {r : Except Ending (BatchReport Description)}
    (h : (Session.start disk).perform ((Session.console host).describeClasses input) = (r, s)) :
    (∃ e : Ending, r = .error e ∧ e.IsEarly) ∨ ∃ gathered,
      (Session.start disk).perform ((Session.console host).gatherDocuments input) =
          (.ok gathered, s) ∧
        Reported gathered.failed
          (describeAll (gathered.succeeded.map (·.2)) input.classes input.onlyIn) r := by
  unfold Console.describeClasses at h
  split at h
  next =>
    cases h
    exact .inl ⟨_, rfl, ⟨nofun⟩⟩
  next =>
    rcases Session.of_perform_bind h with ⟨gathered, s₁, hgathered, h⟩ | ⟨e, he, rfl⟩
    · split at h
      next =>
        cases h
        exact .inl ⟨_, rfl, ⟨nofun⟩⟩
      next =>
        refine .inr ⟨gathered, ?_⟩
        cases hall : describeAll (gathered.succeeded.map (·.2)) input.classes input.onlyIn with
        | none =>
          rw [hall] at h
          cases h
          exact ⟨hgathered, .overflow⟩
        | some report =>
          rw [hall] at h
          cases h
          exact ⟨hgathered, .reported⟩
    · exact .inl ⟨e, rfl, Session.gatherDocuments_fails host input _ _ e he⟩

/-- Of an input that is empty nothing is asked. -/
theorem asked_of_describeIfGiven {r : Except Ending (BatchReport Description)}
    (h : (Session.start disk).perform ((Session.console host).describeIfGiven input) = (r, s))
    (given : List Description) :
    (∃ e : Ending, r = .error e ∧ e.IsEarly) ∨ ∃ (x : Inputs) (between : Disk),
      x.Asked host disk between input ∧ x.given = given ∧ s = .start between ∧
        Reported x.unparsed (describeAll x.documents x.classes x.onlyIn) r := by
  unfold Console.describeIfGiven at h
  split at h
  next hempty =>
    cases h
    have hsources : input.sources = [] := by
      simp only [ClassInput.isEmpty, Bool.and_eq_true, List.isEmpty_iff] at hempty
      exact hempty.2
    refine .inr ⟨⟨[], [], [], input.onlyIn, given⟩, disk, ?_, rfl, rfl, .reported⟩
    exact {
      unparsed := .noSources hsources
      classes := (if_pos hempty).symm
      documents := fun hfull => absurd (hempty.symm.trans hfull) (by decide)
      onlyIn := rfl }
  next hfull =>
    rcases asked_of_describeClasses h with hearly | ⟨gathered, hgathered, hreported⟩
    · exact .inl hearly
    have hquiet := (Steps.quiet_gatherDocuments host input).of_perform hgathered
    have hs := hquiet.eq_start
    refine .inr ⟨⟨gathered.failed, gathered.succeeded.map (·.2), input.classes, input.onlyIn,
      given⟩, s.disk, ?_, rfl, hs, hreported⟩
    exact {
      unparsed := unparsed_of_gatherDocuments hgathered
      classes := (if_neg hfull).symm
      documents := fun _ => ⟨gathered, hs ▸ hgathered, rfl⟩
      onlyIn := rfl }

end

theorem fares_unparsed {base overrides : List Description} {marker? : Option String}
    (unparsed : List (String × Error)) :
    List.Forall₂ (Fares base overrides marker?) (unparsed.map fun s => .source s.1 s.2)
      (Fate.allFailed .parsing unparsed) := by
  rw [Fate.allFailed, List.forall₂_map_left_iff, List.forall₂_map_right_iff]
  exact List.forall₂_same.2 fun _ _ => .unparsed

/-- If the classes are reported, every input has a fate, and what the stages come to are these
fates. -/
theorem exists_fates {x : Inputs} {report : BatchReport Description}
    (hreport : describeAll x.documents x.classes x.onlyIn = some report)
    (bases overridings : List Description) (marker? : Option String) :
    let layered := layerAll bases overridings (report.succeeded.map (·.2) ++ x.given)
    let generated := generateAll Cython.backend (layered.succeeded.map (·.2)) marker?
    ∃ fates, List.Forall₂ (Fares bases overridings marker?) x.items fates ∧
      Fate.successes fates = generated.succeeded ∧
      Fate.failures fates =
        x.unparsed ++ report.failed ++ layered.failed ++ generated.failed := by
  intro layered generated
  -- what is described and what is loaded is merged in one batch, so their fates come together
  obtain ⟨later, hlater, hsuccesses, hclean, hmerging, hgenerating⟩ :=
    exists_meets bases overridings marker? (report.succeeded.map (·.2) ++ x.given)
  obtain ⟨asked, loaded, rfl, hmeets, hloaded⟩ := forall₂_append_left hlater
  simp only [Fate.successes_append] at hsuccesses
  simp only [Fate.failuresIn_append] at hclean hmerging hgenerating
  have hnone : ∀ s, s ≠ .merging → s ≠ .generating →
      Fate.failuresIn s asked = [] ∧ Fate.failuresIn s loaded = [] := fun s hm hg =>
    List.append_eq_nil_iff.1 (hclean s hm hg)
  obtain ⟨requested, hrequested, hkept, hothers, hdescribing⟩ := exists_fares_requested hreport
    hmeets (hnone .describing (by decide) (by decide)).1
  refine ⟨Fate.allFailed .parsing x.unparsed ++ requested ++ loaded, ?_, ?_, ?_⟩
  · refine List.rel_append (List.rel_append (fares_unparsed x.unparsed) hrequested) ?_
    exact List.forall₂_map_left_iff.2 (hloaded.imp fun _ _ => .loaded)
  · rw [Fate.successes_append, Fate.successes_append, Fate.successes_allFailed, hkept,
      List.nil_append, hsuccesses]
  · have hparsing := hothers .parsing (by decide)
    rw [(hnone .parsing (by decide) (by decide)).1] at hparsing
    have hunparsed : ∀ s, s ≠ .parsing →
        Fate.failuresIn s (Fate.allFailed .parsing x.unparsed) = [] :=
      fun s hs => Fate.failuresIn_allFailed_of_ne hs _
    simp only [Fate.failures, List.flatMap_cons, List.flatMap_nil, Fate.failuresIn_append,
      Fate.failuresIn_allFailed, hunparsed _ (by decide : Stage.describing ≠ .parsing),
      hunparsed _ (by decide : Stage.merging ≠ .parsing),
      hunparsed _ (by decide : Stage.generating ≠ .parsing), hparsing, hdescribing,
      hothers .merging (by decide), hothers .generating (by decide),
      (hnone .parsing (by decide) (by decide)).2, (hnone .describing (by decide) (by decide)).2,
      hmerging, hgenerating, List.append_nil, List.nil_append, List.append_assoc, layered,
      generated]

end Bindery.CommandLine
