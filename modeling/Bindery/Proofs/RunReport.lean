import Bindery.Proofs.ClassFiles
import Bindery.Proofs.Fates
import Bindery.Proofs.KeptFiles
import Bindery.Proofs.TwoSteps

/-!
# What a run reports and leaves

A run says one line for every input, the successes first, and ends with the counts if there was a
failure. The files of all classes are there in the end, unless the names of two of them get in each
other's way. Only over a class that recurs within itself a run is killed, and says nothing
(`run_generate`).
-/

namespace Bindery.CommandLine
open Json (Plain Reading)

def successLine (out : String) (s : String × Artifacts) : String :=
  "✓ " ++ s.1 ++ " → " ++ Text.join ", " (s.2.toList.map fun x => Path.join out x.fileName)

def failureLine (f : String × Error) : String := "✗ " ++ f.1 ++ ": " ++ f.2.message

/-- The last line, if anything failed. -/
def finalLine (failures total : Nat) : List String :=
  if failures = 0 then []
  else ["error: " ++ toString failures ++ " of " ++ toString total ++ " classes failed"]

def classFiles (out : String) (a : Artifacts) : List (String × String) :=
  a.toList.map fun x => (Path.join out x.fileName, x.text)

def savedFiles (out : String) (l : List (String × Artifacts)) : List (String × String) :=
  l.flatMap fun s => classFiles out s.2

namespace Session
variable {host : Host} {s s' : Session} {out : String}

theorem perform_saveArtifacts_eq_ok_iff {l : List Artifact} {paths : List String} :
    s.perform ((console host).saveArtifacts out l) = (.ok paths, s') ↔
      SavedAll s.disk (l.map fun x => (Path.join out x.fileName, x.text)) s'.disk ∧
        paths = l.map (fun x => Path.join out x.fileName) ∧ s' = { s with disk := s'.disk } := by
  induction l generalizing s s' paths with
  | nil =>
    constructor
    · intro h
      cases h
      exact ⟨.nil, rfl, rfl⟩
    · rintro ⟨hsaved, rfl, hs⟩
      generalize s'.disk = after at hsaved hs
      cases hsaved
      rw [hs]
      rfl
  | cons x rest ih =>
    refine perform_bind_eq_ok.trans ⟨?_, ?_⟩
    · rintro ⟨⟨⟩, s₁, hsave, h⟩
      obtain ⟨hsave, hs₁⟩ := perform_save_eq_ok_iff.1 hsave
      obtain ⟨more, s₂, hmore, h⟩ := perform_bind_eq_ok.1 h
      obtain ⟨hrest, rfl, hs₂⟩ := ih.1 hmore
      cases h
      exact ⟨.cons hsave hrest, rfl, by rw [hs₂, hs₁]⟩
    · rintro ⟨hsaved, rfl, hs⟩
      cases hsaved with
      | @cons _ d _ _ _ _ hsave hrest =>
        refine ⟨(), { s with disk := d }, perform_save_eq_ok_iff.2 ⟨hsave, rfl⟩, ?_⟩
        exact perform_bind_eq_ok.2 ⟨_, s', ih.2 ⟨hrest, rfl, hs⟩, rfl⟩

/-- All files are delivered if and only if they can be saved. -/
theorem perform_deliverArtifacts_eq_ok_iff {l : List (String × Artifacts)} :
    s.perform ((console host).deliverArtifacts out l) = (.ok (), s') ↔
      SavedAll s.disk (savedFiles out l) s'.disk ∧
        s' = ⟨s'.disk, s.output, s.notes ++ l.map (successLine out)⟩ := by
  induction l generalizing s with
  | nil =>
    rw [List.map_nil, List.append_nil]
    constructor
    · intro h
      cases h
      exact ⟨.nil, rfl⟩
    · rintro ⟨hsaved, hs⟩
      generalize s'.disk = after at hsaved hs
      cases hsaved
      rw [hs]
      rfl
  | cons x rest ih =>
    rw [List.map_cons, savedFiles, List.flatMap_cons, ← savedFiles, SavedAll.append_iff]
    refine perform_bind_eq_ok.trans ⟨?_, ?_⟩
    · rintro ⟨paths, s₁, hdone, h⟩
      obtain ⟨hsaved, rfl, hs₁⟩ := perform_saveArtifacts_eq_ok_iff.1 hdone
      obtain ⟨⟨⟩, s₂, hnoted, h⟩ := perform_bind_eq_ok.1 h
      obtain rfl : s₂ = { s₁ with notes := s₁.notes ++ [successLine out x] } :=
        (Prod.ext_iff.1 hnoted).2.symm
      obtain ⟨hrest, hs⟩ := ih.1 h
      refine ⟨⟨s₁.disk, hsaved, hrest⟩, ?_⟩
      rw [hs, hs₁, List.append_assoc]
      rfl
    · rintro ⟨⟨d, hsaved, hrest⟩, hs⟩
      refine ⟨_, { s with disk := d }, perform_saveArtifacts_eq_ok_iff.2 ⟨hsaved, rfl, rfl⟩, ?_⟩
      refine perform_bind_eq_ok.2 ⟨(), ⟨d, s.output, s.notes ++ [successLine out x]⟩, rfl, ?_⟩
      refine ih.2 ⟨hrest, ?_⟩
      rw [hs, List.append_assoc]
      rfl

theorem noteFailures_run (s : Session) (l : List (String × Error)) :
    ((console host).noteFailures l).run s =
      ((), { s with notes := s.notes ++ l.map failureLine }) := by
  induction l generalizing s with
  | nil =>
    rw [List.map_nil, List.append_nil]
    rfl
  | cons f rest ih =>
    rw [Console.noteFailures, StateT.run_bind]
    refine (ih _).trans ?_
    rw [List.map_cons, ← List.singleton_append, ← List.append_assoc]
    rfl

theorem perform_finish {α : Type} (s : Session) (report : BatchReport α) :
    s.perform ((console host).finish report) =
      (if report.isClean then .ok ()
        else .error (.fault (.incomplete report.failed.length report.total)),
      { s with notes := s.notes ++ report.failed.map failureLine }) := by
  rw [Console.finish, perform_bind, perform_lift, noteFailures_run]
  dsimp only
  split <;> rfl

/-- If all files can be saved, every success and every failure is said, and failures are counted. -/
theorem of_perform_deliver {l : List (String × Artifacts)} {report : BatchReport Artifacts}
    {r : Except Ending Unit}
    (h : s.perform (do (console host).deliverArtifacts out l; (console host).finish report) =
      (r, s')) (hsaved : ∀ e, r = .error e → ¬ e.OfSaving) :
    SavedAll s.disk (savedFiles out l) s'.disk ∧
      s'.notes = s.notes ++ l.map (successLine out) ++ report.failed.map failureLine ∧
      r = if report.isClean then .ok ()
        else .error (.fault (.incomplete report.failed.length report.total)) := by
  rcases of_perform_bind h with ⟨⟨⟩, s₁, hdelivered, h⟩ | ⟨e, he, rfl⟩
  · obtain ⟨hall, hs₁⟩ := perform_deliverArtifacts_eq_ok_iff.1 hdelivered
    rw [perform_finish, Prod.mk.injEq] at h
    obtain ⟨rfl, rfl⟩ := h
    exact ⟨hall, congrArg (· ++ _) (congrArg Session.notes hs₁), rfl⟩
  · exact absurd (deliverArtifacts_fails host out l _ _ e he) (hsaved e rfl)

end Session

/-! ### Files of classes -/

namespace Fate
variable {base overrides : List Description} {marker? : Option String}

/-- Files are delivered under the name of the class that they were generated for. -/
structure Named (s : String × Artifacts) : Prop where
  header : s.2.header.fileName = Cython.fileName .header s.1
  declaration : s.2.declaration.fileName = Cython.fileName .declaration s.1
  implementation : s.2.implementation.fileName = Cython.fileName .implementation s.1

theorem Named.exists_kind {s : String × Artifacts} (h : Named s) {x : Artifact}
    (hx : x ∈ s.2.toList) : ∃ kind, x.fileName = Cython.fileName kind s.1 := by
  simp only [Artifacts.toList, List.mem_cons, List.not_mem_nil, or_false] at hx
  rcases hx with rfl | rfl | rfl
  · exact ⟨_, h.header⟩
  · exact ⟨_, h.declaration⟩
  · exact ⟨_, h.implementation⟩

theorem named_of_generate {d : Description} {name : String} {files : Artifacts}
    (h : Cython.backend.generate d marker? = .ok files) (hname : d.name? = some name) :
    Named (name, files) := by
  obtain ⟨-, name', hclass, rfl⟩ := Backend.generate_eq_ok_iff.1 h
  obtain rfl : name = name' :=
    Option.some.inj (hname.symm.trans (Description.className_eq_ok_iff.1 hclass).1)
  exact ⟨rfl, rfl, rfl⟩

theorem named_of_fares {item : Item} {s : String × Artifacts}
    (h : Fares base overrides marker? item (.delivered s.1 s.2)) : Named s := by
  have hmeets : ∀ {d}, Meets base overrides marker? d (.delivered s.1 s.2) → Named s := by
    intro d hd
    cases hd with
    | delivered _ hfiles hname => exact named_of_generate hfiles hname
  cases h with
  | described hd => exact hmeets hd
  | loaded hd => exact hmeets hd

theorem mem_successes {fates : List Fate} {s : String × Artifacts} :
    s ∈ successes fates ↔ .delivered s.1 s.2 ∈ fates := by
  rw [successes, List.mem_filterMap]
  constructor
  · rintro ⟨f, hf, hs⟩
    cases f with
    | failed => cases hs
    | delivered name files =>
      cases hs
      exact hf
  · exact fun h => ⟨_, h, rfl⟩

end Fate

theorem forall₂_mem_left {α β : Type} {R : α → β → Prop} {l : List α} {l' : List β}
    (h : List.Forall₂ R l l') {a : α} (ha : a ∈ l) : ∃ b ∈ l', R a b := by
  induction h with
  | nil => cases ha
  | cons hab _ ih =>
    rcases List.mem_cons.1 ha with rfl | ha
    · exact ⟨_, List.mem_cons_self .., hab⟩
    · obtain ⟨b, hb, hR⟩ := ih ha
      exact ⟨b, List.mem_cons_of_mem _ hb, hR⟩

section
variable {l : List (String × Artifacts)}

theorem lastName_file {name : String} (hplain : '/' ∉ name.toList) (out : String)
    (kind : ArtifactKind) :
    (Path.names (Path.join out (Cython.fileName kind name))).getLast? =
      some (Cython.fileName kind name) :=
  Path.getLast?_names_join (Cython.fileName_ne_empty kind name)
    (Cython.slash_not_mem_fileName hplain kind) out

/-- No two files have the same name. -/
theorem pairwise_savedFiles (hnamed : ∀ s ∈ l, Fate.Named s) (hplain : ∀ s ∈ l, '/' ∉ s.1.toList)
    (hapart : l.Pairwise fun s t => Cython.Apart s.1 t.1) (out : String) :
    (savedFiles out l).Pairwise fun f g =>
      (Path.names f.1).getLast? ≠ (Path.names g.1).getLast? := by
  refine List.pairwise_flatMap.2 ⟨fun s hs => ?_, hapart.imp_of_mem fun hs ht hst f hf g hg => ?_⟩
  · have hkinds : ∀ kind kind' : ArtifactKind, kind ≠ kind' →
        (Path.names (Path.join out (Cython.fileName kind s.1))).getLast? ≠
          (Path.names (Path.join out (Cython.fileName kind' s.1))).getLast? := by
      intro kind kind' hne
      rw [lastName_file (hplain s hs), lastName_file (hplain s hs), Ne, Option.some.injEq]
      exact Cython.fileName_ne_of_kind hne s.1
    obtain ⟨hheader, hdeclaration, himplementation⟩ := hnamed s hs
    simp only [classFiles, Artifacts.toList, List.map_cons, List.map_nil, hheader, hdeclaration,
      himplementation, List.pairwise_cons, List.forall_mem_cons, List.Pairwise.nil, and_true]
    exact ⟨⟨hkinds .header .declaration nofun, hkinds .header .implementation nofun, nofun⟩,
      ⟨hkinds .declaration .implementation nofun, nofun⟩, nofun⟩
  · obtain ⟨x, hx, rfl⟩ := List.mem_map.1 hf
    obtain ⟨y, hy, rfl⟩ := List.mem_map.1 hg
    obtain ⟨kind, hkind⟩ := (hnamed _ hs).exists_kind hx
    obtain ⟨kind', hkind'⟩ := (hnamed _ ht).exists_kind hy
    simp only [hkind, hkind']
    rw [lastName_file (hplain _ hs), lastName_file (hplain _ ht), Ne, Option.some.injEq]
    exact Cython.fileName_ne hst kind kind'

/-- Every file of every class is there once all are saved. -/
theorem read_savedFiles {disk after : Disk} {out : String}
    (h : SavedAll disk (savedFiles out l) after) (hnamed : ∀ s ∈ l, Fate.Named s)
    (hplain : ∀ s ∈ l, '/' ∉ s.1.toList)
    (hapart : l.Pairwise fun s t => Cython.Apart s.1 t.1) :
    ∀ s ∈ l, ∀ x ∈ s.2.toList, after.read (Path.join out x.fileName) = .ok x.text := by
  have hsink : ∀ f ∈ savedFiles out l, (Path.names f.1).getLast? ≠ some "null" := by
    intro f hf
    obtain ⟨s, hs, hf⟩ := List.mem_flatMap.1 hf
    obtain ⟨x, hx, rfl⟩ := List.mem_map.1 hf
    obtain ⟨kind, hkind⟩ := (hnamed s hs).exists_kind hx
    simp only [hkind]
    rw [lastName_file (hplain s hs), Ne, Option.some.injEq]
    exact Cython.fileName_ne_null kind s.1
  intro s hs x hx
  exact h.read (pairwise_savedFiles hnamed hplain hapart out) hsink
    (Path.join out x.fileName, x.text) (List.mem_flatMap.2 ⟨s, hs, List.mem_map.2 ⟨x, hx, rfl⟩⟩)

end

/-! ### Runs -/

/-- The descriptions that files are to be written for. -/
def Inputs.descriptions (x : Inputs) : List Description :=
  x.classes.filterMap (fun n => (classOutcome x.documents x.onlyIn n).toOption) ++ x.given

section
variable {host : Host} {disk : Disk} {input : ClassInput} {paths base overrides : List String}
  {marker? : Option String} {out : String} {s : Session}

theorem delivered_of_fares {bases overridings : List Description} {x : Inputs} {fates : List Fate}
    (h : List.Forall₂ (Fares bases overridings marker?) x.items fates) {d merged : Description}
    {files : Artifacts} (hd : d ∈ x.descriptions)
    (hmerged : d.layered bases overridings = .ok merged)
    (hfiles : Cython.backend.generate merged marker? = .ok files) :
    ∃ name, (name, files) ∈ Fate.successes fates := by
  have hmeets : ∀ {f}, Meets bases overridings marker? d f → f ∈ fates →
      ∃ name, (name, files) ∈ Fate.successes fates := by
    intro f hf hmem
    rcases hf with ⟨-, he⟩ | ⟨-, hmerged', he⟩ | ⟨hmerged', hfiles', hname⟩
    · cases hmerged.symm.trans he
    · cases hmerged.symm.trans hmerged'
      cases hfiles.symm.trans he
    · cases hmerged.symm.trans hmerged'
      cases hfiles.symm.trans hfiles'
      exact ⟨_, Fate.mem_successes.2 hmem⟩
  rcases List.mem_append.1 hd with hd | hd
  · obtain ⟨n, hn, hoption⟩ := List.mem_filterMap.1 hd
    have hitem : Item.requested n (classOutcome x.documents x.onlyIn n) ∈ x.items :=
      List.mem_append_left _ (List.mem_append_right _ (List.mem_map.2 ⟨n, hn, rfl⟩))
    obtain ⟨f, hf, hfares⟩ := forall₂_mem_left h hitem
    cases houtcome : classOutcome x.documents x.onlyIn n with
    | error e =>
      rw [houtcome] at hoption
      cases hoption
    | ok d' =>
      rw [houtcome] at hoption hfares
      cases hoption
      cases hfares with
      | described hd => exact hmeets hd hf
  · obtain ⟨f, hf, hfares⟩ := forall₂_mem_left h
      (List.mem_append_right _ (List.mem_map.2 ⟨d, hd, rfl⟩) : Item.given d ∈ x.items)
    cases hfares with
    | loaded hd => exact hmeets hd hf

/-- A run that has delivered what it could ends by its failures. -/
theorem run_of_finished {c : Command} {report : BatchReport Artifacts}
    (h : (Session.start disk).perform ((Session.console host).work c) =
      (if report.isClean then .ok ()
        else .error (.fault (.incomplete report.failed.length report.total)), s)) :
    ∃ status done, run host disk c = (.status status, done) ∧ (status = 0 ↔ report.failed = []) ∧
      done.disk = s.disk ∧ done.notes = s.notes ++ finalLine report.failed.length report.total := by
  rw [run_eq, h]
  by_cases hclean : report.failed = []
  · have hisClean : report.isClean = true := List.isEmpty_iff.2 hclean
    rw [if_pos hisClean]
    refine ⟨0, s, rfl, iff_of_true rfl hclean, rfl, ?_⟩
    rw [finalLine, if_pos (List.length_eq_zero_iff.2 hclean), List.append_nil]
  · have hisClean : ¬ report.isClean = true := fun h => hclean (List.isEmpty_iff.1 h)
    rw [if_neg hisClean]
    refine ⟨1, _, rfl, iff_of_false (by decide) hclean, rfl, ?_⟩
    rw [finalLine, if_neg (mt List.length_eq_zero_iff.1 hclean)]
    rfl

/-- A run that does not end early has its layers and inputs. Either it runs out of room over the
classes, or it goes on to deliver what it has made. -/
theorem of_perform_generate {r : Except Ending Unit}
    (h : (Session.start disk).perform
      ((Session.console host).generate input paths base overrides marker? out) = (r, s))
    (hpast : ∀ e, r = .error e → ¬ e.IsEarly) :
    ∃ (bases overridings : List Description) (x : Inputs) (between : Disk),
      (Session.start disk).perform ((Session.console host).loadDescriptions base) =
        (.ok bases, .start disk) ∧
      (Session.start disk).perform ((Session.console host).loadDescriptions overrides) =
        (.ok overridings, .start disk) ∧
      x.Asked host disk between input ∧
      (describeAll x.documents x.classes x.onlyIn = none ∧ r = .error .overflow ∧
          s = .start between ∨
        ∃ report, describeAll x.documents x.classes x.onlyIn = some report ∧
          x.Given host between paths ∧
          let layered := layerAll bases overridings (report.succeeded.map (·.2) ++ x.given)
          let generated := generateAll Cython.backend (layered.succeeded.map (·.2)) marker?
          let failed := x.unparsed ++ report.failed ++ layered.failed ++ generated.failed
          (Session.start between).perform (do
            (Session.console host).deliverArtifacts out generated.succeeded
            (Session.console host).finish { generated with failed := failed }) = (r, s)) := by
  unfold Console.generate at h
  split at h
  next =>
    cases h
    exact absurd ⟨nofun⟩ (hpast _ rfl)
  obtain ⟨bases, hbases, h⟩ := (Steps.silent_loadDescriptions host base).of_perform_bind
    (Session.loadDescriptions_fails host base) hpast h
  obtain ⟨overridings, hoverridings, h⟩ :=
    (Steps.silent_loadDescriptions host overrides).of_perform_bind
      (Session.loadDescriptions_fails host overrides) hpast h
  rcases Session.of_perform_bind h with ⟨described, s₁, hdescribed, h⟩ | ⟨e, he, rfl⟩
  · obtain ⟨files, hfiles, h⟩ := (Steps.silent_expand host paths).of_perform_bind
      (Session.expand_fails host paths) hpast h
    obtain ⟨given, hgiven, h⟩ := (Steps.silent_loadDescriptions host files).of_perform_bind
      (Session.loadDescriptions_fails host files) hpast h
    rcases asked_of_describeIfGiven hdescribed given with
      ⟨e, he, -⟩ | ⟨x, between, hasked, rfl, rfl, hreported⟩
    · cases he
    generalize hall : describeAll x.documents x.classes x.onlyIn = report? at hreported
    cases hreported with
    | @reported report =>
      exact ⟨bases, overridings, x, between, hbases, hoverridings, hasked, .inr ⟨report, hall,
        ⟨files, hfiles, hgiven, length_loadDescriptions hgiven⟩, h⟩⟩
  · -- nothing is given to such a run, for it ends before it looks
    rcases asked_of_describeIfGiven he [] with
      ⟨e', he', hearly⟩ | ⟨x, between, hasked, -, rfl, hreported⟩
    · cases he'
      exact absurd hearly (hpast e rfl)
    generalize hall : describeAll x.documents x.classes x.onlyIn = report? at hreported
    cases hreported with
    | overflow =>
      exact ⟨bases, overridings, x, between, hbases, hoverridings, hasked, .inl ⟨hall, rfl, rfl⟩⟩

/-- A run that is past its inputs and has saved all it had to save is killed if and only if one of
the classes overruns. Otherwise it has one fate for every input, says each once, ends well if and
only if there is no failure, and leaves the files of every description that can be merged and
generated, if no class is in the way of another. -/
theorem run_generate {ending : Except Ending Unit}
    (hends : (Session.start disk).perform ((Session.console host).work
      (.generate input paths base overrides marker? out)) = (ending, s))
    (hpast : ∀ f, ending = .error (.fault f) → ∃ failures total, f = .incomplete failures total) :
    ∃ (bases overridings : List Description) (x : Inputs) (between : Disk),
      (Session.start disk).perform ((Session.console host).loadDescriptions base) =
        (.ok bases, .start disk) ∧
      (Session.start disk).perform ((Session.console host).loadDescriptions overrides) =
        (.ok overridings, .start disk) ∧
      x.Asked host disk between input ∧
      (ending = .error .overflow ↔ ∃ name ∈ x.classes, Overruns x.documents x.onlyIn name) ∧
      (ending = .error .overflow →
        run host disk (.generate input paths base overrides marker? out) =
          (.killed, .start between)) ∧
      (ending ≠ .error .overflow → x.Given host between paths ∧
        ∃ (fates : List Fate) (status : Nat) (done : Session),
          List.Forall₂ (Fares bases overridings marker?) x.items fates ∧
          (Fate.successes fates).length + (Fate.failures fates).length =
            x.unparsed.length + x.classes.length + x.given.length ∧
          run host disk (.generate input paths base overrides marker? out) =
            (.status status, done) ∧
          (status = 0 ↔ Fate.failures fates = []) ∧
          done.notes = (Fate.successes fates).map (successLine out) ++
            (Fate.failures fates).map failureLine ++
            finalLine (Fate.failures fates).length
              ((Fate.successes fates).length + (Fate.failures fates).length) ∧
          ((Fate.successes fates).Pairwise (fun a b => Cython.Apart a.1 b.1) →
            (∀ a ∈ Fate.successes fates, '/' ∉ a.1.toList) →
              ∀ d ∈ x.descriptions, ∀ merged files, d.layered bases overridings = .ok merged →
                Cython.backend.generate merged marker? = .ok files →
                  ∀ f ∈ files.toList,
                    done.disk.read (Path.join out f.fileName) = .ok f.text)) := by
  have hlate : ∀ e, ending = .error e → ¬ e.IsEarly ∧ ¬ e.OfSaving := by
    intro e he
    refine ⟨fun ⟨hf⟩ => ?_, fun ⟨hf⟩ => ?_⟩
    · obtain ⟨failures, total, rfl⟩ := hpast _ he
      exact hf (.incomplete ..)
    · obtain ⟨failures, total, rfl⟩ := hpast _ he
      cases hf
  obtain ⟨bases, overridings, x, between, hbases, hoverridings, hasked, hrest⟩ :=
    of_perform_generate hends fun e he => (hlate e he).1
  refine ⟨bases, overridings, x, between, hbases, hoverridings, hasked, ?_⟩
  rcases hrest with ⟨hnone, rfl, rfl⟩ | ⟨report, hreport, hgiven, hdelivered⟩
  · refine ⟨iff_of_true rfl (describeAll_eq_none_iff.1 hnone), fun _ => ?_, fun h => absurd rfl h⟩
    rw [run_eq, hends]
  obtain ⟨fates, hfares, hsuccesses, hfailures⟩ := exists_fates hreport bases overridings marker?
  obtain ⟨hsaved, hsaid, hending⟩ :=
    Session.of_perform_deliver hdelivered fun e he => (hlate e he).2
  rw [← hsuccesses] at hsaved hsaid hending
  rw [← hfailures] at hsaid hending
  have hroom : ending ≠ .error .overflow := by
    rw [hending]
    split <;> exact nofun
  have hreported : ¬ ∃ name ∈ x.classes, Overruns x.documents x.onlyIn name := by
    intro hover
    cases hreport.symm.trans (describeAll_eq_none_iff.2 hover)
  rw [hending] at hends
  obtain ⟨status, done, hrun, hstatus, hdisk, hnotes⟩ := run_of_finished hends
  refine ⟨iff_of_false hroom hreported, fun h => absurd h hroom, fun _ => ⟨hgiven, fates, status,
    done, hfares, ?_, hrun, hstatus, ?_, fun hapart hplain d hd merged files hmerged hfiles => ?_⟩⟩
  · rw [Fate.length_successes_failures, ← hfares.length_eq, Inputs.items]
    simp only [List.length_append, List.length_map]
  · rw [hnotes, hsaid]
    rfl
  · obtain ⟨name, hname⟩ := delivered_of_fares hfares hd hmerged hfiles
    have hnamed : ∀ a ∈ Fate.successes fates, Fate.Named a := by
      intro a ha
      obtain ⟨item, -, hitem⟩ := forall₂_mem_left hfares.flip (Fate.mem_successes.1 ha)
      exact Fate.named_of_fares hitem
    rw [hdisk]
    exact read_savedFiles hsaved hnamed hplain hapart (name, files) hname

/-- Asks for a fridge, too, from a source that nothing can parse. -/
def fridgeCommand : Command :=
  .generate ⟨[], ["fridge.h"], some "parse", ["Fridge"], []⟩ ["out/Oven.json"] [] []
    (some defaultMarker) "out"

def ovenFiles : Artifacts :=
  Cython.backend.written (Cython.backend.context ovenDescription "Oven" (some defaultMarker))

theorem generateAll_oven : generateAll Cython.backend [ovenDescription] (some defaultMarker) =
    ⟨[("Oven", ovenFiles)], []⟩ := by
  have hfiles : Cython.backend.generate ovenDescription (some defaultMarker) = .ok ovenFiles :=
    Backend.generate_eq_ok_iff.2 ⟨rfl, "Oven", rfl, rfl⟩
  show BatchReport.ofOutcomes
    [(_, Cython.backend.generate ovenDescription (some defaultMarker))] = _
  rw [hfiles]
  rfl

theorem savedAll_oven :
    ∃ after, SavedAll ovenDisk (savedFiles "out" [("Oven", ovenFiles)]) after := by
  have hsaved : ∀ header declaration implementation : String, ∃ after, SavedAll ovenDisk
      [("out/cpp_oven.pxd", header), ("out/oven.pxd", declaration),
        ("out/oven.pyx", implementation)] after :=
    fun _ _ _ => ⟨_, .cons rfl (.cons rfl (.cons rfl .nil))⟩
  exact hsaved _ _ _

theorem perform_fridge {d after : Disk}
    (hloaded : (Session.start d).perform ((Session.console .bare).loadDescriptions
      ["out/Oven.json"]) = (.ok [ovenDescription], .start d))
    (hsaved : SavedAll d (savedFiles "out" [("Oven", ovenFiles)]) after) :
    ∃ s, (Session.start d).perform ((Session.console .bare).work fridgeCommand) =
      (.error (.fault (.incomplete 2 3)), s) := by
  have hnone : (Session.start d).perform ((Session.console .bare).loadDescriptions []) =
      (.ok [], .start d) := rfl
  have hdescribed : (Session.start d).perform ((Session.console .bare).describeIfGiven
      ⟨[], ["fridge.h"], some "parse", ["Fridge"], []⟩) =
        (.ok ⟨[], [("fridge.h", .parserFailed (.cannotRun "parse" .notFound)),
          ("Fridge", .classNotFound "Fridge")]⟩, .start d) := rfl
  have hpaths : (Session.start d).perform ((Session.console .bare).expand ["out/Oven.json"]) =
      (.ok ["out/Oven.json"], .start d) := rfl
  have hlayered : layerAll [] [] [ovenDescription] = ⟨[("Oven", ovenDescription)], []⟩ := rfl
  have hdelivered : (Session.start d).perform
      ((Session.console .bare).deliverArtifacts "out" [("Oven", ovenFiles)]) =
        (.ok (), ⟨after, "", [successLine "out" ("Oven", ovenFiles)]⟩) :=
    Session.perform_deliverArtifacts_eq_ok_iff.2 ⟨hsaved, rfl⟩
  rw [fridgeCommand, Console.work, Console.generate, if_neg (by decide)]
  simp only [Session.perform_bind, hnone, hdescribed, hpaths, hloaded, List.map_nil,
    List.nil_append, hlayered, List.map_cons, generateAll_oven, hdelivered,
    Session.perform_finish]
  exact ⟨_, rfl⟩

/-- The run has three inputs: the source and the fridge fail, but the oven has its files. -/
theorem run_generate_fridge : ∃ s bases overridings x between fates status done,
    (Session.start ovenDisk).perform ((Session.console .bare).work fridgeCommand) =
        (.error (.fault (.incomplete 2 3)), s) ∧
      Inputs.Asked .bare ovenDisk between ⟨[], ["fridge.h"], some "parse", ["Fridge"], []⟩ x ∧
      Inputs.Given .bare between ["out/Oven.json"] x ∧
      List.Forall₂ (Fares bases overridings (some defaultMarker)) x.items fates ∧
      (Fate.successes fates).length + (Fate.failures fates).length =
        x.unparsed.length + x.classes.length + x.given.length ∧
      run .bare ovenDisk fridgeCommand = (.status status, done) ∧
      (status = 0 ↔ Fate.failures fates = []) := by
  obtain ⟨after, hsaved⟩ := savedAll_oven
  obtain ⟨s, hends⟩ := perform_fridge perform_loadDescriptions_oven hsaved
  have hpast : ∀ f, (.error (.fault (.incomplete 2 3)) : Except Ending Unit) = .error (.fault f) →
      ∃ failures total, f = .incomplete failures total := by
    rintro f ⟨⟩
    exact ⟨2, 3, rfl⟩
  obtain ⟨bases, overridings, x, between, -, -, hasked, -, -, hrest⟩ := run_generate hends hpast
  obtain ⟨hgiven, fates, status, done, hfares, hcount, hrun, hstatus, -⟩ := hrest nofun
  exact ⟨s, bases, overridings, x, between, fates, status, done, hends, hasked, hgiven, hfares,
    hcount, hrun, hstatus⟩

/-! ### A run that is killed -/

def shelfJson : Json :=
  .object [("nodes", .array [
    .object [("id", .string "c1"), ("kind", .string "Class"), ("name", .string "Shelf"),
      ("access", .string "public"), ("members", .array [.string "c1"])],
    .object [("id", .string "c2"), ("kind", .string "Class"), ("name", .string "Oven")]])]

theorem load_shelf : Ast.Document.load (.ofText shelfJson.pretty) = .ok shelfDocument := by
  have hplain : Plain 4 shelfJson := by
    have hmembers : Plain 1 (.array [.string "c1"]) :=
      .array (List.forall_mem_singleton.2 (.string _))
    refine .object (List.forall_mem_singleton.2 (.array ?_))
    simp only [List.forall_mem_cons]
    refine ⟨.object ?_, .object ?_, nofun⟩
    · simp only [List.forall_mem_cons]
      exact ⟨.string _, .string _, .string _, .string _, hmembers, nofun⟩
    · simp only [List.forall_mem_cons]
      exact ⟨.string _, .string _, .string _, nofun⟩
  rw [Reading.ofText_pretty (hplain.mono (by decide))]
  rfl

/-- A disk with one document. -/
def shelfDisk (text : String) : Disk := Disk.empty.put ["shelf.json"] (.file text)

def shelfInput : ClassInput := ⟨["shelf.json"], [], none, ["Shelf", "Oven"], []⟩

theorem perform_shelf {text : String}
    (h : Ast.Document.load (.ofText text) = .ok shelfDocument) :
    (Session.start (shelfDisk text)).perform ((Session.console .bare).work
      (.generate shelfInput [] [] [] (some defaultMarker) "out")) =
        (.error .overflow, .start (shelfDisk text)) := by
  have hload : ((Session.console .bare).load Ast.Document.load "shelf.json").run
      (.start (shelfDisk text)) = (.ok shelfDocument, .start (shelfDisk text)) := by
    have hread : (shelfDisk text).read "shelf.json" = .ok text := rfl
    show (loadRead Ast.Document.load "shelf.json" ((shelfDisk text).read "shelf.json"),
      Session.start (shelfDisk text)) = _
    rw [hread, loadRead, h]
    rfl
  have hexpand : (Session.start (shelfDisk text)).perform
      ((Session.console .bare).expand ["shelf.json"]) =
        (.ok ["shelf.json"], .start (shelfDisk text)) := rfl
  have hgathered : (Session.start (shelfDisk text)).perform
      ((Session.console .bare).gatherDocuments shelfInput) =
        (.ok ⟨[("shelf.json", shelfDocument)], []⟩, .start (shelfDisk text)) := by
    rw [Console.gatherDocuments, shelfInput]
    simp only [Session.perform_bind, hexpand, Console.loadDocuments, Session.perform_lift, hload]
    rfl
  have hover : describeAll ([("shelf.json", shelfDocument)].map (·.2)) shelfInput.classes
      shelfInput.onlyIn = none :=
    describeAll_eq_none_iff.2 ⟨"Shelf", List.mem_cons_self .., overruns_shelf⟩
  have hdescribed : (Session.start (shelfDisk text)).perform
      ((Session.console .bare).describeIfGiven shelfInput) =
        (.error .overflow, .start (shelfDisk text)) := by
    rw [Console.describeIfGiven, if_neg (by decide), Console.describeClasses, if_neg (by decide),
      Session.perform_bind, hgathered]
    dsimp only
    rw [if_neg (by decide), hover]
    rfl
  have hbase : (Session.start (shelfDisk text)).perform
      ((Session.console .bare).loadDescriptions []) = (.ok [], .start (shelfDisk text)) := rfl
  rw [Console.work, Console.generate, if_neg (by decide)]
  simp only [Session.perform_bind, hbase, hdescribed]

/-- Over the shelf a run is killed. It has no status then, and says nothing of the oven. -/
theorem run_generate_killed :
    ¬ ∀ (host : Host) (disk : Disk) (input : ClassInput) (paths base overrides : List String)
        (marker? : Option String) (out : String) (ending : Except Ending Unit) (s : Session),
      (Session.start disk).perform ((Session.console host).work
          (.generate input paths base overrides marker? out)) = (ending, s) →
        (∀ f, ending = .error (.fault f) → ∃ failures total, f = .incomplete failures total) →
        ∃ (successes : List (String × Artifacts)) (failures : List (String × Error))
            (status : Nat) (done : Session),
          run host disk (.generate input paths base overrides marker? out) =
              (.status status, done) ∧
            done.notes = successes.map (successLine out) ++ failures.map failureLine ++
              finalLine failures.length (successes.length + failures.length) ∧
            (input.isEmpty = false →
              input.classes.length ≤ successes.length + failures.length) := by
  intro hall
  have hends := perform_shelf load_shelf
  obtain ⟨-, -, status, done, hrun, -⟩ := hall _ _ _ _ _ _ _ _ _ _ hends nofun
  rw [run_eq, hends] at hrun
  cases hrun

end

end Bindery.CommandLine
