import Mathlib.Logic.Basic
import Bindery.Proofs.Batches
import Bindery.Proofs.Passes

/-!
# What a batch reports of each class

`Answered` says by rules, one for each way, what becomes of a class that is looked for in a list of
documents. That hangs on the class alone, and further documents do nothing to a class that was
found. A batch reports every class with its outcome, unless one of them recurs within itself: over
such a class the program runs out of room, and there is no report of any class
(`describeAll_reports`).
-/

namespace Bindery

namespace BatchReport
variable {α : Type}

theorem succeeded_ofOutcomes (l : List (String × Except Error α)) :
    (ofOutcomes l).succeeded = l.filterMap fun o => o.2.toOption.map (o.1, ·) := by
  induction l with
  | nil => rfl
  | cons o rest ih =>
    obtain ⟨label, outcome⟩ := o
    cases outcome with
    | ok a => exact congrArg ((label, a) :: ·) ih
    | error e => exact ih

theorem failed_ofOutcomes (l : List (String × Except Error α)) :
    (ofOutcomes l).failed = l.filterMap fun o => (Outcome.fault? o.2).map (o.1, ·) := by
  induction l with
  | nil => rfl
  | cons o rest ih =>
    obtain ⟨label, outcome⟩ := o
    cases outcome with
    | ok a => exact ih
    | error e => exact congrArg ((label, e) :: ·) ih

/-- Every label is reported as often as it was given. -/
theorem perm_labels (l : List (String × Except Error α)) :
    ((ofOutcomes l).succeeded.map (·.1) ++ (ofOutcomes l).failed.map (·.1)).Perm
      (l.map (·.1)) := by
  induction l with
  | nil => exact .refl _
  | cons o rest ih =>
    obtain ⟨label, outcome⟩ := o
    cases outcome with
    | ok a => exact ih.cons label
    | error e => exact List.perm_middle.trans (ih.cons label)

end BatchReport

namespace Ast.Document

/-- If any files are wanted, only documents with one of them are asked. -/
def IsAsked (onlyIn : List String) (d : Document) : Prop :=
  onlyIn = [] ∨ ∃ entry ∈ onlyIn, d.hasFile entry = true

/-- What a document answers for a class, of the wanted files looking into those that it has. -/
def answer (onlyIn : List String) (name : String) (d : Document) : Except Halt Description :=
  describe d name (onlyIn.filter d.hasFile)

/-- The class of this name is among its own public members, and no pass over it ends in an error. -/
def Recurs (d : Document) (name : String) (onlyIn : List String) : Prop :=
  ∃ r target c, (Resolver.ofDocument d).restrict onlyIn = .ok r ∧ r.locate name = .ok (target, c) ∧
    r.listsItself target c = true ∧ ∀ depth, ∃ added, r.pass target c depth = .ok added

theorem describe_eq_overflow_iff {d : Document} {name : String} {onlyIn : List String} :
    describe d name onlyIn = .error .overflow ↔ d.Recurs name onlyIn := by
  constructor
  · intro h
    cases hr : (Resolver.ofDocument d).restrict onlyIn with
    | error e => cases h.symm.trans (describe_of_restrict_error hr)
    | ok r =>
      rw [describe_of_restrict hr] at h
      cases hlocate : r.locate name with
      | error e =>
        rw [hlocate] at h
        cases h
      | ok found =>
        rw [hlocate] at h
        exact ⟨r, found.1, found.2, hr, hlocate, Resolver.describeRecord_eq_overflow_iff.1 h⟩
  · rintro ⟨r, target, c, hr, hlocate, hrecurs⟩
    rw [describe_eq_describeRecord hr hlocate]
    exact Resolver.describeRecord_eq_overflow_iff.2 hrecurs

end Ast.Document

open Ast (Document)

/-- The class is absent, or present only outside the allowed files. -/
inductive IsMiss : Except Halt Description → Prop where
  | absent {name : String} : IsMiss (.error (.failed (.classNotFound name)))
  | outside {name : String} : IsMiss (.error (.failed (.ambiguousOrigin name 0)))

/-- Some document has a file of this name or id. -/
def IsKnown (documents : List Document) (entry : String) : Prop :=
  ∃ d ∈ documents, d.hasFile entry = true

/-- What becomes of a class. -/
inductive Answered (documents : List Document) (onlyIn : List String) (name : String) :
    Except Halt Description → Prop where
  /-- The first wanted file that is in no document. -/
  | unknownFile {before after : List String} {entry : String} :
      onlyIn = before ++ entry :: after → (∀ e ∈ before, IsKnown documents e) →
        ¬ IsKnown documents entry →
          Answered documents onlyIn name (.error (.failed (.unknownOriginFile entry)))
  /-- The first answer that is not a miss. -/
  | found {before after : List Document} {d : Document} :
      (∀ e ∈ onlyIn, IsKnown documents e) → documents = before ++ d :: after →
        d.IsAsked onlyIn → ¬ IsMiss (d.answer onlyIn name) →
        (∀ x ∈ before, x.IsAsked onlyIn → IsMiss (x.answer onlyIn name)) →
          Answered documents onlyIn name (d.answer onlyIn name)
  /-- The first miss, as there are only misses. -/
  | missed {before after : List Document} {d : Document} :
      (∀ e ∈ onlyIn, IsKnown documents e) → documents = before ++ d :: after →
        d.IsAsked onlyIn → (∀ x ∈ before, ¬ x.IsAsked onlyIn) →
        (∀ x ∈ documents, x.IsAsked onlyIn → IsMiss (x.answer onlyIn name)) →
          Answered documents onlyIn name (d.answer onlyIn name)
  | nowhere :
      (∀ e ∈ onlyIn, IsKnown documents e) → (∀ x ∈ documents, ¬ x.IsAsked onlyIn) →
        Answered documents onlyIn name (.error (.failed (.classNotFound name)))

/-- The first document with an answer that is not a miss has the class recurring within itself. -/
def Overruns (documents : List Document) (onlyIn : List String) (name : String) : Prop :=
  (∀ e ∈ onlyIn, IsKnown documents e) ∧ ∃ before d after, documents = before ++ d :: after ∧
    d.IsAsked onlyIn ∧ d.Recurs name (onlyIn.filter d.hasFile) ∧
      ∀ x ∈ before, x.IsAsked onlyIn → IsMiss (x.answer onlyIn name)

section
variable {documents before after rest : List Document} {d : Document} {onlyIn : List String}
  {name : String} {miss? : Option Error} {e : Error} {o : Except Halt Description}

theorem isMiss_failed_iff : IsMiss (.error (.failed e)) ↔ e.isMiss = true := by
  constructor
  · intro h
    cases h <;> rfl
  · intro h
    unfold Error.isMiss at h
    split at h
    next => exact .absent
    next => exact .outside
    next => cases h

theorem isAsked_iff :
    d.IsAsked onlyIn ↔ ¬ (!onlyIn.isEmpty && (onlyIn.filter d.hasFile).isEmpty) = true := by
  rw [Bool.and_eq_true, not_and_or, Bool.not_eq_true', Bool.not_eq_false, List.isEmpty_iff,
    List.isEmpty_iff, List.filter_eq_nil_iff]
  simp only [Ast.Document.IsAsked, not_forall, Bool.not_eq_true, Bool.not_eq_false, exists_prop]

/-! ### One document after another -/

theorem describeIn_of_not_asked (h : ¬ d.IsAsked onlyIn) :
    describeIn name onlyIn miss? (d :: rest) = describeIn name onlyIn miss? rest := by
  rw [isAsked_iff, not_not] at h
  rw [describeIn, if_pos h]

theorem describeIn_of_asked (h : d.IsAsked onlyIn) :
    describeIn name onlyIn miss? (d :: rest) =
      match d.answer onlyIn name with
      | .ok desc => .ok desc
      | .error .overflow => .error .overflow
      | .error (.failed e) =>
        if e.isMiss then describeIn name onlyIn (miss? <|> some e) rest
        else .error (.failed e) := by
  rw [describeIn, if_neg (isAsked_iff.1 h)]
  rfl

/-- A miss is remembered, unless there was one before. -/
theorem describeIn_of_miss (h : d.IsAsked onlyIn)
    (hanswer : d.answer onlyIn name = .error (.failed e)) (hmiss : IsMiss (.error (.failed e))) :
    describeIn name onlyIn miss? (d :: rest) = describeIn name onlyIn (miss? <|> some e) rest := by
  rw [describeIn_of_asked h, hanswer]
  exact if_pos (isMiss_failed_iff.1 hmiss)

theorem describeIn_of_hit (h : d.IsAsked onlyIn) (hhit : ¬ IsMiss (d.answer onlyIn name)) :
    describeIn name onlyIn miss? (d :: rest) = d.answer onlyIn name := by
  rw [describeIn_of_asked h]
  cases hanswer : d.answer onlyIn name with
  | ok desc => rfl
  | error h =>
    cases h with
    | overflow => rfl
    | failed e =>
      rw [hanswer, isMiss_failed_iff] at hhit
      exact if_neg hhit

theorem IsMiss.eq_failed (h : IsMiss o) : ∃ e, o = .error (.failed e) := by
  cases h
  · exact ⟨_, rfl⟩
  · exact ⟨_, rfl⟩

/-- Nothing before the first hit has a say. -/
theorem describeIn_found (hasked : d.IsAsked onlyIn) (hhit : ¬ IsMiss (d.answer onlyIn name))
    (hbefore : ∀ x ∈ before, x.IsAsked onlyIn → IsMiss (x.answer onlyIn name)) :
    describeIn name onlyIn miss? (before ++ d :: after) = d.answer onlyIn name := by
  induction before generalizing miss? with
  | nil => exact describeIn_of_hit hasked hhit
  | cons x before ih =>
    obtain ⟨hx, hrest⟩ := List.forall_mem_cons.1 hbefore
    rw [List.cons_append]
    by_cases hxasked : x.IsAsked onlyIn
    · obtain ⟨e, he⟩ := (hx hxasked).eq_failed
      rw [describeIn_of_miss hxasked he (he ▸ hx hxasked), ih hrest]
    · rw [describeIn_of_not_asked hxasked, ih hrest]

theorem describeIn_skip (hbefore : ∀ x ∈ before, ¬ x.IsAsked onlyIn) :
    describeIn name onlyIn miss? (before ++ rest) = describeIn name onlyIn miss? rest := by
  induction before with
  | nil => rfl
  | cons x before ih =>
    obtain ⟨hx, hrest⟩ := List.forall_mem_cons.1 hbefore
    rw [List.cons_append, describeIn_of_not_asked hx, ih hrest]

/-- Further misses do not replace the first. -/
theorem describeIn_remembered
    (hmiss : ∀ x ∈ rest, x.IsAsked onlyIn → IsMiss (x.answer onlyIn name)) :
    describeIn name onlyIn (some e) rest = .error (.failed e) := by
  induction rest with
  | nil => rfl
  | cons x rest ih =>
    obtain ⟨hx, hrest⟩ := List.forall_mem_cons.1 hmiss
    by_cases hxasked : x.IsAsked onlyIn
    · obtain ⟨e', he'⟩ := (hx hxasked).eq_failed
      rw [describeIn_of_miss hxasked he' (he' ▸ hx hxasked)]
      exact ih hrest
    · rw [describeIn_of_not_asked hxasked, ih hrest]

theorem describeIn_missed (hasked : d.IsAsked onlyIn) (hbefore : ∀ x ∈ before, ¬ x.IsAsked onlyIn)
    (hmiss : ∀ x ∈ before ++ d :: after, x.IsAsked onlyIn → IsMiss (x.answer onlyIn name)) :
    describeIn name onlyIn none (before ++ d :: after) = d.answer onlyIn name := by
  obtain ⟨-, hlater⟩ := List.forall_mem_append.1 hmiss
  obtain ⟨hd, hafter⟩ := List.forall_mem_cons.1 hlater
  obtain ⟨e, he⟩ := (hd hasked).eq_failed
  rw [describeIn_skip hbefore, describeIn_of_miss hasked he (he ▸ hd hasked), he]
  exact describeIn_remembered hafter

theorem describeIn_nowhere (h : ∀ x ∈ documents, ¬ x.IsAsked onlyIn) :
    describeIn name onlyIn none documents = .error (.failed (.classNotFound name)) := by
  rw [← List.append_nil documents, describeIn_skip h]
  rfl

/-! ### Outcomes -/

/-- What a batch does for each of its classes. -/
def classOutcome (documents : List Document) (onlyIn : List String) (name : String) :
    Except Halt Description :=
  match onlyIn.find? fun entry => !documents.any (·.hasFile entry) with
  | some entry => throw (.failed (.unknownOriginFile entry))
  | none => describeIn name onlyIn none documents

theorem describeAll_eq (documents : List Document) (names onlyIn : List String) :
    describeAll documents names onlyIn =
      BatchReport.ofHalts? (names.map fun name => (name, classOutcome documents onlyIn name)) :=
  rfl

theorem isKnown_iff {entry : String} :
    IsKnown documents entry ↔ ¬ (!documents.any (·.hasFile entry)) = true := by
  rw [Bool.not_eq_true', Bool.not_eq_false, List.any_eq_true]
  rfl

theorem classOutcome_of_known (h : ∀ e ∈ onlyIn, IsKnown documents e) :
    classOutcome documents onlyIn name = describeIn name onlyIn none documents := by
  have hnone : (onlyIn.find? fun entry => !documents.any (·.hasFile entry)) = none :=
    List.find?_eq_none.2 fun e he => isKnown_iff.1 (h e he)
  rw [classOutcome, hnone]

theorem classOutcome_of_unknown {before after : List String} {entry : String}
    (hbefore : ∀ e ∈ before, IsKnown documents e) (h : ¬ IsKnown documents entry) :
    classOutcome documents (before ++ entry :: after) name =
      .error (.failed (.unknownOriginFile entry)) := by
  have hfirst : ((before ++ entry :: after).find? fun entry =>
      !documents.any (·.hasFile entry)) = some entry := by
    rw [isKnown_iff, not_not] at h
    refine List.find?_eq_some_iff_append.2 ⟨h, before, after, rfl, fun e he => ?_⟩
    exact Bool.not_eq_true' _ ▸ Bool.eq_false_iff.2 (isKnown_iff.1 (hbefore e he))
  rw [classOutcome, hfirst]
  rfl

end

/-- A list has a first member with a property, or none of its members has it. -/
theorem first_or_none {α : Type} (p : α → Prop) (l : List α) :
    (∃ before a after, l = before ++ a :: after ∧ p a ∧ ∀ x ∈ before, ¬ p x) ∨ ∀ x ∈ l, ¬ p x := by
  induction l with
  | nil => exact .inr nofun
  | cons a rest ih =>
    by_cases ha : p a
    · exact .inl ⟨[], a, rest, rfl, ha, nofun⟩
    · rcases ih with ⟨before, b, after, rfl, hb, hbefore⟩ | hnone
      · exact .inl ⟨a :: before, b, after, rfl, hb, List.forall_mem_cons.2 ⟨ha, hbefore⟩⟩
      · exact .inr (List.forall_mem_cons.2 ⟨ha, hnone⟩)

section
variable {documents : List Document} {onlyIn : List String} {name : String}
  {o : Except Halt Description}

/-- The rules give what is computed. -/
theorem Answered.eq_classOutcome (h : Answered documents onlyIn name o) :
    o = classOutcome documents onlyIn name := by
  cases h with
  | unknownFile hl hbefore hentry =>
    subst hl
    exact (classOutcome_of_unknown hbefore hentry).symm
  | found hknown hl hasked hhit hbefore =>
    rw [classOutcome_of_known hknown, hl, describeIn_found hasked hhit hbefore]
  | missed hknown hl hasked hbefore hmiss =>
    rw [classOutcome_of_known hknown, hl, describeIn_missed hasked hbefore (hl ▸ hmiss)]
  | nowhere hknown hnone => rw [classOutcome_of_known hknown, describeIn_nowhere hnone]

/-- One of the rules always applies. -/
theorem answered_exists (documents : List Document) (onlyIn : List String) (name : String) :
    ∃ o, Answered documents onlyIn name o := by
  rcases first_or_none (fun e => ¬ IsKnown documents e) onlyIn with
    ⟨before, entry, after, hl, hentry, hbefore⟩ | hall
  · exact ⟨_, .unknownFile hl (fun e he => not_not.1 (hbefore e he)) hentry⟩
  have hknown : ∀ e ∈ onlyIn, IsKnown documents e := fun e he => not_not.1 (hall e he)
  rcases first_or_none
      (fun d : Document => d.IsAsked onlyIn ∧ ¬ IsMiss (d.answer onlyIn name)) documents with
    ⟨before, d, after, hl, ⟨hasked, hhit⟩, hbefore⟩ | hmiss
  · refine ⟨_, .found hknown hl hasked hhit fun x hx hxasked => ?_⟩
    exact not_not.1 fun hxhit => hbefore x hx ⟨hxasked, hxhit⟩
  have hmiss : ∀ x ∈ documents, x.IsAsked onlyIn → IsMiss (x.answer onlyIn name) :=
    fun x hx hxasked => not_not.1 fun hxhit => hmiss x hx ⟨hxasked, hxhit⟩
  rcases first_or_none (fun d : Document => d.IsAsked onlyIn) documents with
    ⟨before, d, after, hl, hasked, hbefore⟩ | hnone
  · exact ⟨_, .missed hknown hl hasked hbefore hmiss⟩
  · exact ⟨_, .nowhere hknown hnone⟩

theorem answered_iff :
    Answered documents onlyIn name o ↔ o = classOutcome documents onlyIn name := by
  constructor
  · exact Answered.eq_classOutcome
  · rintro rfl
    obtain ⟨o, ho⟩ := answered_exists documents onlyIn name
    rw [← ho.eq_classOutcome]
    exact ho

/-- A class that was found stays found, with the same description, when documents are added. -/
theorem Answered.append {d : Description} (h : Answered documents onlyIn name (.ok d))
    (more : List Document) : Answered (documents ++ more) onlyIn name (.ok d) := by
  generalize ho : Except.ok d = o at h
  cases h with
  | unknownFile => cases ho
  | @found before after doc hknown hl hasked hhit hbefore =>
    have hknown' : ∀ e ∈ onlyIn, IsKnown (documents ++ more) e := by
      intro e he
      obtain ⟨doc, hdoc, hfile⟩ := hknown e he
      exact ⟨doc, List.mem_append_left more hdoc, hfile⟩
    have hl' : documents ++ more = before ++ doc :: (after ++ more) := by
      rw [hl, List.append_assoc, List.cons_append]
    exact .found hknown' hl' hasked hhit hbefore
  | @missed before after doc hknown hl hasked hbefore hmiss =>
    have hdoc : doc ∈ documents := hl ▸ List.mem_append_right _ (List.mem_cons_self ..)
    have hmissed := hmiss doc hdoc hasked
    rw [← ho] at hmissed
    cases hmissed
  | nowhere => cases ho

theorem overruns_iff :
    classOutcome documents onlyIn name = .error .overflow ↔ Overruns documents onlyIn name := by
  rw [eq_comm, ← answered_iff]
  constructor
  · intro h
    generalize ho : Except.error Halt.overflow = o at h
    cases h with
    | unknownFile => cases ho
    | @found before after doc hknown hl hasked hhit hbefore =>
      exact ⟨hknown, before, doc, after, hl, hasked,
        Document.describe_eq_overflow_iff.1 ho.symm, hbefore⟩
    | @missed before after doc hknown hl hasked hbefore hmiss =>
      have hmissed := hmiss doc (hl ▸ List.mem_append_right _ (List.mem_cons_self ..)) hasked
      rw [← ho] at hmissed
      cases hmissed
    | nowhere => cases ho
  · rintro ⟨hknown, before, d, after, hl, hasked, hrecurs, hbefore⟩
    have hanswer : d.answer onlyIn name = .error .overflow :=
      Document.describe_eq_overflow_iff.2 hrecurs
    have hhit : ¬ IsMiss (d.answer onlyIn name) := by
      rw [hanswer]
      exact nofun
    rw [← hanswer]
    exact .found hknown hl hasked hhit hbefore

end

/-! ### Reports -/

/-- The error that is reported of an outcome, if it has one. -/
def Halt.cause? {α : Type} : Except Halt α → Option Error
  | .error (.failed e) => some e
  | _ => none

/-- A report has what the outcomes give. -/
theorem BatchReport.of_ofHalts?_eq_some {α : Type} {l : List (String × Except Halt α)}
    {report : BatchReport α} (h : ofHalts? l = some report) :
    report.succeeded = l.filterMap (fun x => x.2.toOption.map (x.1, ·)) ∧
      report.failed = l.filterMap (fun x => (Halt.cause? x.2).map (x.1, ·)) ∧
      (report.succeeded.map (·.1) ++ report.failed.map (·.1)).Perm (l.map (·.1)) := by
  obtain ⟨outcomes, rfl, rfl⟩ := ofHalts?_eq_some_iff.1 h
  have hsucceeded : ∀ x : Except Error α, (x.mapError Halt.failed).toOption = x.toOption := by
    rintro (e | a) <;> rfl
  have hfailed : ∀ x : Except Error α, Halt.cause? (x.mapError .failed) = Outcome.fault? x := by
    rintro (e | a) <;> rfl
  refine ⟨?_, ?_, ?_⟩
  · simp only [succeeded_ofOutcomes, List.filterMap_map, Function.comp_def, hsucceeded]
  · simp only [failed_ofOutcomes, List.filterMap_map, Function.comp_def, hfailed]
  · simpa only [List.map_map, Function.comp_def] using perm_labels outcomes

theorem describeAll_eq_none_iff {documents : List Document} {names onlyIn : List String} :
    describeAll documents names onlyIn = none ↔ ∃ name ∈ names, Overruns documents onlyIn name := by
  rw [describeAll_eq, BatchReport.ofHalts?_eq_none_iff]
  simp only [List.mem_map, exists_exists_and_eq_and, overruns_iff]

/-- What becomes of a class hangs on the class alone, and once it is found, further documents change
nothing about it. If none of the classes overruns there is a report, which has each as often as it
was asked for, in the order of the request, with the outcome that the rules give it. Otherwise there
is none. -/
theorem describeAll_reports (documents : List Document) (onlyIn : List String) :
    ∃ outcome : String → Except Halt Description,
      (∀ name o, Answered documents onlyIn name o ↔ o = outcome name) ∧
      (∀ names, describeAll documents names onlyIn = none ↔
        ∃ name ∈ names, Overruns documents onlyIn name) ∧
      (∀ names report, describeAll documents names onlyIn = some report →
        report.succeeded = names.filterMap (fun name => (outcome name).toOption.map (name, ·)) ∧
          report.failed =
            names.filterMap (fun name => (Halt.cause? (outcome name)).map (name, ·)) ∧
          (report.succeeded.map (·.1) ++ report.failed.map (·.1)).Perm names) ∧
      ∀ more names report name d, describeAll documents names onlyIn = some report →
        (name, d) ∈ report.succeeded →
          Answered (documents ++ more) onlyIn name (.ok d) ∧
          ∀ report', describeAll (documents ++ more) names onlyIn = some report' →
            ∀ d', (name, d') ∈ report'.succeeded ↔ d' = d := by
  refine ⟨classOutcome documents onlyIn, fun name o => answered_iff,
    fun names => describeAll_eq_none_iff, fun names report h => ?_,
    fun more names report name d h hfound => ?_⟩
  · obtain ⟨hsucceeded, hfailed, hperm⟩ := BatchReport.of_ofHalts?_eq_some h
    rw [List.filterMap_map] at hsucceeded hfailed
    rw [List.map_map, List.map_id''] at hperm
    · exact ⟨hsucceeded, hfailed, hperm⟩
    · exact fun _ => rfl
  · have hmem : ∀ {docs : List Document} {report : BatchReport Description} {d : Description},
        describeAll docs names onlyIn = some report →
          ((name, d) ∈ report.succeeded ↔
            name ∈ names ∧ classOutcome docs onlyIn name = .ok d) := by
      intro docs report d h
      rw [(BatchReport.of_ofHalts?_eq_some h).1, List.filterMap_map, List.mem_filterMap]
      constructor
      · rintro ⟨name', hname', heq⟩
        obtain ⟨d', hd', heq⟩ := Option.map_eq_some_iff.1 heq
        cases heq
        exact ⟨hname', Outcome.toOption_eq_some.1 hd'⟩
      · rintro ⟨hname, hd⟩
        exact ⟨name, hname, Option.map_eq_some_iff.2 ⟨d, Outcome.toOption_eq_some.2 hd, rfl⟩⟩
    obtain ⟨hname, hd⟩ := (hmem h).1 hfound
    have hmore := (answered_iff.2 hd.symm).append more
    refine ⟨hmore, fun report' h' d' => ?_⟩
    rw [hmem h', and_iff_right hname, ← answered_iff.1 hmore, Except.ok.injEq, eq_comm]

/-- Has the oven in a file that is not wanted. -/
def vendorDocument : Document where
  nodes := [
    ⟨"f1", .file "toaster.h"⟩,
    ⟨"f2", .file "vendor.h"⟩,
    ⟨"c1", .record .ofClass ⟨"Oven", none, some "f2", none, [], [], false⟩⟩]

def ownDocument : Document where
  nodes := [
    ⟨"f1", .file "oven.h"⟩,
    ⟨"c1", .record .ofStruct ⟨"Oven", none, some "f1", none, [], [], false⟩⟩]

theorem describeAll_reports_oven :
    let d := { Description.named "Oven" with parents? := some [] }
    let asked := ["Oven", "Fridge", "Oven"]
    let files := ["toaster.h", "oven.h"]
    ∃ report, describeAll [vendorDocument, ownDocument] asked files = some report ∧
      report.succeeded = [("Oven", d), ("Oven", d)] ∧
      report.failed = [("Fridge", .classNotFound "Fridge")] ∧
      ∀ more, Answered ([vendorDocument, ownDocument] ++ more) files "Oven" (.ok d) := by
  intro d asked files
  have hreport : describeAll [vendorDocument, ownDocument] asked files =
      some ⟨[("Oven", d), ("Oven", d)], [("Fridge", .classNotFound "Fridge")]⟩ := rfl
  obtain ⟨-, -, -, -, hmore⟩ := describeAll_reports [vendorDocument, ownDocument] files
  exact ⟨_, hreport, rfl, rfl, fun more =>
    (hmore more asked _ "Oven" d hreport (List.mem_cons_self ..)).1⟩

/-- One of its own public members. -/
def shelf : Ast.Record := ⟨"Shelf", none, none, some .publicAccess, ["c1"], [], false⟩

def shelfDocument : Document where
  nodes := [
    ⟨"c1", .record .ofClass shelf⟩,
    ⟨"c2", .record .ofClass ⟨"Oven", none, none, none, [], [], false⟩⟩]

theorem overruns_shelf : Overruns [shelfDocument] [] "Shelf" := by
  have hrecurs : shelfDocument.Recurs "Shelf" [] :=
    ⟨_, "c1", shelf, rfl, rfl, rfl, fun _ => ⟨[.outline [] none], rfl⟩⟩
  exact ⟨nofun, [], shelfDocument, [], rfl, .inl rfl, hrecurs, nofun⟩

/-- Over the shelf nothing is reported, not even the oven. -/
theorem describeAll_unreported :
    ¬ ∀ (documents : List Document) (names onlyIn : List String),
      ∃ report, describeAll documents names onlyIn = some report ∧
        (report.succeeded.map (·.1) ++ report.failed.map (·.1)).Perm names := by
  intro hall
  obtain ⟨report, hreport, -⟩ := hall [shelfDocument] ["Shelf", "Oven"] []
  have hnone : describeAll [shelfDocument] ["Shelf", "Oven"] [] = none :=
    describeAll_eq_none_iff.2 ⟨"Shelf", List.mem_cons_self .., overruns_shelf⟩
  cases hnone.symm.trans hreport

end Bindery
