import Bindery.Proofs.Batches
import Bindery.Proofs.InterchangeRoundTrip
import Bindery.Proofs.Nesting
import Bindery.Proofs.SavedFiles

/-!
# Generating in two steps

A described class may be kept in a file and be taken up again later: nothing that a description is
generated from gets lost in the text, and no description is nested too deep to be read.
-/

namespace Bindery

/-- The files of a description that is put between layers. -/
def Backend.generateLayered (b : Backend) (base overrides : List Description)
    (marker? : Option String) (d : Description) : Except Error Artifacts := do
  b.generate (← d.layered base overrides) marker?

namespace CommandLine
open Json (Plain Reading)

variable {d : Description}

theorem load_pretty (h : Plain Reading.maxDepth d.toJson) :
    Description.load (.ofText d.toJson.pretty) = .ok d := by
  rw [Reading.ofText_pretty h, Description.load_toJson]

theorem loadRead_pretty (h : Plain Reading.maxDepth d.toJson) (path : String) :
    loadRead Description.load path (.ok d.toJson.pretty) = .ok d := by
  rw [loadRead, load_pretty h]
  rfl

/-- A description that a batch reports is not nested too deep, is read back as it was saved, and
gives from any file with its text what it gives directly, be it artifacts or an error. -/
theorem generate_in_two_steps {documents : List Ast.Document} {names onlyIn : List String}
    {report : BatchReport Description} {name : String}
    (hreport : describeAll documents names onlyIn = some report) (h : (name, d) ∈ report.succeeded)
    (base overrides : List Description) (b : Backend) (marker? : Option String) :
    d.toJson.depth ≤ Reading.maxDepth ∧ ∃ text, serialize d.toJson = .ok text ∧
      (∀ (host : Host) (s s' : Session) (out : String),
        s.perform ((Session.console host).save (Path.join out (name ++ ".json")) text) =
            (.ok (), s') →
          s'.disk.read (Path.join out (name ++ ".json")) = .ok text) ∧
      ∀ (host : Host) (s : Session) (path : String), host.read s.disk path = .ok text →
        ((Session.console host).load Description.load path).run s = (.ok d, s) ∧
          (((Session.console host).load Description.load path).run s).1 >>=
              b.generateLayered base overrides marker? =
            b.generateLayered base overrides marker? d := by
  obtain ⟨doc, -, hd⟩ := describeAll_succeeded hreport h
  have hplain : Plain Reading.maxDepth d.toJson := (Ast.plain_describe hd).mono (by decide)
  refine ⟨hplain.depth_le, d.toJson.pretty, rfl, fun host s s' out hsave => ?_,
    fun host s path hread => ?_⟩
  · exact read_save (Session.perform_save_eq_ok_iff.1 hsave).1
  · have hload : ((Session.console host).load Description.load path).run s = (.ok d, s) := by
      show (loadRead Description.load path (host.read s.disk path), s) = _
      rw [hread, loadRead_pretty hplain]
    rw [hload]
    exact ⟨rfl, rfl⟩

/-- A host without programs. -/
def Host.bare : Host := .permissive fun d _ _ => (.error .notFound, d)

def ovenDescription : Description :=
  let d := { Description.named "Oven" with
    parents? := some [.atomic "Appliance"]
    scope? := some "bright" }
  (((d.insertAttr "heat" (.atomic "float64")).insertMethod ⟨"Oven", []⟩ none).insertMethod
    ⟨"get", []⟩ (some (.atomic "float64"))).insertMethod ⟨"~Oven", []⟩ none

/-- An empty disk after the description was saved. -/
def ovenDisk : Disk :=
  (Disk.empty.put ["out"] .folder).put ["out", "Oven.json"]
    (.file ovenDescription.toJson.pretty)

theorem perform_loadDescriptions_oven : (Session.start ovenDisk).perform
    ((Session.console .bare).loadDescriptions ["out/Oven.json"]) =
      (.ok [ovenDescription], .start ovenDisk) := by
  have hdescribed : Ast.describe Ast.ovenDocument "Oven" [] = .ok ovenDescription := rfl
  have hread : ovenDisk.read "out/Oven.json" = .ok ovenDescription.toJson.pretty := rfl
  have hload : ((Session.console .bare).load Description.load "out/Oven.json").run
      (.start ovenDisk) = (.ok ovenDescription, .start ovenDisk) := by
    show (loadRead Description.load "out/Oven.json" (ovenDisk.read "out/Oven.json"),
      Session.start ovenDisk) = _
    rw [hread, loadRead_pretty ((Ast.plain_describe hdescribed).mono (by decide))]
  rw [Console.loadDescriptions, Session.perform_bind, Session.perform_lift, hload]
  rfl

theorem generate_in_two_steps_oven :
    ∃ report, describeAll [Ast.ovenDocument] ["Oven"] [] = some report ∧
      ("Oven", ovenDescription) ∈ report.succeeded ∧
      ∃ text, (Session.start .empty).perform
            ((Session.console .bare).save (Path.join "out" ("Oven" ++ ".json")) text) =
          (.ok (), .start ovenDisk) ∧
        (((Session.console .bare).load Description.load
            (Path.join "out" ("Oven" ++ ".json"))).run (.start ovenDisk)).1 >>=
              Cython.backend.generateLayered [] [] (some defaultMarker) =
          Cython.backend.generateLayered [] [] (some defaultMarker) ovenDescription := by
  have hreport : describeAll [Ast.ovenDocument] ["Oven"] [] =
      some ⟨[("Oven", ovenDescription)], []⟩ := rfl
  have hdescribed : ("Oven", ovenDescription) ∈ [("Oven", ovenDescription)] :=
    List.mem_singleton_self _
  obtain ⟨-, text, htext, hsaved, hloaded⟩ := generate_in_two_steps
    hreport hdescribed [] [] Cython.backend (some defaultMarker)
  cases htext
  have hsave : save .empty (Path.join "out" ("Oven" ++ ".json")) ovenDescription.toJson.pretty =
      .ok ovenDisk := rfl
  have hperform : (Session.start .empty).perform ((Session.console .bare).save _ _) =
      (.ok (), .start ovenDisk) := Session.perform_save_eq_ok_iff.2 ⟨hsave, rfl⟩
  exact ⟨_, hreport, hdescribed, _, hperform, (hloaded .bare _ _ (hsaved _ _ _ _ hperform)).2⟩

end CommandLine

end Bindery
