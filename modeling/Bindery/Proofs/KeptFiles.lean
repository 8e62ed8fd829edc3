import Bindery.Proofs.SavedFiles

/-!
# Files that are kept

Saving makes the missing folders and puts one file, so every other file stays as it is
(`Disk.Spares`). Files of different last names are different places, and after a list of files with
different last names was saved each of them has its text (`SavedAll.read`).
-/

namespace Bindery

namespace Path
variable {name : String}

theorem names_of_plain (hsome : name ≠ "") (hplain : '/' ∉ name.toList) : names name = [name] := by
  have hpieces := Text.pieces_of_none (Text.beq_eq_false_of_not_mem hplain)
  rw [names, segments, hpieces, List.map_singleton, String.ofList_toList]
  exact List.filter_cons_of_pos (by simpa using hsome)

theorem getLast?_names_of_slash {path : String} {l : List Char} (hsome : name ≠ "")
    (hplain : '/' ∉ name.toList) (hpath : path.toList = l ++ '/' :: name.toList) :
    (names path).getLast? = some name := by
  have hlast := Text.pieces_of_none (Text.beq_eq_false_of_not_mem hplain)
  rw [names, segments, hpath, Text.pieces_append_of_sep (p := (· == '/')) (beq_self_eq_true '/'),
    hlast, List.map_append, List.map_singleton, String.ofList_toList, List.filter_append,
    List.filter_cons_of_pos (by simpa using hsome)]
  exact List.getLast?_concat

/-- A name keeps its place at the end when it is joined to a folder. -/
theorem getLast?_names_join (hsome : name ≠ "") (hplain : '/' ∉ name.toList) (folder : String) :
    (names (join folder name)).getLast? = some name := by
  have hrelative : isAbsolute name = false := by
    rw [isAbsolute, beq_eq_false_iff_ne]
    exact fun hhead => hplain (List.mem_of_head? hhead)
  rw [join, hrelative, if_neg Bool.false_ne_true]
  by_cases hempty : folder.isEmpty = true
  · rw [String.isEmpty_iff.1 hempty]
    simp [names_of_plain hsome hplain]
  · by_cases hslash : endsInSlash folder = true
    · obtain ⟨l, hl⟩ := List.getLast?_eq_some_iff.1 (beq_iff_eq.1 hslash)
      rw [hslash, Bool.or_true, if_pos rfl]
      refine getLast?_names_of_slash (l := l) hsome hplain ?_
      rw [String.toList_append, hl, List.append_assoc, List.singleton_append]
    · simp only [hempty, hslash, Bool.or_self, Bool.false_eq_true, if_false]
      refine getLast?_names_of_slash (l := folder.toList) hsome hplain ?_
      simp

end Path

namespace Disk
variable {d d' after : Disk} {here there l m : Location} {name path text : String} {e : Entry}

/-- All folders stay folders, and a file in this place keeps its text. -/
structure Spares (d after : Disk) (l : Location) : Prop where
  folders : ∀ here, d.occupant? here = some .folder → after.occupant? here = some .folder
  file : ∀ text, d.occupant? l = some (.file text) → after.occupant? l = some (.file text)

namespace Spares

theorem refl (d : Disk) (l : Location) : d.Spares d l := ⟨fun _ h => h, fun _ h => h⟩

theorem trans (h : d.Spares d' l) (h' : d'.Spares after l) : d.Spares after l :=
  ⟨fun here hhere => h'.folders here (h.folders here hhere),
    fun text htext => h'.file text (h.file text htext)⟩

/-- What is put away from folders and from the place itself. -/
theorem put (hfolder : d.occupant? m ≠ some .folder)
    (h : ∀ text, d.occupant? l = some (.file text) → l ≠ m) :
    d.Spares (d.put m e) l where
  folders here hhere := by
    have hne : here ≠ m := by
      rintro rfl
      exact hfolder hhere
    rw [occupant?_put_of_ne hne, hhere]
  file text htext := by rw [occupant?_put_of_ne (h text htext), htext]

end Spares

theorem makeFolders_spares {names : List String} (h : d.makeFolders here names = .ok after) :
    d.Spares after l := by
  induction names generalizing d here with
  | nil =>
    cases h
    exact .refl _ l
  | cons name rest ih =>
    obtain ⟨there, -, h⟩ := Outcome.bind_eq_ok.1 h
    split at h
    next hnone =>
      have hput : d.Spares (d.put there .folder) l := by
        refine .put (by rw [hnone]; exact nofun) fun text htext heq => ?_
        rw [heq, hnone] at htext
        cases htext
      exact hput.trans (ih h)
    next => exact ih h
    next => cases h

theorem createFolders_spares {l : Location} (h : d.createFolders path = .ok after) :
    d.Spares after l :=
  makeFolders_spares (Outcome.check_eq_ok.1 h).2

/-- Writing only touches places that have the last name of the path. -/
theorem write_spares (h : d.write path text = .ok after)
    (hname : (Path.names path).getLast? ≠ l.getLast?) : d.Spares after l := by
  obtain ⟨names, name, folder, -, hnames, -, -, -, -, hfree, rfl⟩ := write_eq_ok h
  split
  next => exact .refl d l
  next =>
    refine .put hfree fun _ _ hl => hname ?_
    rw [hl, hnames, List.getLast?_concat, List.getLast?_concat]

theorem walk_mono
    (hfolders : ∀ here, d.occupant? here = some .folder → after.occupant? here = some .folder)
    {names : List String} (h : d.walk here names = .ok there) :
    after.walk here names = .ok there := by
  induction names generalizing here with
  | nil => exact h
  | cons name rest ih =>
    obtain ⟨next, hnext, hrest⟩ := Outcome.bind_eq_ok.1 h
    obtain ⟨hhere, hlong, hnext⟩ := step_eq_ok_iff.1 hnext
    exact Outcome.bind_eq_ok.2
      ⟨next, step_eq_ok_iff.2 ⟨hfolders here hhere, hlong, hnext⟩, ih hrest⟩

theorem locate_mono
    (hfolders : ∀ here, d.occupant? here = some .folder → after.occupant? here = some .folder)
    (h : d.locate path = .ok l) : after.locate path = .ok l := by
  obtain ⟨hpath, h⟩ := Outcome.check_eq_ok.1 h
  refine Outcome.check_eq_ok.2 ⟨hpath, ?_⟩
  split at h
  next => cases h
  next hempty => exact (if_neg hempty).trans (walk_mono hfolders h)

theorem Holds.mono (h : d.Holds path text l) (hspares : d.Spares after l) :
    after.Holds path text l where
  place := locate_mono hspares.folders h.place
  file := hspares.file text h.file
  name := h.name

end Disk

namespace CommandLine
variable {d d' after : Disk} {l : Location} {path text : String}

theorem save_spares (h : save d path text = .ok after)
    (hname : (Path.names path).getLast? ≠ l.getLast?) : d.Spares after l := by
  unfold save at h
  split at h
  next =>
    obtain ⟨d', hfolders, h⟩ := Outcome.bind_eq_ok.1 h
    have hkept := Disk.createFolders_spares (l := l) (Outcome.mapError_eq_ok.1 hfolders)
    exact hkept.trans (Disk.write_spares (Outcome.mapError_eq_ok.1 h) hname)
  next =>
    obtain ⟨d', hd, h⟩ := Outcome.bind_eq_ok.1 h
    cases hd
    exact Disk.write_spares (Outcome.mapError_eq_ok.1 h) hname

/-- The files were saved, one after another. -/
inductive SavedAll : Disk → List (String × String) → Disk → Prop where
  | nil {d : Disk} : SavedAll d [] d
  | cons {d d' after : Disk} {path text : String} {rest : List (String × String)} :
      save d path text = .ok d' → SavedAll d' rest after → SavedAll d ((path, text) :: rest) after

namespace SavedAll
variable {files more : List (String × String)}

theorem append_iff :
    SavedAll d (files ++ more) after ↔ ∃ d', SavedAll d files d' ∧ SavedAll d' more after := by
  constructor
  · intro h
    induction files generalizing d with
    | nil => exact ⟨d, .nil, h⟩
    | cons f rest ih =>
      cases h with
      | cons hsave hrest =>
        obtain ⟨d', hfiles, hmore⟩ := ih hrest
        exact ⟨d', .cons hsave hfiles, hmore⟩
  · rintro ⟨d', h, hmore⟩
    induction h with
    | nil => exact hmore
    | cons hsave _ ih => exact .cons hsave (ih hmore)

/-- A file stays as it is while files of other names are saved. -/
theorem holds (h : SavedAll d files after) (hholds : d.Holds path text l)
    (hnames : ∀ f ∈ files, (Path.names path).getLast? ≠ (Path.names f.1).getLast?) :
    after.Holds path text l := by
  induction h with
  | nil => exact hholds
  | cons hsave _ ih =>
    obtain ⟨hname, hrest⟩ := List.forall_mem_cons.1 hnames
    exact ih (hholds.mono (save_spares hsave (hholds.name ▸ hname.symm))) hrest

/-- If no two of the files have the same name, each is read as it was saved. -/
theorem read (h : SavedAll d files after)
    (hnames : files.Pairwise fun f g =>
      (Path.names f.1).getLast? ≠ (Path.names g.1).getLast?)
    (hsink : ∀ f ∈ files, (Path.names f.1).getLast? ≠ some "null") :
    ∀ f ∈ files, after.read f.1 = .ok f.2 := by
  induction h with
  | nil => exact nofun
  | cons hsave hrest ih =>
    obtain ⟨hfirst, hlater⟩ := List.pairwise_cons.1 hnames
    obtain ⟨hplain, hplainer⟩ := List.forall_mem_cons.1 hsink
    refine List.forall_mem_cons.2 ⟨?_, ih hlater hplainer⟩
    obtain ⟨d', hwrite⟩ := save_eq_ok hsave
    obtain ⟨l, hholds⟩ := Disk.holds_write hwrite fun name hname hnull => hplain (hnull ▸ hname)
    exact (hrest.holds hholds hfirst).read

end SavedAll

end CommandLine

end Bindery
