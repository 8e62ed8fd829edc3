import Bindery.Proofs.MapLookup
import Bindery.Proofs.RunSteps

/-!
# Saved files

A text that was written to a path is what is read from there. A walk only passes folders, and a file
is never put in the place of one, so that writing leaves every way open by which a place was
reached.
-/

namespace Bindery

namespace Text

/-- The last piece takes up whatever follows without a separator. -/
theorem pieces_append {p : Char → Bool} {s : List Char} (hs : ∀ c ∈ s, p c = false)
    (l : List Char) : ∃ init w, pieces p (l ++ s) = init ++ [w ++ s] := by
  induction l with
  | nil => exact ⟨[], [], pieces_of_none hs⟩
  | cons c rest ih =>
    obtain ⟨init, w, hrest⟩ := ih
    rw [List.cons_append, pieces, hrest]
    split
    · exact ⟨[] :: init, w, rfl⟩
    · cases init with
      | nil => exact ⟨[], c :: w, rfl⟩
      | cons v init => exact ⟨(c :: v) :: init, w, rfl⟩

end Text

namespace Path

theorem join_append (folder name extension : String) :
    ∃ path, join folder (name ++ extension) = path ++ extension := by
  unfold join
  split
  · exact ⟨name, rfl⟩
  · split
    · exact ⟨folder ++ name, (String.append_assoc ..).symm⟩
    · exact ⟨folder ++ "/" ++ name, (String.append_assoc ..).symm⟩

/-- An extension stays on the last name. -/
theorem getLast?_names_append {extension : String} (hsome : extension ≠ "")
    (hplain : '/' ∉ extension.toList) (path : String) :
    ∃ name, (names (path ++ extension)).getLast? = some (name ++ extension) := by
  obtain ⟨init, w, hpieces⟩ := Text.pieces_append (Text.beq_eq_false_of_not_mem hplain) path.toList
  refine ⟨String.ofList w, ?_⟩
  have hlast : (segments (path ++ extension)) =
      init.map String.ofList ++ [String.ofList w ++ extension] := by
    rw [segments, String.toList_append, hpieces, List.map_append, List.map_singleton,
      String.ofList_append, String.ofList_toList]
  rw [names, hlast]
  simp [hsome]

end Path

namespace Disk
variable {d after : Disk} {here there l : Location} {name path text : String} {e : Entry}

theorem step_eq_ok_iff : d.step here name = .ok there ↔
    d.occupant? here = some .folder ∧ ¬ maxName < name.utf8ByteSize ∧
      there = here.onwards name := by
  unfold step
  split
  next hhere => simp [hhere]
  next hhere => simp [hhere]
  next hhere =>
    split
    next hname => simp [hname]
    next hname => simp [hhere, hname, eq_comm (a := there)]

theorem walk_append (d : Disk) (here : Location) (names names' : List String) :
    d.walk here (names ++ names') = d.walk here names >>= fun there => d.walk there names' := by
  induction names generalizing here with
  | nil => rfl
  | cons name rest ih =>
    simp only [List.cons_append, walk]
    cases d.step here name with
    | error => rfl
    | ok there => exact ih there

/-- A dot leads nowhere, but only from a folder. -/
theorem walk_of_walk_dot {names : List String} (h : d.walk here (names ++ ["."]) = .ok there) :
    d.walk here names = .ok there := by
  rw [walk_append, Outcome.bind_eq_ok] at h
  obtain ⟨last, hlast, h⟩ := h
  obtain ⟨next, hnext, h⟩ := Outcome.bind_eq_ok.1 h
  cases h
  obtain ⟨-, -, rfl⟩ := step_eq_ok_iff.1 hnext
  exact hlast

/-! ### Writing -/

theorem occupant?_put_of_ne (h : here ≠ l) :
    Disk.occupant? (d.put l e) here = d.occupant? here := by
  have hfind : (d.put l e).entries.get? here = d.entries.get? here := by
    have hne : compare here l ≠ .eq := fun hc => h (Std.LawfulEqCmp.eq_of_compare hc)
    rw [SortedMap.get?, put, SortedMap.find?_insert, if_neg hne]
    rfl
  simp only [occupant?, hfind]

theorem occupant?_put_self (hfolder : d.occupant? l ≠ some .folder) (hsink : l ≠ .sink) :
    Disk.occupant? (d.put l e) l = some e := by
  have hanchor : l.isAnchor = false := by
    cases h : l.isAnchor with
    | false => rfl
    | true => exact absurd (by rw [occupant?, if_pos h]) hfolder
  rw [occupant?, hanchor, if_neg Bool.false_ne_true, if_neg hsink, SortedMap.get?, put,
    SortedMap.find?_insert, if_pos Std.ReflCmp.compare_self]
  rfl

theorem step_put (hfolder : d.occupant? l ≠ some .folder) (h : d.step here name = .ok there) :
    (d.put l e).step here name = .ok there := by
  obtain ⟨hhere, hname, rfl⟩ := step_eq_ok_iff.1 h
  have hne : here ≠ l := by
    rintro rfl
    exact hfolder hhere
  exact step_eq_ok_iff.2 ⟨by rw [occupant?_put_of_ne hne, hhere], hname, rfl⟩

/-- What is put where no folder is stands in nobody's way. -/
theorem walk_put {names : List String} (hfolder : d.occupant? l ≠ some .folder)
    (h : d.walk here names = .ok there) : (d.put l e).walk here names = .ok there := by
  induction names generalizing here with
  | nil => exact h
  | cons name rest ih =>
    obtain ⟨next, hnext, hrest⟩ := Outcome.bind_eq_ok.1 h
    exact Outcome.bind_eq_ok.2 ⟨next, step_put hfolder hnext, ih hrest⟩

/-- A text is written in the place where the last name leads from the folder that the others lead
to. -/
theorem write_eq_ok (h : d.write path text = .ok after) : ∃ names name folder,
    checkPath path = .ok () ∧ Path.names path = names ++ [name] ∧ Path.isDots name = false ∧
      Path.endsInSlash path = false ∧ d.walk (.start path) names = .ok folder ∧
      d.step folder name = .ok (folder ++ [name]) ∧ d.occupant? (folder ++ [name]) ≠ some .folder ∧
      after = if folder ++ [name] = .sink then d else d.put (folder ++ [name]) (.file text) := by
  obtain ⟨hpath, h⟩ := Outcome.check_eq_ok.1 h
  obtain ⟨folder, hwalk, h⟩ := Outcome.bind_eq_ok.1 h
  split at h
  next => cases h
  next name hlast =>
    split at h
    next => cases h
    next hplain =>
      simp only [Bool.or_eq_true, not_or, Bool.not_eq_true] at hplain
      obtain ⟨l, hstep, h⟩ := Outcome.bind_eq_ok.1 h
      split at h
      next => cases h
      next hfree =>
        cases h
        obtain ⟨-, -, rfl⟩ := step_eq_ok_iff.1 hstep
        rw [List.getLast?_eq_some_iff] at hlast
        obtain ⟨names, hnames⟩ := hlast
        rw [hnames, List.dropLast_concat] at hwalk
        have hl : folder.onwards name = folder ++ [name] := by
          obtain ⟨hdots, -⟩ := hplain
          simp only [Path.isDots, Bool.or_eq_false_iff, beq_eq_false_iff_ne] at hdots
          rw [Location.onwards, if_neg hdots.1, if_neg hdots.2]
        rw [hl] at hstep hfree ⊢
        exact ⟨names, name, folder, hpath, hnames, hplain.1, hplain.2, walk_of_walk_dot hwalk,
          hstep, hfree, rfl⟩

/-- The path leads to a file with this text, which has the last name of the path. -/
structure Holds (d : Disk) (path text : String) (l : Location) : Prop where
  place : d.locate path = .ok l
  file : d.occupant? l = some (.file text)
  name : l.getLast? = (Path.names path).getLast?

theorem Holds.read (h : d.Holds path text l) : d.read path = .ok text := by
  have hlook : d.look path = .ok (.file text) :=
    Outcome.bind_eq_ok.2 ⟨l, h.place, by rw [h.file]; rfl⟩
  exact Outcome.bind_eq_ok.2 ⟨_, hlook, rfl⟩

/-- What was written is there, unless it went into the sink. -/
theorem holds_write (h : d.write path text = .ok after)
    (hsink : ∀ name, (Path.names path).getLast? = some name → name ≠ "null") :
    ∃ l, after.Holds path text l := by
  obtain ⟨names, name, folder, hpath, hnames, -, hslash, hwalk, hstep, hfree, rfl⟩ :=
    write_eq_ok h
  have hl : folder ++ [name] ≠ .sink := by
    intro hl
    have hlast := congrArg List.getLast? hl
    rw [List.getLast?_concat] at hlast
    exact hsink name (by rw [hnames, List.getLast?_concat]) (Option.some.inj hlast)
  rw [if_neg hl]
  have hempty : path.isEmpty = false := by
    cases hempty : path.isEmpty with
    | false => rfl
    | true =>
      rw [String.isEmpty_iff.1 hempty] at hnames
      exact absurd hnames (by simp [show Path.names "" = [] from rfl])
  refine ⟨folder ++ [name], ?_, occupant?_put_self hfree hl, ?_⟩
  · refine Outcome.check_eq_ok.2 ⟨hpath, ?_⟩
    rw [hempty, hslash, hnames]
    simp only [Bool.false_eq_true, if_false, List.append_nil]
    rw [walk_append]
    exact Outcome.bind_eq_ok.2 ⟨folder, walk_put hfree hwalk,
      Outcome.bind_eq_ok.2 ⟨_, step_put hfree hstep, rfl⟩⟩
  · rw [hnames, List.getLast?_concat, List.getLast?_concat]

/-- So it is read. -/
theorem read_write (h : d.write path text = .ok after)
    (hsink : ∀ name, (Path.names path).getLast? = some name → name ≠ "null") :
    after.read path = .ok text :=
  let ⟨_, hholds⟩ := holds_write h hsink
  hholds.read

end Disk

namespace CommandLine

/-- What saving a file does to a disk. -/
def save (d : Disk) (path text : String) : Except RunFault Disk := do
  let d ←
    match Path.parent? path with
    | some folder => (d.createFolders folder).mapError (.cannotCreate folder)
    | none => pure d
  (d.write path text).mapError (.cannotWrite path)

namespace Session

/-- A change of the disk that the run cannot do without. -/
theorem perform_change (s : Session) (fault : FileFault → RunFault)
    (f : Disk → Except FileFault Disk) :
    s.perform (liftM (change f) >>= demand fault) =
      match f s.disk with
      | .ok d => (.ok (), { s with disk := d })
      | .error e => (.error (.fault (fault e)), s) := by
  rw [perform_bind, perform_lift]
  show (change f s).2.perform (demand fault (change f s).1) = _
  rw [perform_demand, change]
  cases f s.disk <;> rfl

theorem perform_change_eq_ok_iff {s s' : Session} {fault : FileFault → RunFault}
    {f : Disk → Except FileFault Disk} :
    s.perform (liftM (change f) >>= demand fault) = (.ok (), s') ↔
      f s.disk = .ok s'.disk ∧ s' = { s with disk := s'.disk } := by
  rw [perform_change]
  cases f s.disk with
  | error e => exact ⟨nofun, nofun⟩
  | ok d =>
    constructor
    · intro h
      cases h
      exact ⟨rfl, rfl⟩
    · rintro ⟨hd, hs⟩
      rw [hs, Except.ok.inj hd]

theorem perform_save_eq_ok_iff {host : Host} {s s' : Session} {path text : String} :
    s.perform ((console host).save path text) = (.ok (), s') ↔
      save s.disk path text = .ok s'.disk ∧ s' = { s with disk := s'.disk } := by
  have hwrite : ∀ {s s' : Session}, s.perform (liftM ((console host).write path text) >>=
      demand (.cannotWrite path)) = (.ok (), s') ↔
        s.disk.write path text = .ok s'.disk ∧ s' = { s with disk := s'.disk } :=
    perform_change_eq_ok_iff (f := (·.write path text))
  have hcreate : ∀ {s s' : Session} (folder : String),
      s.perform (liftM ((console host).createFolders folder) >>=
        demand (.cannotCreate folder)) = (.ok (), s') ↔
          s.disk.createFolders folder = .ok s'.disk ∧ s' = { s with disk := s'.disk } :=
    fun folder => perform_change_eq_ok_iff (f := (·.createFolders folder))
  unfold Console.save save
  cases Path.parent? path with
  | none =>
    rw [Outcome.bind_eq_ok]
    simp only [Outcome.pure_eq_ok, Outcome.mapError_eq_ok, exists_eq_left']
    exact hwrite
  | some folder =>
    dsimp only
    rw [← bind_assoc]
    refine perform_bind_eq_ok.trans ?_
    simp only [Outcome.bind_eq_ok, Outcome.mapError_eq_ok]
    constructor
    · rintro ⟨⟨⟩, s₁, hmade, h⟩
      obtain ⟨hfolders, hs₁⟩ := (hcreate folder).1 hmade
      obtain ⟨hwritten, hs⟩ := hwrite.1 h
      exact ⟨⟨s₁.disk, hfolders, hwritten⟩, by rw [hs, hs₁]⟩
    · rintro ⟨⟨d, hfolders, hwritten⟩, hs⟩
      exact ⟨(), { s with disk := d }, (hcreate folder).2 ⟨hfolders, rfl⟩,
        hwrite.2 ⟨hwritten, hs⟩⟩

end Session

theorem save_eq_ok {d after : Disk} {path text : String} (h : save d path text = .ok after) :
    ∃ d' : Disk, d'.write path text = .ok after := by
  unfold save at h
  split at h
  all_goals
    obtain ⟨d', -, h⟩ := Outcome.bind_eq_ok.1 h
    exact ⟨d', Outcome.mapError_eq_ok.1 h⟩

/-- A description file is read back as it was saved; no such file is the sink. -/
theorem read_save {d after : Disk} {folder name text : String}
    (h : save d (Path.join folder (name ++ ".json")) text = .ok after) :
    after.read (Path.join folder (name ++ ".json")) = .ok text := by
  obtain ⟨d', hwrite⟩ := save_eq_ok h
  refine Disk.read_write hwrite fun last hlast hnull => ?_
  obtain ⟨path, hpath⟩ := Path.join_append folder name ".json"
  obtain ⟨base, hbase⟩ :=
    Path.getLast?_names_append (show ".json" ≠ "" by decide) (by decide) path
  rw [hpath, hbase, hnull, Option.some.injEq] at hlast
  have hend := congrArg (fun s => s.toList.getLast?) hlast
  simp at hend

end CommandLine

end Bindery
