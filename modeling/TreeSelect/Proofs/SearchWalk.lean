import TreeSelect.Files.Search
import TreeSelect.Proofs.GlobDescent
import TreeSelect.Proofs.IgnoreWay
import TreeSelect.Proofs.PlainTree

namespace TreeSelect.Files
open Glob

/-- The files that visits find, in order. -/
def found (visits : List Visit) : List String :=
  visits.filterMap Visit.path?

/-- How a search tells the file that names lead to from its base on. -/
def Search.told (s : Search) (names : List String) : String :=
  (s.shown.join ⟨"", names⟩).text

theorem found_append (visits visits' : List Visit) :
    found (visits ++ visits') = found visits ++ found visits' :=
  List.filterMap_append

theorem found_map_told (s : Search) (ways : List (List String)) :
    found (ways.map fun names => .found (s.told names)) = ways.map s.told := by
  rw [found, List.filterMap_map]
  exact List.filterMap_eq_map ▸ rfl

def Entry.ownFile? : Entry → Option String
  | .file name _ => some name
  | _ => none

/-- The names of the files among entries. -/
def ownFiles (entries : List Entry) : List String :=
  entries.filterMap Entry.ownFile?

def Entry.deepFiles : Entry → List (List String)
  | .directory name entries => (filesOf entries).map fun names => name :: names
  | _ => []

/-- The names that lead to the files below the directories among entries. -/
def deepFiles (entries : List Entry) : List (List String) :=
  entries.flatMap Entry.deepFiles

theorem deepFiles_cons (e : Entry) (entries : List Entry) :
    deepFiles (e :: entries) = e.deepFiles ++ deepFiles entries :=
  List.flatMap_cons

theorem filesOf_perm (entries : List Entry) :
    (filesOf entries).Perm ((ownFiles entries).map (fun name => [name]) ++ deepFiles entries) := by
  induction entries with
  | nil => exact List.Perm.refl _
  | cons e entries ih =>
    cases e with
    | file name content => exact ih.cons [name]
    | link name target => exact ih
    | directory name inner =>
      have hfront := ih.append_left ((filesOf inner).map fun names => name :: names)
      refine hfront.trans ?_
      rw [deepFiles_cons, ← List.append_assoc, ← List.append_assoc]
      exact List.perm_append_comm.append_right _

theorem fileName?_of_plain (root : List Entry) (trail : Trail) (e : Entry) (h : e.IsPlain) :
    fileName? root trail e = .ok e.ownFile? := by
  cases e with
  | file name content => rfl
  | link name target => exact h.elim
  | directory name inner => rfl

theorem fileNames_of_plain (root : List Entry) (trail : Trail) (entries : List Entry)
    (h : ArePlain entries) : fileNames root trail entries = .ok (ownFiles entries) := by
  have hm : entries.mapM (fileName? root trail) = .ok (entries.map Entry.ownFile?) := by
    induction entries with
    | nil => rfl
    | cons e entries ih =>
      rw [List.mapM_cons, fileName?_of_plain root trail e h.1, ih h.2.2]
      rfl
  rw [fileNames, hm, ownFiles]
  simp [Except.map, List.filterMap_map]

theorem enters_of_accepts (s : Search) (names below : List String) (hb : below ≠ [])
    (h : s.accepts (names ++ below) = true) : s.enters names = true := by
  rw [Search.accepts, Bool.and_eq_true, Bool.not_eq_true'] at h
  rw [Search.enters, Bool.and_eq_true, Bool.not_eq_true']
  constructor
  · rw [← Bool.not_eq_true]
    intro hi
    have hbelow := Ignore.isIgnored_below s.rules (s.way ++ names) below false hb hi
    rw [List.append_assoc] at hbelow
    exact absurd (h.1.symm.trans hbelow) Bool.false_ne_true
  · obtain ⟨pattern, hp, hm⟩ := List.any_eq_true.mp h.2
    exact List.any_eq_true.mpr ⟨pattern, hp, canDescend_of_matchParts pattern names below hb hm⟩

/-- The accepted ones among files that are listed from a directory on. -/
def Search.accepted (s : Search) (names : List String) (files : List (List String)) :
    List (List String) :=
  (files.map fun file => names ++ file).filter s.accepts

theorem accepted_append (s : Search) (names : List String) (files files' : List (List String)) :
    s.accepted names (files ++ files') = s.accepted names files ++ s.accepted names files' := by
  rw [Search.accepted, List.map_append, List.filter_append]
  rfl

theorem found_open (s : Search) (trail : Trail) (names : List String) (entries : List Entry)
    (below : List Visit) (h : ArePlain entries)
    (hb : (found below).Perm ((s.accepted names (deepFiles entries)).map s.told)) :
    (found (s.open_ trail names entries below)).Perm
      ((s.accepted names (filesOf entries)).map s.told) := by
  have hall := ((filesOf_perm entries).map (fun file => names ++ file)).filter s.accepts
  refine List.Perm.trans ?_ (hall.map s.told).symm
  have hown : s.accepted names ((ownFiles entries).map fun name => [name]) =
      ((ownFiles entries).filter fun file => s.accepts (names ++ [file])).map
        fun file => names ++ [file] := by
    rw [Search.accepted, List.map_map, List.filter_map]
    rfl
  have hopen : found (s.open_ trail names entries below) =
      (s.accepted names ((ownFiles entries).map fun name => [name])).map s.told ++ found below := by
    rw [hown, ← found_map_told, List.map_map, ← found_append, Search.open_,
      fileNames_of_plain s.root trail entries h]
    rfl
  rw [hopen]
  exact (hb.append_left _).trans (List.Perm.of_eq (by
    rw [← List.map_append, ← accepted_append]
    rfl))

mutual

theorem found_visit (s : Search) (e : Entry) (h : e.IsPlain) (trail : Trail)
    (names : List String) :
    (found (s.visit trail names e)).Perm ((s.accepted names e.deepFiles).map s.told) := by
  match e with
  | .file name content => exact List.Perm.refl _
  | .link name target => exact h.elim
  | .directory name entries =>
    have hdeep : s.accepted names (Entry.directory name entries).deepFiles =
        s.accepted (names ++ [name]) (filesOf entries) := by
      rw [Search.accepted, Entry.deepFiles, List.map_map]
      simp [Search.accepted, Function.comp_def]
    rw [hdeep, Search.visit]
    split
    · exact found_open s _ _ entries _ h.2 (found_visitAll s entries h.2 _ _)
    · next he =>
      -- The directory is not entered, so no file below it is accepted.
      have hnone : s.accepted (names ++ [name]) (filesOf entries) = [] := by
        apply List.filter_eq_nil_iff.mpr
        intro file hf ha
        obtain ⟨below, hb, rfl⟩ := List.mem_map.mp hf
        exact he (enters_of_accepts s _ below (ne_nil_of_mem_filesOf entries below hb) ha)
      rw [hnone]
      exact List.Perm.refl _

theorem found_visitAll (s : Search) (entries : List Entry) (h : ArePlain entries) (trail : Trail)
    (names : List String) :
    (found (s.visitAll trail names entries)).Perm
      ((s.accepted names (deepFiles entries)).map s.told) := by
  match entries with
  | [] => exact List.Perm.refl _
  | e :: entries =>
    have hfirst := found_visit s e h.1 trail names
    have hrest := found_visitAll s entries h.2.2 trail names
    rw [Search.visitAll, found_append, deepFiles_cons, accepted_append, List.map_append]
    exact hfirst.append hrest

end

/-- A walk from a directory of plain entries finds the files below it that it accepts. -/
theorem found_run (s : Search) (trail : Trail) (hr : resolve s.root s.base = .ok (.directory trail))
    (h : ArePlain (trail.entries s.root)) :
    (found s.run).Perm (((filesOf (trail.entries s.root)).filter s.accepts).map s.told) := by
  have hopen := found_open s trail [] (trail.entries s.root) _ h
    (found_visitAll s (trail.entries s.root) h trail [])
  rw [Search.accepted] at hopen
  rw [Search.run, hr]
  simpa using hopen

theorem found_run_eq_nil (s : Search)
    (hr : ∀ trail, resolve s.root s.base ≠ .ok (.directory trail)) : found s.run = [] := by
  rw [Search.run]
  split
  · rfl
  · rfl
  · next trail hd => exact absurd hd (hr trail)

end TreeSelect.Files
