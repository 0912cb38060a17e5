import Mathlib.Algebra.GroupWithZero.Nat
import TreeSelect.Run.Query

namespace TreeSelect.Run
open Report (Span)

/-- The text of a line that tells a result. -/
def Line.result? : Line → Option String
  | .out text => some text
  | .err _ => none
  | .log _ _ => none

/-- The text of a line that tells a failure. -/
def Line.complaint? : Line → Option String
  | .out _ => none
  | .err text => some text
  | .log _ _ => none

def results (lines : List Line) : List String := lines.filterMap Line.result?

def complaints (lines : List Line) : List String := lines.filterMap Line.complaint?

/-- The results of one file: none if it cannot be queried or nothing matches, else a header, where the
run is verbose, and an entry for each match. -/
def resultsOf (o : Options) (path : String) : Outcome → List String
  | .failed _ => []
  | .queried _ _ [] => []
  | .queried lines _ (span :: spans) =>
    (if o.verbose then [s!"{path} {(span :: spans).length} matches:"] else []) ++
      (span :: spans).map fun span =>
        Report.matchEntry path span lines (if o.withFrames then some o.window else none)

def complaintsOf (path : String) : Outcome → List String
  | .failed message => [s!"{path}: {message}"]
  | .queried _ _ _ => []

def Outcome.matchCount : Outcome → Nat
  | .failed _ => 0
  | .queried _ _ spans => spans.length

/-- The file that is tried, if one is, with what becomes of it. -/
def Event.files : Event → List (String × Outcome)
  | .skipped _ _ => []
  | .tried path outcome => [(path, outcome)]

/-- The files that are tried, in order. -/
def filesOf (events : List Event) : List (String × Outcome) := events.flatMap Event.files

theorem results_block (o : Options) (path : String) (outcome : Outcome) :
    results (block o path outcome) = resultsOf o path outcome := by
  cases outcome with
  | failed message => rfl
  | queried lines nodes spans =>
    rw [block, results, List.filterMap_append, List.filterMap_map]
    cases spans with
    | nil => simp [resultsOf]
    | cons span spans =>
      -- each entry is a result, so none is lost when the results are read off
      have hentries (f : Option Span → String) (l : List (Option Span)) :
          l.filterMap (Line.result? ∘ fun span => .out (f span)) = l.map f :=
        congrFun (List.filterMap_eq_map (f := f)) l
      rw [hentries, resultsOf]
      cases o.verbose <;> rfl

theorem complaints_block (o : Options) (path : String) (outcome : Outcome) :
    complaints (block o path outcome) = complaintsOf path outcome := by
  cases outcome with
  | failed message => rfl
  | queried lines nodes spans =>
    rw [block, complaints, complaintsOf, List.filterMap_eq_nil_iff]
    intro line hline
    -- both the header and the entries are results
    rcases List.mem_append.mp hline with h | h
    · split at h
      · rw [List.mem_singleton.mp h]
        rfl
      · exact absurd h List.not_mem_nil
    · obtain ⟨span, -, rfl⟩ := List.mem_map.mp h
      rfl

/-- One thing after the other, the lines of each are told behind those before it. -/
theorem told_foldl (o : Options) (events : List Event) (p : Progress) :
    (events.foldl (Progress.step o) p).told.reverse =
      p.told.reverse ++ events.flatMap (Event.lines o) := by
  induction events generalizing p with
  | nil => exact (List.append_nil _).symm
  | cons event events ih =>
    rw [List.foldl_cons, ih, Progress.step, List.reverse_append, List.reverse_reverse,
      List.flatMap_cons, List.append_assoc]

/-- A file adds to the counts what its outcome says, whatever was counted before. -/
theorem tally_step (o : Options) (p : Progress) (event : Event) :
    (p.step o event).tally =
      ⟨p.tally.files + event.files.length,
        p.tally.matchCount + (event.files.map fun f => f.2.matchCount).sum,
        p.tally.failed || event.files.any fun f => f.2.isFailed⟩ := by
  cases event with
  | skipped directory e => simp [Progress.step, Event.outcome?, Event.files]
  | tried path outcome =>
    cases outcome <;>
      simp [Progress.step, Event.outcome?, Tally.add, Event.files, Outcome.matchCount,
        Outcome.isFailed]

theorem tally_foldl (o : Options) (events : List Event) (p : Progress) :
    (events.foldl (Progress.step o) p).tally =
      ⟨p.tally.files + (filesOf events).length,
        p.tally.matchCount + ((filesOf events).map fun f => f.2.matchCount).sum,
        p.tally.failed || (filesOf events).any fun f => f.2.isFailed⟩ := by
  induction events generalizing p with
  | nil => simp [filesOf]
  | cons event events ih =>
    rw [List.foldl_cons, ih, tally_step, filesOf, filesOf, List.flatMap_cons]
    simp only [List.length_append, List.map_append, List.sum_append, List.any_append,
      Nat.add_assoc, Bool.or_assoc]

theorem tally_report (o : Options) (events : List Event) :
    (report o events).2 =
      ⟨(filesOf events).length, ((filesOf events).map fun f => f.2.matchCount).sum,
        (filesOf events).any fun f => f.2.isFailed⟩ := by
  have htally := tally_foldl o events .start
  simp only [Progress.start, Nat.zero_add, Bool.false_or] at htally
  exact htally

theorem filesOf_tried (before after : List Event) (path : String) (outcome : Outcome) :
    filesOf (before ++ .tried path outcome :: after) =
      filesOf before ++ (path, outcome) :: filesOf after := by
  rw [filesOf, List.flatMap_append, List.flatMap_cons]
  rfl

section
variable (read : Line → Option String) (hlog : ∀ level message, read (.log level message) = none)
include hlog

/-- Without the log, an event tells the block of its file. -/
theorem filterMap_lines (o : Options) (event : Event) :
    (event.lines o).filterMap read =
      event.files.flatMap fun f => (block o f.1 f.2).filterMap read := by
  cases event with
  | skipped directory e => simp only [Event.lines, Event.files, List.filterMap_cons, hlog]; rfl
  | tried path outcome =>
    rw [Event.lines, Event.files, List.flatMap_singleton]
    cases outcome with
    | failed message =>
      rw [Outcome.isFailed, if_pos rfl, List.filterMap_append, note, List.filterMap_cons, hlog]
      exact List.append_nil _
    | queried lines nodes spans =>
      rw [Outcome.isFailed, if_neg Bool.false_ne_true, note, List.filterMap_cons, hlog]

/-- Without the log, a run tells the blocks of its files and the summary. -/
theorem filterMap_report (o : Options) (events : List Event) :
    (report o events).1.filterMap read =
      ((filesOf events).flatMap fun f => (block o f.1 f.2).filterMap read) ++
        (if o.verbose then [Line.out (Report.summary (filesOf events).length)] else []).filterMap
          read := by
  have hcount : (events.foldl (Progress.step o) .start).tally.files = (filesOf events).length :=
    congrArg Tally.files (tally_report o events)
  have hblocks : (events.flatMap (Event.lines o)).filterMap read =
      (filesOf events).flatMap fun f => (block o f.1 f.2).filterMap read := by
    rw [List.filterMap_flatMap, filesOf, List.flatMap_assoc]
    exact congrArg (List.flatMap · events) (funext fun event => filterMap_lines read hlog o event)
  rw [report, told_foldl, List.filterMap_append, Progress.start, List.reverse_nil,
    List.nil_append, hblocks, Tally.lines, List.filterMap_append, List.filterMap_cons, hlog]
  rw [Progress.start] at hcount
  rw [hcount, List.filterMap_nil, List.append_nil]

/-- Around a file everything is told the same, whatever becomes of it. -/
theorem exists_told_around (o : Options) (before after : List Event) (path : String) :
    ∃ above below, ∀ outcome,
      (report o (before ++ .tried path outcome :: after)).1.filterMap read =
        above ++ (block o path outcome).filterMap read ++ below := by
  let count : Nat := (filesOf before).length + ((filesOf after).length + 1)
  refine ⟨(filesOf before).flatMap fun f => (block o f.1 f.2).filterMap read,
    ((filesOf after).flatMap fun f => (block o f.1 f.2).filterMap read) ++
      (if o.verbose then [Line.out (Report.summary count)] else []).filterMap read, ?_⟩
  intro outcome
  rw [filterMap_report read hlog, filesOf_tried, List.flatMap_append, List.flatMap_cons,
    List.length_append, List.length_cons]
  simp only [List.append_assoc, count]

/-- What is told of the ignore file goes to the log. -/
theorem filterMap_ignoreLines (root : List Files.Entry) (path : Path) :
    (ignoreLines root path).filterMap read = [] := by
  rw [List.filterMap_eq_nil_iff]
  intro line hline
  rcases List.mem_cons.mp hline with rfl | h
  · exact hlog _ _
  · obtain ⟨p, -, rfl⟩ := List.mem_map.mp h
    exact hlog _ _

end

theorem results_report (o : Options) (events : List Event) :
    results (report o events).1 =
      ((filesOf events).flatMap fun f => resultsOf o f.1 f.2) ++
        if o.verbose then [s!"Queried {(filesOf events).length} files."] else [] := by
  simp only [← results_block]
  rw [results, filterMap_report Line.result? fun _ _ => rfl]
  cases o.verbose <;> rfl

theorem complaints_report (o : Options) (events : List Event) :
    complaints (report o events).1 = (filesOf events).flatMap fun f => complaintsOf f.1 f.2 := by
  simp only [← complaints_block o]
  rw [complaints, filterMap_report Line.complaint? fun _ _ => rfl]
  cases o.verbose <;> exact List.append_nil _

theorem exitCode_eq_one_iff (o : Options) (events : List Event) :
    (report o events).2.exitCode = 1 ↔ ∃ f ∈ filesOf events, f.2.isFailed = true := by
  rw [tally_report, Tally.exitCode, ← List.any_eq_true]
  cases (filesOf events).any fun f => f.2.isFailed <;> simp

/-- The files that a search finds are tried in the order in which it finds them. -/
theorem filesOf_visits (outcome : String → Outcome) (visits : List Files.Visit) :
    filesOf (visits.filterMap (eventOf outcome)) =
      (visits.filterMap Files.Visit.path?).map fun path => (path, outcome path) := by
  induction visits with
  | nil => rfl
  | cons visit visits ih =>
    cases visit with
    | read directory => exact ih
    | skipped directory e => exact ih
    | found path => exact congrArg ((path, outcome path) :: ·) ih

/-- The files of a run, in the order in which the search finds them, with what becomes of each. -/
def filesOfRun (root : List Files.Entry) (reader : Source.Reader) (directory : Path) (o : Options)
    (selector : Selector.SelectorList) : List (String × Outcome) :=
  (Files.enumerate root directory o.glob (Ignore.loaded root (ignorePath directory o))).map
    fun path => (path, queryFile root reader directory o.dialects selector path)

/-- A run is the report of its files. -/
theorem run_eq_report (root : List Files.Entry) (reader : Source.Reader) (directory : Path)
    (o : Options) (selector : Selector.SelectorList) :
    ∃ events, filesOf events = filesOfRun root reader directory o selector ∧
      results (run root reader directory o selector).1 = results (report o events).1 ∧
      complaints (run root reader directory o selector).1 = complaints (report o events).1 ∧
      (run root reader directory o selector).2 = (report o events).2 := by
  refine ⟨_, filesOf_visits (queryFile root reader directory o.dialects selector)
    (visits root directory o), ?_, ?_, rfl⟩
  · rw [run, results, List.filterMap_append, filterMap_ignoreLines _ fun _ _ => rfl]
    rfl
  · rw [run, complaints, List.filterMap_append, filterMap_ignoreLines _ fun _ _ => rfl]
    rfl

/-- Files are told apart from each other. The results are a block for each file in order, which follows
from what becomes of it and the options, and the summary where the run is verbose; the complaints are
one for each failed file; the counts are over all files, and the run fails exactly if a file does.
Around a file nothing that is told depends on it. -/
theorem report_by_files (o : Options) (events : List Event) :
    results (report o events).1 =
        ((filesOf events).flatMap fun f => resultsOf o f.1 f.2) ++
          (if o.verbose then [s!"Queried {(filesOf events).length} files."] else []) ∧
      complaints (report o events).1 = ((filesOf events).flatMap fun f => complaintsOf f.1 f.2) ∧
      (report o events).2.files = (filesOf events).length ∧
      (report o events).2.matchCount = ((filesOf events).map fun f => f.2.matchCount).sum ∧
      ((report o events).2.exitCode = 1 ↔ ∃ f ∈ filesOf events, f.2.isFailed = true) ∧
      (∀ before path after, ∃ above below above' below', ∀ outcome,
        results (report o (before ++ .tried path outcome :: after)).1 =
            above ++ resultsOf o path outcome ++ below ∧
          complaints (report o (before ++ .tried path outcome :: after)).1 =
            above' ++ complaintsOf path outcome ++ below') ∧
      (∀ root reader directory selector, ∃ events,
        filesOf events = filesOfRun root reader directory o selector ∧
          results (run root reader directory o selector).1 = results (report o events).1 ∧
          complaints (run root reader directory o selector).1 = complaints (report o events).1 ∧
          (run root reader directory o selector).2 = (report o events).2) := by
  refine ⟨results_report o events, complaints_report o events, ?_, ?_, exitCode_eq_one_iff o events,
    ?_, ?_⟩
  · rw [tally_report]
  · rw [tally_report]
  · intro before path after
    obtain ⟨above, below, hresults⟩ :=
      exists_told_around Line.result? (fun _ _ => rfl) o before after path
    obtain ⟨above', below', hcomplaints⟩ :=
      exists_told_around Line.complaint? (fun _ _ => rfl) o before after path
    refine ⟨above, below, above', below', ?_⟩
    intro outcome
    rw [← results_block, ← complaints_block o]
    exact ⟨hresults outcome, hcomplaints outcome⟩
  · intro root reader directory selector
    exact run_eq_report root reader directory o selector

end TreeSelect.Run
