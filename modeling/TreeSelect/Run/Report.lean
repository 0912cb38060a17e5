import TreeSelect.Files.Search
import TreeSelect.Grammar.Basic
import TreeSelect.Log.Level
import TreeSelect.Report.Frame
import TreeSelect.Settings.Basic

namespace TreeSelect.Run
open Report (Span Window)

/-- What a run is asked for, apart from the selector. -/
structure Options where
  glob : String := Settings.defaultGlob
  verbose : Bool := false
  withFrames : Bool := false
  ignoreFilename : String := Settings.defaultIgnoreFilename
  window : Window := {}
  dialects : List String := Grammar.defaultDialects

/-- What becomes of one file: it cannot be queried, or it has lines, a number of nodes that were
looked at, and matches. -/
inductive Outcome where
  | failed (message : String)
  | queried (lines : List (List Char)) (nodes : Nat) (spans : List (Option Span))
  deriving DecidableEq

def Outcome.isFailed : Outcome → Bool
  | .failed _ => true
  | .queried _ _ _ => false

/-- What happens in a run: a directory cannot be read, or a file is tried. -/
inductive Event where
  | skipped (directory : String) (error : Files.PathError)
  | tried (path : String) (outcome : Outcome)
  deriving DecidableEq

def Event.outcome? : Event → Option Outcome
  | .skipped _ _ => none
  | .tried _ outcome => some outcome

/-- A line of the report: a result, a complaint, or a record for the log. -/
inductive Line where
  | out (text : String)
  | err (text : String)
  | log (level : Log.Level) (message : String)
  deriving DecidableEq

/-- The lines that are printed of one file. -/
def block (o : Options) (path : String) : Outcome → List Line
  | .failed message => [.err s!"{path}: {message}"]
  | .queried lines _ spans =>
    (if o.verbose ∧ spans ≠ [] then [.out (Report.fileHeader path spans.length)] else []) ++
      spans.map fun span =>
        .out (Report.matchEntry path span lines (if o.withFrames then some o.window else none))

/-- What is logged of one file. -/
def note (path : String) : Outcome → Line
  | .failed _ => .log .debug s!"Query failed for {path}"
  | .queried _ nodes spans => .log .debug s!"{path}: {spans.length} of {nodes} nodes matched"

/-- The lines of an event. A match count is logged before the matches, a failure after it. -/
def Event.lines (o : Options) : Event → List Line
  | .skipped directory e =>
    [.log .debug (s!"Skipping unreadable directory {directory}: " ++ e.message directory)]
  | .tried path outcome =>
    if outcome.isFailed then block o path outcome ++ [note path outcome]
    else note path outcome :: block o path outcome

/-- The counts of a run. -/
structure Tally where
  files : Nat
  matchCount : Nat
  failed : Bool
  deriving DecidableEq

def Tally.exitCode (t : Tally) : Nat :=
  if t.failed then 1 else 0

/-- The counts with one more file. -/
def Tally.add (t : Tally) : Outcome → Tally
  | .failed _ => { t with files := t.files + 1, failed := true }
  | .queried _ _ spans =>
    { t with files := t.files + 1, matchCount := t.matchCount + spans.length }

def Tally.message (t : Tally) : String :=
  s!"Queried {t.files} files, {t.matchCount} matches, " ++
    (if t.failed then "with" else "without") ++ " errors"

def Tally.lines (o : Options) (t : Tally) : List Line :=
  (if o.verbose then [.out (Report.summary t.files)] else []) ++ [.log .info t.message]

/-- How far a run has come: the lines that are told, the newest first, and the counts. -/
structure Progress where
  told : List Line
  tally : Tally

def Progress.start : Progress := ⟨[], ⟨0, 0, false⟩⟩

/-- One more thing happens: its lines are told, and a file is counted. -/
def Progress.step (o : Options) (p : Progress) (event : Event) : Progress :=
  ⟨(event.lines o).reverse ++ p.told, event.outcome?.elim p.tally p.tally.add⟩

/-- The report of a run in which these things happen, one after the other. -/
def report (o : Options) (events : List Event) : List Line × Tally :=
  let p := events.foldl (Progress.step o) .start
  (p.told.reverse ++ p.tally.lines o, p.tally)

end TreeSelect.Run
