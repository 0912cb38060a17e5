import TreeSelect.Ignore.Rule
import TreeSelect.Matching.Chain
import TreeSelect.Run.Report
import TreeSelect.Source.Query

namespace TreeSelect.Run
open Selector

/-- What becomes of a file that is read. -/
def querySource (reader : Source.Reader) (directory : Path) (dialects : List String)
    (selector : SelectorList) (path : String) (text : List Char) : Outcome :=
  match Source.accept reader (String.ofList text) path (some directory.text)
      (Grammar.select path dialects) with
  | .error e => .failed e.message
  | .ok parsed =>
    let found := Matching.query parsed.source parsed.root selector false
    .queried (Text.lines text) parsed.root.index.length
      (found.map fun m => some (Report.Span.ofRange m.range))

def queryFile (root : List Files.Entry) (reader : Source.Reader) (directory : Path)
    (dialects : List String) (selector : SelectorList) (path : String) : Outcome :=
  let place := directory.join (Path.ofString path)
  match Files.readText root place with
  | .error e => .failed (e.message place.text)
  | .ok text => querySource reader directory dialects selector path text

/-- The event for a visit, if it is worth telling. -/
def eventOf (outcome : String → Outcome) : Files.Visit → Option Event
  | .read _ => none
  | .skipped directory e => some (.skipped directory e)
  | .found path => some (.tried path (outcome path))

/-- What is logged of the ignore file: whether it was read, then its rules that are not
supported. -/
def ignoreLines (root : List Files.Entry) (path : Path) : List Line :=
  .log .debug (Ignore.loadMessage root path) ::
    (Ignore.negations (Ignore.loaded root path)).map fun p =>
      .log .debug s!"Negated ignore pattern not supported, skipping: {p}"

/-- Where the ignore file of a run is looked for. -/
def ignorePath (directory : Path) (o : Options) : Path :=
  directory.join (Path.ofString o.ignoreFilename)

/-- The visits of a run in a working directory. -/
def visits (root : List Files.Entry) (directory : Path) (o : Options) : List Files.Visit :=
  Files.search root directory o.glob (Ignore.loaded root (ignorePath directory o))

/-- The report of a run in a working directory. -/
def run (root : List Files.Entry) (reader : Source.Reader) (directory : Path) (o : Options)
    (selector : SelectorList) : List Line × Tally :=
  let outcome := queryFile root reader directory o.dialects selector
  let (lines, t) := report o ((visits root directory o).filterMap (eventOf outcome))
  (ignoreLines root (ignorePath directory o) ++ lines, t)

/-- The grammars by which a run reads its files, in turn; a file that cannot be read has none. -/
def grammars (root : List Files.Entry) (directory : Path) (o : Options) : List Grammar :=
  ((visits root directory o).filterMap Files.Visit.path?).filterMap fun path =>
    match Files.readText root (directory.join (Path.ofString path)) with
    | .ok _ => some (Grammar.select path o.dialects)
    | .error _ => none

end TreeSelect.Run
