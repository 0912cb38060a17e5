import TreeSelect.Files.Resolve
import TreeSelect.Glob.Brace
import TreeSelect.Glob.Segments
import TreeSelect.Ignore.Rule

/-! Searching a file tree for the files of a pattern. Alternatives that begin in one directory share
one walk, which enters a directory only if files below it can match and no rule keeps it out. The
files of a directory come before those of the directories in it. -/
namespace TreeSelect.Files
open Glob

/-- What happens on a walk. -/
inductive Visit where
  | read (directory : String)
  | skipped (directory : String) (error : PathError)
  | found (path : String)
  deriving DecidableEq

/-- A walk in the directory `base`. Paths are told from `shown` on, and the rules see them from the
working directory on, which is `way` away from the base. -/
structure Search where
  root : List Entry
  rules : List Ignore.Rule
  segments : List (List String)
  base : Path
  shown : Path
  way : List String

def Search.ignores (s : Search) (names : List String) (isDirectory : Bool) : Bool :=
  Ignore.isIgnored s.rules (s.way ++ names) isDirectory

def Search.accepts (s : Search) (names : List String) : Bool :=
  !s.ignores names false && s.segments.any fun pattern => matchParts pattern names

def Search.enters (s : Search) (names : List String) : Bool :=
  !s.ignores names true && s.segments.any fun pattern => canDescend pattern names

/-- The name of an entry that is a file or leads to one. A link that cannot be followed, unless it
leads to nothing at all, makes its directory unreadable. -/
def fileName? (root : List Entry) (trail : Trail) : Entry → Except PathError (Option String)
  | .file name _ => .ok (some name)
  | .directory _ _ => .ok none
  | .link name _ =>
    match follow root linkLimit trail [name] with
    | .ok (.file _) => .ok (some name)
    | .ok (.directory _) => .ok none
    | .error .missing => .ok none
    | .error e => .error e

/-- The names of the files in a directory. -/
def fileNames (root : List Entry) (trail : Trail) (entries : List Entry) :
    Except PathError (List String) :=
  (entries.mapM (fileName? root trail)).map fun names => names.filterMap id

/-- The visit of one directory, with what is visited below it if it can be read. -/
def Search.open_ (s : Search) (trail : Trail) (names : List String) (entries : List Entry)
    (below : List Visit) : List Visit :=
  let directory := (s.base.join ⟨"", names⟩).text
  match fileNames s.root trail entries with
  | .error e => [.skipped directory e]
  | .ok files =>
    let accepted := files.filter fun file => s.accepts (names ++ [file])
    .read directory ::
      (accepted.map fun file => .found (s.shown.join ⟨"", names ++ [file]⟩).text) ++ below

mutual

def Search.visit (s : Search) (trail : Trail) (names : List String) : Entry → List Visit
  | .directory name entries =>
    let names := names ++ [name]
    let trail := (name, entries) :: trail
    if s.enters names then s.open_ trail names entries (s.visitAll trail names entries) else []
  | .file _ _ => []
  | .link _ _ => []

def Search.visitAll (s : Search) (trail : Trail) (names : List String) : List Entry → List Visit
  | [] => []
  | e :: es => s.visit trail names e ++ s.visitAll trail names es

end

def Search.run (s : Search) : List Visit :=
  match resolve s.root s.base with
  | .error e => [.skipped s.base.text e]
  | .ok (.file _) => [.skipped s.base.text .notDirectory]
  | .ok (.directory trail) =>
    let entries := trail.entries s.root
    s.open_ trail [] entries (s.visitAll trail [] entries)

/-- Adds the segments of a pattern to those that begin in the same directory. -/
def addSegments (base : Path) (segments : List String) :
    List (Path × List (List String)) → List (Path × List (List String))
  | [] => [(base, [segments])]
  | (b, patterns) :: groups =>
    if b = base then (b, patterns ++ [segments]) :: groups
    else (b, patterns) :: addSegments base segments groups

/-- The directories that a pattern is searched for in, with the segments for each. -/
def groupsOf (pattern : String) : List (Path × List (List String)) :=
  (expandBraces pattern).foldl
    (fun groups p =>
      let (base, segments) := splitBase p
      if segments = [] then groups else addSegments base segments groups)
    []

def searchOf (root : List Entry) (directory : Path) (rules : List Ignore.Rule)
    (group : Path × List (List String)) : Search :=
  let base := directory.join group.1
  ⟨root, rules, group.2, base, group.1,
    Path.relative (Path.normal directory.names) (Path.normal base.names)⟩

/-- The walks for a pattern in a working directory. -/
def searchesOf (root : List Entry) (directory : Path) (pattern : String) (ignored : List String) :
    List Search :=
  (groupsOf pattern).map (searchOf root directory (Ignore.compile ignored))

/-- Leaves out the files that were found before. -/
def dropRepeated (seen : List String) : List Visit → List Visit
  | [] => []
  | .found path :: visits =>
    if seen.contains path then dropRepeated seen visits
    else .found path :: dropRepeated (path :: seen) visits
  | visit :: visits => visit :: dropRepeated seen visits

/-- The search for a pattern in a working directory. One walk alone finds no file twice. -/
def search (root : List Entry) (directory : Path) (pattern : String) (ignored : List String) :
    List Visit :=
  let searches := searchesOf root directory pattern ignored
  let visits := searches.flatMap Search.run
  if 1 < searches.length then dropRepeated [] visits else visits

def Visit.path? : Visit → Option String
  | .found path => some path
  | _ => none

def Visit.directory? : Visit → Option String
  | .read directory => some directory
  | .skipped directory _ => some directory
  | .found _ => none

/-- The files that a search finds, in order. -/
def enumerate (root : List Entry) (directory : Path) (pattern : String) (ignored : List String) :
    List String :=
  (search root directory pattern ignored).filterMap Visit.path?

/-- The ways that are followed from the root, and the searches at their ends. -/
structure Reach where
  ways : List (List String)
  searches : List Search

/-- The reach of searches and of one file that is read besides. -/
def Reach.of (file : Path) (searches : List Search) : Reach :=
  ⟨Path.normal file.names :: searches.map fun s => Path.normal s.base.names, searches⟩

/-- The names from the base of a search on. -/
def Search.below? (s : Search) (names : List String) : Option (List String) :=
  let base := Path.normal s.base.names
  if base.isPrefixOf names then some (names.drop base.length) else none

/-- Whether the names lie on a way. -/
def Reach.passes (r : Reach) (names : List String) : Bool :=
  r.ways.any fun way => names.isPrefixOf way

def Reach.enters (r : Reach) (names : List String) : Bool :=
  r.passes names || r.searches.any fun s => (s.below? names).any s.enters

def Reach.reads (r : Reach) (names : List String) : Bool :=
  r.ways.contains names || r.searches.any fun s => (s.below? names).any s.accepts

end TreeSelect.Files
