import TreeSelect.Files.Resolve
import TreeSelect.Glob.Wildcard
import TreeSelect.Path
import TreeSelect.Text.Character
import TreeSelect.Text.Cut

/-! Rules that keep files out of a search. A rule without a slash is about single names, wherever
they stand; a rule with one is about the way from the working directory on. -/
namespace TreeSelect.Ignore
open Glob

/-- A rule about directories only never looks at the last name of a file. -/
structure Rule where
  pattern : String
  anchored : Bool
  directoryOnly : Bool
  deriving DecidableEq

/-- The patterns of which an anchored rule takes either; two stars in front may stand for nothing. -/
def Rule.alternatives (r : Rule) : List String :=
  match r.pattern.toList with
  | '*' :: '*' :: '/' :: rest => [r.pattern, String.ofList rest]
  | _ => [r.pattern]

/-- The names that a rule looks at. -/
def Rule.scope (r : Rule) (names : List String) (isDirectory : Bool) : List String :=
  if r.directoryOnly && !isDirectory then names.dropLast else names

/-- The beginnings of a list that are not empty, the shortest first. -/
def beginnings {α : Type} : List α → List (List α)
  | [] => []
  | x :: xs => [x] :: (beginnings xs).map (x :: ·)

def Rule.excludes (r : Rule) (names : List String) (isDirectory : Bool) : Bool :=
  let scope := r.scope names isDirectory
  if r.anchored then
    (beginnings scope).any fun way =>
      r.alternatives.any fun p => wildcard p (String.intercalate "/" way)
  else scope.any (wildcard r.pattern)

/-- A pattern as it is compiled: a rule, a negation, which is not supported, or nothing. -/
inductive Compiled where
  | rule (rule : Rule)
  | negation (pattern : String)
  | nothing
  deriving DecidableEq

def compileOne (raw : String) : Compiled :=
  let pattern := Text.trim raw.toList
  if pattern.head? = some '!' then .negation (String.ofList pattern)
  else
    let body := (pattern.reverse.dropWhile (· = '/')).reverse
    let bare := body.dropWhile (· = '/')
    if bare = [] then .nothing
    else .rule ⟨String.ofList bare, body.contains '/', pattern.getLast? == some '/'⟩

def compile (patterns : List String) : List Rule :=
  patterns.filterMap fun p =>
    match compileOne p with
    | .rule r => some r
    | _ => none

def negations (patterns : List String) : List String :=
  patterns.filterMap fun p =>
    match compileOne p with
    | .negation n => some n
    | _ => none

/-- Whether a path of these names is kept out. -/
def isIgnored (rules : List Rule) (names : List String) (isDirectory : Bool) : Bool :=
  !names.isEmpty && rules.any fun r => r.excludes names isDirectory

def ignoresPath (patterns : List String) (path : String) : Bool :=
  isIgnored (compile patterns) (Path.ofString path).parts false

/-- The patterns of an ignore file, each once and in order: its lines without the blanks around
them, but for empty lines and comments. -/
def patternsOf (content : List Char) : List String :=
  let ls := (Text.lines content).map Text.trim
  ((ls.filter fun l => l ≠ [] ∧ l.head? ≠ some '#').map String.ofList).eraseDups.mergeSort

/-- The patterns of an ignore file, or why there are none. -/
def load (root : List Files.Entry) (path : Path) : Except Files.ReadError (List String) :=
  (Files.readText root path).map patternsOf

def loaded (root : List Files.Entry) (path : Path) : List String :=
  match load root path with
  | .ok patterns => patterns
  | .error _ => []

/-- What is logged of the reading of an ignore file. -/
def loadMessage (root : List Files.Entry) (path : Path) : String :=
  match load root path with
  | .ok patterns => s!"Loaded {patterns.length} ignore patterns from {path.text}"
  | .error e => s!"No ignore patterns loaded from {path.text}: " ++ e.message path.text

end TreeSelect.Ignore
