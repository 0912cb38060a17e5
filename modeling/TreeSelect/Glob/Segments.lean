import TreeSelect.Glob.Wildcard
import TreeSelect.Path

namespace TreeSelect.Glob

def isHidden (name : String) : Bool :=
  name.toList.head? == some '.'

def globstar : String := "**"

/-- A hidden name is taken only by a segment that begins with a dot itself. -/
def segmentMatches (segment name : String) : Bool :=
  (!isHidden name || isHidden segment) && wildcard segment name

/-- What can be left of the names once two stars have taken some of them, none of them hidden. -/
def leftovers : List String → List (List String)
  | [] => [[]]
  | name :: names => (name :: names) :: if isHidden name then [] else leftovers names

/-- Whether the names of a path match the segments of a pattern. -/
def matchParts : List String → List String → Bool
  | [], names => names.isEmpty
  | segment :: segments, names =>
    if segment = globstar then (leftovers names).any (matchParts segments)
    else
      match names with
      | [] => false
      | name :: names => segmentMatches segment name && matchParts segments names

/-- Whether a path below the directory of these names can still match. -/
def canDescend : List String → List String → Bool
  | [], _ => false
  | segment :: segments, names =>
    if segment = globstar then
      (leftovers names).any fun rest => rest.isEmpty || canDescend segments rest
    else
      match names with
      | [] => true
      | name :: names => segmentMatches segment name && canDescend segments names

def isWild (part : String) : Bool :=
  part.toList.any fun c => c == '*' || c == '?' || c == '['

/-- The directory of a pattern and the segments that are searched for in it. The last part is always
among them, so that a pattern without wildcards is looked for too. -/
def splitBase (pattern : String) : Path × List String :=
  let parts := (Path.ofString pattern).parts
  let fixed := parts.takeWhile fun part => !isWild part
  let size := if fixed.length = parts.length then parts.length - 1 else fixed.length
  (Path.ofParts (parts.take size), parts.drop size)

end TreeSelect.Glob
