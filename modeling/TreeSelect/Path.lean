import TreeSelect.Text.Case
import TreeSelect.Text.Cut

namespace TreeSelect

/-- `root` is empty, one slash, or two if the text begins with exactly two. -/
structure Path where
  root : String
  names : List String
  deriving DecidableEq

namespace Path

def rootOf : List Char → String
  | '/' :: '/' :: '/' :: _ => "/"
  | '/' :: '/' :: _ => "//"
  | '/' :: _ => "/"
  | _ => ""

/-- Empty names and single dots mean nothing and are left out; double dots are kept. -/
def ofString (s : String) : Path :=
  let names := (Text.split '/' s.toList).filter fun p => p ≠ [] ∧ p ≠ ['.']
  ⟨rootOf s.toList, names.map String.ofList⟩

def isAbsolute (p : Path) : Bool :=
  p.root != ""

/-- The root, if there is one, and the names. -/
def parts (p : Path) : List String :=
  if p.isAbsolute then p.root :: p.names else p.names

/-- The path of a list whose first part may be a root. -/
def ofParts : List String → Path
  | [] => ⟨"", []⟩
  | part :: names =>
    if part.toList.head? = some '/' then ⟨part, names⟩ else ⟨"", part :: names⟩

/-- The text of a path; a path of nothing is a dot. -/
def text (p : Path) : String :=
  if p.parts = [] then "." else p.root ++ String.intercalate "/" p.names

def child (p : Path) (name : String) : Path :=
  { p with names := p.names ++ [name] }

/-- The second path as seen from the first; an absolute path is the same from everywhere. -/
def join (p q : Path) : Path :=
  if q.isAbsolute then q else { p with names := p.names ++ q.names }

/-- What follows the last dot of a name, the dot included, unless the dot begins or ends it. -/
def nameSuffix (name : List Char) : List Char :=
  let after := name.reverse.takeWhile (· ≠ '.')
  if after ≠ [] ∧ after.length + 1 < name.length then '.' :: after.reverse else []

/-- The suffix of the last name, in small letters. -/
def suffix (p : Path) : String :=
  match p.names.getLast? with
  | some name => Text.small (String.ofList (nameSuffix name.toList))
  | none => ""

/-- Takes names and double dots together; at the root a double dot leads nowhere. -/
def normal (names : List String) : List String :=
  (names.foldl (fun up name => if name = ".." then up.drop 1 else name :: up) []).reverse

/-- The way from one absolute path to another, by names alone. -/
def relative (base target : List String) : List String :=
  match base, target with
  | b :: bs, t :: ts =>
    if b = t then relative bs ts else (b :: bs).map (fun _ => "..") ++ t :: ts
  | bs, ts => bs.map (fun _ => "..") ++ ts

end Path
end TreeSelect
