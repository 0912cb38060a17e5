import TreeSelect.Files.Basic
import TreeSelect.Text.Cut

namespace TreeSelect.Files

/-- A directory, as the directories that lead to it with their entries, itself first. -/
abbrev Trail := List (String × List Entry)

def Trail.entries (root : List Entry) : Trail → List Entry
  | [] => root
  | (_, es) :: _ => es

/-- The names from the root down. -/
def Trail.names (trail : Trail) : List String :=
  (trail.map (·.1)).reverse

inductive Found where
  | file (content : List UInt8)
  | directory (trail : Trail)

/-- The names in the target of a link. A slash at its end asks for a directory, as a dot does. -/
def stepsOf (target : String) : List String :=
  let names := (Text.split '/' target.toList).filter (· ≠ [])
  names.map String.ofList ++ if target.toList.getLast? = some '/' then ["."] else []

/-- The most links that are followed on one way. -/
def linkLimit : Nat := 40

/-- Follows names from a directory on, through at most `links` links. A double dot leads to
the directory that holds the one reached, behind a link too. -/
def follow (root : List Entry) (links : Nat) (trail : Trail) : List String → Except PathError Found
  | [] => .ok (.directory trail)
  | name :: rest =>
    if name = "." then follow root links trail rest
    else if name = ".." then follow root links (trail.drop 1) rest
    else
      match find? (trail.entries root) name with
      | none => .error .missing
      | some (.directory _ es) => follow root links ((name, es) :: trail) rest
      | some (.file _ content) => if rest = [] then .ok (.file content) else .error .notDirectory
      | some (.link _ target) =>
        match links with
        | 0 => .error .tooManyLinks
        | links + 1 =>
          follow root links (if target.toList.head? = some '/' then [] else trail)
            (stepsOf target ++ rest)
termination_by names => (links, names.length)

/-- What an absolute path leads to. -/
def resolve (root : List Entry) (path : Path) : Except PathError Found :=
  follow root linkLimit [] path.names

/-- What a file is told as: bytes that do not make a text are told by the first fault. -/
inductive ReadError where
  | path (error : PathError)
  | undecodable (fault : Text.Utf8.Fault)
  deriving DecidableEq

def ReadError.message (path : String) : ReadError → String
  | .path e => e.message path
  | .undecodable f => f.message

def readBytes (root : List Entry) (path : Path) : Except PathError (List UInt8) :=
  match resolve root path with
  | .error e => .error e
  | .ok (.directory _) => .error .isDirectory
  | .ok (.file content) => .ok content

/-- The text of a file, with a line feed for every line end. -/
def readText (root : List Entry) (path : Path) : Except ReadError (List Char) :=
  match readBytes root path with
  | .error e => .error (.path e)
  | .ok bytes =>
    match Text.Utf8.decode? bytes with
    | .error f => .error (.undecodable f)
    | .ok text => .ok (Text.plainBreaks text)

end TreeSelect.Files
