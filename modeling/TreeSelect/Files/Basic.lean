import TreeSelect.Path
import TreeSelect.Text.Shown
import TreeSelect.Text.Utf8

namespace TreeSelect.Files

inductive Entry where
  | file (name : String) (content : List UInt8)
  | link (name target : String)
  | directory (name : String) (entries : List Entry)

def Entry.name : Entry → String
  | .file name _ => name
  | .link name _ => name
  | .directory name _ => name

def find? (entries : List Entry) (name : String) : Option Entry :=
  entries.find? fun e => e.name = name

/-- Puts an entry among others, in the place of the one that has its name. -/
def insert (e : Entry) : List Entry → List Entry
  | [] => [e]
  | d :: ds =>
    if e.name < d.name then e :: d :: ds
    else if e.name = d.name then e :: ds
    else d :: insert e ds

/-- The entries of the directory of a name; what is no directory has none. -/
def entriesOf (entries : List Entry) (name : String) : List Entry :=
  match find? entries name with
  | some (.directory _ es) => es
  | _ => []

/-- Puts an entry at the end of a way and makes the directories on it. -/
def place (way : List String) (e : Entry) (entries : List Entry) : List Entry :=
  match way with
  | [] => insert e entries
  | name :: way => insert (.directory name (place way e (entriesOf entries name))) entries

/-- Makes the directories of a way. -/
def makeDirectory (way : List String) (entries : List Entry) : List Entry :=
  match way with
  | [] => entries
  | name :: way => insert (.directory name (makeDirectory way (entriesOf entries name))) entries

/-- Takes away what stands at the end of a way. -/
def remove (way : List String) (entries : List Entry) : List Entry :=
  match way with
  | [] => entries
  | [name] => entries.filter fun e => e.name ≠ name
  | name :: way =>
    match find? entries name with
    | some (.directory _ es) => insert (.directory name (remove way es)) entries
    | _ => entries

/-- Why a path leads nowhere, or not to what was asked for. -/
inductive PathError where
  | missing
  | notDirectory
  | isDirectory
  | tooManyLinks
  deriving DecidableEq

def PathError.message (path : String) (e : PathError) : String :=
  let text :=
    match e with
    | .missing => "[Errno 2] No such file or directory"
    | .notDirectory => "[Errno 20] Not a directory"
    | .isDirectory => "[Errno 21] Is a directory"
    | .tooManyLinks => "[Errno 40] Too many levels of symbolic links"
  s!"{text}: " ++ Text.quoted path

end TreeSelect.Files
