import Std.Time.DateTime.Timestamp
import TreeSelect.CommandLine.Execute
import TreeSelect.Files.Search
import TreeSelect.Log.Date

namespace TreeSelect.CommandLine

/-- A text as a tree of one node. -/
def wholeText : Source.Reader := fun _ text =>
  let source := Text.Utf8.encode text.toList
  ⟨⟨"program", 0, source.length, Tree.pointAt source 0, Tree.pointAt source source.length, none,
    true, false, false, false⟩, []⟩

/-- A file that must be read; one that cannot be is told and left out. -/
def fileAt (unread : IO.Ref Bool) (e : IO.FS.DirEntry) : IO (Option Files.Entry) := do
  try
    return some (.file e.fileName (← IO.FS.readBinFile e.path).toList)
  catch error =>
    unread.set true
    IO.eprintln s!"{e.path}: {error}"
    return none

mutual

/-- What stands at a path, if a search can see it. -/
partial def entryAt (unread : IO.Ref Bool) (reach : Files.Reach) (names : List String)
    (e : IO.FS.DirEntry) : IO (Option Files.Entry) := do
  let directory : IO (Option Files.Entry) := do
    let enters := reach.enters names
    let entries ← if enters then entriesAt unread reach names e.path.toString else pure []
    return some (.directory e.fileName entries)
  let file : IO (Option Files.Entry) := do
    if reach.reads names then fileAt unread e else return some (.file e.fileName [])
  match (← e.path.symlinkMetadata).type with
  | .dir => directory
  | .file => file
  | .other => return none
  | .symlink =>
    match ← e.path.metadata.toBaseIO with
    | .ok target =>
      match target.type with
      | .dir => if reach.passes names then directory else return none
      | .file => file
      | _ => return none
    | .error (.noFileOrDirectory _ _ _) => return none
    | .error _ => return some (.link e.fileName e.fileName)

/-- The entries of a directory; one that cannot be read has none. -/
partial def entriesAt (unread : IO.Ref Bool) (reach : Files.Reach) (names : List String)
    (path : String) : IO (List Files.Entry) := do
  let listing ← try (← IO.FS.realPath path).readDir catch _ => pure #[]
  let entries ← listing.toList.filterMapM fun e => entryAt unread reach (names ++ [e.fileName]) e
  return entries.mergeSort fun a b => !(b.name < a.name)

end

/-- Reads the files for a run: the ignore file first, then what the searches reach. -/
def readFiles (unread : IO.Ref Bool) (directory : Path) (o : Run.Options) :
    IO (List Files.Entry) := do
  let path := Run.ignorePath directory o
  let root ← entriesAt unread (.of path []) [] "/"
  let searches := Files.searchesOf root directory o.glob (Ignore.loaded root path)
  entriesAt unread (.of path searches) [] "/"

def readEnvironment : IO Settings.Environment :=
  Settings.Known.all.filterMapM fun k => do
    return (← IO.getEnv k.envVar).map fun text => (k.envVar, text)

def currentTime : IO String := do
  let now ← Std.Time.Timestamp.now
  return String.ofList
    (Log.formatMoment (Log.momentOf now.toSecondsSinceUnixEpoch.val) Log.standardDate.toList)

def runProgram (args : List String) : IO UInt32 := do
  let environment ← readEnvironment
  let directory := Path.ofString (← IO.currentDir).toString
  let unread ← IO.mkRef false
  let root ←
    match optionsFor? environment args with
    | some o => readFiles unread directory o
    | none => pure []
  let ending := execute ⟨root, directory, environment, .full, wholeText⟩ args
  for (stream, text) in ending.printed (← currentTime) do
    match stream with
    | .output => (← IO.getStdout).putStr text
    | .errors => (← IO.getStderr).putStr text
  return UInt32.ofNat (if ← unread.get then max 1 ending.exitCode else ending.exitCode)

end TreeSelect.CommandLine

def main (args : List String) : IO UInt32 :=
  TreeSelect.CommandLine.runProgram args
