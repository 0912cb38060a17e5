import TreeSelect.CommandLine.Usage
import TreeSelect.Grammar.Supply
import TreeSelect.Log.Channel
import TreeSelect.Run.Query
import TreeSelect.Selector.Parse
import TreeSelect.Settings.Store

namespace TreeSelect.CommandLine
open Run (Line)

/-- What the program finds around it. -/
structure Surroundings where
  root : List Files.Entry
  directory : Path
  environment : Settings.Environment
  supply : Grammar.Supply
  reader : Source.Reader

/-- How the program ends: its exit code, its lines in order, and the channel that it logged to. -/
structure Ending where
  exitCode : Nat
  lines : List Line
  channel : Log.Channel

/-- An ending before anything is logged. -/
def Ending.plain (exitCode : Nat) (lines : List Line) : Ending :=
  ⟨exitCode, lines, .initial⟩

inductive Stream where
  | output
  | errors
  deriving DecidableEq

/-- What a line prints, and where. A record that the channel does not admit prints nothing. -/
def printed (channel : Log.Channel) (time : String) : Line → Option (Stream × String)
  | .out text => some (.output, text ++ "\n")
  | .err text => some (.errors, text ++ "\n")
  | .log level message =>
    (channel.write Log.channelName ⟨level.number, message, none⟩ time).map fun w => (.errors, w.2)

def Ending.printed (e : Ending) (time : String) : List (Stream × String) :=
  e.lines.filterMap (CommandLine.printed e.channel time)

/-- All that is printed to one stream. -/
def Ending.text (e : Ending) (time : String) (stream : Stream) : String :=
  String.join (((e.printed time).filter fun w => w.1 = stream).map (·.2))

/-- The exit code after a mistake in the use of the program. -/
def misuse : Nat := 2

def refuse (m : Mistake) : List Line := [.err m.text]

/-- The options of a run. An empty pattern counts as none. -/
def optionsOf (r : Request) (store : Settings.Store Empty) : Run.Options where
  glob := (r.glob.filter (· ≠ "")).getD (store.text .defaultGlob)
  verbose := r.verbose
  withFrames := r.withFrames
  ignoreFilename := store.text .ignoreFilename
  window := ⟨store.count .linesAbove, store.count .linesBelow⟩
  dialects := store.names .dialects

/-- Runs a selector once every grammar is loaded that the run may need. -/
def search (w : Surroundings) (o : Run.Options) (selector : String) (q : Selector.SelectorList) :
    Nat × List Line :=
  let start := Line.log .debug
    s!"Running query {Text.quoted selector} over {Text.quoted o.glob} in {w.directory.text}"
  match (Grammar.preload w.supply [] o.dialects).2 with
  | some e => (1, [start, .err s!"Error: {e.message}"])
  | none =>
    let (lines, t) := Run.run w.root w.reader w.directory o q
    (t.exitCode, start :: lines)

/-- The settings for a request, and the warnings about the environment. -/
def storeFor (environment : Settings.Environment) (r : Request) :
    Settings.Store Empty × List Settings.Warning :=
  let (store, warnings) := Settings.Store.load environment
  (store.override [(Settings.Known.logLevel.name, r.level.map fun l => .text l.name)], warnings)

/-- The options of the run that the arguments ask for, if they ask for one. -/
def optionsFor? (environment : Settings.Environment) (args : List String) : Option Run.Options :=
  match demandOf args with
  | .ok (.query r) => some (optionsOf r (storeFor environment r).1)
  | _ => none

/-- Answers a request. Warnings about the environment come first, before the log is set up; then
the selector is read, and no file is looked at if it is bad. -/
def answer (w : Surroundings) (r : Request) : Ending :=
  let (store, warnings) := storeFor w.environment r
  let channel := (Log.Channel.initial.setup (store.text .logLevel)).1
  let warned := warnings.map fun warning => Line.err warning.message
  match Selector.parse r.selector.toList with
  | .error (.tooManyDigits _) => ⟨1, warned, channel⟩
  | .error e => ⟨misuse, warned ++ refuse (.badSelector (selectorMessage r.selector e)), channel⟩
  | .ok q =>
    let (exitCode, lines) := search w (optionsOf r store) r.selector q
    ⟨exitCode, warned ++ lines, channel⟩

def execute (w : Surroundings) (args : List String) : Ending :=
  match demandOf args with
  | .error m => .plain misuse (refuse m)
  | .ok (.notice n) => .plain 0 [.out n.text]
  | .ok (.query r) => answer w r

end TreeSelect.CommandLine
