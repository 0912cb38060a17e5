import TreeSelect.Log.Level
import TreeSelect.Text.Likeness
import TreeSelect.Text.Shown

namespace TreeSelect.CommandLine

/-- What is shown instead of running a query. -/
inductive Notice where
  | help
  | version
  deriving DecidableEq

inductive Switch where
  | verbose
  | codeFrame
  | logLevel
  | notice (n : Notice)
  deriving DecidableEq

def Switch.all : List Switch :=
  [.verbose, .codeFrame, .logLevel, .notice .version, .notice .help]

def Switch.name : Switch → String
  | .verbose => "--verbose"
  | .codeFrame => "--include-code-frame"
  | .logLevel => "--log-level"
  | .notice .version => "--version"
  | .notice .help => "--help"

def Switch.named? (name : String) : Option Switch :=
  Switch.all.find? fun s => s.name = name

/-- A query to run. -/
structure Request where
  selector : String
  glob : Option String
  verbose : Bool
  withFrames : Bool
  level : Option Log.Level
  deriving DecidableEq

inductive Demand where
  | notice (n : Notice)
  | query (request : Request)
  deriving DecidableEq

/-- What is wrong with a command line. An option that does not exist comes with those that may have
been meant. -/
inductive Mistake where
  | unknownOption (name : String) (meant : List String)
  | needsValue (name : String)
  | takesNoValue (name : String)
  | unknownLevel (text : String)
  | missingSelector
  | badSelector (message : String)
  | extraOperands (texts : List String)
  deriving DecidableEq

/-- A question after options that may have been meant, in the order of their names. -/
def suggestion (meant : List String) : String :=
  match meant.mergeSort.map Text.quoted with
  | [] => ""
  | [name] => s!" Did you mean {name}?"
  | names => " (Did you mean one of: " ++ String.intercalate ", " names ++ "?)"

def Mistake.message : Mistake → String
  | .unknownOption name meant => s!"No such option {Text.quoted name}." ++ suggestion meant
  | .needsValue name => s!"Option {Text.quoted name} requires an argument."
  | .takesNoValue name => s!"Option {Text.quoted name} does not take a value."
  | .unknownLevel text =>
    let names := Log.Level.all.map fun l => Text.quoted (Text.small l.name)
    s!"Invalid value for '--log-level': {Text.quoted text} is not one of " ++
      String.intercalate ", " names ++ "."
  | .missingSelector => "Missing argument 'SELECTOR'."
  | .badSelector message => s!"Invalid value for 'SELECTOR': {message}"
  | .extraOperands texts =>
    let noun := if texts.length = 1 then "argument" else "arguments"
    s!"Got unexpected extra {noun} (" ++ String.intercalate " " texts ++ ")"

/-- Mistakes with the value of an option are told without a word on usage. -/
def Mistake.showsUsage : Mistake → Bool
  | .needsValue _ => false
  | .takesNoValue _ => false
  | _ => true

/-- The arguments sorted by what they are. Of several levels the last counts, of several notices
the first. -/
structure Sorted where
  operands : List String
  verbose : Bool
  withFrames : Bool
  level : Option String
  notice : Option Notice

def Sorted.empty : Sorted := ⟨[], false, false, none, none⟩

def Sorted.turnOn (s : Sorted) : Switch → Sorted
  | .verbose => { s with verbose := true }
  | .codeFrame => { s with withFrames := true }
  | .notice n => { s with notice := s.notice.or (some n) }
  | .logLevel => s

/-- The name of an option and the value that an equals sign attaches to it. A single dash is not an
option. -/
def optionOf? (arg : String) : Option (String × Option String) :=
  match arg.toList with
  | '-' :: c :: r =>
    let name := ('-' :: c :: r).takeWhile (· ≠ '=')
    some (String.ofList name,
      match ('-' :: c :: r).dropWhile (· ≠ '=') with
      | _ :: value => some (String.ofList value)
      | [] => none)
  | _ => none

/-- The mistake of an option that does not exist: one with a single dash is told by its first
letter. -/
def unknown (arg name : String) : Mistake :=
  match arg.toList with
  | '-' :: '-' :: _ => .unknownOption name (Text.alike name (Switch.all.map Switch.name))
  | cs => .unknownOption (String.ofList (cs.take 2)) []

/-- Sorts the arguments, which may stand in any order; after a double dash all are operands. -/
def sort (s : Sorted) : List String → Except Mistake Sorted
  | [] => .ok s
  | arg :: args =>
    if arg = "--" then .ok { s with operands := s.operands ++ args }
    else
      match optionOf? arg with
      | none => sort { s with operands := s.operands ++ [arg] } args
      | some (name, value) =>
        match Switch.named? name, value with
        | none, _ => .error (unknown arg name)
        | some .logLevel, some text => sort { s with level := some text } args
        | some .logLevel, none =>
          match args with
          | text :: args => sort { s with level := some text } args
          | [] => .error (.needsValue name)
        | some switch, none => sort (s.turnOn switch) args
        | some _, some _ => .error (.takesNoValue name)

def levelOf (text : String) : Except Mistake Log.Level :=
  match Log.Level.all.find? fun l => Text.small l.name = Text.small text with
  | some l => .ok l
  | none => .error (.unknownLevel text)

/-- What the arguments ask for. A notice goes before mistakes in the values of other options. -/
def demandOf (args : List String) : Except Mistake Demand := do
  let s ← sort .empty args
  match s.notice with
  | some n => .ok (.notice n)
  | none =>
    let level ← s.level.mapM levelOf
    match s.operands with
    | [] => .error .missingSelector
    | [selector] => .ok (.query ⟨selector, none, s.verbose, s.withFrames, level⟩)
    | [selector, glob] => .ok (.query ⟨selector, some glob, s.verbose, s.withFrames, level⟩)
    | _ :: _ :: extra => .error (.extraOperands extra)

end TreeSelect.CommandLine
