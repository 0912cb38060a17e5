import TreeSelect.Grammar.Basic
import TreeSelect.Log.Level
import TreeSelect.Text.Numeral
import TreeSelect.Text.Shown

namespace TreeSelect.Settings

inductive Known where
  | ignoreFilename
  | defaultGlob
  | linesAbove
  | linesBelow
  | dialects
  | logLevel
  deriving DecidableEq

/-- In the order in which they are read from the environment. -/
def Known.all : List Known :=
  [.ignoreFilename, .defaultGlob, .linesAbove, .linesBelow, .dialects, .logLevel]

def Known.name : Known → String
  | .ignoreFilename => "ignore_filename"
  | .defaultGlob => "default_glob"
  | .linesAbove => "lines_above"
  | .linesBelow => "lines_below"
  | .dialects => "dialects"
  | .logLevel => "log_level"

def Known.named? (name : String) : Option Known :=
  Known.all.find? fun k => k.name = name

/-- The variable of the environment that a setting is read from. -/
def Known.envVar : Known → String
  | .ignoreFilename => "CODE_QUERY_IGNORE_FILENAME"
  | .defaultGlob => "CODE_QUERY_DEFAULT_GLOB"
  | .linesAbove => "CODE_QUERY_LINES_ABOVE"
  | .linesBelow => "CODE_QUERY_LINES_BELOW"
  | .dialects => "CODE_QUERY_DIALECTS"
  | .logLevel => "CODE_QUERY_LOG_LEVEL"

/-- The value of a setting. A caller may give values of a kind of its own. -/
inductive Value (α : Type) where
  | text (s : String)
  | count (n : Nat)
  | names (ns : List String)
  | given (v : α)
  deriving DecidableEq

def defaultGlob : String := "**/*.\x7bcjs,js,jsx,mjs,ts,tsx\x7d"

def defaultIgnoreFilename : String := ".gitignore"

def Known.default {α : Type} : Known → Value α
  | .ignoreFilename => .text defaultIgnoreFilename
  | .defaultGlob => .text Settings.defaultGlob
  | .linesAbove => .count 2
  | .linesBelow => .count 3
  | .dialects => .names Grammar.defaultDialects
  | .logLevel => .text Log.Level.warning.name

/-- Why the text of a variable is no value of its setting. -/
inductive Refusal where
  | notNumber (text : String)
  | tooManyDigits (count : Nat)
  | negative
  | unknownLevel (text : String)
  deriving DecidableEq

/-- A text that is no number is shown in at most 200 characters. -/
def Refusal.message : Refusal → String
  | .notNumber text =>
    "invalid literal for int() with base 10: " ++
      String.ofList ((Text.quotedChars text.toList).take 200)
  | .tooManyDigits count => Text.tooManyDigits count
  | .negative => "must not be negative"
  | .unknownLevel text => "unknown log level " ++ Text.quoted text

def readCount (text : String) : Except Refusal Nat :=
  match Text.readInt text.toList with
  | .ok n => if n < 0 then .error .negative else .ok n.toNat
  | .error .malformed => .error (.notNumber text)
  | .error (.tooLong count) => .error (.tooManyDigits count)

/-- The names between commas, in small letters and without the blanks around them. -/
def readNames (text : String) : List String :=
  let names := (Text.split ',' text.toList).map Text.trim
  ((names.filter (· ≠ [])).map fun n => Text.small (String.ofList n)).eraseDups

def readLevel (text : String) : Except Refusal String :=
  match Log.Level.named? (Text.capital (String.ofList (Text.trim text.toList))) with
  | some l => .ok l.name
  | none => .error (.unknownLevel text)

def Known.read {α : Type} (k : Known) (text : String) : Except Refusal (Value α) :=
  match k with
  | .ignoreFilename | .defaultGlob => .ok (.text text)
  | .linesAbove | .linesBelow => (readCount text).map .count
  | .dialects => .ok (.names (readNames text))
  | .logLevel => (readLevel text).map .text

end TreeSelect.Settings
