import TreeSelect.Text.Character
import TreeSelect.Text.Case

namespace TreeSelect.Log

inductive Level where
  | debug
  | info
  | warning
  | error
  | critical
  deriving DecidableEq

def Level.all : List Level := [.debug, .info, .warning, .error, .critical]

def Level.number : Level → Nat
  | .debug => 10
  | .info => 20
  | .warning => 30
  | .error => 40
  | .critical => 50

def Level.name : Level → String
  | .debug => "DEBUG"
  | .info => "INFO"
  | .warning => "WARNING"
  | .error => "ERROR"
  | .critical => "CRITICAL"

/-- From 0 to 10. -/
def Level.importance : Level → Nat
  | .debug => 2
  | .info => 4
  | .warning => 6
  | .error => 8
  | .critical => 10

def Level.named? (name : String) : Option Level :=
  Level.all.find? fun l => l.name = name

/-- What a level number is called in a record. -/
def numberName (n : Int) : String :=
  match Level.all.find? fun l => (l.number : Int) = n with
  | some l => l.name
  | none => if n = 0 then "NOTSET" else s!"Level {n}"

/-- The number a threshold is set to by a name; 0 sets none. -/
def threshold? (name : String) : Option Nat :=
  match name with
  | "NOTSET" => some 0
  | "WARN" => some Level.warning.number
  | "FATAL" => some Level.critical.number
  | _ => (Level.named? name).map Level.number

/-- The importance of a record whose level is called so, in any case and with blanks around it; a
name of no level counts as that of information. -/
def importanceOf (name : String) : Nat :=
  match Level.named? (Text.capital (String.ofList (Text.trim name.toList))) with
  | some l => l.importance
  | none => Level.info.importance

end TreeSelect.Log
