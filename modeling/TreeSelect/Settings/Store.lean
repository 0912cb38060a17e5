import TreeSelect.Settings.Basic

namespace TreeSelect.Settings

/-- The variables of the environment with their texts. -/
abbrev Environment := List (String × String)

/-- Sets a variable, or takes it away. -/
def assign (env : Environment) (envVar : String) (text : Option String) : Environment :=
  let others := env.filter fun e => e.1 ≠ envVar
  match text with
  | some t => (envVar, t) :: others
  | none => others

/-- The values that are set, the newest first. -/
structure Store (α : Type) where
  values : List (String × Value α)

def Store.set {α : Type} (s : Store α) (name : String) (v : Value α) : Store α :=
  ⟨(name, v) :: s.values⟩

/-- A variable whose text is no value of its setting. -/
structure Warning where
  envVar : String
  text : String
  refusal : Refusal
  deriving DecidableEq

def Warning.message (w : Warning) : String :=
  s!"Failed to parse {w.envVar}={w.text}: " ++ w.refusal.message

/-- Reads one setting from the environment. -/
def Store.readFrom {α : Type} (env : Environment) (s : Store α) (k : Known) :
    Store α × Option Warning :=
  match env.lookup k.envVar with
  | none => (s, none)
  | some text =>
    match k.read text with
    | .ok v => (s.set k.name v, none)
    | .error refusal => (s, some ⟨k.envVar, text, refusal⟩)

/-- Reads settings in turn and gathers the warnings. -/
def Store.readAll {α : Type} (env : Environment) (s : Store α) :
    List Known → Store α × List Warning
  | [] => (s, [])
  | k :: ks =>
    let (s, w) := s.readFrom env k
    let (s, ws) := s.readAll env ks
    (s, w.toList ++ ws)

/-- The store that an environment makes. -/
def Store.load {α : Type} (env : Environment) : Store α × List Warning :=
  Store.readAll env ⟨[]⟩ Known.all

/-- Overrides settings; those without a value stay as they are. -/
def Store.override {α : Type} (s : Store α) (values : List (String × Option (Value α))) :
    Store α :=
  values.foldl
    (fun s (name, v) =>
      match v with
      | some v => s.set name v
      | none => s)
    s

/-- The value of a known setting. -/
def Store.known {α : Type} (s : Store α) (k : Known) : Value α :=
  (s.values.lookup k.name).getD k.default

/-- The text of a setting whose value is one. -/
def Store.text {α : Type} (s : Store α) (k : Known) : String :=
  match s.known k with
  | .text t => t
  | _ => ""

/-- The count of a setting whose value is one. -/
def Store.count {α : Type} (s : Store α) (k : Known) : Nat :=
  match s.known k with
  | .count n => n
  | _ => 0

/-- The names of a setting whose value is a set of names. -/
def Store.names {α : Type} (s : Store α) (k : Known) : List String :=
  match s.known k with
  | .names ns => ns
  | _ => []

/-- The value of a name: what is set, else the default of a known setting, else the value that the
caller has ready. -/
def Store.get? {α : Type} (s : Store α) (name : String) (fallback : Option (Value α)) :
    Option (Value α) :=
  (s.values.lookup name).or (((Known.named? name).map Known.default).or fallback)

def missingMessage (name : String) : String :=
  s!"Setting '{name}' not found and no default provided"

end TreeSelect.Settings
