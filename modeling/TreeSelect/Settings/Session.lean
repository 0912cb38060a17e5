import TreeSelect.Settings.Store

namespace TreeSelect.Settings

/-- The environment, and the store once it is made. -/
structure Session (α : Type) where
  environment : Environment
  store : Option (Store α)

def Session.initial {α : Type} : Session α := ⟨[], none⟩

inductive Operation (α : Type) where
  | assign (envVar : String) (text : Option String)
  | forget
  | make
  | override (values : List (String × Option (Value α)))
  | get (name : String) (fallback : Option (Value α))

inductive Answer (α : Type) where
  | done
  | value (v : Value α)
  | missing (name : String)

/-- The store, which is made of the environment where there is none yet. -/
def Session.made {α : Type} (s : Session α) : Store α × List Warning :=
  match s.store with
  | some store => (store, [])
  | none => Store.load s.environment

/-- The session after an operation, the answer and the warnings. -/
def Session.perform {α : Type} (s : Session α) : Operation α → Session α × Answer α × List Warning
  | .assign envVar text => ({ s with environment := assign s.environment envVar text }, .done, [])
  | .forget => ({ s with store := none }, .done, [])
  | .make =>
    let (store, ws) := s.made
    ({ s with store := some store }, .done, ws)
  | .override values =>
    let (store, ws) := s.made
    ({ s with store := some (store.override values) }, .done, ws)
  | .get name fallback =>
    let (store, ws) := s.made
    ({ s with store := some store },
      ((store.get? name fallback).map Answer.value).getD (.missing name), ws)

end TreeSelect.Settings
