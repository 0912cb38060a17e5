import TreeSelect.Log.Level
import TreeSelect.Text.Shown

namespace TreeSelect.Log

/-- A record; it may say itself how important it is. -/
structure Record where
  level : Int
  message : String
  importance : Option Scalar
  deriving DecidableEq

/-- A record that does not say how important it is has the importance of its level. -/
def Record.rank (r : Record) : Scalar :=
  r.importance.getD (.number (importanceOf (numberName r.level)))

/-- A text with blanks after it up to a width. -/
def leftAligned (width : Nat) (s : String) : String :=
  s ++ String.ofList (List.replicate (width - s.length) ' ')

/-- The line of a record: the time, the level in eight characters, the importance and the message,
with bars between them. -/
def Record.line (r : Record) (time : String) : String :=
  s!"{time} | {leftAligned 8 (numberName r.level)} | {r.rank.shown} | {r.message}"

/-- The name of the channel; names that go on with a dot are parts of it. -/
def channelName : String := "code_query"

/-- `threshold` is 0 as long as none is set, `stream` counts the streams set up, and `detached`
tells that records go nowhere else. -/
structure Channel where
  threshold : Nat
  stream : Option Nat
  detached : Bool
  deriving DecidableEq

def Channel.initial : Channel := ⟨0, none, false⟩

structure UnknownLevel where
  name : String
  deriving DecidableEq

def UnknownLevel.message (e : UnknownLevel) : String :=
  "Unknown level: " ++ Text.quoted e.name

/-- The level a channel is set up with where none is named. -/
def defaultLevel : String := Level.warning.name

/-- Sets the channel up with a new stream. A name of no level is refused, but the stream is taken. -/
def Channel.setup (ch : Channel) (level : String) : Channel × Except UnknownLevel Unit :=
  let stream := some (ch.stream.elim 0 (· + 1))
  let name := Text.capital level
  match threshold? name with
  | some t => (⟨t, stream, true⟩, .ok ())
  | none => ({ ch with stream }, .error ⟨name⟩)

def isPartOf (logger : String) : Bool :=
  logger == channelName || (channelName ++ ".").toList.isPrefixOf logger.toList

/-- Where no threshold is set, warnings and what is above them pass. -/
def Channel.admits (ch : Channel) (level : Int) : Bool :=
  let least := if ch.threshold = 0 then Level.warning.number else ch.threshold
  decide ((least : Int) ≤ level)

/-- What a record of a logger writes, and to which stream. -/
def Channel.write (ch : Channel) (logger : String) (r : Record) (time : String) :
    Option (Nat × String) :=
  match ch.stream with
  | some stream =>
    if isPartOf logger && ch.admits r.level then some (stream, r.line time ++ "\n") else none
  | none => none

end TreeSelect.Log
