import TreeSelect.Text.Cut
import TreeSelect.Text.Utf8

namespace TreeSelect.Tree

/-- A place in a source: the line, counted from 0, and the number of bytes before it there. -/
structure Point where
  row : Nat
  column : Nat
  deriving DecidableEq

/-- What a node says of itself. `hasError` tells that the node or some node below it is at fault. -/
structure Label where
  type : String
  start : Nat
  stop : Nat
  startPoint : Point
  stopPoint : Point
  field : Option String
  named : Bool
  extra : Bool
  missing : Bool
  hasError : Bool
  deriving DecidableEq

inductive Node where
  | mk (label : Label) (children : List Node)

def Node.label : Node → Label
  | ⟨label, _⟩ => label

def Node.children : Node → List Node
  | ⟨_, children⟩ => children

def Node.type (n : Node) : String := n.label.type

/-- Selectors see neither anonymous nodes, such as punctuation, nor extra ones, such as comments. -/
def Node.isCandidate (n : Node) : Bool :=
  n.label.named && !n.label.extra

/-- The first child that fills a field. -/
def Node.child? (n : Node) (field : String) : Option Node :=
  n.children.find? fun c => c.label.field = some field

/-- The text that a node covers. -/
def Node.text (source : List UInt8) (n : Node) : List Char :=
  Text.Utf8.decode (Text.slice source n.label.start n.label.stop)

def Node.textString (source : List UInt8) (n : Node) : String :=
  String.ofList (n.text source)

structure Position where
  line : Nat
  column : Nat
  deriving DecidableEq

structure Range where
  start : Position
  stop : Position
  deriving DecidableEq

/-- How many characters the `column` bytes before `offset` hold. -/
def charColumn (source : List UInt8) (offset column : Int) : Nat :=
  (Text.Utf8.decode (Text.slice source (offset - column) offset)).length

def Node.startPosition (source : List UInt8) (n : Node) : Position :=
  ⟨n.label.startPoint.row + 1, charColumn source n.label.start n.label.startPoint.column⟩

def Node.stopPosition (source : List UInt8) (n : Node) : Position :=
  ⟨n.label.stopPoint.row + 1, charColumn source n.label.stop n.label.stopPoint.column⟩

def Node.range (source : List UInt8) (n : Node) : Range :=
  ⟨n.startPosition source, n.stopPosition source⟩

/-- The point of a byte offset: the line feeds before it, and the bytes after the last of them. -/
def pointAt (source : List UInt8) (offset : Nat) : Point :=
  let before := source.take offset
  ⟨before.count 10, offset - (before.length - (before.reverse.takeWhile (· ≠ 10)).length)⟩

end TreeSelect.Tree
