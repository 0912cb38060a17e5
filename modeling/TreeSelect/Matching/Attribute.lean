import TreeSelect.ESTree.Fields
import TreeSelect.Text.Cut
import TreeSelect.Tree.Index

namespace TreeSelect.Matching
open TreeSelect.Tree

/-- The attributes that every node may have. -/
inductive Common where
  | type
  | text
  | field
  | startLine
  | endLine
  deriving DecidableEq

/-- Attributes of this kind are named in letters of any case. -/
def Common.named? (name : String) : Option Common :=
  match Text.small name with
  | "type" => some .type
  | "text" => some .text
  | "field" => some .field
  | "start_line" => some .startLine
  | "end_line" => some .endLine
  | _ => none

def Common.value (source : List UInt8) (e : Entry) : Common → Option String
  | .type => some e.node.type
  | .text => some (e.node.textString source)
  | .field => e.site.field
  | .startLine => some (toString (e.node.label.startPoint.row + 1))
  | .endLine => some (toString (e.node.label.stopPoint.row + 1))

/-- The child that a part of a path leads to: the child in the field of that name or, where there
is none, in the field that the ESTree attribute of that name stands for. -/
def follow? (n : Node) (part : String) : Option Node :=
  (n.child? part).or ((ESTree.fieldOf part n.type).bind n.child?)

/-- The text at the end of a path. A leaf answers for a part that leads nowhere, if it is the last
one. -/
def pathText (source : List UInt8) (n : Node) : List String → Option String
  | [] => some (n.textString source)
  | part :: parts =>
    match follow? n part with
    | some c => pathText source c parts
    | none =>
      if parts = [] then ESTree.leafValue part n.type (n.textString source) else none

/-- A path of one part may be the name of a common attribute. -/
def common? : List String → Option Common
  | [name] => Common.named? name
  | _ => none

def attributeValue (source : List UInt8) (e : Entry) (path : List String) : Option String :=
  match common? path with
  | some c => c.value source e
  | none => pathText source e.node path

/-- The parts of a path that is written with dots between them. -/
def pathOf (written : String) : List String :=
  (Text.split '.' written.toList).map String.ofList

end TreeSelect.Matching
