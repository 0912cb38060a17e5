import TreeSelect.Tree.Node

namespace TreeSelect.Tree

/-- A row of a listing. Without points they are found from the offsets; `faulty` marks a node as
having an error below it, and `sound` keeps a node from counting as an error itself. -/
structure Row where
  depth : Nat
  type : String
  start : Nat
  stop : Nat
  field : Option String
  named : Bool
  extra : Bool
  missing : Bool
  faulty : Bool
  sound : Bool
  points : Option (Point × Point)

def Row.label (source : List UInt8) (row : Row) (children : List Node) : Label where
  type := row.type
  start := row.start
  stop := row.stop
  startPoint := (row.points.map (·.1)).getD (pointAt source row.start)
  stopPoint := (row.points.map (·.2)).getD (pointAt source row.stop)
  field := row.field
  named := row.named
  extra := row.extra
  missing := row.missing
  hasError :=
    (!row.sound && (row.type == "ERROR" || row.missing || row.faulty)) ||
      children.any (·.label.hasError)

/-- Puts a row in front of the trees that follow it: those that lie deeper, up to the first that
does not, are its children. -/
def plant (source : List UInt8) (row : Row) (later : List (Nat × Node)) : List (Nat × Node) :=
  let children := (later.takeWhile fun t => row.depth < t.1).map (·.2)
  (row.depth, ⟨row.label source children, children⟩) :: later.dropWhile fun t => row.depth < t.1

/-- The trees of a listing, with their depths. -/
def forest (source : List UInt8) (rows : List Row) : List (Nat × Node) :=
  rows.foldr (plant source) []

def ofListing? (source : List UInt8) (rows : List Row) : Option Node :=
  (forest source rows).head?.map (·.2)

end TreeSelect.Tree
