import TreeSelect.Text.CaseTable

namespace TreeSelect.Text

def moved (runs : List CaseRun) (n : Nat) : Nat :=
  match runs.find? (·.covers n) with
  | some run => (n + run.shift).toNat
  | none => n

/-- The small form of a character; only the capital I with a dot has one of two characters. -/
def smallOf (c : Char) : List Char :=
  if c.toNat < 0x80 then [c.toLower]
  else if c.toNat = 0x130 then ['i', '\u0307']
  else [Char.ofNat (moved smallRuns c.toNat)]

def capitalOf (c : Char) : List Char :=
  if c.toNat < 0x80 then [c.toUpper]
  else
    match longCapitals.lookup c.toNat with
    | some ns => ns.map Char.ofNat
    | none => [Char.ofNat (moved capitalRuns c.toNat)]

/-- A letter comes first once the characters are skipped that case looks through. -/
def startsCased (cs : List Char) : Bool :=
  match cs.dropWhile fun c => inRanges caseIgnorableRanges c.toNat with
  | [] => false
  | c :: _ => inRanges casedRanges c.toNat

/-- The small form of a text that stands after `before`, which is given last character first. Only a
capital sigma looks at its neighbours: at the end of a word it becomes a final sigma. -/
def smallAfter (before : List Char) : List Char → List Char
  | [] => []
  | c :: r =>
    (if c = 'Σ' then [if startsCased before && !startsCased r then 'ς' else 'σ'] else smallOf c) ++
      smallAfter (c :: before) r

def small (s : String) : String :=
  String.ofList (smallAfter [] s.toList)

def capital (s : String) : String :=
  String.ofList (s.toList.flatMap capitalOf)

end TreeSelect.Text
