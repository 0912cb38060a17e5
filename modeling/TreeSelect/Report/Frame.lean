import TreeSelect.Text.Cut
import TreeSelect.Tree.Node

namespace TreeSelect.Report
open Text

def isIndent (c : Char) : Bool :=
  c == ' ' || c == '\t'

/-- How many spaces and tabs a line begins with. -/
def indentation (line : List Char) : Nat :=
  (line.takeWhile isIndent).length

/-- The least indentation of the lines; that of no line is 0. -/
def commonIndentation : List (List Char) → Nat
  | [] => 0
  | [l] => indentation l
  | l :: ls => min (indentation l) (commonIndentation ls)

def indentUnit (ls : List (List Char)) : Char :=
  if ls.any fun l => l.head? == some '\t' then '\t' else ' '

/-- A line that does not begin with the shared indentation stays as it is. -/
def unindent (unit : Char) (count : Nat) (line : List Char) : List Char :=
  if (List.replicate count unit).isPrefixOf line then line.drop count else line

def dedentLines (ls : List (List Char)) : List (List Char) :=
  ls.map (unindent (indentUnit ls) (commonIndentation ls))

def dedent (cs : List Char) : List Char :=
  unlines (dedentLines (lines cs))

/-- Where something begins and ends in a text. Any numbers may be given; what lies outside the text
is not shown. -/
structure Span where
  startLine : Int
  startColumn : Int
  stopLine : Int
  stopColumn : Int
  deriving DecidableEq

def Span.ofRange (r : Tree.Range) : Span :=
  ⟨r.start.line, r.start.column, r.stop.line, r.stop.column⟩

/-- How far a frame reaches above the first line of a match and below the last. -/
structure Window where
  above : Int := 2
  below : Int := 3
  deriving DecidableEq

/-- The lines of a frame and the numbers of the first and the last of them. -/
structure Frame where
  text : List Char
  first : Int
  last : Int
  deriving DecidableEq

def frame (ls : List (List Char)) (span : Span) (w : Window) : Frame :=
  let first := max (span.startLine - w.above) 0
  let last := min (span.stopLine + w.below) ls.length
  ⟨dedent (unlines (slice ls first last)), first + 1, last⟩

def location (path : String) (line column : Int) : String :=
  s!"{path}#{line}:{column}"

def unknownLocation : String := "match with unknown location"

/-- A match, with the lines around it if a window is given. -/
def matchEntry (path : String) (span : Option Span) (ls : List (List Char))
    (window : Option Window) : String :=
  match span, window with
  | none, _ => unknownLocation
  | some s, none => location path s.startLine s.startColumn
  | some s, some w =>
    location path s.startLine s.startColumn ++ ":\n" ++ String.ofList (frame ls s w).text

def fileHeader (path : String) (count : Int) : String :=
  s!"{path} {count} matches:"

def summary (count : Int) : String :=
  s!"Queried {count} files."

end TreeSelect.Report
