import TreeSelect.Text.CaseTable
import TreeSelect.Text.Character
import TreeSelect.Text.PrintTable

namespace TreeSelect.Text

def isPrintable (c : Char) : Bool :=
  if c.toNat < 0x7F then 0x20 ≤ c.toNat else !inRanges unprintableRanges c.toNat

/-- The code of a character in as many hexadecimal digits as it needs. -/
def codeEscape (c : Char) : List Char :=
  if c.toNat < 0x100 then '\\' :: 'x' :: hexDigits 2 c.toNat
  else if c.toNat < 0x10000 then '\\' :: 'u' :: hexDigits 4 c.toNat
  else '\\' :: 'U' :: hexDigits 8 c.toNat

def escaped (mark c : Char) : List Char :=
  if c = mark ∨ c = '\\' then ['\\', c]
  else if c = '\n' then ['\\', 'n']
  else if c = '\r' then ['\\', 'r']
  else if c = '\t' then ['\\', 't']
  else if isPrintable c then [c]
  else codeEscape c

/-- Apostrophes, unless the text holds one and no quotation mark. -/
def quotationMark (cs : List Char) : Char :=
  if cs.contains '\'' && !cs.contains '"' then '"' else '\''

def quotedChars (cs : List Char) : List Char :=
  let mark := quotationMark cs
  mark :: cs.flatMap (escaped mark) ++ [mark]

/-- A text in which every character beyond ASCII is escaped. -/
def asciiChars (cs : List Char) : List Char :=
  cs.flatMap fun c => if c.toNat < 0x80 then [c] else codeEscape c

def quoted (s : String) : String :=
  String.ofList (quotedChars s.toList)

end TreeSelect.Text

namespace TreeSelect

/-- Plain values, as they stand in log records and in failures. -/
inductive Scalar where
  | number (n : Int)
  | text (s : String)
  | truth (b : Bool)
  | nothing
  deriving DecidableEq

namespace Scalar

def shown : Scalar → String
  | .number n => toString n
  | .text s => s
  | .truth true => "True"
  | .truth false => "False"
  | .nothing => "None"

def ofText? (s : Option String) : Scalar :=
  s.elim .nothing .text

end Scalar
end TreeSelect
