import TreeSelect.Text.Character

namespace TreeSelect.Text

/-- The most digits that are read as one number. -/
def digitLimit : Nat := 4300

/-- How a number of too many digits is refused. -/
def tooManyDigits (count : Nat) : String :=
  s!"Exceeds the limit ({digitLimit} digits) for integer string conversion: value has {count} " ++
    "digits; use sys.set_int_max_str_digits() to increase the limit"

inductive NumeralError where
  | malformed
  | tooLong (count : Nat)
  deriving DecidableEq

/-- The blanks around a number; the separators of ASCII are not among them. -/
def isMargin (c : Char) : Bool :=
  isBlank c && !(28 ≤ c.toNat && c.toNat ≤ 31)

/-- Digits with single underscores between them. -/
def isNumeral : List Char → Bool
  | [] => false
  | [c] => isDigit c
  | c :: '_' :: r => isDigit c && isNumeral r
  | c :: r => isDigit c && isNumeral r

def valueOf (digits : List Nat) : Nat :=
  digits.foldl (fun n d => n * 10 + d) 0

/-- The sign in front of a number, as the function it applies, and what follows it. -/
def signed : List Char → (Nat → Int) × List Char
  | '-' :: r => ((- ·), r)
  | '+' :: r => ((↑·), r)
  | r => ((↑·), r)

/-- The number in a text. Blanks may stand around it, a sign in front of it, and single underscores
between its digits, which may be of any script. -/
def readInt (cs : List Char) : Except NumeralError Int :=
  let (sign, body) := signed (cs.dropWhile isMargin)
  let inNumeral (c : Char) : Bool := isDigit c || c == '_'
  let numeral := body.takeWhile inNumeral
  let digits := numeral.filterMap digitValue?
  if !isNumeral numeral then .error .malformed
  else if digitLimit < digits.length then .error (.tooLong digits.length)
  else if (body.dropWhile inNumeral).all isMargin then .ok (sign (valueOf digits))
  else .error .malformed

end TreeSelect.Text
