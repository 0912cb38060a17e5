namespace TreeSelect.Text

def decimal (n : Nat) : List Char :=
  (toString n).toList

/-- A number with zeros in front of it up to a width. -/
def padded (width n : Nat) : List Char :=
  List.replicate (width - (decimal n).length) '0' ++ decimal n

namespace Notation

/-- The quotient rounded to the nearest whole number; a half goes to the even neighbour. -/
def roundedQuotient (n d : Nat) : Nat :=
  let q := n / d
  let r := n % d
  if 2 * r < d ∨ (2 * r = d ∧ q % 2 = 0) then q else q + 1

/-- The nearest number that has at most 53 binary digits in front of its last zeros. -/
def nearestDouble (n : Nat) : Nat :=
  if n < Nat.pow 2 53 then n
  else
    let unit := Nat.pow 2 (n.log2 - 52)
    roundedQuotient n unit * unit

/-- The first digits of a number, rounded, and the exponent of the first of them. -/
def significant (count n : Nat) : List Char × Nat :=
  let digits := decimal n
  let exponent := digits.length - 1
  if digits.length ≤ count then
    (digits ++ List.replicate (count - digits.length) '0', exponent)
  else
    let rounded := decimal (roundedQuotient n (Nat.pow 10 (digits.length - count)))
    (rounded.take count, exponent + (rounded.length - count))

/-- The places after the point; the point is left out with them unless it is to be kept. -/
def places (keep : Bool) (digits : List Char) : List Char :=
  if digits = [] ∧ !keep then [] else '.' :: digits

def exponentText (mark : Char) (exponent : Nat) : List Char :=
  mark :: '+' :: padded 2 exponent

def fixed (keep : Bool) (count n : Nat) : List Char :=
  decimal n ++ places keep (List.replicate count '0')

def scientific (keep : Bool) (mark : Char) (count n : Nat) : List Char :=
  let (digits, exponent) := significant (count + 1) n
  digits.take 1 ++ places keep (digits.drop 1) ++ exponentText mark exponent

/-- Zeros at the end are left out unless the point is to be kept. -/
def general (keep : Bool) (mark : Char) (count n : Nat) : List Char :=
  let (digits, exponent) := significant (max count 1) n
  let trimmed (ds : List Char) : List Char :=
    places keep (if keep then ds else (ds.reverse.dropWhile (· = '0')).reverse)
  if exponent < max count 1 then digits.take (exponent + 1) ++ trimmed (digits.drop (exponent + 1))
  else digits.take 1 ++ trimmed (digits.drop 1) ++ exponentText mark exponent

end Notation
end TreeSelect.Text
