import TreeSelect.Log.Clock
import TreeSelect.Text.Case
import TreeSelect.Text.Notation

namespace TreeSelect.Log
open Text (padded)

inductive Filling where
  | zeros
  | blanks
  | none
  deriving DecidableEq

/-- What stands behind a per cent sign. The modifier has no meaning here. -/
structure Directive where
  filling : Option Filling
  capitals : Bool
  changed : Bool
  width : Nat
  modifier : Option Char
  letter : Char

/-- What a directive shows: a number in at least so many digits, a text with the case it changes to
when it is asked to, the distance of the time zone from universal time, or nothing that is known. -/
inductive Shown where
  | number (digits : Nat) (spaced : Bool) (n : Int)
  | text (cs : List Char) (changed : Option (List Char → List Char))
  | offset
  | unknown

def inCapitals (cs : List Char) : List Char := cs.map Char.toUpper

def inSmalls (cs : List Char) : List Char := cs.map Char.toLower

/-- The halves of a day. -/
def Moment.half (m : Moment) : List Char :=
  if m.hour < 12 then ['A', 'M'] else ['P', 'M']

def Moment.slashed (m : Moment) : List Char :=
  padded 2 m.month ++ '/' :: padded 2 m.day ++ '/' :: padded 2 (m.year % 100).toNat

def Moment.dashed (m : Moment) : List Char :=
  (toString m.year).toList ++ '-' :: padded 2 m.month ++ '-' :: padded 2 m.day

def Moment.hoursMinutes (m : Moment) : List Char :=
  padded 2 m.hour ++ ':' :: padded 2 m.minute

def Moment.time (m : Moment) : List Char :=
  m.hoursMinutes ++ ':' :: padded 2 m.second

def Moment.halfTime (m : Moment) : List Char :=
  padded 2 m.clockHour ++ ':' :: padded 2 m.minute ++ ':' :: padded 2 m.second ++ ' ' :: m.half

def Moment.full (m : Moment) : List Char :=
  let day := (toString m.day).toList
  m.weekdayName.take 3 ++ ' ' :: m.monthName.take 3 ++ ' ' ::
    (List.replicate (2 - day.length) ' ' ++ day) ++ ' ' :: m.time ++ ' ' :: (toString m.year).toList

def zoneName : List Char := ['U', 'T', 'C']

def shown (m : Moment) (letter : Char) : Shown :=
  match letter with
  | 'a' => .text (m.weekdayName.take 3) (some inCapitals)
  | 'A' => .text m.weekdayName (some inCapitals)
  | 'b' | 'h' => .text (m.monthName.take 3) (some inCapitals)
  | 'B' => .text m.monthName (some inCapitals)
  | 'c' => .text m.full none
  | 'C' => .number 1 false (m.year / 100)
  | 'd' => .number 2 false m.day
  | 'D' | 'x' => .text m.slashed none
  | 'e' => .number 2 true m.day
  | 'F' => .text m.dashed none
  | 'g' => .number 2 false (m.week.1 % 100)
  | 'G' => .number 1 false m.week.1
  | 'H' => .number 2 false m.hour
  | 'I' => .number 2 false m.clockHour
  | 'j' => .number 3 false m.yearday
  | 'k' => .number 2 true m.hour
  | 'l' => .number 2 true m.clockHour
  | 'm' => .number 2 false m.month
  | 'M' => .number 2 false m.minute
  | 'n' => .text ['\n'] none
  | 'p' => .text m.half (some inSmalls)
  | 'P' => .text (inSmalls m.half) none
  | 'r' => .text m.halfTime none
  | 'R' => .text m.hoursMinutes none
  | 's' => .text (toString m.seconds).toList none
  | 'S' => .number 2 false m.second
  | 't' => .text ['\t'] none
  | 'T' | 'X' => .text m.time none
  | 'u' => .number 1 false ((m.weekday + 6) % 7 + 1 : Nat)
  | 'U' => .number 2 false m.sundayWeek
  | 'V' => .number 2 false m.week.2
  | 'w' => .number 1 false m.weekday
  | 'W' => .number 2 false m.mondayWeek
  | 'y' => .number 2 false (m.year % 100)
  | 'Y' => .number 1 false m.year
  | 'z' => .offset
  | 'Z' => .text zoneName (some inSmalls)
  | '%' => .text ['%'] none
  | _ => .unknown

/-- The letters that a modifier may stand before. -/
def modifiable : Char → List Char
  | 'E' => "%CPRTXYZcnprstuxyz".toList
  | _ => "%BCGHIMPRSTUVWZbdeghjklmnprstuwyz".toList

def fillUp (d : Directive) (cs : List Char) : List Char :=
  List.replicate (d.width - cs.length) (if d.filling = some .zeros then '0' else ' ') ++ cs

def Directive.number (d : Directive) (digits : Nat) (spaced : Bool) (n : Int) : List Char :=
  let sign := if n < 0 then ['-'] else []
  let body := Text.decimal n.natAbs
  let missing := max digits d.width - (sign.length + body.length)
  match d.filling with
  | some .none => fillUp d (sign ++ body)
  | some .blanks => List.replicate missing ' ' ++ sign ++ body
  | some .zeros => sign ++ List.replicate missing '0' ++ body
  | none =>
    if spaced then List.replicate missing ' ' ++ sign ++ body
    else sign ++ List.replicate missing '0' ++ body

/-- A directive that is not known stands for itself. It is cased all the same if it asks for
capitals, as a short name of a month with an ill modifier does when its case is to change. -/
def Directive.itself (d : Directive) (written : List Char) : List Char :=
  if d.capitals || (d.changed && (d.letter == 'b' || d.letter == 'h')) then
    fillUp d (Text.capital (String.ofList written)).toList
  else fillUp d written

/-- The text of a directive of which it is given how it is written. -/
def Directive.text (d : Directive) (m : Moment) (written : List Char) : List Char :=
  if d.modifier.any fun e => !(modifiable e).contains d.letter then d.itself written
  else
    match shown m d.letter with
    | .number digits spaced n => d.number digits spaced n
    | .text cs changed =>
      fillUp d (match changed.filter fun _ => d.changed with
        | some change => change cs
        | none => if d.capitals ∧ d.letter ≠ 'P' then inCapitals cs else cs)
    | .offset => fillUp d ['+'] ++ d.number 4 false 0
    | .unknown => d.itself written

def isMark (c : Char) : Bool :=
  c == '_' || c == '-' || c == '0' || c == '^' || c == '#'

/-- The last mark that says how a directive is filled up. -/
def fillingOf (marks : List Char) : Option Filling :=
  (marks.reverse.findSome? fun
    | '_' => some .blanks
    | '-' => some .none
    | '0' => some .zeros
    | _ => none)

/-- Reads what follows a per cent sign. A directive that is cut off has no letter. Widths from
`limit` on are all the same. -/
def readDirective (limit : Nat) (cs : List Char) : Directive × List Char × List Char :=
  let marks := cs.takeWhile isMark
  let rest := cs.dropWhile isMark
  let digits := rest.takeWhile Char.isDigit
  let rest := rest.dropWhile Char.isDigit
  let width := digits.foldl (fun n c => min limit (n * 10 + (c.toNat - '0'.toNat))) 0
  let (modifier, rest) :=
    match rest with
    | 'E' :: r => (some 'E', r)
    | 'O' :: r => (some 'O', r)
    | r => (none, r)
  let (letter, rest) :=
    match rest with
    | c :: r => (c, r)
    | [] => ('\x00', [])
  (⟨fillingOf marks, marks.contains '^', marks.contains '#', width, modifier, letter⟩,
    '%' :: cs.take (cs.length - rest.length), rest)

def piecesAt (m : Moment) (limit : Nat) : Nat → List Char → List Char
  | 0, _ => []
  | _ + 1, [] => []
  | fuel + 1, '%' :: r =>
    let (d, written, rest) := readDirective limit r
    d.text m written ++ piecesAt m limit fuel rest
  | fuel + 1, c :: r => c :: piecesAt m limit fuel r

/-- How many characters a date may take: 256 for each of its format, in steps of powers of two. -/
def roomFor (format : List Char) : Nat :=
  256 * (max format.length 4).nextPowerOfTwo

/-- The text of a moment. One that takes too much room is left out. -/
def formatMoment (m : Moment) (format : List Char) : List Char :=
  let room := roomFor format
  let text := piecesAt m room format.length format
  if text.length < room then text else []

/-- How records are dated. -/
def standardDate : String := "%Y-%m-%d %H:%M:%S"

end TreeSelect.Log
