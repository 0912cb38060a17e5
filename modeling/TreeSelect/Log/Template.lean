import TreeSelect.Log.Date
import TreeSelect.Log.Channel
import TreeSelect.Text.Character
import TreeSelect.Text.Notation
import TreeSelect.Text.Shown
import TreeSelect.Text.WordTable

/-! Templates for the lines of records. A slot of a template is a per cent sign, the name of a field
in parentheses, flags, a width, a precision and a letter that says how the value is shown. Templates
are filled from left to right, and the first fault ends the filling. -/
namespace TreeSelect.Log
open Text (Notation.fixed Notation.scientific Notation.general Notation.nearestDouble)

/-- What is wrong with a template, as a whole or when it is filled from a record. -/
inductive TemplateError where
  | noSlot (template : String)
  | nulInDate
  | unknownField (name : String)
  | openName
  | cutOff
  | widthTooBig
  | precisionTooBig
  | noValue
  | widthNotNumber
  | unknownLetter (letter : Char) (position : Nat)
  | notNumber (letter : Char) (kind : String)
  | notInteger (letter : Char) (kind : String)
  | notReal (kind : String)
  | notCharacter
  | characterOutOfRange
  | realOutOfRange
  deriving DecidableEq

def TemplateError.message : TemplateError → String
  | .noSlot template => s!"Invalid format '{template}' for '%' style"
  | .nulInDate => "embedded null character"
  | .unknownField name => "Formatting field not found in record: " ++ Text.quoted name
  | .openName => "incomplete format key"
  | .cutOff => "incomplete format"
  | .widthTooBig => "width too big"
  | .precisionTooBig => "precision too big"
  | .noValue => "not enough arguments for format string"
  | .widthNotNumber => "* wants int"
  | .unknownLetter letter position =>
    let sign := if 31 ≤ letter.toNat ∧ letter.toNat < 127 then letter else '?'
    let code := String.ofList (Nat.toDigits 16 letter.toNat)
    s!"unsupported format character '{sign}' (0x{code}) at index {position}"
  | .notNumber letter kind => s!"%{letter} format: a real number is required, not {kind}"
  | .notInteger letter kind => s!"%{letter} format: an integer is required, not {kind}"
  | .notReal kind => s!"must be real number, not {kind}"
  | .notCharacter => "%c requires int or char"
  | .characterOutOfRange => "%c arg not in range(0x110000)"
  | .realOutOfRange => "int too large to convert to float"

def isWordChar (c : Char) : Bool :=
  Text.inRanges Text.wordRanges c.toNat

def isFlag (c : Char) : Bool :=
  c == '#' || c == '0' || c == '+' || c == ' ' || c == '-'

/-- The letters of slots, in either case. The dotless and the dotted i and the long s count as well. -/
def isLetter (c : Char) : Bool :=
  "diouxefgcrsa%DIOUXEFGCRSA\u0130\u0131\u017f".toList.contains c

/-- A star or digits in front of a text are taken off. -/
def dropExtent : List Char → List Char
  | '*' :: r => r
  | r => r.dropWhile Text.isDigit

def startsSlot (cs : List Char) : Bool :=
  match cs with
  | '%' :: '(' :: r =>
    match r.takeWhile isWordChar, r.dropWhile isWordChar with
    | _ :: _, ')' :: r =>
      let r := dropExtent (r.dropWhile isFlag)
      let r :=
        match r with
        | '.' :: '*' :: r => r
        | '.' :: c :: r => if Text.isDigit c then r.dropWhile Text.isDigit else '.' :: c :: r
        | r => r
      r.head?.any isLetter
    | _, _ => false
  | _ => false

/-- A template must hold a slot somewhere, be it one that cannot be filled. -/
def holdsSlot : List Char → Bool
  | [] => false
  | c :: r => startsSlot (c :: r) || holdsSlot r

/-- What a slot shows: the value of a field, or, before any field is named, the whole record. -/
inductive Operand where
  | scalar (s : Scalar)
  | record

/-- When a record was made, in whole seconds and as its lines tell it. -/
structure Stamp where
  seconds : Int
  text : String

/-- A record stands in no program, carries no exception, and comes from the main thread. -/
def Record.field? (r : Record) (stamp : Stamp) (name : String) : Option Scalar :=
  match name with
  | "asctime" => some (.text stamp.text)
  | "created" => some (.number stamp.seconds)
  | "msecs" => some (.number 0)
  | "levelname" => some (.text (numberName r.level))
  | "levelno" => some (.number r.level)
  | "importance" => some r.rank
  | "message" | "msg" => some (.text r.message)
  | "exc_info" | "exc_text" | "stack_info" | "funcName" => some .nothing
  | "threadName" => some (.text "MainThread")
  | "processName" => some (.text "MainProcess")
  | _ => none

def Operand.kind : Operand → String
  | .scalar (.number _) => "int"
  | .scalar (.text _) => "str"
  | .scalar (.truth _) => "bool"
  | .scalar .nothing => "NoneType"
  | .record => "dict"

/-- The number that a value is or counts as. -/
def Operand.number? : Operand → Option Int
  | .scalar (.number n) => some n
  | .scalar (.truth b) => some (if b then 1 else 0)
  | _ => none

def Operand.shown : Operand → List Char
  | .scalar s => s.shown.toList
  | .record => "{...}".toList

/-- A value as it is written in a program: texts are quoted. -/
def Operand.written : Operand → List Char
  | .scalar (.text s) => Text.quotedChars s.toList
  | v => v.shown

structure Layout where
  left : Bool
  plus : Bool
  blank : Bool
  keep : Bool
  zeros : Bool
  width : Nat
  precision : Option Nat

def Layout.text (l : Layout) (cs : List Char) : List Char :=
  let blanks := List.replicate (l.width - cs.length) ' '
  if l.left then cs ++ blanks else blanks ++ cs

/-- A number: its sign, the mark of its base, and the digits. Zeros stand between mark and digits. -/
def Layout.number (l : Layout) (negative : Bool) (mark digits : List Char) : List Char :=
  let sign := if negative then ['-'] else if l.plus then ['+'] else if l.blank then [' '] else []
  let head := sign ++ mark
  let missing := l.width - (head.length + digits.length)
  if l.left then head ++ digits ++ List.replicate missing ' '
  else if l.zeros then head ++ List.replicate missing '0' ++ digits
  else List.replicate missing ' ' ++ head ++ digits

/-- The digits of an integer, filled up to the precision. -/
def Layout.integer (l : Layout) (n : Int) (mark digits : List Char) : List Char :=
  let missing := l.precision.getD 0 - digits.length
  l.number (n < 0) (if l.keep then mark else []) (List.replicate missing '0' ++ digits)

def Layout.based (l : Layout) (letter : Char) (n : Int) : List Char :=
  match letter with
  | 'o' => l.integer n ['0', 'o'] (Nat.toDigits 8 n.natAbs)
  | 'x' => l.integer n ['0', 'x'] (Nat.toDigits 16 n.natAbs)
  | 'X' => l.integer n ['0', 'X'] ((Nat.toDigits 16 n.natAbs).map Char.toUpper)
  | _ => l.integer n [] (Text.decimal n.natAbs)

def Layout.real (l : Layout) (letter : Char) (n : Int) : Except TemplateError (List Char) :=
  let size := Notation.nearestDouble n.natAbs
  let count := l.precision.getD 6
  if Nat.pow 2 1024 ≤ size then .error .realOutOfRange
  else .ok (l.number (n < 0) [] (match letter with
    | 'f' | 'F' => Notation.fixed l.keep count size
    | 'e' | 'E' => Notation.scientific l.keep letter count size
    | 'g' => Notation.general l.keep 'e' count size
    | _ => Notation.general l.keep 'E' count size))

def Layout.cut (l : Layout) (cs : List Char) : List Char :=
  match l.precision with
  | some count => cs.take count
  | none => cs

def characterOf (v : Operand) : Except TemplateError Char :=
  match v, v.number? with
  | .scalar (.text s), _ =>
    match s.toList with
    | [c] => .ok c
    | _ => .error .notCharacter
  | _, some n =>
    if 0 ≤ n ∧ n < 0x110000 then .ok (Char.ofNat n.toNat) else .error .characterOutOfRange
  | _, none => .error .notCharacter

/-- The text of a value by the letter of its slot. -/
def Layout.show_ (l : Layout) (letter : Char) (position : Nat) (v : Operand) :
    Except TemplateError (List Char) :=
  match letter with
  | 's' => .ok (l.text (l.cut v.shown))
  | 'r' => .ok (l.text (l.cut v.written))
  | 'a' => .ok (l.text (l.cut (Text.asciiChars v.written)))
  | 'c' => (characterOf v).map fun c => l.text [c]
  | 'd' | 'i' | 'u' =>
    match v.number? with
    | some n => .ok (l.based letter n)
    | none => .error (.notNumber letter v.kind)
  | 'o' | 'x' | 'X' =>
    match v.number? with
    | some n => .ok (l.based letter n)
    | none => .error (.notInteger letter v.kind)
  | 'e' | 'E' | 'f' | 'F' | 'g' | 'G' =>
    match v.number? with
    | some n => l.real letter n
    | none => .error (.notReal v.kind)
  | _ => .error (.unknownLetter letter position)

/-- The name in parentheses, which may hold further parentheses in pairs, and what follows it. -/
def nameOf (depth : Nat) : List Char → Option (List Char × List Char)
  | [] => none
  | ')' :: r =>
    match depth with
    | 0 => some ([], r)
    | depth + 1 => (nameOf depth r).map fun (name, rest) => (')' :: name, rest)
  | '(' :: r => (nameOf (depth + 1) r).map fun (name, rest) => ('(' :: name, rest)
  | c :: r => (nameOf depth r).map fun (name, rest) => (c :: name, rest)

def readDigits (cs : List Char) : Nat :=
  cs.foldl (fun n c => n * 10 + (c.toNat - '0'.toNat)) 0

/-- A width or a precision. A star takes it from the value of the slot, which is used up by that;
digits may count up to a limit. -/
def readExtent (limit : Nat) (tooBig : TemplateError) (value : Option Operand) (cs : List Char) :
    Except TemplateError (Option Nat × Option Operand × List Char) :=
  match cs with
  | '*' :: r =>
    match value with
    | none => .error .noValue
    | some v =>
      match v.number? with
      | none => .error .widthNotNumber
      | some n => .ok (some n.natAbs, none, r)
  | cs =>
    let digits := cs.takeWhile Char.isDigit
    if digits = [] then .ok (none, value, cs)
    else if limit < readDigits digits then .error tooBig
    else .ok (some (readDigits digits), value, cs.dropWhile Char.isDigit)

/-- The biggest width and the biggest precision. -/
def widthLimit : Nat := Nat.pow 2 63 - 1

def precisionLimit : Nat := Nat.pow 2 31 - 1

def readPrecision (value : Option Operand) :
    List Char → Except TemplateError (Option Nat × Option Operand × List Char)
  | '.' :: r => do
    let (precision, value, r) ← readExtent precisionLimit .precisionTooBig value r
    return (some (precision.getD 0), value, r)
  | cs => .ok (none, value, cs)

/-- Marks of size before the letter mean nothing. -/
def dropSize : List Char → List Char
  | 'h' :: r => r
  | 'l' :: r => r
  | 'L' :: r => r
  | r => r

/-- The value that a slot names, else the one that is left. -/
def readValue (r : Record) (stamp : Stamp) (value : Option Operand) :
    List Char → Except TemplateError (Option Operand × List Char)
  | '(' :: cs =>
    match nameOf 0 cs with
    | none => .error .openName
    | some (name, rest) =>
      match r.field? stamp (String.ofList name) with
      | some v => .ok (some (.scalar v), rest)
      | none => .error (.unknownField (String.ofList name))
  | cs => .ok (value, cs)

/-- Fills the slot whose per cent sign stands in front of the text: the text of the slot, the value
that is left, and what follows. `size` is the length of the template. -/
def fillSlot (r : Record) (stamp : Stamp) (size : Nat) (value : Option Operand) (cs : List Char) :
    Except TemplateError (List Char × Option Operand × List Char) := do
  let (value, cs) ← readValue r stamp value cs
  let flags := cs.takeWhile isFlag
  let (width, value, cs) ← readExtent widthLimit .widthTooBig value (cs.dropWhile isFlag)
  let (precision, value, cs) ← readPrecision value cs
  match dropSize cs with
  | [] => .error .cutOff
  | letter :: rest =>
    match value with
    | none => .error .noValue
    | some v =>
      let layout : Layout := ⟨flags.contains '-', flags.contains '+', flags.contains ' ',
        flags.contains '#', flags.contains '0', width.getD 0, precision⟩
      let text ← layout.show_ letter (size - rest.length - 1) v
      return (text, none, rest)

def fillAll (r : Record) (stamp : Stamp) (size : Nat) :
    Nat → Option Operand → List Char → Except TemplateError (List Char)
  | 0, _, _ => .ok []
  | _ + 1, _, [] => .ok []
  | fuel + 1, value, '%' :: '%' :: cs => (fillAll r stamp size fuel value cs).map ('%' :: ·)
  | fuel + 1, value, '%' :: cs => do
    let (text, value, rest) ← fillSlot r stamp size value cs
    return text ++ (← fillAll r stamp size fuel value rest)
  | fuel + 1, value, c :: cs => (fillAll r stamp size fuel value cs).map (c :: ·)

/-- What an empty template stands for. -/
def messageTemplate : String := "%(message)s"

/-- How the lines of records look. -/
def standardTemplate : String :=
  "%(asctime)s | %(levelname)-8s | %(importance)s | %(message)s"

/-- Whether a template asks for the time. -/
def showsTime : List Char → Bool
  | [] => false
  | c :: r => "%(asctime)".toList.isPrefixOf (c :: r) || showsTime r

/-- The line of a record of some moment by a format for dates and a template. -/
def Record.fill (r : Record) (m : Moment) (date template : String) :
    Except TemplateError String :=
  let template := if template.isEmpty then messageTemplate else template
  let cs := template.toList
  if !holdsSlot cs then .error (.noSlot template)
  else if showsTime cs && date.toList.contains '\x00' then .error .nulInDate
  else
    let stamp : Stamp := ⟨m.seconds, String.ofList (formatMoment m date.toList)⟩
    (fillAll r stamp cs.length cs.length (some .record) cs).map String.ofList

end TreeSelect.Log
