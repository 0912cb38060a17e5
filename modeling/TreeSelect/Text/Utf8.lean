import TreeSelect.Text.Character

/-! UTF-8. `pieces` cuts bytes into characters and malformed runs, where a run is the longest start
of a sequence that could still have become a character, or one byte that starts none. Reading with
replacement and strict reading are both told from the pieces. -/
namespace TreeSelect.Text.Utf8

/-- The bytes of one character. -/
def encodeChar (c : Char) : List UInt8 :=
  let n := c.toNat
  if n < 0x80 then [.ofNat n]
  else if n < 0x800 then [.ofNat (0xC0 + n / 0x40), .ofNat (0x80 + n % 0x40)]
  else if n < 0x10000 then
    [.ofNat (0xE0 + n / 0x1000), .ofNat (0x80 + n / 0x40 % 0x40), .ofNat (0x80 + n % 0x40)]
  else
    [.ofNat (0xF0 + n / 0x40000), .ofNat (0x80 + n / 0x1000 % 0x40),
      .ofNat (0x80 + n / 0x40 % 0x40), .ofNat (0x80 + n % 0x40)]

def encode (cs : List Char) : List UInt8 :=
  cs.flatMap encodeChar

/-- Why a run of bytes is malformed. -/
inductive Reason where
  | start
  | continuation
  | truncated
  deriving DecidableEq

inductive Piece where
  | char (c : Char)
  | malformed (bytes : List UInt8) (reason : Reason)
  deriving DecidableEq

/-- A sequence that is not complete yet: its bytes, the value they carry, how many bytes it still
needs and the bounds of the next one. -/
structure Pending where
  bytes : List UInt8
  value : Nat
  need : Nat
  low : Nat
  high : Nat

/-- What a byte begins where no sequence is open. -/
def begin (b : UInt8) : Piece ⊕ Pending :=
  let n := b.toNat
  if n < 0x80 then .inl (.char (Char.ofNat n))
  else if n < 0xC2 then .inl (.malformed [b] .start)
  else if n < 0xE0 then .inr ⟨[b], n - 0xC0, 1, 0x80, 0xBF⟩
  else if n = 0xE0 then .inr ⟨[b], 0, 2, 0xA0, 0xBF⟩
  else if n = 0xED then .inr ⟨[b], 0xD, 2, 0x80, 0x9F⟩
  else if n < 0xF0 then .inr ⟨[b], n - 0xE0, 2, 0x80, 0xBF⟩
  else if n = 0xF0 then .inr ⟨[b], 0, 3, 0x90, 0xBF⟩
  else if n < 0xF4 then .inr ⟨[b], n - 0xF0, 3, 0x80, 0xBF⟩
  else if n = 0xF4 then .inr ⟨[b], 4, 3, 0x80, 0x8F⟩
  else .inl (.malformed [b] .start)

/-- The open sequence with one more byte: a character once nothing is needed any more. -/
def Pending.extend (p : Pending) (b : UInt8) : Piece ⊕ Pending :=
  let value := p.value * 0x40 + (b.toNat - 0x80)
  if p.need ≤ 1 then .inl (.char (Char.ofNat value))
  else .inr ⟨p.bytes ++ [b], value, p.need - 1, 0x80, 0xBF⟩

/-- The pieces of the bytes, the first of which continue the open sequence if there is one. -/
def pieces : Option Pending → List UInt8 → List Piece
  | none, [] => []
  | some p, [] => [.malformed p.bytes .truncated]
  | none, b :: r =>
    match begin b with
    | .inl piece => piece :: pieces none r
    | .inr p => pieces (some p) r
  | some p, b :: r =>
    if p.low ≤ b.toNat ∧ b.toNat ≤ p.high then
      match p.extend b with
      | .inl piece => piece :: pieces none r
      | .inr q => pieces (some q) r
    else
      .malformed p.bytes .continuation ::
        match begin b with
        | .inl piece => piece :: pieces none r
        | .inr q => pieces (some q) r

def Piece.toChar : Piece → Char
  | .char c => c
  | .malformed _ _ => '\uFFFD'

/-- Reads the bytes with the replacement character for each malformed run. -/
def decode (bs : List UInt8) : List Char :=
  (pieces none bs).map Piece.toChar

/-- The first malformed run of a text and the number of bytes before it. -/
structure Fault where
  position : Nat
  bytes : List UInt8
  reason : Reason
  deriving DecidableEq

def characters (position : Nat) : List Piece → Except Fault (List Char)
  | [] => .ok []
  | .char c :: ps => (characters (position + (encodeChar c).length) ps).map (c :: ·)
  | .malformed bytes reason :: _ => .error ⟨position, bytes, reason⟩

/-- Reads the bytes if they are well formed. -/
def decode? (bs : List UInt8) : Except Fault (List Char) :=
  characters 0 (pieces none bs)

def Reason.message : Reason → String
  | .start => "invalid start byte"
  | .continuation => "invalid continuation byte"
  | .truncated => "unexpected end of data"

/-- One byte is shown with its place, several with the places of the first and the last. -/
def Fault.message (f : Fault) : String :=
  let place :=
    match f.bytes with
    | [b] => "byte 0x" ++ String.ofList (hexDigits 2 b.toNat) ++ s!" in position {f.position}"
    | bs => s!"bytes in position {f.position}-{f.position + bs.length - 1}"
  s!"'utf-8' codec can't decode {place}: {f.reason.message}"

end TreeSelect.Text.Utf8
