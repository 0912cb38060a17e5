namespace TreeSelect.Text

def consFirst (c : Char) : List (List Char) → List (List Char)
  | [] => [[c]]
  | l :: ls => (c :: l) :: ls

/-- The pieces of a text between separators; there is always one more than separators. -/
def split (separator : Char) : List Char → List (List Char)
  | [] => [[]]
  | c :: r => if c = separator then [] :: split separator r else consFirst c (split separator r)

theorem consFirst_ne_nil (c : Char) (ls : List (List Char)) : consFirst c ls ≠ [] := by
  cases ls <;> simp [consFirst]

/-- The place a bound names in a list of `size` elements: a negative bound counts from the end,
and what lies outside the list is moved to its nearer end. -/
def clip (size : Nat) (bound : Int) : Nat :=
  if bound < 0 then (size + bound).toNat else min bound.toNat size

/-- The elements from `start` up to, but not including, `stop`. -/
def slice {α : Type} (xs : List α) (start stop : Int) : List α :=
  (xs.take (clip xs.length stop)).drop (clip xs.length start)

theorem slice_natCast {α : Type} (xs : List α) (a b : Nat) (hb : b ≤ xs.length) (h : a ≤ b) :
    slice xs a b = (xs.take b).drop a := by
  have hn (n : Nat) : ¬ ((n : Int) < 0) := by omega
  simp only [slice, clip, hn, if_false, Int.toNat_natCast]
  rw [Nat.min_eq_left hb, Nat.min_eq_left (Nat.le_trans h hb)]

/-- The lines of a text; there is always one more than there are line ends. -/
def lines : List Char → List (List Char)
  | [] => [[]]
  | '\n' :: r => [] :: lines r
  | '\r' :: '\n' :: r => [] :: lines r
  | c :: r => consFirst c (lines r)

/-- Joins lines with line feeds. -/
def unlines : List (List Char) → List Char
  | [] => []
  | [l] => l
  | l :: ls => l ++ '\n' :: unlines ls

/-- Turns every kind of line end into a line feed, a carriage return alone included. -/
def plainBreaks : List Char → List Char
  | [] => []
  | '\r' :: '\n' :: r => '\n' :: plainBreaks r
  | '\r' :: r => '\n' :: plainBreaks r
  | c :: r => c :: plainBreaks r

theorem lines_ne_nil (cs : List Char) : lines cs ≠ [] := by
  fun_cases lines cs <;> simp_all [consFirst_ne_nil]

end TreeSelect.Text
