namespace TreeSelect.Text

/-- A run that two texts have in common: where it begins in each, and its length. -/
structure Run where
  left : Nat
  right : Nat
  length : Nat

def sharedStart {α : Type} [BEq α] : List α → List α → Nat
  | a :: as, b :: bs => if a == b then sharedStart as bs + 1 else 0
  | _, _ => 0

/-- The longest common run; of several, the first in the left text, and there the first in the
right one. -/
def longestRun {α : Type} [BEq α] (as bs : List α) : Run :=
  let runs := (List.range as.length).flatMap fun i =>
    (List.range bs.length).map fun j => (⟨i, j, sharedStart (as.drop i) (bs.drop j)⟩ : Run)
  runs.foldl (fun best run => if best.length < run.length then run else best) ⟨0, 0, 0⟩

/-- How many elements the common runs have: the longest, then those on either side of it in both texts,
and so on to a depth of `fuel`. -/
def sharedCount {α : Type} [BEq α] : Nat → List α → List α → Nat
  | 0, _, _ => 0
  | fuel + 1, as, bs =>
    let run := longestRun as bs
    if run.length = 0 then 0
    else
      sharedCount fuel (as.take run.left) (bs.take run.right) + run.length +
        sharedCount fuel (as.drop (run.left + run.length)) (bs.drop (run.right + run.length))

/-- A candidate with the share of a word that it has in common with it, as a fraction. -/
structure Candidate where
  text : String
  shared : Nat
  total : Nat

def Candidate.of (word text : String) : Candidate :=
  ⟨text, 2 * sharedCount text.length text.toList word.toList, text.length + word.length⟩

/-- Candidates are alike from six tenths on. -/
def Candidate.isAlike (c : Candidate) : Bool :=
  6 * c.total ≤ 10 * c.shared

/-- Whether a candidate goes before another: by its share, then by its text, the last one first. -/
def Candidate.before (c d : Candidate) : Bool :=
  d.shared * c.total < c.shared * d.total ||
    (d.shared * c.total == c.shared * d.total && !(c.text < d.text))

/-- The three texts that are most like a word. -/
def alike (word : String) (texts : List String) : List String :=
  ((((texts.map (Candidate.of word)).filter Candidate.isAlike).mergeSort Candidate.before).take
    3).map Candidate.text

end TreeSelect.Text
