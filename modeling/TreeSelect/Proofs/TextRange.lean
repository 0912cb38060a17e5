import Mathlib.Tactic.WLOG
import TreeSelect.Proofs.PathText
import TreeSelect.Text.Cut
import TreeSelect.Tree.Node

namespace TreeSelect.Text
open TreeSelect.Tree (Position Range)

/-- The lines of a text that line feeds alone end. -/
def rows (cs : List Char) : List (List Char) := split '\n' cs

def lastRow (cs : List Char) : List Char := (rows cs).getLastD []

/-- The position of the place behind a text. -/
def endOf (cs : List Char) : Position := ⟨(rows cs).length, (lastRow cs).length⟩

/-- The lines with the last one cut off behind a number of characters. -/
def cutLast (column : Nat) : List (List Char) → List (List Char)
  | [] => []
  | [l] => [l.take column]
  | l :: ls => l :: cutLast column ls

/-- The text in a range: of the lines from the first to the last one of the range, what lies behind
its start and before its end. -/
def textIn (ls : List (List Char)) (r : Range) : List Char :=
  let between := (ls.drop (r.start.line - 1)).take (r.stop.line + 1 - r.start.line)
  unlines ((cutLast r.stop.column between).modifyHead (List.drop r.start.column))

theorem unlines_eq_intercalate (ls : List (List Char)) : unlines ls = ['\n'].intercalate ls := by
  induction ls with
  | nil => rfl
  | cons l ls ih =>
    cases ls with
    | nil => simp [unlines]
    | cons m ls =>
      rw [unlines, ih, List.intercalate_cons_cons, List.append_assoc]
      · rfl
      · simp

theorem unlines_rows (cs : List Char) : unlines (rows cs) = cs := by
  rw [unlines_eq_intercalate, rows, split_eq_splitOn, List.intercalate_splitOn]

theorem rows_ne_nil (cs : List Char) : rows cs ≠ [] := by
  rw [rows, split_eq_splitOn]
  exact List.splitOn_ne_nil '\n' cs

theorem rows_cons (c : Char) (cs : List Char) :
    rows (c :: cs) = if c = '\n' then [] :: rows cs else (rows cs).modifyHead (c :: ·) := by
  simp only [rows, split_eq_splitOn, List.splitOn_cons_eq_if_modifyHead, beq_iff_eq]

theorem length_rows (cs : List Char) : (rows cs).length = cs.count '\n' + 1 := by
  induction cs with
  | nil => rfl
  | cons c cs ih =>
    rw [rows_cons, List.count_cons]
    by_cases hc : c = '\n'
    · rw [if_pos hc, if_pos (beq_iff_eq.mpr hc), List.length_cons, ih]
    · rw [if_neg hc, if_neg (by simpa using hc), List.length_modifyHead, ih]

/-- Without carriage returns the two ways to end a line are one. -/
theorem lines_eq_rows (cs : List Char) (h : '\r' ∉ cs) : lines cs = rows cs := by
  induction cs with
  | nil => rfl
  | cons c cs ih =>
    have hcs : lines cs = rows cs := ih fun hmem => h (List.mem_cons_of_mem c hmem)
    have hc : c ≠ '\r' := fun he => h (he ▸ List.mem_cons_self)
    rw [rows_cons, ← hcs]
    by_cases hn : c = '\n'
    · subst hn
      rfl
    · rw [if_neg hn, lines]
      · obtain ⟨l, ls, hl⟩ := List.exists_cons_of_ne_nil (lines_ne_nil cs)
        rw [hl]
        rfl
      · exact hn
      · exact fun _ he => absurd he hc

theorem lastRow_of_concat (cs line : List Char) (front : List (List Char))
    (h : rows cs = front ++ [line]) : lastRow cs = line := by
  rw [lastRow, h, List.getLastD_concat]

theorem exists_rows_concat (cs : List Char) : ∃ front, rows cs = front ++ [lastRow cs] := by
  obtain ⟨front, line, h⟩ := (List.eq_nil_or_concat (rows cs)).resolve_left (rows_ne_nil cs)
  rw [List.concat_eq_append] at h
  exact ⟨front, lastRow_of_concat cs line front h ▸ h⟩

/-- What follows a text goes on in its last line. -/
theorem rows_append (cs ds : List Char) (front : List (List Char)) (line : List Char)
    (h : rows cs = front ++ [line]) :
    rows (cs ++ ds) = front ++ (rows ds).modifyHead (line ++ ·) := by
  induction cs generalizing front line with
  | nil =>
    have hempty : [[]] = front ++ [line] := h
    obtain ⟨rfl, rfl⟩ : front = [] ∧ line = [] := by simpa [List.singleton_eq_append_iff] using hempty
    exact (congrFun List.modifyHead_id (rows ds)).symm
  | cons c cs ih =>
    obtain ⟨l, ls, hl⟩ := List.exists_cons_of_ne_nil (rows_ne_nil cs)
    rw [rows_cons, hl] at h
    rw [List.cons_append, rows_cons]
    by_cases hc : c = '\n'
    · rw [if_pos hc] at h ⊢
      cases front with
      | nil => simp at h
      | cons f front =>
        obtain ⟨rfl, hrest⟩ := List.cons.inj h
        rw [ih front line (hl.trans hrest), List.cons_append]
    · rw [if_neg hc] at h ⊢
      cases front with
      | nil =>
        obtain ⟨rfl, rfl⟩ : c :: l = line ∧ ls = [] := by simpa using h
        rw [ih [] l hl, List.nil_append, List.nil_append, List.modifyHead_modifyHead]
        rfl
      | cons f front =>
        obtain ⟨rfl, hrest⟩ := List.cons.inj h
        rw [ih (l :: front) line (hl.trans (congrArg (l :: ·) hrest))]
        rfl

/-- The last line of a text has no line feed, and stands at the beginning or behind one. -/
theorem exists_eq_append_lastRow (cs : List Char) :
    '\n' ∉ lastRow cs ∧ (cs = lastRow cs ∨ ∃ head, cs = head ++ '\n' :: lastRow cs) := by
  by_cases hmem : '\n' ∈ cs
  · obtain ⟨line, head, he, hline⟩ := List.eq_append_cons_of_mem (List.mem_reverse.mpr hmem)
    have hcs : cs = head.reverse ++ '\n' :: line.reverse := by
      have hrev := congrArg List.reverse he
      simpa using hrev
    have hfree : '\n' ∉ line.reverse := fun h => hline (List.mem_reverse.mp h)
    have hlast : lastRow cs = line.reverse := by
      apply lastRow_of_concat cs _ (rows head.reverse)
      rw [hcs, rows, rows, split_eq_splitOn, split_eq_splitOn, List.splitOn_append_cons_self,
        List.splitOn_eq_singleton hfree]
    rw [hlast]
    exact ⟨hfree, .inr ⟨head.reverse, hcs⟩⟩
  · have hlast : lastRow cs = cs := by
      apply lastRow_of_concat cs cs []
      rw [rows, split_eq_splitOn, List.splitOn_eq_singleton hmem, List.nil_append]
    rw [hlast]
    exact ⟨hmem, .inl rfl⟩

theorem cutLast_concat (column : Nat) (ls : List (List Char)) (l : List Char) :
    cutLast column (ls ++ [l]) = ls ++ [l.take column] := by
  induction ls with
  | nil => rfl
  | cons m ls ih =>
    cases ls with
    | nil => rfl
    | cons n ls =>
      rw [List.cons_append, List.cons_append, cutLast, ← List.cons_append, ih]
      · rfl
      · simp

/-- The lines from the one that ends a text to the one that ends some code behind it. -/
theorem between_endOf (before code after l : List Char) (upper ls : List (List Char))
    (hcode : rows code = upper ++ [lastRow code]) (hafter : rows after = l :: ls) :
    ((rows (before ++ code ++ after)).drop ((endOf before).line - 1)).take
        ((endOf (before ++ code)).line + 1 - (endOf before).line) =
      (upper ++ [lastRow code ++ l]).modifyHead (lastRow before ++ ·) := by
  obtain ⟨front, hfront⟩ := exists_rows_concat before
  have hall : rows (before ++ code ++ after) =
      front ++ (upper ++ (lastRow code ++ l) :: ls).modifyHead (lastRow before ++ ·) := by
    rw [List.append_assoc, rows_append before _ front _ hfront,
      rows_append code _ upper _ hcode, hafter, List.modifyHead_cons]
  have hfirst : (endOf before).line = front.length + 1 := by
    simp only [endOf, hfront, List.length_append, List.length_singleton]
  have hlast : (endOf (before ++ code)).line = front.length + (upper.length + 1) := by
    simp only [endOf, rows_append before code front _ hfront, hcode, List.length_append,
      List.length_modifyHead, List.length_singleton]
  have hcount : front.length + (upper.length + 1) + 1 - (front.length + 1) =
      upper.length + 1 := by
    omega
  have htake : (upper ++ (lastRow code ++ l) :: ls).take (upper.length + 1) =
      upper ++ [lastRow code ++ l] := by
    rw [List.take_length_add_append, List.take_succ_cons, List.take_zero]
  rw [hfirst, hlast, hcount, Nat.add_sub_cancel, hall, List.drop_left, List.take_modifyHead, htake]

theorem cutLast_endOf (before code l : List Char) (upper : List (List Char))
    (hcode : rows code = upper ++ [lastRow code]) :
    cutLast (endOf (before ++ code)).column
        ((upper ++ [lastRow code ++ l]).modifyHead (lastRow before ++ ·)) =
      (rows code).modifyHead (lastRow before ++ ·) := by
  obtain ⟨front, hfront⟩ := exists_rows_concat before
  have hends : rows (before ++ code) =
      front ++ (upper ++ [lastRow code]).modifyHead (lastRow before ++ ·) := by
    rw [rows_append before code front _ hfront, hcode]
  rw [hcode]
  -- code without a line feed ends in the line in which it begins
  cases upper with
  | nil =>
    have hrow : lastRow (before ++ code) = lastRow before ++ lastRow code :=
      lastRow_of_concat _ _ front hends
    simp only [endOf, hrow, List.nil_append, List.modifyHead_cons, cutLast]
    rw [← List.append_assoc, List.take_left]
  | cons u upper =>
    have hrow : lastRow (before ++ code) = lastRow code := by
      apply lastRow_of_concat _ _ (front ++ (lastRow before ++ u) :: upper)
      rw [hends, List.cons_append, List.modifyHead_cons, List.append_assoc, List.cons_append]
    simp only [endOf, hrow, List.cons_append, List.modifyHead_cons]
    rw [← List.cons_append, cutLast_concat, List.take_left, List.cons_append]

/-- The text between two places of a text is the text in the range from the first to the second. -/
theorem textIn_endOf (before code after : List Char) :
    textIn (rows (before ++ code ++ after)) ⟨endOf before, endOf (before ++ code)⟩ = code := by
  obtain ⟨upper, hcode⟩ := exists_rows_concat code
  obtain ⟨l, ls, hafter⟩ := List.exists_cons_of_ne_nil (rows_ne_nil after)
  have hdrop : List.drop (endOf before).column ∘ (lastRow before ++ ·) = id := by
    funext line
    exact List.drop_left
  simp only [textIn, between_endOf before code after l upper ls hcode hafter,
    cutLast_endOf before code l upper hcode, List.modifyHead_modifyHead, hdrop, List.modifyHead_id,
    id, unlines_rows]

/-- Places of a text are told apart by their positions. -/
theorem endOf_injective (s before before' : List Char) (h : before <+: s) (h' : before' <+: s)
    (he : endOf before = endOf before') : before = before' := by
  wlog hle : before.length ≤ before'.length generalizing before before'
  · exact (this before' before h' h he.symm (Nat.le_of_not_le hle)).symm
  obtain ⟨code, rfl⟩ := List.prefix_of_prefix_length_le h h' hle
  -- the range between the two places is the empty one at the first
  have hcode := textIn_endOf before code []
  have hempty := textIn_endOf before [] code
  rw [List.append_nil] at hcode hempty
  rw [← he, hempty] at hcode
  rw [← hcode, List.append_nil]

end TreeSelect.Text
