import TreeSelect.Proofs.SharedIndent
import TreeSelect.Report.Frame

namespace TreeSelect.Report
open Text

/-- The line of a number, counted from 1. -/
def lineAt (ls : List (List Char)) (number : Int) : Option (List Char) :=
  if 1 ≤ number then ls[(number - 1).toNat]? else none

/-- The lines of a source from the first to the last number of a frame. -/
def Frame.block (f : Frame) (ls : List (List Char)) : List (List Char) :=
  (ls.take f.last.toNat).drop (f.first - 1).toNat

/-- The text of a frame has a line for each of its numbers, the line of the source with that number
without some of its indentation. All lines lose the same if they are indented alike. -/
structure Frame.Shows (f : Frame) (ls : List (List Char)) : Prop where
  count : ((rows f.text).length : Int) = f.last - f.first + 1
  line : ∀ (i : Nat) (d : List Char), (rows f.text)[i]? = some d →
    ∃ removed, (∀ c ∈ removed, c = ' ' ∨ c = '\t') ∧
      lineAt ls (f.first + i) = some (removed ++ d)
  shared : Unmixed (f.block ls) → ∃ removed, (∀ c ∈ removed, c = ' ' ∨ c = '\t') ∧
    ∀ (i : Nat) (d : List Char), (rows f.text)[i]? = some d →
      lineAt ls (f.first + i) = some (removed ++ d)

theorem mem_unlines (ls : List (List Char)) (l : List Char) (c : Char) (hl : l ∈ ls) (hc : c ∈ l) :
    c ∈ unlines ls := by
  fun_induction unlines ls with
  | case1 => contradiction
  | case2 m => rwa [← List.mem_singleton.mp hl]
  | case3 m ls hne ih =>
    rcases List.mem_cons.mp hl with rfl | hl
    · exact List.mem_append_left _ hc
    · exact List.mem_append_right _ (List.mem_cons_of_mem _ (ih hl))

theorem return_not_mem_lines (cs l : List Char) (h : '\r' ∉ cs) (hl : l ∈ lines cs) : '\r' ∉ l := by
  rw [lines_eq_rows cs h] at hl
  intro hc
  have hmem := mem_unlines (rows cs) l '\r' hl hc
  rw [unlines_rows] at hmem
  exact h hmem

/-- Lines without line ends in them are read again as they were joined. -/
theorem lines_unlines_eq_self (ls : List (List Char)) (hne : ls ≠ []) (hn : ∀ l ∈ ls, '\n' ∉ l)
    (hr : ∀ l ∈ ls, '\r' ∉ l) : lines (unlines ls) = ls := by
  rw [lines_unlines ls hne hn, dropReturns_eq_self_iff]
  intro l hl hlast
  exact hr l (List.dropLast_subset ls hl) (List.mem_of_getLast? hlast)

theorem exists_of_getElem?_dedentLines (ls : List (List Char)) (i : Nat) (d : List Char)
    (h : (dedentLines ls)[i]? = some d) :
    ∃ l, ls[i]? = some l ∧
      TakenFrom (List.replicate (commonIndentation ls) (indentUnit ls)) l d := by
  rw [dedentLines, List.getElem?_map] at h
  obtain ⟨l, hl, rfl⟩ := Option.map_eq_some_iff.mp h
  exact ⟨l, hl, takenFrom_unindent _ _ l⟩

theorem eq_of_mem_replicate_indentUnit (ls : List (List Char)) (n : Nat) :
    ∀ c ∈ List.replicate n (indentUnit ls), c = ' ' ∨ c = '\t' := by
  intro c hc
  exact (isIndent_iff c).mp (isIndent_of_mem_replicate ls n c hc)

/-- A frame whose text is what is left of the lines between its numbers. -/
theorem Frame.shows_of_text (f : Frame) (ls : List (List Char)) (hfirst : 1 ≤ f.first)
    (hle : f.first ≤ f.last) (hlast : f.last ≤ ls.length)
    (htext : rows f.text = dedentLines (f.block ls)) : f.Shows ls := by
  have hline : ∀ (i : Nat) (l : List Char), (f.block ls)[i]? = some l →
      lineAt ls (f.first + i) = some l := by
    intro i l hl
    rw [Frame.block, List.getElem?_drop, List.getElem?_take] at hl
    split at hl
    · have hplace : (f.first + i - 1).toNat = (f.first - 1).toNat + i := by omega
      rw [lineAt, if_pos (by omega), hplace, hl]
    · contradiction
  constructor
  case count =>
    rw [htext, dedentLines, List.length_map, Frame.block, List.length_drop, List.length_take]
    omega
  case line =>
    intro i d hd
    rw [htext] at hd
    obtain ⟨l, hl, htaken⟩ := exists_of_getElem?_dedentLines _ i d hd
    rw [hline i l hl]
    rcases htaken with rfl | ⟨-, rfl⟩
    · exact ⟨_, eq_of_mem_replicate_indentUnit _ _, rfl⟩
    · exact ⟨[], by simp, rfl⟩
  case shared =>
    intro hmixed
    refine ⟨List.replicate (commonIndentation (f.block ls)) (indentUnit (f.block ls)),
      eq_of_mem_replicate_indentUnit _ _, fun i d hd => ?_⟩
    rw [htext] at hd
    obtain ⟨l, hl, htaken⟩ := exists_of_getElem?_dedentLines _ i d hd
    rw [hline i l hl]
    rcases htaken with rfl | ⟨hnot, -⟩
    · rfl
    · exact absurd (shared_prefix_of_unmixed _ hmixed l (List.mem_of_getElem? hl)) hnot

/-- The frame around a match in a source without carriage returns. It begins at the first line of the
match or before, and ends at its last line or behind, within the source, and shows these lines. -/
theorem frame_shows_match (text : List Char) (span : Span) (w : Window) (hr : '\r' ∉ text)
    (hstart : 1 ≤ span.startLine) (hspan : span.startLine ≤ span.stopLine)
    (hstop : span.stopLine ≤ (lines text).length) (ha : 1 ≤ w.above) (hb : 0 ≤ w.below) :
    (1 ≤ (frame (lines text) span w).first ∧
        (frame (lines text) span w).first ≤ span.startLine) ∧
      (span.stopLine ≤ (frame (lines text) span w).last ∧
        (frame (lines text) span w).last ≤ (lines text).length) ∧
      (frame (lines text) span w).Shows (lines text) := by
  have hfirst : (frame (lines text) span w).first = max (span.startLine - w.above) 0 + 1 := rfl
  have hlast : (frame (lines text) span w).last =
      min (span.stopLine + w.below) (lines text).length := rfl
  refine ⟨by omega, by omega, Frame.shows_of_text _ _ (by omega) (by omega) (by omega) ?_⟩
  -- the bounds of the slice are places in the source, so that it is the block
  have hslice : slice (lines text) (max (span.startLine - w.above) 0)
      (min (span.stopLine + w.below) (lines text).length) =
        (frame (lines text) span w).block (lines text) := by
    obtain ⟨a, ha'⟩ := Int.eq_ofNat_of_zero_le (Int.le_max_right (span.startLine - w.above) 0)
    obtain ⟨b, hb'⟩ : ∃ b : Nat, min (span.stopLine + w.below) (lines text).length = (b : Int) :=
      Int.eq_ofNat_of_zero_le (by omega)
    rw [ha', hb', slice_natCast _ a b (by omega) (by omega), Frame.block, hfirst, hlast, ha', hb']
    simp
  have hmem : ∀ l ∈ (frame (lines text) span w).block (lines text), l ∈ lines text := by
    intro l hl
    exact List.mem_of_mem_take (List.mem_of_mem_drop hl)
  have hne : (frame (lines text) span w).block (lines text) ≠ [] := by
    apply List.ne_nil_of_length_pos
    rw [Frame.block, List.length_drop, List.length_take]
    omega
  have htext : (frame (lines text) span w).text =
      dedent (unlines ((frame (lines text) span w).block (lines text))) := by
    rw [← hslice]
    rfl
  rw [htext, rows_dedent, lines_unlines_eq_self _ hne
    (fun l hl => newline_not_mem_lines text l (hmem l hl))
    (fun l hl => return_not_mem_lines text l hr (hmem l hl))]

def callText : List Char := "a;\n\tb(\n\t\tc,\n\t)".toList

/-- Lines 2 to 4; the window would reach a line behind the text. -/
theorem frame_shows_callText :
    '\r' ∉ callText ∧ (3 : Int) ≤ (lines callText).length ∧
      frame (lines callText) ⟨3, 2, 3, 5⟩ ⟨2, 5⟩ = ⟨"b(\n\tc,\n)".toList, 2, 4⟩ ∧
      ((1 ≤ (2 : Int) ∧ (2 : Int) ≤ 3) ∧ ((3 : Int) ≤ 4 ∧ (4 : Int) ≤ (lines callText).length) ∧
        Frame.Shows ⟨"b(\n\tc,\n)".toList, 2, 4⟩ (lines callText)) := by
  have hreturn : '\r' ∉ callText := by decide +kernel
  have hlength : (3 : Int) ≤ (lines callText).length := by decide +kernel
  have hframe : frame (lines callText) ⟨3, 2, 3, 5⟩ ⟨2, 5⟩ =
      ⟨"b(\n\tc,\n)".toList, 2, 4⟩ := by
    decide +kernel
  have hshows := frame_shows_match callText ⟨3, 2, 3, 5⟩ ⟨2, 5⟩ hreturn (by decide) (by decide)
    hlength (by decide) (by decide)
  rw [hframe] at hshows
  exact ⟨hreturn, hlength, hframe, hshows⟩

end TreeSelect.Report
