import Mathlib.Data.List.Infix
import TreeSelect.Matching.Chain
import TreeSelect.Proofs.EncodedText
import TreeSelect.Proofs.QueryChain
import TreeSelect.Proofs.TextRange

namespace TreeSelect.Tree
open Text Text.Utf8

/-- An offset into the bytes of a text that lies between two of its characters. -/
def OnBoundary (s : List Char) (offset : Nat) : Prop :=
  ∃ before, before <+: s ∧ (encode before).length = offset

/-- The ends of a node lie between characters, in order, and its points are those of its ends. -/
structure Label.Placed (s : List Char) (l : Label) : Prop where
  start : OnBoundary s l.start
  stop : OnBoundary s l.stop
  ordered : l.start ≤ l.stop
  startPoint : l.startPoint = pointAt (encode s) l.start
  stopPoint : l.stopPoint = pointAt (encode s) l.stop

instance (s : List Char) (offset : Nat) : Decidable (OnBoundary s offset) :=
  decidable_of_iff (∃ before ∈ s.inits, (encode before).length = offset) (by
    simp only [List.mem_inits, OnBoundary])

instance (s : List Char) (l : Label) : Decidable (l.Placed s) :=
  decidable_of_iff (OnBoundary s l.start ∧ OnBoundary s l.stop ∧ l.start ≤ l.stop ∧
      l.startPoint = pointAt (encode s) l.start ∧ l.stopPoint = pointAt (encode s) l.stop)
    ⟨fun ⟨h1, h2, h3, h4, h5⟩ => ⟨h1, h2, h3, h4, h5⟩,
      fun ⟨h1, h2, h3, h4, h5⟩ => ⟨h1, h2, h3, h4, h5⟩⟩

/-- The bytes of the last line stand at the end, and nowhere or behind a line feed. -/
theorem exists_encode_eq_append (before : List Char) :
    ∃ head, encode before = head ++ encode (lastRow before) ∧
      10 ∉ encode (lastRow before) ∧ head.reverse.takeWhile (· ≠ 10) = [] := by
  obtain ⟨hfree, hbefore⟩ := exists_eq_append_lastRow before
  have hnone : 10 ∉ encode (lastRow before) := by
    rw [← List.count_eq_zero, count_encode, List.count_eq_zero]
    exact hfree
  rcases hbefore with h | ⟨front, h⟩
  · rw [← h] at hnone ⊢
    exact ⟨[], rfl, hnone, rfl⟩
  · have hfeed : encodeChar '\n' = [10] := rfl
    refine ⟨encode front ++ [10], ?_, hnone, ?_⟩
    · rw [List.append_assoc, ← hfeed, ← encode_cons, ← encode_append, ← h]
    · rw [List.reverse_append, List.reverse_singleton, List.singleton_append,
        List.takeWhile_cons_of_neg (by decide)]

/-- The point of a place: the lines before it, and the bytes before it in its own line. -/
theorem pointAt_encode (before after : List Char) :
    pointAt (encode (before ++ after)) (encode before).length =
      ⟨before.count '\n', (encode (lastRow before)).length⟩ := by
  obtain ⟨head, hbytes, hnone, hhead⟩ := exists_encode_eq_append before
  have htake : (encode (before ++ after)).take (encode before).length = encode before := by
    rw [encode_append, List.take_left]
  have hline : ∀ b ∈ (encode (lastRow before)).reverse, decide (b ≠ 10) = true := by
    intro b hb
    refine decide_eq_true ?_
    rintro rfl
    exact hnone (List.mem_reverse.mp hb)
  have hrun : (encode before).reverse.takeWhile (· ≠ 10) = (encode (lastRow before)).reverse := by
    rw [hbytes, List.reverse_append, List.takeWhile_append_of_pos hline, hhead, List.append_nil]
  have hlen : (encode before).length = head.length + (encode (lastRow before)).length := by
    rw [← List.length_append, ← hbytes]
  simp only [pointAt, htake, count_encode, hrun, List.length_reverse, Point.mk.injEq, true_and]
  omega

/-- A column in bytes is told as one in characters. -/
theorem charColumn_encode (before after : List Char) :
    charColumn (encode (before ++ after)) (encode before).length (encode (lastRow before)).length =
      (lastRow before).length := by
  obtain ⟨head, hbytes, -, -⟩ := exists_encode_eq_append before
  have hlen : (encode before).length = head.length + (encode (lastRow before)).length := by
    rw [← List.length_append, ← hbytes]
  have hstart : ((encode before).length : Int) - ((encode (lastRow before)).length : Int) =
      (head.length : Int) := by
    omega
  have hle : (encode before).length ≤ (encode (before ++ after)).length := by
    rw [encode_append, List.length_append]
    omega
  rw [charColumn, hstart, slice_natCast _ _ _ hle (by omega), encode_append, List.take_left, hbytes,
    List.drop_left, decode_encode]

theorem position_of_point (before after : List Char) (p : Point)
    (hp : p = pointAt (encode (before ++ after)) (encode before).length) :
    (⟨p.row + 1, charColumn (encode (before ++ after)) (encode before).length p.column⟩ : Position) =
      endOf before := by
  rw [hp, pointAt_encode, charColumn_encode, endOf, length_rows]

/-- A placed node covers a piece of the text, and its range begins and ends with that piece. -/
theorem exists_code (s : List Char) (n : Node) (h : n.label.Placed s) :
    ∃ before code after, s = before ++ code ++ after ∧
      n.label.start = (encode before).length ∧ n.label.stop = (encode (before ++ code)).length ∧
      n.text (encode s) = code ∧ n.range (encode s) = ⟨endOf before, endOf (before ++ code)⟩ := by
  obtain ⟨before, hbefore, hstart⟩ := h.start
  obtain ⟨before', hbefore', hstop⟩ := h.stop
  have hle : (encode before).length ≤ (encode before').length := by
    rw [hstart, hstop]
    exact h.ordered
  obtain ⟨code, rfl⟩ := prefix_of_length_encode_le s before before' hbefore hbefore' hle
  obtain ⟨after, rfl⟩ := hbefore'
  refine ⟨before, code, after, rfl, hstart.symm, hstop.symm, ?_, ?_⟩
  · have hbound : (encode (before ++ code)).length ≤ (encode (before ++ code ++ after)).length := by
      rw [encode_append _ after, List.length_append]
      omega
    rw [Node.text, ← hstart, ← hstop, slice_natCast _ _ _ hbound hle, encode_append _ after,
      List.take_left, encode_append, List.drop_left, decode_encode]
  · have hfirst : n.startPosition (encode (before ++ code ++ after)) = endOf before := by
      rw [Node.startPosition, ← hstart, List.append_assoc]
      apply position_of_point
      rw [h.startPoint, ← hstart, List.append_assoc]
    have hlast : n.stopPosition (encode (before ++ code ++ after)) = endOf (before ++ code) := by
      rw [Node.stopPosition, ← hstop]
      apply position_of_point
      rw [h.stopPoint, ← hstop]
    rw [Node.range, hfirst, hlast]

/-- The text of a placed node is the text in its range. -/
theorem textIn_range (s : List Char) (n : Node) (h : n.label.Placed s) :
    textIn (rows s) (n.range (encode s)) = n.text (encode s) := by
  obtain ⟨before, code, after, rfl, -, -, hcode, hrange⟩ := exists_code s n h
  rw [hrange, hcode]
  exact textIn_endOf before code after

/-- Placed nodes with one range cover the same bytes. -/
theorem range_eq_iff (s : List Char) (n n' : Node) (h : n.label.Placed s) (h' : n'.label.Placed s) :
    n.range (encode s) = n'.range (encode s) ↔
      n.label.start = n'.label.start ∧ n.label.stop = n'.label.stop := by
  obtain ⟨before, code, after, hs, hstart, hstop, -, hrange⟩ := exists_code s n h
  obtain ⟨before', code', after', hs', hstart', hstop', -, hrange'⟩ := exists_code s n' h'
  have hplace : before <+: s := ⟨code ++ after, by rw [hs, List.append_assoc]⟩
  have hplace' : before' <+: s := ⟨code' ++ after', by rw [hs', List.append_assoc]⟩
  have hend : before ++ code <+: s := ⟨after, hs.symm⟩
  have hend' : before' ++ code' <+: s := ⟨after', hs'.symm⟩
  constructor
  · intro he
    rw [hrange, hrange', Range.mk.injEq] at he
    have hfirst := endOf_injective s before before' hplace hplace' he.1
    have hlast := endOf_injective s _ _ hend hend' he.2
    rw [hstart, hstop, hstart', hstop', hlast, hfirst]
    exact ⟨rfl, rfl⟩
  · rintro ⟨hfirst, hlast⟩
    have hpoint : n.label.startPoint = n'.label.startPoint := by
      rw [h.startPoint, h'.startPoint, hfirst]
    have hpoint' : n.label.stopPoint = n'.label.stopPoint := by
      rw [h.stopPoint, h'.stopPoint, hlast]
    simp only [Node.range, Node.startPosition, Node.stopPosition, hfirst, hlast, hpoint, hpoint']

/-- The lines of a range are lines of the text, and do not go backwards. -/
theorem lines_of_range (s : List Char) (n : Node) (h : n.label.Placed s) :
    1 ≤ (n.range (encode s)).start.line ∧
      (n.range (encode s)).start.line ≤ (n.range (encode s)).stop.line ∧
      (n.range (encode s)).stop.line ≤ (rows s).length := by
  obtain ⟨before, code, after, rfl, -, -, -, hrange⟩ := exists_code s n h
  rw [hrange]
  simp only [endOf, length_rows, List.count_append]
  omega

end TreeSelect.Tree

namespace TreeSelect.Matching
open TreeSelect.Tree Text Text.Utf8

/-- The code of a match is the text in its range. Matches have one range exactly when they cover the
same bytes, and in a text without carriage returns the lines of a range are those of the text. -/
theorem code_eq_textIn (s : List Char) (root : Node) (l : Selector.SelectorList)
    (h : ∀ n ∈ root.nodes, n.label.Placed s) :
    (∀ m ∈ query (encode s) root l true, m.code = some (String.ofList (textIn (rows s) m.range))) ∧
      (∀ e ∈ select (encode s) root.index l, ∀ e' ∈ select (encode s) root.index l,
        (matchOf (encode s) true e.node).range = (matchOf (encode s) true e'.node).range ↔
          e.node.label.start = e'.node.label.start ∧ e.node.label.stop = e'.node.label.stop) ∧
      ('\r' ∉ s → lines s = rows s ∧ ∀ m ∈ query (encode s) root l true,
        1 ≤ m.range.start.line ∧ m.range.start.line ≤ m.range.stop.line ∧
          m.range.stop.line ≤ (lines s).length) := by
  have hplaced : ∀ e ∈ select (encode s) root.index l, e.node.label.Placed s := by
    intro e he
    apply h
    apply node_mem_of_mem_index
    exact (select_sublist (encode s) root.index l).subset he
  refine ⟨?_, ?_, ?_⟩
  · intro m hm
    obtain ⟨e, he, rfl⟩ := List.mem_map.mp hm
    have htext := textIn_range s e.node (hplaced e he)
    simp only [matchOf, Node.textString, if_true, htext]
  · intro e he e' he'
    exact range_eq_iff s e.node e'.node (hplaced e he) (hplaced e' he')
  · intro hreturn
    have hlines := lines_eq_rows s hreturn
    refine ⟨hlines, ?_⟩
    intro m hm
    obtain ⟨e, he, rfl⟩ := List.mem_map.mp hm
    rw [hlines]
    exact lines_of_range s e.node (hplaced e he)

/-- A text with characters of one to four bytes and a value over two lines. -/
def accentedText : List Char := "é = \"λ\nπ😀\";".toList

def accentedNode (type : String) (start stop : Nat) (children : List Node) : Node :=
  ⟨⟨type, start, stop, pointAt (encode accentedText) start, pointAt (encode accentedText) stop, none,
    true, false, false, false⟩, children⟩

def accentedTree : Node :=
  accentedNode "program" 0 17 [accentedNode "identifier" 0 2 [], accentedNode "string" 5 16 []]

def stringSelector : Selector.SelectorList :=
  ⟨[⟨⟨some "string", [], []⟩, []⟩]⟩

theorem code_accentedTree :
    (∀ n ∈ accentedTree.nodes, n.label.Placed accentedText) ∧
      query (encode accentedText) accentedTree stringSelector true =
        [⟨"string", none, ⟨⟨1, 4⟩, ⟨2, 3⟩⟩, some "\"λ\nπ😀\""⟩] ∧
      some "\"λ\nπ😀\"" =
        some (String.ofList (textIn (rows accentedText) ⟨⟨1, 4⟩, ⟨2, 3⟩⟩)) := by
  have hplaced : ∀ n ∈ accentedTree.nodes, n.label.Placed accentedText := by decide +kernel
  have hquery : query (encode accentedText) accentedTree stringSelector true =
      [⟨"string", none, ⟨⟨1, 4⟩, ⟨2, 3⟩⟩, some "\"λ\nπ😀\""⟩] := by
    decide +kernel
  obtain ⟨hcode, -, -⟩ := code_eq_textIn accentedText accentedTree stringSelector hplaced
  refine ⟨hplaced, hquery, ?_⟩
  exact hcode ⟨"string", none, ⟨⟨1, 4⟩, ⟨2, 3⟩⟩, some "\"λ\nπ😀\""⟩ (by rw [hquery]; simp)

end TreeSelect.Matching
