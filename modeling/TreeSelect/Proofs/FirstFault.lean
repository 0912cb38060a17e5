import Mathlib.Data.Prod.Lex
import TreeSelect.Proofs.MatchRange
import TreeSelect.Source.Query

namespace TreeSelect.Tree
open Text Text.Utf8

/-- A node with a fault in its tree is marked; other nodes may be marked as well. -/
def Node.TellsFaults (n : Node) : Prop :=
  n.nodes.any Node.isFault = true → n.label.hasError = true

instance (n : Node) : Decidable n.TellsFaults :=
  inferInstanceAs (Decidable (_ → _))

theorem nodes_eq (n : Node) : n.nodes = n :: nodesAmong n.children := by
  cases n
  rw [Node.nodes, Node.children]

theorem mem_nodes_self (n : Node) : n ∈ n.nodes := by
  rw [nodes_eq]
  exact List.mem_cons_self

theorem nodesAmong_append (cs ds : List Node) :
    nodesAmong (cs ++ ds) = nodesAmong cs ++ nodesAmong ds := by
  induction cs with
  | nil => rfl
  | cons c cs ih => rw [List.cons_append, nodesAmong, nodesAmong, ih, List.append_assoc]

/-- A subtree that is passed over has no fault. -/
theorem find?_nodes_of_not_isSuspect (n : Node) (ht : n.TellsFaults) (hs : n.isSuspect = false) :
    n.nodes.find? Node.isFault = none := by
  rw [Node.isSuspect, Bool.or_eq_false_iff] at hs
  rw [List.find?_eq_none]
  intro m hm hfault
  have hmarked := ht (List.any_eq_true.mpr ⟨m, hm, hfault⟩)
  rw [hs.1] at hmarked
  exact Bool.false_ne_true hmarked

theorem mem_nodesAmong_filter (p : Node → Bool) (cs : List Node) (n : Node)
    (h : n ∈ nodesAmong (cs.filter p)) : n ∈ nodesAmong cs := by
  induction cs with
  | nil => exact h
  | cons c cs ih =>
    rw [nodesAmong, List.mem_append]
    rw [List.filter_cons] at h
    split at h
    · rw [nodesAmong, List.mem_append] at h
      exact h.imp_right ih
    · exact Or.inr (ih h)

theorem find?_nodesAmong_filter (cs : List Node) (h : ∀ n ∈ nodesAmong cs, n.TellsFaults) :
    (nodesAmong (cs.filter Node.isSuspect)).find? Node.isFault =
      (nodesAmong cs).find? Node.isFault := by
  induction cs with
  | nil => rfl
  | cons c cs ih =>
    rw [nodesAmong] at h
    have hcs := ih fun n hn => h n (List.mem_append_right _ hn)
    rw [List.filter_cons, nodesAmong, List.find?_append]
    -- a child that is dropped has no fault that could come first
    split
    next => rw [nodesAmong, List.find?_append, hcs]
    next hs =>
      have hc : c.TellsFaults := h c (List.mem_append_left _ (mem_nodes_self c))
      rw [find?_nodes_of_not_isSuspect c hc (Bool.eq_false_iff.mpr hs), Option.none_or, hcs]

/-- The search comes upon the first fault of all nodes in the trees that wait. These nodes, tree by
tree, are what is left to be searched, and each step takes the first of them away. -/
theorem faultAmong_eq_find? (waiting : List Node) (h : ∀ n ∈ nodesAmong waiting, n.TellsFaults) :
    faultAmong waiting = (nodesAmong waiting).find? Node.isFault := by
  induction waiting using faultAmong.induct with
  | case1 => rw [faultAmong, nodesAmong, List.find?_nil]
  | case2 n waiting hf =>
    rw [faultAmong, if_pos hf, nodesAmong, nodes_eq, List.cons_append, List.find?_cons_of_pos hf]
  | case3 n waiting hf ih =>
    -- the children that are dropped have no fault, so the first one is the same without them
    rw [nodesAmong, nodes_eq, List.cons_append] at h
    have hbelow : ∀ m ∈ nodesAmong n.children, m.TellsFaults := fun m hm =>
      h m (List.mem_cons_of_mem _ (List.mem_append_left _ hm))
    have hnext : ∀ m ∈ nodesAmong (n.children.filter Node.isSuspect ++ waiting), m.TellsFaults := by
      intro m hm
      rw [nodesAmong_append, List.mem_append] at hm
      rcases hm with hm | hm
      · exact hbelow m (mem_nodesAmong_filter _ _ m hm)
      · exact h m (List.mem_cons_of_mem _ (List.mem_append_right _ hm))
    rw [faultAmong, if_neg hf, ih hnext, nodesAmong_append, List.find?_append,
      find?_nodesAmong_filter _ hbelow, nodesAmong, nodes_eq, List.cons_append,
      List.find?_cons_of_neg hf, List.find?_append]

theorem firstFault_eq_find? (root : Node) (h : ∀ n ∈ root.nodes, n.TellsFaults) :
    root.firstFault = root.nodes.find? Node.isFault := by
  have hnodes : nodesAmong [root] = root.nodes := by
    rw [nodesAmong, nodesAmong, List.append_nil]
  rw [Node.firstFault]
  split
  next => rw [faultAmong_eq_find? [root] (hnodes ▸ h), hnodes]
  next hmark =>
    -- a root without a mark has no fault in its tree, so nothing is missed
    symm
    rw [List.find?_eq_none]
    intro n hn hf
    exact hmark (h root (mem_nodes_self root) (List.any_eq_true.mpr ⟨n, hn, hf⟩))

/-- Positions in the order of reading: by the line, and in a line by the column. -/
def Position.key (p : Position) : Nat ×ₗ Nat := toLex (p.line, p.column)

/-- What follows a text ends behind it. -/
theorem key_endOf_le (before more : List Char) : (endOf before).key ≤ (endOf (before ++ more)).key := by
  obtain ⟨front, hfront⟩ := exists_rows_concat before
  have hrows := rows_append before more front _ hfront
  have hline : (endOf before).line = front.length + 1 := by
    simp only [endOf, hfront, List.length_append, List.length_singleton]
  have hlines : (endOf (before ++ more)).line = front.length + (rows more).length := by
    simp only [endOf, hrows, List.length_append, List.length_modifyHead]
  obtain ⟨l, ls, hmore⟩ := List.exists_cons_of_ne_nil (rows_ne_nil more)
  rw [Position.key, Position.key, Prod.Lex.toLex_le_toLex]
  rw [hmore, List.length_cons] at hlines
  -- what follows either stays in the last line or begins a new one
  cases ls with
  | nil =>
    have hrow : lastRow (before ++ more) = lastRow before ++ l := by
      apply lastRow_of_concat _ _ front
      rw [hrows, hmore, List.modifyHead_cons]
    have hcolumn : (endOf before).column ≤ (endOf (before ++ more)).column := by
      simp only [endOf, hrow, List.length_append]
      omega
    right
    exact ⟨by rw [hline, hlines]; rfl, hcolumn⟩
  | cons m ls =>
    left
    rw [hline, hlines, List.length_cons]
    omega

/-- The start of a node lies between characters, and its point is that of its offset. -/
structure Label.Starts (s : List Char) (l : Label) : Prop where
  boundary : OnBoundary s l.start
  point : l.startPoint = pointAt (encode s) l.start

instance (s : List Char) (l : Label) : Decidable (l.Starts s) :=
  decidable_of_iff (OnBoundary s l.start ∧ l.startPoint = pointAt (encode s) l.start)
    ⟨fun ⟨h1, h2⟩ => ⟨h1, h2⟩, fun ⟨h1, h2⟩ => ⟨h1, h2⟩⟩

theorem exists_start (s : List Char) (n : Node) (h : n.label.Starts s) :
    ∃ before, before <+: s ∧ (encode before).length = n.label.start ∧
      n.startPosition (encode s) = endOf before := by
  obtain ⟨before, ⟨after, rfl⟩, hstart⟩ := h.boundary
  refine ⟨before, List.prefix_append before after, hstart, ?_⟩
  rw [Node.startPosition, ← hstart]
  apply position_of_point
  rw [h.point, ← hstart]

/-- A node that does not start after another is not told to. -/
theorem key_startPosition_le (s : List Char) (n m : Node) (hn : n.label.Starts s)
    (hm : m.label.Starts s) (hle : n.label.start ≤ m.label.start) :
    (n.startPosition (encode s)).key ≤ (m.startPosition (encode s)).key := by
  obtain ⟨before, hbefore, hstart, hpos⟩ := exists_start s n hn
  obtain ⟨before', hbefore', hstart', hpos'⟩ := exists_start s m hm
  -- both are prefixes of the text, so the shorter one is a prefix of the other
  obtain ⟨more, rfl⟩ := prefix_of_length_encode_le s before before' hbefore hbefore' (by omega)
  rw [hpos, hpos']
  exact key_endOf_le before more

/-- The message about a fault ends with its place. -/
theorem exists_faultMessage (source : List UInt8) (n : Node) :
    ∃ what, n.faultMessage source = what ++
      s!"({(n.startPosition source).line}:{(n.startPosition source).column})" := by
  rw [Node.faultMessage]
  split
  · refine ⟨s!"Missing \"{n.type}\" ", String.toList_inj.mp ?_⟩
    simp [toString]
  · refine ⟨"Unexpected token ", String.toList_inj.mp ?_⟩
    simp [toString]

end TreeSelect.Tree

namespace TreeSelect.Source
open Grammar TreeSelect.Tree Text.Utf8

theorem parse_of_request (supply : Supply) (loaded more : List Grammar) (reader : Reader)
    (text filename : String) (directory : Option String) (dialects : List String)
    (hg : request supply loaded (select filename dialects) = .ok more) :
    (parse supply loaded reader text filename directory dialects).2 =
      (accept reader text filename directory (select filename dialects)).mapError .malformed := by
  simp only [parse, hg]

theorem firstFault_eq_none_iff (root : Node) (h : ∀ n ∈ root.nodes, n.TellsFaults) :
    root.firstFault = none ↔ ∀ n ∈ root.nodes, n.isFault = false := by
  rw [firstFault_eq_find? root h, List.find?_eq_none]
  simp only [Bool.not_eq_true]

/-- In a tree whose nodes stand in order, the first fault begins before all others. -/
theorem start_le_of_firstFault (root n m : Node) (h : ∀ n ∈ root.nodes, n.TellsFaults)
    (hordered : root.nodes.Pairwise fun a b => a.label.start ≤ b.label.start)
    (hn : root.firstFault = some n) (hm : m ∈ root.nodes) (hf : m.isFault = true) :
    n.label.start ≤ m.label.start := by
  rw [firstFault_eq_find? root h, List.find?_eq_some_iff_append] at hn
  obtain ⟨_, before, after, hnodes, hbefore⟩ := hn
  rw [hnodes, List.pairwise_append, List.pairwise_cons] at hordered
  rw [hnodes, List.mem_append, List.mem_cons] at hm
  -- before the first fault there is none, and what stands behind it starts no earlier
  rcases hm with hm | rfl | hm
  · have hfree := hbefore m hm
    rw [hf] at hfree
    exact absurd hfree (by decide)
  · exact Nat.le_refl _
  · exact hordered.2.1.1 m hm

/-- A source is taken if its tree has no fault. Otherwise it is refused for the first one in document
order, which is told with its place; where the nodes stand in order, no fault has a place before. -/
theorem parse_by_faults (supply : Supply) (loaded more : List Grammar) (reader : Reader)
    (text filename : String) (directory : Option String) (dialects : List String) (root : Node)
    (hg : request supply loaded (select filename dialects) = .ok more)
    (hroot : reader (select filename dialects) text = root)
    (h : ∀ n ∈ root.nodes, n.TellsFaults) :
    root.firstFault = root.nodes.find? Node.isFault ∧
      (root.firstFault = none ↔ ∀ n ∈ root.nodes, n.isFault = false) ∧
      (∀ p, (parse supply loaded reader text filename directory dialects).2 = .ok p ↔
        (∀ n ∈ root.nodes, n.isFault = false) ∧
          p = ⟨root, encode text.toList, filename, select filename dialects⟩) ∧
      ((∃ n ∈ root.nodes, n.isFault = true) →
        ∃ e, (parse supply loaded reader text filename directory dialects).2 =
            .error (.malformed e) ∧
          (∃ n, root.firstFault = some n ∧ e.position = n.startPosition (encode text.toList)) ∧
          (∃ what, e.message = what ++ s!"({e.position.line}:{e.position.column})") ∧
          ((root.nodes.Pairwise fun a b => a.label.start ≤ b.label.start) →
            (∀ n ∈ root.nodes, n.label.Starts text.toList) →
            ∀ n ∈ root.nodes, n.isFault = true →
              e.position.key ≤ (n.startPosition (encode text.toList)).key)) := by
  have hparse := parse_of_request supply loaded more reader text filename directory dialects hg
  have hnone := firstFault_eq_none_iff root h
  refine ⟨firstFault_eq_find? root h, hnone, ?_, ?_⟩
  · intro p
    rw [hparse, accept, hroot, ← hnone]
    cases hfirst : root.firstFault with
    | none => simp [Except.mapError, eq_comm]
    | some n => simp [Except.mapError]
  · rintro ⟨n, hn, hf⟩
    cases hfirst : root.firstFault with
    | none =>
      rw [hnone.mp hfirst n hn] at hf
      exact absurd hf Bool.false_ne_true
    | some m =>
      rw [hparse, accept, hroot, hfirst]
      refine ⟨_, rfl, ⟨m, rfl, rfl⟩, exists_faultMessage _ m, ?_⟩
      intro hordered hstarts k hk hfault
      have hm : m ∈ root.nodes := by
        rw [firstFault_eq_find? root h] at hfirst
        exact List.mem_of_find?_eq_some hfirst
      apply key_startPosition_le text.toList m k (hstarts m hm) (hstarts k hk)
      exact start_le_of_firstFault root m k h hordered hfirst hk hfault

/-- A call that is not closed, with a stray sign in the line below it. -/
def brokenText : String := "f(é\n;)"

def brokenNode (type : String) (start stop : Nat) (missing hasError : Bool) (children : List Node) :
    Node :=
  ⟨⟨type, start, stop, pointAt (encode brokenText.toList) start,
    pointAt (encode brokenText.toList) stop, none, type ≠ ")", false, missing, hasError⟩, children⟩

/-- The name is marked although there is no fault in it. -/
def brokenTree : Node :=
  brokenNode "program" 0 7 false true [
    brokenNode "call_expression" 0 4 false true [
      brokenNode "identifier" 0 1 false true [], brokenNode ")" 4 4 true true []],
    brokenNode ";" 5 6 false false [], brokenNode "ERROR" 6 7 false true []]

theorem parse_brokenText :
    request .full [] (select "a.ts" defaultDialects) = .ok [.typescript] ∧
      (∀ n ∈ brokenTree.nodes, n.TellsFaults) ∧
      (brokenTree.nodes.Pairwise fun a b => a.label.start ≤ b.label.start) ∧
      (∀ n ∈ brokenTree.nodes, n.label.Starts brokenText.toList) ∧
      ∃ e, (parse .full [] (fun _ _ => brokenTree) brokenText "a.ts" none defaultDialects).2 =
          .error (.malformed e) ∧
        e.position = ⟨1, 3⟩ ∧ (∃ what, e.message = what ++ "(1:3)") ∧
        ∀ n ∈ brokenTree.nodes, n.isFault = true →
          e.position.key ≤ (n.startPosition (encode brokenText.toList)).key := by
  have hg : request .full [] (select "a.ts" defaultDialects) = .ok [.typescript] := by
    decide +kernel
  have htells : ∀ n ∈ brokenTree.nodes, n.TellsFaults := by decide +kernel
  have hordered : brokenTree.nodes.Pairwise fun a b => a.label.start ≤ b.label.start := by
    decide +kernel
  have hstarts : ∀ n ∈ brokenTree.nodes, n.label.Starts brokenText.toList := by decide +kernel
  have hfault : ∃ n ∈ brokenTree.nodes, n.isFault = true := by decide +kernel
  have hplace : (brokenTree.nodes.find? Node.isFault).map
      (·.startPosition (encode brokenText.toList)) = some ⟨1, 3⟩ := by
    decide +kernel
  obtain ⟨hfirst, -, -, hrefused⟩ := parse_by_faults .full [] [.typescript] (fun _ _ => brokenTree)
    brokenText "a.ts" none defaultDialects brokenTree hg rfl htells
  obtain ⟨e, he, ⟨n, hn, hposition⟩, hmessage, hleast⟩ := hrefused hfault
  rw [← hfirst, hn, Option.map_some, Option.some.injEq] at hplace
  rw [hposition, hplace] at hmessage
  exact ⟨hg, htells, hordered, hstarts, e, he, hposition.trans hplace, hmessage,
    hleast hordered hstarts⟩

end TreeSelect.Source
