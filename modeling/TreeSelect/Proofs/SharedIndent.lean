import Mathlib.Data.List.Forall2
import Mathlib.Data.List.TakeWhile
import Mathlib.Order.Bounds.Basic
import TreeSelect.Proofs.TextRange
import TreeSelect.Report.Frame
import TreeSelect.Text.Character

namespace TreeSelect.Text

/-- A line without the carriage return that would be read with the line feed behind it. -/
def dropReturn (l : List Char) : List Char :=
  if l.getLast? = some '\r' then l.dropLast else l

/-- The lines as they are read again from a text in which line feeds end them. -/
def dropReturns (ls : List (List Char)) : List (List Char) :=
  ls.dropLast.map dropReturn ++ ls.getLast?.toList

theorem dropReturns_cons (l : List Char) (ls : List (List Char)) (h : ls ≠ []) :
    dropReturns (l :: ls) = dropReturn l :: dropReturns ls := by
  obtain ⟨m, ms, rfl⟩ := List.exists_cons_of_ne_nil h
  rw [dropReturns, List.dropLast_cons_cons, List.getLast?_cons_cons, List.map_cons]
  rfl

theorem dropReturn_eq_self_iff (l : List Char) : dropReturn l = l ↔ l.getLast? ≠ some '\r' := by
  rw [dropReturn]
  split
  · next h =>
    refine iff_of_false ?_ (not_not_intro h)
    intro he
    have hpos : 0 < l.length := List.length_pos_iff.mpr (by rintro rfl; simp at h)
    have hlen := congrArg List.length he
    rw [List.length_dropLast] at hlen
    omega
  · next h => exact iff_of_true rfl h

theorem dropReturns_eq_self_iff (ls : List (List Char)) :
    dropReturns ls = ls ↔ ∀ l ∈ ls.dropLast, l.getLast? ≠ some '\r' := by
  induction ls with
  | nil => simp [dropReturns]
  | cons l ls ih =>
    by_cases hls : ls = []
    · simp [hls, dropReturns]
    · rw [dropReturns_cons l ls hls, List.dropLast_cons_of_ne_nil hls, List.forall_mem_cons, ← ih,
        ← dropReturn_eq_self_iff, List.cons.injEq]

theorem mem_of_mem_dropReturns (ls : List (List Char)) (m : List Char) (h : m ∈ dropReturns ls) :
    ∃ l ∈ ls, m = l ∨ m = dropReturn l := by
  rcases List.mem_append.mp h with h | h
  · obtain ⟨l, hl, rfl⟩ := List.mem_map.mp h
    exact ⟨l, List.dropLast_subset ls hl, .inr rfl⟩
  · exact ⟨m, List.mem_of_getLast? (Option.mem_toList.mp h), .inl rfl⟩

theorem mem_dropReturns (ls : List (List Char)) (l : List Char) (h : l ∈ ls) :
    l ∈ dropReturns ls ∨ dropReturn l ∈ dropReturns ls := by
  obtain ⟨front, last, rfl⟩ := (List.eq_nil_or_concat ls).resolve_left (List.ne_nil_of_mem h)
  rw [List.concat_eq_append] at h ⊢
  rw [dropReturns, List.dropLast_concat, List.getLast?_concat]
  rcases List.mem_append.mp h with h | h
  · exact .inr (List.mem_append_left _ (List.mem_map_of_mem h))
  · exact .inl (List.mem_append_right _ h)

theorem rows_feed (cs : List Char) : rows ('\n' :: cs) = [] :: rows cs := by
  rw [rows_cons, if_pos rfl]

/-- A first line of no characters, with another behind it, is ended by a line feed. -/
theorem head?_of_rows (cs : List Char) (ls : List (List Char)) (h : rows cs = [] :: ls)
    (hne : ls ≠ []) : cs.head? = some '\n' := by
  cases cs with
  | nil => exact absurd (List.cons.inj h).2.symm hne
  | cons c cs =>
    rw [rows_cons] at h
    split at h
    · next hc => rw [hc, List.head?_cons]
    · obtain ⟨l, ls', hl⟩ := List.exists_cons_of_ne_nil (rows_ne_nil cs)
      rw [hl, List.modifyHead_cons] at h
      exact absurd (List.cons.inj h).1 (List.cons_ne_nil c l)

theorem lines_eq_dropReturns (cs : List Char) : lines cs = dropReturns (rows cs) := by
  fun_induction lines cs with
  | case1 => rfl
  | case2 r ih =>
    rw [rows_feed, dropReturns_cons [] _ (rows_ne_nil r), ih]
    rfl
  | case3 r ih =>
    have hrows : rows ('\r' :: '\n' :: r) = ['\r'] :: rows r := by
      rw [rows_cons, if_neg (by decide), rows_feed, List.modifyHead_cons]
    rw [hrows, dropReturns_cons _ _ (rows_ne_nil r), ih]
    rfl
  | case4 c r hfeed hreturn ih =>
    obtain ⟨l, ls, hl⟩ := List.exists_cons_of_ne_nil (rows_ne_nil r)
    rw [rows_cons, if_neg hfeed, ih, hl, List.modifyHead_cons]
    by_cases hls : ls = []
    · rw [hls]
      rfl
    · rw [dropReturns_cons _ _ hls, dropReturns_cons _ _ hls, consFirst]
      cases l with
      | cons d l =>
        rw [dropReturn, dropReturn, List.getLast?_cons_cons, List.dropLast_cons_cons]
        split <;> rfl
      | nil =>
        -- a carriage return here would have been read together with the line feed
        have hc : c ≠ '\r' := by
          intro hc
          obtain ⟨r', hr⟩ := List.head?_eq_some_iff.mp (head?_of_rows r ls hl hls)
          exact hreturn r' hc hr
        rw [(dropReturn_eq_self_iff [c]).mpr (by simpa using hc)]
        rfl

theorem rows_unlines (ls : List (List Char)) (hne : ls ≠ []) (h : ∀ l ∈ ls, '\n' ∉ l) :
    rows (unlines ls) = ls := by
  rw [unlines_eq_intercalate, rows, split_eq_splitOn]
  exact List.splitOn_intercalate '\n' h hne

theorem lines_unlines (ls : List (List Char)) (hne : ls ≠ []) (h : ∀ l ∈ ls, '\n' ∉ l) :
    lines (unlines ls) = dropReturns ls := by
  rw [lines_eq_dropReturns, rows_unlines ls hne h]

theorem newline_not_mem_lines (cs l : List Char) (hl : l ∈ lines cs) : '\n' ∉ l := by
  rw [lines_eq_dropReturns] at hl
  obtain ⟨m, hm, hml⟩ := mem_of_mem_dropReturns (rows cs) l hl
  have hfree : '\n' ∉ m := not_mem_of_mem_split '\n' cs m hm
  rcases hml with rfl | rfl
  · exact hfree
  · rw [dropReturn]
    split
    · exact fun hmem => hfree (List.dropLast_subset m hmem)
    · exact hfree

theorem filter_unlines (p : Char → Bool) (hp : p '\n' = false) (ls : List (List Char)) :
    (unlines ls).filter p = ls.flatMap (List.filter p) := by
  fun_induction unlines ls with
  | case1 => rfl
  | case2 l => simp
  | case3 l ls hne ih =>
    rw [List.filter_append, List.filter_cons_of_neg (by simp [hp]), ih, List.flatMap_cons]

theorem filter_lines (p : Char → Bool) (hn : p '\n' = false) (hr : p '\r' = false)
    (cs : List Char) : (lines cs).flatMap (List.filter p) = cs.filter p := by
  fun_induction lines cs with
  | case1 => rfl
  | case2 r ih =>
    rw [List.flatMap_cons, List.filter_nil, List.nil_append, ih,
      List.filter_cons_of_neg (by simp [hn])]
  | case3 r ih =>
    rw [List.flatMap_cons, List.filter_nil, List.nil_append, ih,
      List.filter_cons_of_neg (by simp [hr]), List.filter_cons_of_neg (by simp [hn])]
  | case4 c r _ _ ih =>
    obtain ⟨l, ls, hl⟩ := List.exists_cons_of_ne_nil (lines_ne_nil r)
    rw [hl, List.flatMap_cons] at ih
    rw [hl, consFirst, List.flatMap_cons, List.filter_cons, List.filter_cons, ← ih]
    split <;> rfl

end TreeSelect.Text

namespace TreeSelect.Report
open Text

/-- The spaces and tabs that a line begins with. -/
def lead (line : List Char) : List Char := line.takeWhile isIndent

/-- The lines are indented with spaces alone or with tabs alone. -/
def Unmixed (ls : List (List Char)) : Prop :=
  (∀ l ∈ ls, ∀ c ∈ lead l, c = ' ') ∨ (∀ l ∈ ls, ∀ c ∈ lead l, c = '\t')

/-- What is left of a line if some characters are taken away from its beginning, where it begins with
them. -/
def TakenFrom (front l d : List Char) : Prop :=
  l = front ++ d ∨ (¬front <+: l ∧ d = l)

theorem isIndent_iff (c : Char) : isIndent c = true ↔ c = ' ' ∨ c = '\t' := by
  simp [isIndent]

theorem lead_prefix_self (l : List Char) : lead l <+: l := List.takeWhile_prefix isIndent

theorem length_lead (l : List Char) : (lead l).length = indentation l := rfl

theorem lead_append (front d : List Char) (h : ∀ c ∈ front, isIndent c = true) :
    lead (front ++ d) = front ++ lead d :=
  List.takeWhile_append_of_pos h

theorem lead_dropReturn (l : List Char) : lead (dropReturn l) = lead l := by
  rw [dropReturn]
  split
  · next h =>
    obtain ⟨d, rfl⟩ := List.getLast?_eq_some_iff.mp h
    have hstop : ['\r'].takeWhile isIndent = [] := by decide
    rw [List.dropLast_concat, lead, lead, List.takeWhile_append, hstop, List.append_nil]
    split
    · next hall => exact List.IsPrefix.eq_of_length (List.takeWhile_prefix isIndent) hall
    · rfl
  · rfl

theorem isLeast_commonIndentation (ls : List (List Char)) (hne : ls ≠ []) :
    IsLeast {n | ∃ l ∈ ls, indentation l = n} (commonIndentation ls) := by
  fun_induction commonIndentation ls with
  | case1 => contradiction
  | case2 l => simp [IsLeast, lowerBounds]
  | case3 l ls hls ih =>
    obtain ⟨⟨k, hk, heq⟩, hle⟩ := ih hls
    constructor
    · rcases Nat.le_total (indentation l) (commonIndentation ls) with h | h
      · exact ⟨l, List.mem_cons_self, (Nat.min_eq_left h).symm⟩
      · exact ⟨k, List.mem_cons_of_mem l hk, by rw [heq, Nat.min_eq_right h]⟩
    · rintro n ⟨j, hj, rfl⟩
      rcases List.mem_cons.mp hj with rfl | hj
      · exact Nat.min_le_left _ _
      · exact (Nat.min_le_right _ _).trans (hle ⟨j, hj, rfl⟩)

theorem indentUnit_eq (ls : List (List Char)) :
    indentUnit ls = if ∃ l ∈ ls, l.head? = some '\t' then '\t' else ' ' := by
  simp [indentUnit]

theorem isIndent_indentUnit (ls : List (List Char)) : isIndent (indentUnit ls) = true := by
  rw [indentUnit]
  split <;> rfl

theorem takenFrom_unindent (unit : Char) (count : Nat) (l : List Char) :
    TakenFrom (List.replicate count unit) l (unindent unit count l) := by
  rw [unindent]
  split
  · next h =>
    obtain ⟨d, rfl⟩ := List.isPrefixOf_iff_prefix.mp h
    refine .inl ?_
    rw [List.drop_left' List.length_replicate]
  · next h => exact .inr ⟨fun hp => h (List.isPrefixOf_iff_prefix.mpr hp), rfl⟩

theorem dedentLines_ne_nil (ls : List (List Char)) (h : ls ≠ []) : dedentLines ls ≠ [] := by
  simpa [dedentLines] using h

theorem rows_dedent (text : List Char) : rows (dedent text) = dedentLines (lines text) := by
  apply rows_unlines _ (dedentLines_ne_nil _ (lines_ne_nil text))
  intro d hd
  obtain ⟨l, hl, rfl⟩ := List.mem_map.mp hd
  have hfree := newline_not_mem_lines text l hl
  rcases takenFrom_unindent (indentUnit (lines text)) (commonIndentation (lines text)) l with h | h
  · rw [h] at hfree
    exact fun hmem => hfree (List.mem_append_right _ hmem)
  · rwa [h.2]

theorem indentation_takenFrom (front l d : List Char) (hf : ∀ c ∈ front, isIndent c = true)
    (h : l = front ++ d) : indentation l = front.length + indentation d := by
  have hlead := lead_append front d hf
  rw [← h] at hlead
  have hlen := congrArg List.length hlead
  rwa [List.length_append] at hlen

theorem getLast?_takenFrom (front l d : List Char) (c : Char)
    (hf : ∀ c ∈ front, isIndent c = true) (hc : isIndent c = false) (h : TakenFrom front l d) :
    d.getLast? = some c ↔ l.getLast? = some c := by
  rcases h with rfl | ⟨-, rfl⟩
  · rw [List.getLast?_append]
    cases hd : d.getLast? with
    | some e => rfl
    | none =>
      rw [Option.none_or]
      refine iff_of_false (by simp) fun hlast => ?_
      rw [hf c (List.mem_of_getLast? hlast)] at hc
      contradiction
  · rfl

theorem isIndent_of_mem_replicate (ls : List (List Char)) (n : Nat) :
    ∀ c ∈ List.replicate n (indentUnit ls), isIndent c = true := by
  intro c hc
  rw [List.eq_of_mem_replicate hc]
  exact isIndent_indentUnit ls

theorem lead_eq_replicate (unit : Char) (l : List Char) (h : ∀ c ∈ lead l, c = unit) :
    lead l = List.replicate (indentation l) unit :=
  List.eq_replicate_iff.mpr ⟨rfl, h⟩

theorem head?_eq_head?_lead (l : List Char) (h : lead l ≠ []) : l.head? = (lead l).head? := by
  obtain ⟨d, hd⟩ := lead_prefix_self l
  obtain ⟨c, r, hcons⟩ := List.exists_cons_of_ne_nil h
  conv_lhs => rw [← hd]
  rw [hcons]
  rfl

theorem mem_lead (l : List Char) (c : Char) (h : c ∈ lead l) : c = ' ' ∨ c = '\t' :=
  (isIndent_iff c).mp (List.mem_takeWhile_imp h)

theorem mem_lead_of_head? (l : List Char) (c : Char) (hc : isIndent c = true)
    (h : l.head? = some c) : c ∈ lead l := by
  obtain ⟨r, rfl⟩ := List.head?_eq_some_iff.mp h
  rw [lead, List.takeWhile_cons_of_pos hc]
  exact List.mem_cons_self

theorem indentUnit_of_lead (ls : List (List Char)) (unit : Char) (hunit : unit = ' ' ∨ unit = '\t')
    (h : ∀ l ∈ ls, ∀ c ∈ lead l, c = unit) (l : List Char) (hl : l ∈ ls) (hlead : lead l ≠ []) :
    indentUnit ls = unit := by
  rw [indentUnit_eq]
  rcases hunit with rfl | rfl
  · refine if_neg ?_
    rintro ⟨k, hk, hhead⟩
    exact absurd (h k hk '\t' (mem_lead_of_head? k '\t' rfl hhead)) (by decide)
  · refine if_pos ⟨l, hl, ?_⟩
    obtain ⟨c, r, hcons⟩ := List.exists_cons_of_ne_nil hlead
    rw [head?_eq_head?_lead l hlead, hcons, List.head?_cons,
      h l hl c (hcons ▸ List.mem_cons_self)]

theorem unit_of_unmixed (ls : List (List Char)) (h : Unmixed ls) (l : List Char) (hl : l ∈ ls)
    (hlead : lead l ≠ []) : lead l = List.replicate (indentation l) (indentUnit ls) := by
  rcases h with h | h
  · rw [indentUnit_of_lead ls ' ' (.inl rfl) h l hl hlead]
    exact lead_eq_replicate ' ' l (h l hl)
  · rw [indentUnit_of_lead ls '\t' (.inr rfl) h l hl hlead]
    exact lead_eq_replicate '\t' l (h l hl)

/-- Where tabs and spaces are not mixed, every line begins with the shared characters. -/
theorem shared_prefix_of_unmixed (ls : List (List Char)) (h : Unmixed ls) (l : List Char) (hl : l ∈ ls) :
    List.replicate (commonIndentation ls) (indentUnit ls) <+: l := by
  have hle : commonIndentation ls ≤ indentation l :=
    (isLeast_commonIndentation ls (List.ne_nil_of_mem hl)).2 ⟨l, hl, rfl⟩
  -- a line without indentation says nothing of the unit, but then nothing is shared
  by_cases hlead : lead l = []
  · have hzero : indentation l = 0 := congrArg List.length hlead
    rw [hzero, Nat.le_zero] at hle
    rw [hle]
    exact List.nil_prefix
  · refine List.IsPrefix.trans ?_ (lead_prefix_self l)
    rw [unit_of_unmixed ls h l hl hlead]
    obtain ⟨more, hmore⟩ := Nat.exists_eq_add_of_le hle
    rw [hmore]
    exact ⟨List.replicate more _, List.replicate_append_replicate⟩

/-- Where tabs and spaces are not mixed, some line is left without indentation. -/
theorem exists_flush (ls : List (List Char)) (hne : ls ≠ []) (h : Unmixed ls) :
    ∃ d ∈ dedentLines ls, indentation d = 0 := by
  obtain ⟨l, hl, hleast⟩ := (isLeast_commonIndentation ls hne).1
  refine ⟨_, List.mem_map_of_mem hl, ?_⟩
  rcases takenFrom_unindent (indentUnit ls) (commonIndentation ls) l with htaken | htaken
  · have hlen := indentation_takenFrom _ l _ (isIndent_of_mem_replicate ls _) htaken
    rw [List.length_replicate] at hlen
    omega
  · exact absurd (shared_prefix_of_unmixed ls h l hl) htaken.1

theorem length_unindent_le (unit : Char) (count : Nat) (l : List Char) :
    (unindent unit count l).length ≤ l.length := by
  rw [unindent]
  split
  · rw [List.length_drop]
    omega
  · exact le_rfl

/-- If shortened lines are again the lines of before, the carriage returns were still there. -/
theorem eq_of_map_dropReturns (f : List Char → List Char) (hf : ∀ l, (f l).length ≤ l.length)
    (ls : List (List Char)) (h : (dropReturns ls).map f = ls) : dropReturns ls = ls := by
  induction ls with
  | nil => rfl
  | cons l ls ih =>
    by_cases hls : ls = []
    · rw [hls]
      rfl
    · rw [dropReturns_cons l ls hls] at h ⊢
      rw [List.map_cons, List.cons.injEq] at h
      have hl : dropReturn l = l := by
        have hshort := hf (dropReturn l)
        rw [h.1] at hshort
        rw [dropReturn] at hshort ⊢
        split at hshort
        · next hlast =>
          obtain ⟨d, rfl⟩ := List.getLast?_eq_some_iff.mp hlast
          rw [List.dropLast_concat, List.length_append, List.length_singleton] at hshort
          omega
        · next hlast => exact if_neg hlast
      rw [hl, ih h.2]

/-- Taking the shared indentation away for a second time changes nothing, exactly if no line has a
carriage return that would be lost, and the indentation that is left is not shared again. -/
theorem dedent_dedent_eq_iff (text : List Char) :
    dedent (dedent text) = dedent text ↔
      (∀ l ∈ (lines text).dropLast, l.getLast? ≠ some '\r') ∧
        dedentLines (rows (dedent text)) = rows (dedent text) := by
  have hreturns : dropReturns (rows (dedent text)) = rows (dedent text) ↔
      ∀ l ∈ (lines text).dropLast, l.getLast? ≠ some '\r' := by
    rw [dropReturns_eq_self_iff, rows_dedent, dedentLines, ← List.map_dropLast]
    simp only [List.forall_mem_map]
    refine forall₂_congr fun l _ => not_congr ?_
    exact getLast?_takenFrom _ l _ '\r' (isIndent_of_mem_replicate (lines text) _) rfl
      (takenFrom_unindent _ _ l)
  have hlines := lines_eq_dropReturns (dedent text)
  rw [← hreturns]
  constructor
  · intro h
    have hrows := congrArg rows h
    rw [rows_dedent (dedent text), hlines] at hrows
    -- a line that lost its carriage return would be shorter than it was
    have hsame := eq_of_map_dropReturns _ (length_unindent_le _ _) _ hrows
    rw [hsame] at hrows
    exact ⟨hsame, hrows⟩
  · intro h
    obtain ⟨hsame, hagain⟩ := h
    rw [dedent, hlines, hsame, hagain, unlines_rows]

theorem dedentLines_eq_self (ls : List (List Char))
    (h : ∀ l ∈ ls, commonIndentation ls = 0 ∨
      ¬List.replicate (commonIndentation ls) (indentUnit ls) <+: l) : dedentLines ls = ls := by
  rw [dedentLines]
  refine (List.map_congr_left fun l hl => ?_).trans (List.map_id ls)
  rcases takenFrom_unindent (indentUnit ls) (commonIndentation ls) l with htaken | htaken
  · rcases h l hl with hzero | hprefix
    · rw [hzero] at htaken ⊢
      exact htaken.symm
    · exact absurd ⟨_, htaken.symm⟩ hprefix
  · exact htaken.2

theorem filter_dedentLines (p : Char → Bool) (hp : ∀ c, isIndent c = true → p c = false)
    (ls : List (List Char)) :
    (dedentLines ls).flatMap (List.filter p) = ls.flatMap (List.filter p) := by
  rw [dedentLines, List.flatMap_map]
  refine List.flatMap_congr fun l _ => ?_
  rcases takenFrom_unindent (indentUnit ls) (commonIndentation ls) l with h | h
  · have hnone : (List.replicate (commonIndentation ls) (indentUnit ls)).filter p = [] := by
      apply List.filter_eq_nil_iff.mpr
      intro c hc
      simp [hp c (isIndent_of_mem_replicate ls _ c hc)]
    conv_rhs => rw [h]
    rw [List.filter_append, hnone, List.nil_append]
  · rw [h.2]

/-- The lines of a text one by one, when the least indentation is taken away from them in tabs, if a line
begins with one, and in spaces otherwise. Each loses these characters if it begins with them, and no
other characters; a blank may be lost with a line end. If tabs and spaces are not mixed each line does
begin with them, so that some line is left without indentation and the others keep theirs as compared
with it; and then there is nothing more to take, unless a carriage return at the end of a line comes to
stand before a line feed. -/
theorem dedent_by_lines (text : List Char) (m : Nat) (unit : Char)
    (hm : IsLeast {n | ∃ l ∈ lines text, indentation l = n} m)
    (hu : unit = if ∃ l ∈ lines text, l.head? = some '\t' then '\t' else ' ') :
    List.Forall₂ (TakenFrom (List.replicate m unit)) (lines text) (rows (dedent text)) ∧
      (dedent text).filter (fun c => !isBlank c) = text.filter (fun c => !isBlank c) ∧
      (Unmixed (lines text) →
        List.Forall₂ (fun l d => l = List.replicate m unit ++ d ∧ indentation l = m + indentation d)
            (lines text) (rows (dedent text)) ∧
          (∃ d ∈ rows (dedent text), indentation d = 0) ∧
          ((∀ l ∈ lines text, l.getLast? ≠ some '\r') → dedent (dedent text) = dedent text)) := by
  have hne := lines_ne_nil text
  obtain rfl : m = commonIndentation (lines text) :=
    hm.unique (isLeast_commonIndentation (lines text) hne)
  obtain rfl : unit = indentUnit (lines text) := hu.trans (indentUnit_eq (lines text)).symm
  have htaken := takenFrom_unindent (indentUnit (lines text)) (commonIndentation (lines text))
  rw [rows_dedent]
  refine ⟨?_, ?_, fun hmixed => ⟨?_, ?_, fun hreturns => ?_⟩⟩
  · exact List.forall₂_map_right_iff.mpr (List.forall₂_same.mpr fun l _ => htaken l)
  · have hindent : ∀ c, isIndent c = true → (!isBlank c) = false := by
      intro c hc
      rcases (isIndent_iff c).mp hc with rfl | rfl <;> decide
    rw [dedent, filter_unlines _ (by decide), filter_dedentLines _ hindent,
      filter_lines _ (by decide) (by decide)]
  · refine List.forall₂_map_right_iff.mpr (List.forall₂_same.mpr fun l hl => ?_)
    rcases htaken l with h | h
    · have hlen := indentation_takenFrom _ l _ (isIndent_of_mem_replicate (lines text) _) h
      rw [List.length_replicate] at hlen
      exact ⟨h, hlen⟩
    · exact absurd (shared_prefix_of_unmixed (lines text) hmixed l hl) h.1
  · exact exists_flush (lines text) hne hmixed
  · refine (dedent_dedent_eq_iff text).mpr
      ⟨fun l hl => hreturns l (List.dropLast_subset _ hl), dedentLines_eq_self _ fun d hd => .inl ?_⟩
    obtain ⟨e, he, hzero⟩ := exists_flush (lines text) hne hmixed
    rw [← rows_dedent] at he
    have hle := (isLeast_commonIndentation _ (rows_ne_nil (dedent text))).2 ⟨e, he, hzero⟩
    exact Nat.le_zero.mp hle

def steppedText : List Char := "    a\r\n  b\n      c ".toList

theorem dedent_by_lines_steppedText :
    IsLeast {n | ∃ l ∈ lines steppedText, indentation l = n} 2 ∧
      (' ' = if ∃ l ∈ lines steppedText, l.head? = some '\t' then '\t' else ' ') ∧
      Unmixed (lines steppedText) ∧
      rows (dedent steppedText) = ["  a".toList, "b".toList, "    c ".toList] ∧
      dedent (dedent steppedText) = dedent steppedText := by
  have hlines : lines steppedText = ["    a".toList, "  b".toList, "      c ".toList] := by
    decide +kernel
  have hleast : IsLeast {n | ∃ l ∈ lines steppedText, indentation l = n} 2 := by
    have h := isLeast_commonIndentation _ (lines_ne_nil steppedText)
    rw [hlines] at h ⊢
    exact h
  have hunit : ' ' = if ∃ l ∈ lines steppedText, l.head? = some '\t' then '\t' else ' ' := by
    rw [hlines]
    decide
  have hunmixed : Unmixed (lines steppedText) := by
    rw [hlines]
    exact .inl (by simp [lead, isIndent])
  obtain ⟨-, -, hall⟩ := dedent_by_lines steppedText 2 ' ' hleast hunit
  obtain ⟨hrows, -, hagain⟩ := hall hunmixed
  refine ⟨hleast, hunit, hunmixed, ?_, hagain (by rw [hlines]; decide)⟩
  rw [hlines] at hrows
  obtain ⟨a, as, ⟨ha, -⟩, hrows, hds⟩ := List.forall₂_cons_left_iff.mp hrows
  obtain ⟨b, bs, ⟨hb, -⟩, hrows, has⟩ := List.forall₂_cons_left_iff.mp hrows
  obtain ⟨c, cs, ⟨hc, -⟩, hrows, hbs⟩ := List.forall₂_cons_left_iff.mp hrows
  rw [hds, has, hbs, List.forall₂_nil_left_iff.mp hrows]
  simp_all [List.replicate]

theorem lead_of_lines (cs w : List Char) (h : ∀ l ∈ lines cs, lead l = w) :
    ∀ l ∈ rows cs, lead l = w := by
  intro l hl
  rw [lines_eq_dropReturns] at h
  rcases mem_dropReturns (rows cs) l hl with hmem | hmem
  · exact h l hmem
  · rw [← lead_dropReturn]
    exact h _ hmem

/-- If all lines are left with the same indentation, a line that is indented the least had it before, and
so was not indented with the characters that were taken away. -/
theorem exists_kept (ls : List (List Char)) (w : List Char) (hne : ls ≠ [])
    (h : ∀ d ∈ dedentLines ls, lead d = w) (hw : w ≠ []) :
    ∃ l ∈ ls, lead l = w ∧ w.length = commonIndentation ls ∧
      ¬List.replicate (commonIndentation ls) (indentUnit ls) <+: l := by
  obtain ⟨l, hl, hleast⟩ := (isLeast_commonIndentation ls hne).1
  have hlead := h _ (List.mem_map_of_mem hl)
  rcases takenFrom_unindent (indentUnit ls) (commonIndentation ls) l with htaken | htaken
  · have hlen := indentation_takenFrom _ l _ (isIndent_of_mem_replicate ls _) htaken
    have hpos : 0 < w.length := List.length_pos_iff.mpr hw
    rw [← hlead, length_lead] at hpos
    rw [List.length_replicate] at hlen
    omega
  · rw [htaken.2] at hlead
    exact ⟨l, hl, hlead, by rw [← hlead]; exact hleast, htaken.1⟩

/-- Tabs alone are not left everywhere: a line that begins with as many of them would lose them. -/
theorem exists_ne_tab (ls : List (List Char)) (w : List Char) (hne : ls ≠ [])
    (h : ∀ d ∈ dedentLines ls, lead d = w) (hw : w ≠ []) : ∃ c ∈ w, c ≠ '\t' := by
  by_contra! htabs
  obtain ⟨l, hl, hlead, hlen, hnot⟩ := exists_kept ls w hne h hw
  have hall : w = List.replicate w.length '\t' := List.eq_replicate_iff.mpr ⟨rfl, htabs⟩
  obtain ⟨c, r, hcons⟩ := List.exists_cons_of_ne_nil hw
  have hhead : l.head? = some '\t' := by
    rw [head?_eq_head?_lead l (hlead ▸ hw), hlead, hcons, List.head?_cons,
      htabs c (hcons ▸ List.mem_cons_self)]
  rw [indentUnit_eq, if_pos ⟨l, hl, hhead⟩, ← hlen, ← hall, ← hlead] at hnot
  exact hnot (lead_prefix_self l)

theorem commonIndentation_of_lead (ls : List (List Char)) (w : List Char) (hne : ls ≠ [])
    (h : ∀ l ∈ ls, lead l = w) : commonIndentation ls = w.length := by
  obtain ⟨l, hl, hleast⟩ := (isLeast_commonIndentation ls hne).1
  rw [← hleast, ← length_lead, h l hl]

/-- Spaces that all lines have in common are taken away, and so they are not left. -/
theorem eq_nil_of_dedentLines_eq_self (ls : List (List Char)) (w : List Char) (hne : ls ≠ [])
    (h : ∀ l ∈ ls, lead l = w) (hspaces : '\t' ∉ w) (hself : dedentLines ls = ls) : w = [] := by
  have hunmixed : Unmixed ls := by
    refine .inl fun l hl c hc => (mem_lead l c hc).resolve_right ?_
    rintro rfl
    exact hspaces (h l hl ▸ hc)
  obtain ⟨d, hd, hzero⟩ := exists_flush ls hne hunmixed
  rw [hself] at hd
  rw [← length_lead, h d hd] at hzero
  exact List.length_eq_zero_iff.mp hzero

/-- Indentation of both kinds is no run of the unit, and so nothing of it is taken away. -/
theorem dedentLines_eq_self_of_both (ls : List (List Char)) (w : List Char)
    (h : ∀ l ∈ ls, lead l = w) (htab : '\t' ∈ w) (hother : ∃ c ∈ w, c ≠ '\t') :
    dedentLines ls = ls := by
  refine dedentLines_eq_self ls fun d hd => .inr fun hprefix => ?_
  have hlead : lead d <+: d := lead_prefix_self d
  rw [h d hd] at hlead
  rw [commonIndentation_of_lead ls w (List.ne_nil_of_mem hd) h] at hprefix
  have hall : List.replicate w.length (indentUnit ls) = w :=
    (List.prefix_of_prefix_length_le hprefix hlead (by rw [List.length_replicate])).eq_of_length
      List.length_replicate
  have htabs : '\t' = indentUnit ls := List.eq_of_mem_replicate (hall ▸ htab)
  obtain ⟨c, hc, hne⟩ := hother
  rw [← hall, ← htabs] at hc
  exact hne (List.eq_of_mem_replicate hc)

/-- A text whose lines are all left with the same indentation. Taking the shared indentation away again
changes nothing, exactly if no line has a carriage return that would be lost, and what is left is not
of spaces alone. Something is left only if tabs and spaces were mixed. -/
theorem dedent_dedent_of_uniform (text w : List Char) (h : ∀ l ∈ lines (dedent text), lead l = w) :
    (dedent (dedent text) = dedent text ↔
      (∀ l ∈ (lines text).dropLast, l.getLast? ≠ some '\r') ∧ (w = [] ∨ '\t' ∈ w)) ∧
      (w ≠ [] → ¬Unmixed (lines text)) := by
  have hrows := lead_of_lines (dedent text) w h
  have hdedent : ∀ d ∈ dedentLines (lines text), lead d = w := by
    rwa [← rows_dedent]
  have hne := rows_ne_nil (dedent text)
  constructor
  · rw [dedent_dedent_eq_iff]
    refine and_congr_right fun _ => ⟨fun hagain => ?_, fun hw => ?_⟩
    · by_cases htab : '\t' ∈ w
      · exact .inr htab
      · exact .inl (eq_nil_of_dedentLines_eq_self _ w hne hrows htab hagain)
    · rcases hw with rfl | htab
      · exact dedentLines_eq_self _ fun _ _ => .inl (commonIndentation_of_lead _ [] hne hrows)
      · exact dedentLines_eq_self_of_both _ w hrows htab
          (exists_ne_tab (lines text) w (lines_ne_nil text) hdedent (List.ne_nil_of_mem htab))
  · intro hw hunmixed
    obtain ⟨l, hl, -, -, hnot⟩ := exists_kept (lines text) w (lines_ne_nil text) hdedent hw
    exact hnot (shared_prefix_of_unmixed (lines text) hunmixed l hl)

/-- A tab and a space in both lines, behind two tabs in the first: the tabs are taken away, and what is
left is not shared. -/
theorem dedent_dedent_mixedRun :
    (∀ l ∈ lines (dedent "\t\t\t x\r\n\t y\r".toList), lead l = ['\t', ' ']) ∧
      dedent (dedent "\t\t\t x\r\n\t y\r".toList) = dedent "\t\t\t x\r\n\t y\r".toList := by
  have hlines : lines "\t\t\t x\r\n\t y\r".toList = ["\t\t\t x".toList, "\t y\r".toList] := by
    decide +kernel
  have huniform : ∀ l ∈ lines (dedent "\t\t\t x\r\n\t y\r".toList), lead l = ['\t', ' '] := by
    decide +kernel
  refine ⟨huniform, (dedent_dedent_of_uniform _ ['\t', ' '] huniform).1.mpr ⟨?_, .inr (by simp)⟩⟩
  rw [hlines]
  decide

/-- Spaces behind as many tabs are shared only when the tabs are gone; and a carriage return before a
line end is lost with it. -/
theorem dedent_twice_differs :
    ((∀ l ∈ lines (dedent "\t a\n b".toList), lead l = [' ']) ∧
      dedent "\t a\n b".toList = " a\n b".toList ∧
      dedent (dedent "\t a\n b".toList) = "a\nb".toList) ∧
      (∀ l ∈ lines (dedent "a\r\r\nb".toList), lead l = []) ∧
      dedent "a\r\r\nb".toList = "a\r\nb".toList ∧
      dedent (dedent "a\r\r\nb".toList) = "a\nb".toList := by
  decide +kernel

end TreeSelect.Report
