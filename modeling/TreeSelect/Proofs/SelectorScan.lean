import TreeSelect.Proofs.SelectorTokens

namespace TreeSelect.Selector
open Written

/-- Tokens that a draft takes one after the other, each of a kind that may come next. -/
inductive Takes : Draft → List Token → Draft → Prop
  | done (d : Draft) : Takes d [] d
  | next (d d' : Draft) (t : Token) (ts : List Token) (ht : t.kind ∈ d.cursor.accepts)
      (h : Takes (d.push t) ts d') : Takes d (t :: ts) d'

/-- Texts in which tokens stand in order, with gaps between them. -/
inductive Laid : List Token → List Char → Prop
  | done (gap : List Char) (hg : ∀ c ∈ gap, isGap c = true) : Laid [] gap
  | next (gap r : List Char) (t : Token) (ts : List Token) (hg : ∀ c ∈ gap, isGap c = true)
      (hw : t.Whole) (hs : t.Stops r) (h : Laid ts r) : Laid (t :: ts) (gap ++ (t.text ++ r))

theorem Takes.append {d d' d'' : Draft} {ts us : List Token} (h : Takes d ts d')
    (h' : Takes d' us d'') : Takes d (ts ++ us) d'' := by
  induction h with
  | done d => exact h'
  | next d e t ts ht _ ih => exact .next d d'' t (ts ++ us) ht (ih h')

theorem Takes.single (d : Draft) (t : Token) (h : t.kind ∈ d.cursor.accepts) :
    Takes d [t] (d.push t) :=
  .next d _ t [] h (.done _)

theorem Laid.whole (ts : List Token) (cs : List Char) (h : Laid ts cs) : ∀ t ∈ ts, t.Whole := by
  induction h with
  | done gap hg => simp
  | next gap r t ts hg hw hs _ ih => exact List.forall_mem_cons.mpr ⟨hw, ih⟩

theorem takeWhile_append_dropWhile_gap (cs : List Char) :
    ∃ gap, (∀ c ∈ gap, isGap c = true) ∧ cs = gap ++ cs.dropWhile isGap :=
  ⟨cs.takeWhile isGap, fun _ hc => List.mem_takeWhile_imp hc,
    List.takeWhile_append_dropWhile.symm⟩

/-- Texts in which a scan finds tokens in order: a bareword stands only where no quoted value does,
as that would be read in its place. -/
inductive Shown : List Token → List Char → Prop
  | done (gap : List Char) (hg : ∀ c ∈ gap, isGap c = true) : Shown [] gap
  | next (gap r : List Char) (t : Token) (ts : List Token) (hg : ∀ c ∈ gap, isGap c = true)
      (hw : t.Whole) (hs : t.Stops r)
      (hq : t.kind = .bareword → Kind.quoted.read (t.text ++ r) = none) (h : Shown ts r) :
      Shown (t :: ts) (gap ++ (t.text ++ r))

theorem Shown.laid (ts : List Token) (cs : List Char) (h : Shown ts cs) : Laid ts cs := by
  induction h with
  | done gap hg => exact .done gap hg
  | next gap r t ts hg hw hs _ _ ih => exact .next gap r t ts hg hw hs ih

theorem Laid.shown (ts : List Token) (cs : List Char) (h : Laid ts cs)
    (hb : ∀ t ∈ ts, t.kind ≠ .bareword) : Shown ts cs := by
  induction h with
  | done gap hg => exact .done gap hg
  | next gap r t ts hg hw hs _ ih =>
    have hq : t.kind = .bareword → Kind.quoted.read (t.text ++ r) = none :=
      fun hkind => absurd hkind (hb t (by simp))
    exact .next gap r t ts hg hw hs hq (ih fun u hu => hb u (List.mem_cons_of_mem t hu))

theorem scanFrom_of_none (d : Draft) (offset : Nat) (cs : List Char)
    (h : readFirst d.cursor.accepts (cs.dropWhile isGap) = none) :
    scanFrom d offset cs = ⟨[], d, cs.dropWhile isGap⟩ := by
  rw [scanFrom]
  split
  · rfl
  next hr =>
    rw [h] at hr
    contradiction

theorem scanFrom_of_some (d : Draft) (offset : Nat) (cs r : List Char) (t : Token)
    (h : readFirst d.cursor.accepts (cs.dropWhile isGap) = some (t, r)) :
    ∃ start later, scanFrom d offset cs = { scanFrom (d.push t) later r with
      lexemes := ⟨t, start⟩ :: (scanFrom (d.push t) later r).lexemes } := by
  rw [scanFrom]
  split
  next hr =>
    rw [h] at hr
    contradiction
  next t' r' hr =>
    rw [h] at hr
    cases hr
    exact ⟨_, _, rfl⟩

def Scan.tokens (s : Scan) : List Token := s.lexemes.map (·.token)

theorem quoted_none_of_append (cs ds : List Char) (h : Kind.quoted.read (cs ++ ds) = none) :
    Kind.quoted.read cs = none := by
  cases hr : Kind.quoted.read cs with
  | none => rfl
  | some x =>
    obtain ⟨t, r⟩ := x
    have hkind := (Kind.read_append hr).1
    rw [← hkind] at hr h
    obtain ⟨hw, -, htext⟩ := (Kind.read_eq_some_iff t cs r).mp hr
    have hstops : t.Stops (r ++ ds) := by
      cases t <;> simp [Token.kind] at hkind
      exact fun _ _ => rfl
    have hread : t.kind.read (cs ++ ds) = some (t, r ++ ds) :=
      (Kind.read_eq_some_iff t _ _).mpr ⟨hw, hstops, by rw [← List.append_assoc, htext]⟩
    rw [h] at hread
    contradiction

theorem Token.Stops.of_append (t : Token) (cs ds : List Char) (h : t.Stops (cs ++ ds)) :
    t.Stops cs := by
  cases cs with
  | nil => simp [Token.Stops]
  | cons c cs => exact h

/-- Where a scan stops. In front of that place are the tokens that the draft has taken, behind it is
neither a gap nor a token that could follow. -/
theorem exists_front_of_scanFrom (d : Draft) (offset : Nat) (cs : List Char) :
    ∃ front, cs = front ++ (scanFrom d offset cs).rest ∧
      Takes d (scanFrom d offset cs).tokens (scanFrom d offset cs).draft ∧
      Shown (scanFrom d offset cs).tokens front ∧
      readFirst (scanFrom d offset cs).draft.cursor.accepts (scanFrom d offset cs).rest = none ∧
      ∀ c ∈ (scanFrom d offset cs).rest.head?, isGap c = false := by
  obtain ⟨gap, hg, hcs⟩ := takeWhile_append_dropWhile_gap cs
  cases hr : readFirst d.cursor.accepts (cs.dropWhile isGap) with
  | none =>
    rw [scanFrom_of_none d offset cs hr]
    exact ⟨gap, hcs, .done d, .done gap hg, hr, head?_dropWhile_eq_false isGap cs⟩
  | some x =>
    obtain ⟨t, r⟩ := x
    obtain ⟨hkind, htext, hne⟩ := readFirst_append hr
    obtain ⟨k, -, hk⟩ := List.exists_of_findSome?_eq_some hr
    obtain ⟨rfl, -⟩ := Kind.read_append hk
    obtain ⟨hw, hs, -⟩ := (Kind.read_eq_some_iff t _ r).mp hk
    obtain ⟨start, later, hscan⟩ := scanFrom_of_some d offset cs r t hr
    rw [hscan]
    -- the induction is on the text, which a token shortens
    have hshort : r.length < cs.length := by
      have hlen := List.length_pos_iff.mpr hne
      rw [hcs, ← htext, List.length_append, List.length_append]
      omega
    obtain ⟨front, hfront, htakes, hshown, hstuck, hgap⟩ :=
      exists_front_of_scanFrom (d.push t) later r
    refine ⟨gap ++ (t.text ++ front), ?_, .next d _ t _ hkind htakes, ?_, hstuck, hgap⟩
    · calc
        cs = gap ++ (t.text ++ r) := by rw [htext]; exact hcs
        _ = gap ++ (t.text ++ (front ++ (scanFrom (d.push t) later r).rest)) := by rw [← hfront]
        _ = gap ++ (t.text ++ front) ++ (scanFrom (d.push t) later r).rest := by
          simp only [List.append_assoc]
    · rw [hfront] at hs
      refine .next gap front t _ hg hw (hs.of_append t front _) (fun hb => ?_) hshown
      refine quoted_none_of_append _ (scanFrom (d.push t) later r).rest ?_
      rw [List.append_assoc, ← hfront, htext]
      exact quoted_none_of_readFirst d.cursor t _ r hb hr
termination_by cs.length

/-- A scan that reads the whole text has found tokens that the draft takes and the text shows. -/
theorem shown_of_scanFrom (d : Draft) (offset : Nat) (cs : List Char)
    (h : (scanFrom d offset cs).rest = []) :
    Takes d (scanFrom d offset cs).tokens (scanFrom d offset cs).draft ∧
      Shown (scanFrom d offset cs).tokens cs := by
  obtain ⟨front, hfront, htakes, hshown, -⟩ := exists_front_of_scanFrom d offset cs
  rw [h, List.append_nil] at hfront
  rw [← hfront] at hshown
  exact ⟨htakes, hshown⟩

theorem isPseudoChar_of_isGap (c : Char) (h : isGap c = true) : isPseudoChar c = false := by
  simp only [isGap, Bool.or_eq_true, beq_iff_eq] at h
  rcases h with rfl | rfl <;> decide

theorem not_isGap_of_opens (k : Kind) (c : Char) (h : k.opens c = true) : isGap c = false := by
  cases hc : isGap c with
  | false => rfl
  | true =>
    simp only [isGap, Bool.or_eq_true, beq_iff_eq] at hc
    rcases hc with rfl | rfl <;> cases k <;> revert h <;> decide

theorem dropWhile_gap_text (gap r : List Char) (t : Token) (hg : ∀ c ∈ gap, isGap c = true)
    (hw : t.Whole) : (gap ++ (t.text ++ r)).dropWhile isGap = t.text ++ r := by
  obtain ⟨c, q, htext, hc⟩ := t.text_opens hw
  rw [List.dropWhile_append_of_pos hg, htext, List.cons_append,
    List.dropWhile_cons_of_neg (by simp [not_isGap_of_opens t.kind c hc])]

/-- A scan finds the tokens that a text shows, as long as the draft takes them. -/
theorem scanFrom_of_shown (d d' : Draft) (ts : List Token) (offset : Nat) (cs : List Char)
    (ht : Takes d ts d') (hl : Shown ts cs) :
    (scanFrom d offset cs).draft = d' ∧ (scanFrom d offset cs).rest = [] := by
  induction ht generalizing offset cs with
  | done d =>
    cases hl with
    | done _ hg =>
      have hnil : cs.dropWhile isGap = [] := List.dropWhile_eq_nil_iff.mpr hg
      -- no token has no characters
      have hnone : readFirst d.cursor.accepts (cs.dropWhile isGap) = none := by
        cases hr : readFirst d.cursor.accepts (cs.dropWhile isGap) with
        | none => rfl
        | some x =>
          obtain ⟨-, htext, hne⟩ := readFirst_append hr
          rw [hnil] at htext
          exact absurd (List.append_eq_nil_iff.mp htext).1 hne
      rw [scanFrom_of_none d offset cs hnone]
      exact ⟨rfl, hnil⟩
  | next d d' t ts ht _ ih =>
    cases hl with
    | next gap r _ _ hg hw hs hq hl =>
      have hread : readFirst d.cursor.accepts (t.text ++ r) = some (t, r) := by
        by_cases hb : t.kind = .bareword
        · exact readFirst_bareword d.cursor t r ht hb hw hs (hq hb)
        · exact readFirst_accepts d.cursor t r ht hb hw hs
      rw [← dropWhile_gap_text gap r t hg hw] at hread
      obtain ⟨start, later, hscan⟩ := scanFrom_of_some d offset _ r t hread
      rw [hscan]
      exact ih later r hl

theorem scanFrom_of_takes (d d' : Draft) (ts : List Token) (offset : Nat) (cs : List Char)
    (ht : Takes d ts d') (hl : Laid ts cs) (hb : ∀ t ∈ ts, t.kind ≠ .bareword) :
    (scanFrom d offset cs).draft = d' ∧ (scanFrom d offset cs).rest = [] :=
  scanFrom_of_shown d d' ts offset cs ht (hl.shown ts cs hb)

end TreeSelect.Selector
