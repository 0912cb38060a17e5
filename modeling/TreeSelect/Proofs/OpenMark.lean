import TreeSelect.Proofs.SelectorSpelling

/-! Barewords that begin with a quotation mark. A bareword is read there only because the mark is not
closed in the rest of the text, and so no quoted value with this mark can come later: its first mark
would close the bareword. -/
namespace TreeSelect.Selector
open Written

/-- A quoted value that was begun before the text would end in it. -/
def Closes (mark : Char) (cs : List Char) : Prop := (readQuoted mark cs).isSome = true

variable (mark : Char)

theorem closes_mark (r : List Char) (hm : mark ≠ '\\') : Closes mark (mark :: r) := by
  rw [Closes, readQuoted, if_pos rfl]
  · rfl
  · simp [hm]

theorem closes_cons (c : Char) (r : List Char) (hc : c ≠ '\\') (h : Closes mark r) :
    Closes mark (c :: r) := by
  rw [Closes, readQuoted, if_neg hc]
  · split
    · rfl
    · rw [Option.isSome_map]
      exact h
  · simp [hc]

theorem closes_escaped (c : Char) (r : List Char) (hc : c ≠ '\n') (h : Closes mark r) :
    Closes mark ('\\' :: c :: r) := by
  rw [Closes, readQuoted, if_neg hc, Option.isSome_map]
  exact h

theorem closes_plain (w r : List Char) (hw : ∀ c ∈ w, c ≠ '\\') (h : Closes mark r) :
    Closes mark (w ++ r) := by
  induction w with
  | nil => exact h
  | cons c w ih =>
    obtain ⟨hc, hw⟩ := List.forall_mem_cons.mp hw
    exact closes_cons mark c _ hc (ih hw)

/-- The body of a quoted value of the other mark is gone through in the same steps. -/
theorem closes_unescapes (other : Char) (body value r : List Char)
    (hb : Unescapes other body value) (h : Closes mark r) : Closes mark (body ++ r) := by
  induction hb with
  | done => exact h
  | plain c body value _ hc _ ih => exact closes_cons mark c _ hc ih
  | escaped c body value hc _ ih => exact closes_escaped mark c _ hc ih

/-- The end of a bareword may take the next character with it, if it is a backslash. -/
theorem closes_bare (r : List Char) (h : Closes mark r) (hesc : Closes mark ('\\' :: r)) :
    ∀ w : List Char, (∀ c ∈ w, c ≠ '\n') → Closes mark (w ++ r)
  | [], _ => h
  | [c], hw => by
    by_cases hc : c = '\\'
    · rw [hc]
      exact hesc
    · exact closes_cons mark c r hc h
  | c :: d :: w, hw => by
    simp only [List.forall_mem_cons] at hw
    obtain ⟨_, hd, hw⟩ := hw
    by_cases hc : c = '\\'
    · rw [hc]
      exact closes_escaped mark d _ hd (closes_bare r h hesc w hw)
    · exact closes_cons mark c _ hc
        (closes_bare r h hesc (d :: w) (List.forall_mem_cons.mpr ⟨hd, hw⟩))

theorem backslash_not_mem_text (t : Token) (hw : t.Whole) (hb : t.kind ≠ .bareword)
    (hq : t.kind ≠ .quoted) : ∀ c ∈ t.text, c ≠ '\\' := by
  rintro c hc rfl
  cases t with
  | bareword text => exact hb rfl
  | quoted mark body => exact hq rfl
  | int digits => exact absurd (hw.2 '\\' hc) (by decide)
  | name text | pseudoName text =>
    obtain ⟨d, r, rfl, hd, hr⟩ := hw
    rcases List.mem_cons.mp hc with rfl | hc
    · exact absurd hd (by decide)
    · exact absurd (hr '\\' hc) (by decide)
  | combinator c => cases c <;> revert hc <;> decide
  | comparison c => cases c <;> revert hc <;> decide
  | _ => revert hc; decide

theorem isBare_of_opens (k : Kind) (c : Char) (h : k.opens c = true) (hp : k ≠ .closeParen)
    (hb : k ≠ .closeBracket) : isBare c = true := by
  have hstart : isNameStart c = true → isBare c = true := by
    intro hc
    apply isBare_of_isNameChar
    simp only [isNameStart, isNameChar, Char.isAlphanum, Bool.or_eq_true] at hc ⊢
    tauto
  cases k with
  | bareword => exact h
  | name | pseudoName => exact hstart h
  | int =>
    apply isBare_of_isNameChar
    have hdigit : c.isDigit = true := h
    simp [isNameChar, Char.isAlphanum, hdigit]
  | closeParen => exact absurd rfl hp
  | closeBracket => exact absurd rfl hb
  | ending => exact absurd h Bool.false_ne_true
  | combinator =>
    simp only [Kind.opens, Bool.or_eq_true, beq_iff_eq] at h
    rcases h with (rfl | rfl) | rfl <;> decide
  | comparison =>
    simp only [Kind.opens, Bool.or_eq_true, beq_iff_eq] at h
    rcases h with (((rfl | rfl) | rfl) | rfl) | rfl <;> decide
  | quoted =>
    simp only [Kind.opens, Bool.or_eq_true, beq_iff_eq] at h
    rcases h with rfl | rfl <;> decide
  | _ =>
    obtain rfl := beq_iff_eq.mp h
    decide

theorem ne_newline_of_bareword (text : List Char) (hw : (Token.bareword text).Whole) :
    ∀ c ∈ text, c ≠ '\n' := by
  have hnewline : isBare '\n' = false := by decide
  rintro c hc rfl
  exact absurd (hw.2 '\n' hc) (by simp [hnewline])

theorem exists_bareword (t : Token) (h : t.kind = .bareword) : ∃ text, t = .bareword text := by
  cases t <;> simp [Token.kind] at h ⊢

theorem exists_quoted (t : Token) (h : t.kind = .quoted) : ∃ mark body, t = .quoted mark body := by
  cases t <;> simp [Token.kind] at h ⊢

/-- Only a closing sign begins with a character that ends a bareword. -/
theorem closing_of_not_bare (t : Token) (hw : t.Whole) (h : ∀ c ∈ t.text.head?, isBare c = false) :
    t = .closeParen ∨ t = .closeBracket := by
  obtain ⟨c, r, hcons, hopens⟩ := t.text_opens hw
  have hc : isBare c = false := h c (by simp [hcons])
  by_contra! hne
  have hkind : t.kind ≠ .closeParen ∧ t.kind ≠ .closeBracket := by
    cases t <;> simp_all [Token.kind]
  rw [isBare_of_opens t.kind c hopens hkind.1 hkind.2] at hc
  contradiction

/-- What closes a quoted value closes it also if a token is put in front. A bareword may end in a
backslash, and then takes the first character behind it. -/
theorem closes_text (t : Token) (hw : t.Whole) (r : List Char) (h : Closes mark r)
    (hesc : t.kind = .bareword → Closes mark ('\\' :: r)) : Closes mark (t.text ++ r) := by
  by_cases hbare : t.kind = .bareword
  · obtain ⟨text, rfl⟩ := exists_bareword t hbare
    exact closes_bare mark r h (hesc hbare) text (ne_newline_of_bareword text hw)
  · by_cases hquoted : t.kind = .quoted
    · obtain ⟨other, body, rfl⟩ := exists_quoted t hquoted
      obtain ⟨hother, value, hvalue⟩ := hw
      have hne : other ≠ '\\' := by
        rcases hother with rfl | rfl <;> decide
      simp only [Token.text, List.cons_append, List.append_assoc]
      exact closes_cons mark other _ hne
        (closes_unescapes mark other body value _ hvalue (closes_cons mark other r hne h))
    · exact closes_plain mark _ r (backslash_not_mem_text t hw hbare hquoted) h

/-- A quoted value in the tokens of a text would close one with the same mark that was begun before the
text, also if the first character of the text were taken by a backslash. -/
theorem closes_of_shown (hm : mark ≠ '\\') (body : List Char) (ts : List Token) (cs : List Char)
    (h : Shown ts cs) (hq : .quoted mark body ∈ ts) :
    Closes mark cs ∧ ((∀ c ∈ cs.head?, isBare c = false) → Closes mark ('\\' :: cs)) := by
  induction h with
  | done gap hg => exact absurd hq List.not_mem_nil
  | next gap r t ts hg hw hs _ _ ih =>
    have hgap : ∀ c ∈ gap, c ≠ '\\' := by
      rintro c hc rfl
      exact absurd (hg '\\' hc) (by decide)
    have htext : Closes mark (t.text ++ r) := by
      by_cases ht : t = .quoted mark body
      · rw [ht]
        exact closes_mark mark _ hm
      · obtain ⟨hr, hesc⟩ := ih ((List.mem_cons.mp hq).resolve_left fun he => ht he.symm)
        refine closes_text mark t hw r hr fun hbare => hesc ?_
        obtain ⟨text, rfl⟩ := exists_bareword t hbare
        exact hs
    refine ⟨closes_plain mark gap _ hgap htext, fun hhead => ?_⟩
    cases gap with
    | cons g gap =>
      have hg' : g ≠ '\n' := by
        rintro rfl
        exact absurd (hg '\n' List.mem_cons_self) (by decide)
      rw [List.cons_append]
      exact closes_escaped mark g _ hg'
        (closes_plain mark gap _ (fun c hc => hgap c (List.mem_cons_of_mem g hc)) htext)
    | nil =>
      -- the backslash takes a closing sign, and the value is closed in what is behind it
      have hsign := closing_of_not_bare t hw fun c hc => hhead c (by simp [Option.mem_def.mp hc])
      have hr : Closes mark r := by
        refine (ih ((List.mem_cons.mp hq).resolve_left ?_)).1
        rcases hsign with rfl | rfl <;> simp
      rcases hsign with rfl | rfl
      · exact closes_escaped mark ')' r (by decide) hr
      · exact closes_escaped mark ']' r (by decide) hr

/-- No bareword in front of a quoted value begins with the mark of that value. -/
theorem head?_ne_of_quoted_later (hm : mark = '"' ∨ mark = '\'') (body : List Char)
    (ts us : List Token) (cs : List Char) (h : Shown (ts ++ .quoted mark body :: us) cs) :
    ∀ t ∈ ts, t.kind = .bareword → t.text.head? ≠ some mark := by
  have hne : mark ≠ '\\' := by
    rcases hm with rfl | rfl <;> decide
  induction ts generalizing cs with
  | nil => simp
  | cons u ts ih =>
    cases h with
    | next gap r _ _ hg hw hs hq h =>
      refine List.forall_mem_cons.mpr ⟨fun hb hhead => ?_, ih r h⟩
      obtain ⟨text, rfl⟩ := exists_bareword u hb
      obtain ⟨w, rfl⟩ : ∃ w, text = mark :: w := List.head?_eq_some_iff.mp hhead
      obtain ⟨hr, hesc⟩ := closes_of_shown mark hne body _ r h (by simp)
      have hw' := ne_newline_of_bareword _ hw
      have hclosed : Closes mark (w ++ r) :=
        closes_bare mark r hr (hesc hs) w fun c hc => hw' c (List.mem_cons_of_mem mark hc)
      have hnone := hq rfl
      rw [Closes, Option.isSome_iff_exists] at hclosed
      obtain ⟨x, hx⟩ := hclosed
      rcases hm with rfl | rfl <;> simp [Token.text, Kind.read, hx] at hnone

end TreeSelect.Selector
