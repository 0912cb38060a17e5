import TreeSelect.Proofs.UnclosedBrace

/-! What one pass over a text finds of its nesting. Both scans keep a count of the braces that are
open. The one for a group ends at the brace that closes the first opening brace; the one for the
alternatives passes over closing braces that close nothing and cuts at the commas in front of which
every opening brace is closed. -/
namespace TreeSelect.Glob

/-- The places of the two braces of a group. -/
def Group.places (g : Group) : Nat × Nat :=
  (g.before.length, g.before.length + 1 + g.body.length)

/-- How many braces are open behind a character, if so many are open in front of it. -/
def depthStep (depth : Nat) (c : Char) : Nat :=
  if c = '{' then depth + 1 else if c = '}' then depth - 1 else depth

def depthAfter (depth : Nat) (cs : List Char) : Nat :=
  cs.foldl depthStep depth

/-- Some comma stands behind closed braces only. -/
def HasOwnComma (cs : List Char) : Prop :=
  ∃ front rest, cs = front ++ ',' :: rest ∧ EachClosed front

/-- A text and the parts between its own commas. -/
inductive CutAtCommas : List Char → List (List Char) → Prop
  | last (cs : List Char) (hown : ¬ HasOwnComma cs) : CutAtCommas cs [cs]
  | more (front rest : List Char) (parts : List (List Char)) (hclosed : EachClosed front)
      (hown : ¬ HasOwnComma front) (hrest : CutAtCommas rest parts) :
      CutAtCommas (front ++ ',' :: rest) (front :: parts)

/-- A character with these texts around it stands in a group: a brace is opened in front of it and
closed behind it. -/
def InBraces (front : List Char) (c : Char) (rest : List Char) : Prop :=
  ∃ outer inner inner' outer', front = outer ++ '{' :: inner ∧ rest = inner' ++ '}' :: outer' ∧
    IsBalanced (inner ++ c :: inner')

/-- There is no group exactly if there is no opening brace or the first one is never closed. -/
theorem firstGroup?_eq_none_iff (p : List Char) :
    firstGroup? p = none ↔
      '{' ∉ p ∨ ∃ front rest, p = front ++ '{' :: rest ∧ '{' ∉ front ∧ ¬ IsClosed rest := by
  constructor
  · intro h
    by_cases ho : '{' ∈ p
    · obtain ⟨front, rest, rfl, hfirst⟩ := List.eq_append_cons_of_mem ho
      refine Or.inr ⟨front, rest, rfl, hfirst, ?_⟩
      -- a brace that closes the first one would make a group
      intro hclosed
      obtain ⟨body, after, rfl, hb⟩ := hclosed
      rw [firstGroup?_eq_some front body after hfirst hb] at h
      exact absurd h nofun
    · exact Or.inl ho
  · intro h
    rcases h with ho | ⟨front, rest, rfl, ho, hopen⟩
    · exact firstGroup?_eq_none p ho
    · exact firstGroup?_unclosed front rest ho hopen

theorem slices_append_cons (xs ys : List Char) (c : Char) :
    (xs ++ c :: ys).take xs.length = xs ∧ (xs ++ c :: ys)[xs.length]? = some c ∧
      (xs ++ c :: ys).drop (xs.length + 1) = ys := by
  refine ⟨List.take_left, ?_, ?_⟩
  · rw [List.getElem?_append_right (Nat.le_refl _), Nat.sub_self, List.getElem?_cons_zero]
  · rw [← List.drop_drop, List.drop_left, List.drop_one, List.tail_cons]

/-- The parts of a group are what stands in front of its places, between them and behind them. -/
theorem slices_text (g : Group) :
    g.text.take g.places.1 = g.before ∧ g.text[g.places.1]? = some '{' ∧
    (g.text.take g.places.2).drop (g.places.1 + 1) = g.body ∧
    g.text[g.places.2]? = some '}' ∧ g.text.drop (g.places.2 + 1) = g.after := by
  have hstop : g.places.2 = (g.before ++ '{' :: g.body).length := by
    simp only [Group.places, List.length_append, List.length_cons]
    omega
  have hclose : g.text = (g.before ++ '{' :: g.body) ++ '}' :: g.after := by
    simp only [Group.text, List.append_assoc, List.cons_append]
  obtain ⟨hbefore, hopened, -⟩ := slices_append_cons g.before (g.body ++ '}' :: g.after) '{'
  obtain ⟨-, -, hbody⟩ := slices_append_cons g.before g.body '{'
  obtain ⟨hfront, hclosed, hafter⟩ := slices_append_cons (g.before ++ '{' :: g.body) g.after '}'
  rw [← hclose, ← hstop] at hfront hclosed hafter
  rw [hfront]
  exact ⟨hbefore, hopened, hbody, hclosed, hafter⟩

theorem eq_take_append_cons (cs : List Char) (n : Nat) (c : Char) (h : cs[n]? = some c) :
    cs = cs.take n ++ c :: cs.drop (n + 1) := by
  obtain ⟨hn, rfl⟩ := List.getElem?_eq_some_iff.mp h
  rw [← List.drop_eq_getElem_cons hn, List.take_append_drop]

/-- The group between two places of a text. -/
theorem exists_group (p : List Char) (start stop : Nat) (hlt : start < stop)
    (ho : p[start]? = some '{') (hc : p[stop]? = some '}') :
    ∃ g : Group, g.text = p ∧ g.places = (start, stop) := by
  have hstop : stop < p.length := (List.getElem?_eq_some_iff.mp hc).1
  have hfront : (p.take stop)[start]? = some '{' := by
    rw [List.getElem?_take, if_pos hlt, ho]
  have hclose := eq_take_append_cons p stop '}' hc
  have hopen := eq_take_append_cons (p.take stop) start '{' hfront
  refine ⟨⟨(p.take stop).take start, (p.take stop).drop (start + 1), p.drop (stop + 1)⟩, ?_, ?_⟩
  · calc (p.take stop).take start ++
          '{' :: ((p.take stop).drop (start + 1) ++ '}' :: p.drop (stop + 1))
        = ((p.take stop).take start ++ '{' :: (p.take stop).drop (start + 1)) ++
            '}' :: p.drop (stop + 1) := by rw [List.append_assoc, List.cons_append]
      _ = p.take stop ++ '}' :: p.drop (stop + 1) := by rw [← hopen]
      _ = p := hclose.symm
  · simp only [Group.places, List.length_take, List.length_drop, Prod.mk.injEq]
    omega

/-- The places that the scan finds are those of the first opening brace and of the one that closes
it. -/
theorem places_eq_some_iff (p : List Char) (start stop : Nat) :
    (firstGroup? p).map Group.places = some (start, stop) ↔
      p[start]? = some '{' ∧ '{' ∉ p.take start ∧ start < stop ∧ p[stop]? = some '}' ∧
        IsBalanced ((p.take stop).drop (start + 1)) := by
  constructor
  · intro h
    obtain ⟨g, hg, hplaces⟩ := Option.map_eq_some_iff.mp h
    obtain ⟨rfl, hfirst, hb⟩ := (firstGroup?_eq_some_iff p g).mp hg
    obtain ⟨hbefore, hopen, hbody, hclose, -⟩ := slices_text g
    have hlt : g.places.1 < g.places.2 := by
      simp only [Group.places]
      omega
    rw [hplaces] at hbefore hopen hbody hclose hlt
    rw [hbefore, hbody]
    exact ⟨hopen, hfirst, hlt, hclose, hb⟩
  · rintro ⟨hopen, hfirst, hlt, hclose, hb⟩
    obtain ⟨g, rfl, hplaces⟩ := exists_group p start stop hlt hopen hclose
    obtain ⟨hbefore, -, hbody, -, -⟩ := slices_text g
    rw [hplaces] at hbefore hbody
    rw [hbefore] at hfirst
    rw [hbody] at hb
    have hg := (firstGroup?_eq_some_iff g.text g).mpr ⟨rfl, hfirst, hb⟩
    rw [hg, Option.map_some, hplaces]

/-- The count is zero again if the text closes what was open in front of it, and each end of the text
closes what it opens. -/
theorem depthAfter_eq_zero_iff_count (depth : Nat) (cs : List Char) :
    depthAfter depth cs = 0 ↔
      depth + cs.count '{' ≤ cs.count '}' ∧
        ∀ back, back <:+ cs → back.count '{' ≤ back.count '}' := by
  induction cs generalizing depth with
  | nil => simp [depthAfter]
  | cons c cs ih =>
    have hself (h : ∀ back, back <:+ cs → back.count '{' ≤ back.count '}') :
        cs.count '{' ≤ cs.count '}' := h cs List.suffix_rfl
    simp only [List.suffix_cons_iff, forall_eq_or_imp]
    rw [depthAfter, List.foldl_cons, ← depthAfter, ih, depthStep]
    by_cases ho : c = '{'
    · subst ho
      rw [if_pos rfl, List.count_cons_self, List.count_cons_of_ne (by decide)]
      constructor
      · rintro ⟨hall, hback⟩
        exact ⟨by omega, by omega, hback⟩
      · rintro ⟨hall, -, hback⟩
        exact ⟨by omega, hback⟩
    · rw [if_neg ho, List.count_cons_of_ne ho]
      by_cases hc : c = '}'
      · -- with nothing open the closing brace is not counted, so the rest has to close what it opens
        subst hc
        rw [if_pos rfl, List.count_cons_self]
        constructor
        · rintro ⟨hall, hback⟩
          exact ⟨by omega, by omega, hback⟩
        · rintro ⟨hall, -, hback⟩
          have := hself hback
          exact ⟨by omega, hback⟩
      · rw [if_neg hc, List.count_cons_of_ne hc]
        constructor
        · rintro ⟨hall, hback⟩
          exact ⟨hall, hself hback, hback⟩
        · rintro ⟨hall, -, hback⟩
          exact ⟨hall, hback⟩

/-- The count that passes over closing braces without a partner tells whether each opening brace is
closed. -/
theorem depthAfter_eq_zero_iff (cs : List Char) : depthAfter 0 cs = 0 ↔ EachClosed cs := by
  rw [depthAfter_eq_zero_iff_count, eachClosed_iff_count, Nat.zero_add]
  constructor
  · exact fun h => h.2
  · exact fun h => ⟨h cs List.suffix_rfl, h⟩

theorem alternativesAt_cons (depth : Nat) (c : Char) (cs : List Char) :
    alternativesAt depth (c :: cs) =
      if depth = 0 ∧ c = ',' then [] :: alternativesAt 0 cs
      else Text.consFirst c (alternativesAt (depthStep depth c) cs) := by
  split
  · next h =>
    obtain ⟨rfl, rfl⟩ := h
    rfl
  · next h =>
    rw [alternativesAt]
    · rfl
    · exact fun hd hc => h ⟨hd, hc⟩

/-- A text through which the scan goes without a cut is the beginning of the first part. -/
theorem alternativesAt_append (depth : Nat) (xs ys : List Char)
    (h : ∀ front rest, xs = front ++ ',' :: rest → depthAfter depth front ≠ 0) :
    alternativesAt depth (xs ++ ys) =
      xs.foldr Text.consFirst (alternativesAt (depthAfter depth xs) ys) := by
  induction xs generalizing depth with
  | nil => rfl
  | cons c xs ih =>
    have hstay : ¬ (depth = 0 ∧ c = ',') := by
      rintro ⟨rfl, rfl⟩
      exact h [] xs rfl rfl
    rw [List.cons_append, alternativesAt_cons, if_neg hstay, ih, List.foldr_cons]
    · rfl
    · intro front rest he
      apply h (c :: front) rest
      rw [he, List.cons_append]

theorem depthAfter_ne_zero_of_not_hasOwnComma (cs : List Char) (h : ¬ HasOwnComma cs) :
    ∀ front rest, cs = front ++ ',' :: rest → depthAfter 0 front ≠ 0 := by
  intro front rest he hzero
  exact h ⟨front, rest, he, (depthAfter_eq_zero_iff front).mp hzero⟩

theorem alternatives_of_not_hasOwnComma (cs : List Char) (h : ¬ HasOwnComma cs) :
    alternatives cs = [cs] := by
  have hrun := alternativesAt_append 0 cs [] (depthAfter_ne_zero_of_not_hasOwnComma cs h)
  rw [List.append_nil, alternativesAt, foldr_consFirst, List.append_nil] at hrun
  exact hrun

theorem alternatives_append_comma (front rest : List Char) (hclosed : EachClosed front)
    (hown : ¬ HasOwnComma front) :
    alternatives (front ++ ',' :: rest) = front :: alternatives rest := by
  have hzero : depthAfter 0 front = 0 := (depthAfter_eq_zero_iff front).mpr hclosed
  rw [alternatives, alternativesAt_append 0 front _ (depthAfter_ne_zero_of_not_hasOwnComma front hown),
    hzero, alternativesAt_cons, if_pos ⟨rfl, rfl⟩, foldr_consFirst, List.append_nil]
  rfl

theorem exists_first_ownComma (cs : List Char) (h : HasOwnComma cs) :
    ∃ front rest, cs = front ++ ',' :: rest ∧ EachClosed front ∧ ¬ HasOwnComma front := by
  induction hn : cs.length using Nat.strongRecOn generalizing cs with
  | ind n ih =>
    obtain ⟨front, rest, rfl, hclosed⟩ := h
    by_cases hown : HasOwnComma front
    · have hshort : front.length < n := by
        rw [← hn, List.length_append, List.length_cons]
        omega
      obtain ⟨first, more, rfl, hfirst⟩ := ih front.length hshort front hown rfl
      exact ⟨first, more ++ ',' :: rest, by simp, hfirst⟩
    · exact ⟨front, rest, rfl, hclosed, hown⟩

/-- Whatever the text, the scan cuts it at its own commas and nowhere else. -/
theorem alternatives_eq_iff (cs : List Char) (parts : List (List Char)) :
    alternatives cs = parts ↔ CutAtCommas cs parts := by
  constructor
  · rintro rfl
    induction hn : cs.length using Nat.strongRecOn generalizing cs with
    | ind n ih =>
      by_cases h : HasOwnComma cs
      · obtain ⟨front, rest, rfl, hclosed, hown⟩ := exists_first_ownComma cs h
        have hshort : rest.length < n := by
          rw [← hn, List.length_append, List.length_cons]
          omega
        rw [alternatives_append_comma front rest hclosed hown]
        exact .more front rest _ hclosed hown (ih rest.length hshort rest rfl)
      · rw [alternatives_of_not_hasOwnComma cs h]
        exact .last cs h
  · intro h
    induction h with
    | last cs hown => exact alternatives_of_not_hasOwnComma cs hown
    | more front rest parts hclosed hown _ ih =>
      rw [alternatives_append_comma front rest hclosed hown, ih]

theorem CutAtCommas.intercalate (cs : List Char) (parts : List (List Char))
    (h : CutAtCommas cs parts) : [','].intercalate parts = cs := by
  induction h with
  | last cs => exact List.intercalate_singleton
  | more front rest parts _ _ hrest ih =>
    have hne : parts ≠ [] := by
      cases hrest <;> exact List.cons_ne_nil _ _
    rw [List.intercalate_cons_of_ne_nil hne, ih, List.append_assoc, List.singleton_append]

theorem CutAtCommas.not_hasOwnComma (cs : List Char) (parts : List (List Char))
    (h : CutAtCommas cs parts) : ∀ a ∈ parts, ¬ HasOwnComma a := by
  induction h with
  | last cs hown => simpa using hown
  | more front rest parts _ hown _ ih => simpa using ⟨hown, ih⟩

/-- A cut leaves both sides balanced: in front of it no more is closed than opened, and no less. -/
theorem isBalanced_of_append_comma (front rest : List Char)
    (h : IsBalanced (front ++ ',' :: rest)) (hclosed : EachClosed front) :
    IsBalanced front ∧ IsBalanced rest := by
  have hprefix := h.2
  have hle : front.count '{' ≤ front.count '}' := count_le_of_eachClosed front hclosed
  have hge : front.count '}' ≤ front.count '{' := hprefix front (List.prefix_append front _)
  have hfront : IsBalanced front := by
    refine ⟨Nat.le_antisymm hge hle, fun beginning hb => ?_⟩
    exact hprefix beginning (hb.trans (List.prefix_append front _))
  have hbehind : Closes 0 (',' :: rest) := (closes_append_iff 0 0 front _ hfront).mp h
  exact ⟨hfront, (closes_plain_iff 0 ',' rest (by decide) (by decide)).mp hbehind⟩

theorem CutAtCommas.isBalanced (cs : List Char) (parts : List (List Char))
    (h : CutAtCommas cs parts) (hb : IsBalanced cs) : ∀ a ∈ parts, IsBalanced a := by
  induction h with
  | last cs => simpa using hb
  | more front rest parts hclosed _ _ ih =>
    obtain ⟨hfront, hrest⟩ := isBalanced_of_append_comma front rest hb hclosed
    simpa using ⟨hfront, ih hrest⟩

/-- Where an opening brace is still open, a balanced text closes it behind. -/
theorem inBraces_of_not_eachClosed (front : List Char) (c : Char) (rest : List Char)
    (hb : IsBalanced (front ++ c :: rest)) (hc : c ≠ '}') (hopen : ¬ EachClosed front) :
    InBraces front c rest := by
  rw [EachClosed] at hopen
  push Not at hopen
  obtain ⟨outer, inner, rfl, hinner⟩ := hopen
  rw [List.append_assoc, List.cons_append] at hb
  obtain ⟨body, after, he, hbody⟩ := isClosed_of_closes 0 outer (inner ++ c :: rest) hb
  rcases List.append_eq_append_iff.mp he with ⟨more, rfl, hmore⟩ | ⟨more, rfl, hmore⟩
  · -- the partner stands behind the character
    cases more with
    | nil => exact absurd (List.cons.inj hmore).1 hc
    | cons d more =>
      obtain ⟨rfl, rfl⟩ := List.cons.inj hmore
      exact ⟨outer, inner, more, after, rfl, rfl, hbody⟩
  · -- it cannot stand in front of it
    cases more with
    | nil => exact absurd (List.cons.inj hmore).1.symm hc
    | cons d more =>
      obtain ⟨rfl, rfl⟩ := List.cons.inj hmore
      exact absurd hbody (hinner body more rfl)

/-- The scan for a group finds the first opening brace and the brace that closes it, or that there is
none. The parts between the own commas of a text make up the text; if it is balanced, each part is, and
the commas that are left in a part stand in braces of that part. -/
theorem scans_find_nesting (p b : List Char) :
    (firstGroup? p = none ↔
      '{' ∉ p ∨ ∃ front rest, p = front ++ '{' :: rest ∧ '{' ∉ front ∧ ¬ IsClosed rest) ∧
    (∀ start stop, (firstGroup? p).map Group.places = some (start, stop) ↔
      p[start]? = some '{' ∧ '{' ∉ p.take start ∧ start < stop ∧ p[stop]? = some '}' ∧
        IsBalanced ((p.take stop).drop (start + 1))) ∧
    [','].intercalate (alternatives b) = b ∧
    (IsBalanced b → ∀ a ∈ alternatives b, IsBalanced a ∧
      ∀ front rest, a = front ++ ',' :: rest → InBraces front ',' rest) := by
  have hcut : CutAtCommas b (alternatives b) := (alternatives_eq_iff b _).mp rfl
  refine ⟨firstGroup?_eq_none_iff p, places_eq_some_iff p, CutAtCommas.intercalate b _ hcut, ?_⟩
  intro hb a ha
  have hbalanced : IsBalanced a := CutAtCommas.isBalanced b _ hcut hb a ha
  refine ⟨hbalanced, fun front rest he => ?_⟩
  -- a comma behind closed braces would be one of the cuts
  apply inBraces_of_not_eachClosed front ',' rest (he ▸ hbalanced) (by decide)
  intro hclosed
  exact CutAtCommas.not_hasOwnComma b _ hcut a ha ⟨front, rest, he, hclosed⟩

/-- A closing brace without a partner in front of the group, then an opening one without. -/
theorem nesting_strayBraces :
    (firstGroup? ('}' :: "x{a,{b,c}}y".toList)).map Group.places = some (2, 10) ∧
    firstGroup? ('{' :: "a,{b,c}".toList) = none ∧
    IsBalanced "a,{b,c}".toList ∧ "{b,c}".toList ∈ alternatives "a,{b,c}".toList ∧
    IsBalanced "{b,c}".toList ∧ InBraces ['{', 'b'] ',' ['c', '}'] := by
  obtain ⟨-, hplaces, -⟩ := scans_find_nesting ('}' :: "x{a,{b,c}}y".toList) []
  obtain ⟨hnone, -, -, hparts⟩ := scans_find_nesting ('{' :: "a,{b,c}".toList) "a,{b,c}".toList
  have hb : IsBalanced "a,{b,c}".toList := by decide +kernel
  have hmem : "{b,c}".toList ∈ alternatives "a,{b,c}".toList := by decide +kernel
  have hopen : ¬ IsClosed "a,{b,c}".toList := by decide +kernel
  obtain ⟨hbalanced, hcommas⟩ := hparts hb _ hmem
  refine ⟨(hplaces 2 10).mpr (by decide +kernel), ?_, hb, hmem, hbalanced, hcommas _ _ rfl⟩
  exact hnone.mpr (Or.inr ⟨[], "a,{b,c}".toList, rfl, List.not_mem_nil, hopen⟩)

end TreeSelect.Glob
