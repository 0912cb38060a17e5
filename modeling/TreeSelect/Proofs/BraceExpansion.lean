import TreeSelect.Proofs.BraceMeaning

namespace TreeSelect.Glob

theorem expand_of_none (p : List Char) (h : firstGroup? p = none) : expand p = [p] := by
  rw [expand]
  split
  · rfl
  · next g hg => simp [h] at hg

/-- A group without a choice keeps its braces, and what it holds is expanded for itself. -/
theorem expand_of_one (p : List Char) (g : Group) (h : firstGroup? p = some g)
    (hone : (alternatives g.body).length < 2) :
    expand p = ((expand g.body).flatMap fun inner =>
      (expand g.after).map fun rest => g.before ++ '{' :: (inner ++ '}' :: rest)).eraseDups := by
  rw [expand]
  split
  · next hg => simp [h] at hg
  · next g' hg =>
    obtain rfl : g' = g := Option.some.inj (hg.symm.trans h)
    rw [if_pos hone]

/-- A group with a choice is replaced by each of its alternatives, and the whole is expanded again. -/
theorem expand_of_many (p : List Char) (g : Group) (h : firstGroup? p = some g)
    (hmany : ¬ (alternatives g.body).length < 2) :
    expand p =
      ((alternatives g.body).flatMap fun a => expand (g.before ++ a ++ g.after)).eraseDups := by
  rw [expand]
  split
  · next hg => simp [h] at hg
  · next g' hg =>
    obtain rfl : g' = g := Option.some.inj (hg.symm.trans h)
    rw [if_neg hmany, List.flatMap_subtype (g := fun a => expand (g'.before ++ a ++ g'.after))]
    · rw [List.unattach_attach]
    · exact fun _ _ => rfl

/-- Characters, an alternative of a group and what follows the group, as one pattern. -/
def glued {b : Bool} (cs : List Char) (h : ∀ c ∈ cs, StandsAlone b c) (alternative : Pattern true)
    (rest : Pattern b) : Pattern b :=
  (Pattern.ofChars b cs h).append id (alternative.append (fun _ => rfl) rest)

section
variable {b : Bool} (cs : List Char) (h : ∀ c ∈ cs, StandsAlone b c)

theorem text_glued (alternative : Pattern true) (rest : Pattern b) :
    (glued cs h alternative rest).text = cs ++ alternative.text ++ rest.text := by
  rw [glued, text_append, text_append, text_ofChars, List.append_assoc]

theorem meaning_glued (alternative : Pattern true) (rest : Pattern b) :
    (glued cs h alternative rest).meaning =
      alternative.meaning.flatMap fun m => rest.meaning.map fun r => cs ++ (m ++ r) := by
  rw [glued, meaning_append, meaning_append, meaning_ofChars, List.flatMap_singleton,
    List.map_flatMap]
  simp only [List.map_map]
  rfl

theorem meaning_group (choice : Choice) (rest : Pattern b) :
    ((Pattern.ofChars b cs h).append id (.group b choice rest)).meaning =
      choice.meaning.flatMap fun m => rest.meaning.map fun r => cs ++ (m ++ r) := by
  rw [meaning_append, meaning_ofChars, List.flatMap_singleton, Pattern.meaning, List.map_flatMap]
  simp only [List.map_map]
  rfl

/-- A group without a choice, if its content and what follows it are expanded rightly. -/
theorem expand_group_last (a : Pattern true) (rest : Pattern b)
    (ha : expand a.text = a.meaning.eraseDups) (hr : expand rest.text = rest.meaning.eraseDups) :
    expand ((Pattern.ofChars b cs h).append id (.group b (.last a) rest)).text =
      ((Pattern.ofChars b cs h).append id (.group b (.last a) rest)).meaning.eraseDups := by
  have hone : (alternatives (Choice.last a).text).length < 2 := by
    rw [alternatives_text]
    exact Nat.one_lt_two
  have hg := firstGroup?_group b cs h (.last a) rest
  calc expand ((Pattern.ofChars b cs h).append id (.group b (.last a) rest)).text
      = (a.meaning.eraseDups.flatMap fun inner => rest.meaning.eraseDups.map fun r =>
          cs ++ '{' :: (inner ++ '}' :: r)).eraseDups := by
        rw [expand_of_one _ _ hg hone, Choice.text, ha, hr]
    -- repeats among the parts give repeats of the whole only
    _ = (a.meaning.flatMap fun inner => rest.meaning.map fun r =>
          cs ++ '{' :: (inner ++ '}' :: r)).eraseDups := eraseDups_pairs _ _ _
    _ = ((Pattern.ofChars b cs h).append id (.group b (.last a) rest)).meaning.eraseDups := by
        rw [meaning_group, Choice.meaning, List.flatMap_map]
        simp only [List.cons_append, List.append_assoc, List.nil_append]

/-- A group with a choice, if each of its alternatives is expanded rightly in the group's place. -/
theorem expand_group_more (a : Pattern true) (others : Choice) (rest : Pattern b)
    (hglued : ∀ k ∈ (Choice.more a others).alternatives,
      expand (glued cs h k rest).text = (glued cs h k rest).meaning.eraseDups) :
    expand ((Pattern.ofChars b cs h).append id (.group b (.more a others) rest)).text =
      ((Pattern.ofChars b cs h).append id (.group b (.more a others) rest)).meaning.eraseDups := by
  have hmany : ¬ (alternatives (Choice.more a others).text).length < 2 := by
    rw [alternatives_text, List.length_map, Choice.alternatives, List.length_cons]
    cases others <;> simp [Choice.alternatives]
  have hg := firstGroup?_group b cs h (.more a others) rest
  have hmeaning : (Choice.more a others).meaning =
      (Choice.more a others).alternatives.flatMap Pattern.meaning :=
    offers_eq_flatMap (.more a others)
  calc expand ((Pattern.ofChars b cs h).append id (.group b (.more a others) rest)).text
      = ((Choice.more a others).alternatives.flatMap fun k =>
          expand (glued cs h k rest).text).eraseDups := by
        rw [expand_of_many _ _ hg hmany, alternatives_text, List.flatMap_map]
        simp only [text_glued]
    _ = ((Choice.more a others).alternatives.flatMap fun k =>
          (glued cs h k rest).meaning).eraseDups := by
        refine eraseDups_flatMap_congr _ _ _ fun k hk => ?_
        rw [hglued k hk, eraseDups_eq_self _ (nodup_eraseDups _)]
    _ = ((Pattern.ofChars b cs h).append id (.group b (.more a others) rest)).meaning.eraseDups := by
        simp only [meaning_glued, meaning_group, hmeaning, List.flatMap_assoc]

/-- An alternative in the place of its group has one opening brace less, at least. -/
theorem count_glued_lt (choice : Choice) (rest : Pattern b) (k : Pattern true)
    (hk : k ∈ choice.alternatives) :
    (glued cs h k rest).text.count '{' <
      ((Pattern.ofChars b cs h).append id (.group b choice rest)).text.count '{' := by
  have hcut : k.text ∈ alternatives choice.text := by
    rw [alternatives_text]
    exact List.mem_map_of_mem hk
  have hless : k.text.count '{' ≤ choice.text.count '{' := count_le_of_mem_alternativesAt hcut
  rw [text_glued, text_append, text_ofChars, Pattern.text]
  simp only [List.count_append, List.count_cons_self,
    List.count_cons_of_ne (show '}' ≠ '{' by decide)]
  omega

end

/-- The expansions of a text are what its structure means, each once. -/
theorem expand_text {b : Bool} (p : Pattern b) : expand p.text = p.meaning.eraseDups := by
  -- every text that is scanned again has fewer opening braces
  induction hn : p.text.count '{' using Nat.strongRecOn generalizing b p with
  | ind n ih =>
    rcases p.cases_group with ⟨cs, h, rfl⟩ | ⟨cs, h, choice, rest, rfl⟩
    · rw [text_ofChars, meaning_ofChars, expand_of_none]
      · rfl
      · exact firstGroup?_eq_none cs fun hc => (h _ hc).ne_open rfl
    · cases choice with
      | last a =>
        have hcount : a.text.count '{' + rest.text.count '{' < n := by
          rw [← hn, text_append, text_ofChars, Pattern.text, Choice.text]
          simp only [List.count_append, List.count_cons_self,
            List.count_cons_of_ne (show '}' ≠ '{' by decide)]
          omega
        exact expand_group_last cs h a rest (ih _ (by omega) a rfl) (ih _ (by omega) rest rfl)
      | more a others =>
        refine expand_group_more cs h a others rest fun k hk => ih _ ?_ _ rfl
        rw [← hn]
        exact count_glued_lt cs h (.more a others) rest k hk

mutual

/-- Each text that a pattern means has a structure of its own, in which nothing is left to choose. -/
theorem exists_settled {b : Bool} (p : Pattern b) (m : List Char) (hm : m ∈ p.meaning) :
    ∃ q : Pattern b, q.text = m ∧ q.meaning = [m] := by
  match p with
  | .done _ =>
    obtain rfl := List.mem_singleton.mp hm
    exact ⟨.done b, rfl, rfl⟩
  | .char _ c h rest =>
    obtain ⟨r, hr, rfl⟩ := List.mem_map.mp hm
    obtain ⟨q, rfl, hq⟩ := exists_settled rest r hr
    exact ⟨.char b c h q, rfl, by rw [Pattern.meaning, hq, List.map_singleton]⟩
  | .group _ choice rest =>
    obtain ⟨x, hx, hm⟩ := List.mem_flatMap.mp hm
    obtain ⟨r, hr, rfl⟩ := List.mem_map.mp hm
    obtain ⟨q, rfl, hq⟩ := exists_settled rest r hr
    exact exists_settled_group choice x hx q hq

theorem exists_settled_group {b : Bool} (choice : Choice) (x : List Char) (hx : x ∈ choice.meaning)
    (q : Pattern b) (hq : q.meaning = [q.text]) :
    ∃ k : Pattern b, k.text = x ++ q.text ∧ k.meaning = [x ++ q.text] := by
  match choice with
  | .last alternative =>
    obtain ⟨m, hm, rfl⟩ := List.mem_map.mp hx
    obtain ⟨k, rfl, hk⟩ := exists_settled alternative m hm
    refine ⟨.group b (.last k) q, by simp [Pattern.text, Choice.text], ?_⟩
    simp [Pattern.meaning, Choice.meaning, hk, hq]
  | .more alternative others =>
    -- the braces go, and the alternative stands in front of what follows
    obtain ⟨k, rfl, hk⟩ : ∃ k : Pattern true, k.text = x ∧ k.meaning = [x] := by
      rcases List.mem_append.mp hx with hx | hx
      · exact exists_settled alternative x hx
      · exact exists_settled_offer others x hx
    refine ⟨k.append (fun _ => rfl) q, text_append _ k q, ?_⟩
    rw [meaning_append, hk, hq, List.flatMap_singleton, List.map_singleton]

theorem exists_settled_offer (choice : Choice) (x : List Char) (hx : x ∈ choice.offers) :
    ∃ k : Pattern true, k.text = x ∧ k.meaning = [x] := by
  match choice with
  | .last alternative => exact exists_settled alternative x hx
  | .more alternative others =>
    rcases List.mem_append.mp hx with hx | hx
    · exact exists_settled alternative x hx
    · exact exists_settled_offer others x hx

end

/-- Whatever comes in front of the first alternative, it is a group's content as before. -/
theorem exists_choice_append (front : Pattern true) (choice : Choice) :
    ∃ k : Choice, k.text = front.text ++ choice.text := by
  cases choice with
  | last alternative =>
    exact ⟨.last (front.append id alternative), text_append _ front alternative⟩
  | more alternative others =>
    refine ⟨.more (front.append id alternative) others, ?_⟩
    rw [Choice.text, Choice.text, text_append, List.append_assoc]

theorem exists_choice (body : List Char) (h : IsBalanced body) : ∃ k : Choice, k.text = body := by
  induction hn : body.length using Nat.strongRecOn generalizing body with
  | ind n ih =>
    cases body with
    | nil => exact ⟨.last (.done true), rfl⟩
    | cons c r =>
      by_cases ho : c = '{'
      · -- the group that begins here ends in the body, which is balanced behind it as well
        subst ho
        obtain ⟨inner, after, rfl, hi, ha⟩ := exists_close 0 0 r ((closes_open_iff 0 r).mp h)
        simp only [List.length_cons, List.length_append] at hn
        obtain ⟨k, rfl⟩ := ih _ (by omega) inner hi rfl
        obtain ⟨others, rfl⟩ := ih _ (by omega) after ha rfl
        obtain ⟨whole, hw⟩ := exists_choice_append (.group true k (.done true)) others
        exact ⟨whole, by simp [hw, Pattern.text]⟩
      · by_cases hc : c = '}'
        · subst hc
          obtain ⟨d, hd, -⟩ := (closes_close_iff 0 r).mp h
          omega
        · have hr : IsBalanced r := (closes_plain_iff 0 c r ho hc).mp h
          obtain ⟨others, rfl⟩ := ih _ (by simp [← hn]) r hr rfl
          by_cases hcomma : c = ','
          · -- an empty alternative in front of the others
            subst hcomma
            exact ⟨.more (.done true) others, rfl⟩
          · exact exists_choice_append
              (.char true c ⟨ho, fun _ => hc, fun _ => hcomma⟩ (.done true)) others

/-- A pattern in which each brace is closed has a structure. -/
theorem exists_pattern (p : List Char) (h : EachClosed p) : ∃ t : Pattern false, t.text = p := by
  induction hn : p.length using Nat.strongRecOn generalizing p with
  | ind n ih =>
    cases p with
    | nil => exact ⟨.done false, rfl⟩
    | cons c r =>
      -- a brace of the rest is closed in the rest
      have htail (before rest : List Char) (he : c :: r = before ++ rest) : EachClosed rest := by
        intro front more hm
        exact h (before ++ front) more (by rw [he, hm, List.append_assoc])
      by_cases ho : c = '{'
      · subst ho
        obtain ⟨body, after, rfl, hb⟩ := h [] r rfl
        obtain ⟨k, rfl⟩ := exists_choice body hb
        simp only [List.length_cons, List.length_append] at hn
        obtain ⟨rest, rfl⟩ := ih _ (by omega) after (htail ('{' :: (k.text ++ ['}'])) after (by simp))
          rfl
        exact ⟨.group false k rest, rfl⟩
      · obtain ⟨rest, rfl⟩ := ih _ (by simp [← hn]) r (htail [c] r rfl) rfl
        exact ⟨.char false c ⟨ho, nofun, nofun⟩ rest, rfl⟩

/-- The contents of the groups that a scan finds, one behind the other. -/
def groupBodies (p : List Char) : List (List Char) :=
  match _h : firstGroup? p with
  | none => []
  | some g => g.body :: groupBodies g.after
termination_by p.length
decreasing_by
  have hlength := congrArg List.length (text_of_firstGroup? _h)
  simp only [Group.text, List.length_append, List.length_cons] at hlength
  omega

/-- The contents of the groups that stand in a pattern side by side. -/
def Pattern.bodies {b : Bool} : Pattern b → List (List Char)
  | .done _ => []
  | .char _ _ _ rest => rest.bodies
  | .group _ choice rest => choice.text :: rest.bodies

theorem bodies_append {a b : Bool} (h : b = true → a = true) (p : Pattern a) (q : Pattern b) :
    (p.append h q).bodies = p.bodies ++ q.bodies := by
  match p with
  | .done _ => rfl
  | .char _ _ _ rest =>
    rw [Pattern.append, Pattern.bodies, Pattern.bodies, bodies_append h rest q]
  | .group _ choice rest =>
    rw [Pattern.append, Pattern.bodies, Pattern.bodies, bodies_append h rest q, List.cons_append]

theorem bodies_ofChars {b : Bool} (cs : List Char) (h : ∀ c ∈ cs, StandsAlone b c) :
    (Pattern.ofChars b cs h).bodies = [] := by
  induction cs with
  | nil => rfl
  | cons c cs ih => rw [Pattern.ofChars, Pattern.bodies, ih]

/-- A scan finds the groups of the structure. -/
theorem groupBodies_text {b : Bool} (p : Pattern b) : groupBodies p.text = p.bodies := by
  -- behind each group the scan begins anew, with the structure of what follows
  induction hn : p.text.length using Nat.strongRecOn generalizing p with
  | ind n ih =>
    rcases p.cases_group with ⟨cs, h, rfl⟩ | ⟨cs, h, choice, rest, rfl⟩
    · have hnone := firstGroup?_eq_none cs fun hc => (h _ hc).ne_open rfl
      rw [text_ofChars, bodies_ofChars, groupBodies]
      split
      · rfl
      · next g hg => simp [hnone] at hg
    · have hsome := firstGroup?_group b cs h choice rest
      rw [groupBodies]
      split
      · next hg => simp [hsome] at hg
      · next g hg =>
        obtain rfl := Option.some.inj (hg.symm.trans hsome)
        rw [text_append, Pattern.text] at hn
        simp only [List.length_append, List.length_cons] at hn
        rw [bodies_append, bodies_ofChars, Pattern.bodies, List.nil_append,
          ih rest.text.length (by omega) rest rfl]

/-- An alternative that is put in the place of its group brings its own groups and no others. -/
theorem groupBodies_glued {b : Bool} (p : Pattern b) (g : Group) (hg : firstGroup? p.text = some g)
    (a : List Char) (ha : a ∈ alternatives g.body) :
    groupBodies (g.before ++ a ++ g.after) = groupBodies a ++ groupBodies g.after := by
  rcases p.cases_group with ⟨cs, h, rfl⟩ | ⟨cs, h, choice, rest, rfl⟩
  · rw [text_ofChars, firstGroup?_eq_none cs fun hc => (h _ hc).ne_open rfl] at hg
    cases hg
  · obtain rfl := Option.some.inj (hg.symm.trans (firstGroup?_group b cs h choice rest))
    rw [alternatives_text] at ha
    obtain ⟨k, -, rfl⟩ := List.mem_map.mp ha
    rw [← text_glued cs h k rest, groupBodies_text, groupBodies_text, groupBodies_text, glued,
      bodies_append, bodies_append, bodies_ofChars, List.nil_append]

/-- A pattern whose braces are closed has a structure and is expanded to what that means, each text
once; an alternative that takes the place of its group leaves all other groups as they are, and what
comes out has nothing left to expand. -/
theorem expandBraces_eq_meaning (pattern : String) (h : EachClosed pattern.toList) :
    (∃ t : Pattern false, t.text = pattern.toList) ∧
    (∀ t : Pattern false, t.text = pattern.toList →
      expandBraces pattern = t.meaning.eraseDups.map String.ofList) ∧
    (∀ g, firstGroup? pattern.toList = some g → ∀ a ∈ alternatives g.body,
      groupBodies (g.before ++ a ++ g.after) = groupBodies a ++ groupBodies g.after) ∧
    (expandBraces pattern).Nodup ∧
    ∀ e ∈ expandBraces pattern, expandBraces e = [e] := by
  have hmeaning (t : Pattern false) (ht : t.text = pattern.toList) :
      expandBraces pattern = t.meaning.eraseDups.map String.ofList := by
    rw [expandBraces, ← ht, expand_text]
  obtain ⟨t, ht⟩ := exists_pattern pattern.toList h
  refine ⟨⟨t, ht⟩, hmeaning, ?_, ?_, ?_⟩
  · intro g hg a ha
    exact groupBodies_glued t g (ht ▸ hg) a ha
  · rw [hmeaning t ht]
    exact (nodup_eraseDups t.meaning).map fun _ _ he => String.ofList_inj.mp he
  · intro e he
    rw [hmeaning t ht] at he
    obtain ⟨m, hm, rfl⟩ := List.mem_map.mp he
    -- the text itself is the one meaning of the structure that it has now
    obtain ⟨q, hq, hone⟩ := exists_settled t m (List.mem_eraseDups.mp hm)
    rw [expandBraces, String.toList_ofList, ← hq, expand_text, hone, hq]
    rfl

theorem expandBraces_nested :
    EachClosed "{a,{b,c}d,{e}}.{t,}{s,s}".toList ∧
    expandBraces "{a,{b,c}d,{e}}.{t,}{s,s}" =
      ["a.ts", "a.s", "bd.ts", "bd.s", "cd.ts", "cd.s", "{e}.ts", "{e}.s"] ∧
    (expandBraces "{a,{b,c}d,{e}}.{t,}{s,s}").Nodup ∧
    ∀ e ∈ expandBraces "{a,{b,c}d,{e}}.{t,}{s,s}", expandBraces e = [e] := by
  have h : EachClosed "{a,{b,c}d,{e}}.{t,}{s,s}".toList := by decide +kernel
  obtain ⟨-, -, -, hnodup, hfull⟩ := expandBraces_eq_meaning _ h
  exact ⟨h, by decide +kernel, hnodup, hfull⟩

end TreeSelect.Glob
