import TreeSelect.Proofs.BraceExpansion

namespace TreeSelect.Glob

/-- With this text behind it, an opening brace is closed. -/
def IsClosed (rest : List Char) : Prop :=
  ∃ body after, rest = body ++ '}' :: after ∧ IsBalanced body

/-- With this text behind it, an opening brace begins a group with a choice. -/
def BeginsChoice (rest : List Char) : Prop :=
  ∃ body after, rest = body ++ '}' :: after ∧ IsBalanced body ∧ 1 < (alternatives body).length

/-- Some group of a pattern offers a choice, and each opening brace in front of it is closed. -/
def OffersChoice (p : List Char) : Prop :=
  ∃ front rest, p = front ++ '{' :: rest ∧ BeginsChoice rest ∧
    ∀ front' rest', p = front' ++ '{' :: rest' → front'.length < front.length → IsClosed rest'

theorem isClosed_iff (rest : List Char) : IsClosed rest ↔ (splitClose 0 rest).isSome = true := by
  simp only [IsClosed, Option.isSome_iff_exists, Prod.exists, splitClose_eq_some_iff, closes_zero_iff]

instance (rest : List Char) : Decidable (IsClosed rest) :=
  decidable_of_iff _ (isClosed_iff rest).symm

theorem IsClosed.append (rest more : List Char) (h : IsClosed rest) : IsClosed (rest ++ more) := by
  obtain ⟨body, after, rfl, hb⟩ := h
  exact ⟨body, after ++ more, by simp, hb⟩

/-- An opening brace is closed in one place only. -/
theorem balanced_unique (body body' after after' : List Char) (hb : IsBalanced body)
    (hb' : IsBalanced body') (he : body ++ '}' :: after = body' ++ '}' :: after') :
    body = body' ∧ after = after' := by
  have h := (splitClose_eq_some_iff 0 _ body after).mpr ⟨rfl, hb⟩
  have h' := (splitClose_eq_some_iff 0 _ body' after').mpr ⟨rfl, hb'⟩
  rw [he, h', Option.some.injEq, Prod.mk.injEq] at h
  exact ⟨h.1.symm, h.2.symm⟩

/-- What is opened in a text that closes all its braces is closed in that text. -/
theorem isClosed_of_closes (depth : Nat) (front rest : List Char)
    (h : Closes depth (front ++ '{' :: rest)) : IsClosed rest := by
  induction front generalizing depth with
  | nil =>
    obtain ⟨body, after, he, hb, -⟩ := exists_close 0 depth rest (by
      rw [Nat.zero_add]
      exact (closes_open_iff depth rest).mp h)
    exact ⟨body, after, he, hb⟩
  | cons c front ih =>
    rw [List.cons_append] at h
    by_cases ho : c = '{'
    · subst ho
      exact ih (depth + 1) ((closes_open_iff depth _).mp h)
    · by_cases hc : c = '}'
      · subst hc
        obtain ⟨d, -, hd⟩ := (closes_close_iff depth _).mp h
        exact ih d hd
      · exact ih depth ((closes_plain_iff depth c _ ho hc).mp h)

/-- The scan finds the first opening brace of a text and the brace that closes it. -/
theorem firstGroup?_eq_some_iff (p : List Char) (g : Group) :
    firstGroup? p = some g ↔ g.text = p ∧ '{' ∉ g.before ∧ IsBalanced g.body := by
  constructor
  · intro h
    refine ⟨text_of_firstGroup? h, ?_⟩
    induction p generalizing g with
    | nil => exact absurd h nofun
    | cons c p ih =>
      by_cases hc : c = '{'
      · subst hc
        obtain ⟨⟨body, after⟩, hs, rfl⟩ := Option.map_eq_some_iff.mp h
        exact ⟨List.not_mem_nil, ((splitClose_eq_some_iff 0 p body after).mp hs).2⟩
      · rw [firstGroup?, Option.map_eq_some_iff] at h
        · obtain ⟨g', hg, rfl⟩ := h
          obtain ⟨ho, hb⟩ := ih g' hg
          exact ⟨fun hm => (List.mem_cons.mp hm).elim (fun he => hc he.symm) ho, hb⟩
        · exact fun he => hc he
  · intro h
    obtain ⟨rfl, ho, hb⟩ := h
    exact firstGroup?_eq_some g.before g.body g.after ho hb

theorem firstGroup?_unclosed (front rest : List Char) (ho : '{' ∉ front) (hr : ¬ IsClosed rest) :
    firstGroup? (front ++ '{' :: rest) = none := by
  rw [isClosed_iff, Bool.not_eq_true, Option.isSome_eq_false_iff, Option.isNone_iff_eq_none] at hr
  induction front with
  | nil => rw [List.nil_append, firstGroup?, hr, Option.map_none]
  | cons c front ih =>
    obtain ⟨hc, ho⟩ := not_or.mp (mt List.mem_cons.mpr ho)
    rw [List.cons_append, firstGroup?, ih ho, Option.map_none]
    exact fun he => hc he.symm

/-- What stands in front of all opening braces is no part of a group. -/
theorem firstGroup?_append (front p : List Char) (ho : '{' ∉ front) :
    firstGroup? (front ++ p) =
      (firstGroup? p).map fun g => { g with before := front ++ g.before } := by
  induction front with
  | nil => simp
  | cons c front ih =>
    obtain ⟨hc, ho⟩ := not_or.mp (mt List.mem_cons.mpr ho)
    rw [List.cons_append, firstGroup?, ih ho, Option.map_map]
    · rfl
    · exact fun he => hc he.symm

section
variable (before body after : List Char) (ho : '{' ∉ before)
include ho

/-- The opening braces of a text are that of its first group, those in the group and those behind. -/
theorem opening_cases (front rest : List Char)
    (h : before ++ '{' :: (body ++ '}' :: after) = front ++ '{' :: rest) :
    (front = before ∧ rest = body ++ '}' :: after) ∨
    (∃ f r, body = f ++ '{' :: r ∧ front = before ++ '{' :: f ∧ rest = r ++ '}' :: after) ∨
    ∃ f, after = f ++ '{' :: rest ∧ front = before ++ '{' :: (body ++ '}' :: f) := by
  rcases List.append_eq_append_iff.mp h with ⟨more, rfl, hmore⟩ | ⟨more, rfl, hmore⟩
  · cases more with
    | nil =>
      rw [List.nil_append, List.cons.injEq] at hmore
      exact Or.inl ⟨List.append_nil before, hmore.2.symm⟩
    | cons c more =>
      obtain ⟨rfl, hbehind⟩ := List.cons.inj hmore
      -- the opening brace stands behind that of the group: in the group or behind it
      rcases List.append_eq_append_iff.mp hbehind with ⟨f, rfl, hf⟩ | ⟨r, rfl, hr⟩
      · cases f with
        | nil => exact absurd (List.cons.inj hf).1 (by decide)
        | cons c f =>
          obtain ⟨rfl, rfl⟩ := List.cons.inj hf
          exact Or.inr (Or.inr ⟨f, rfl, rfl⟩)
      · cases r with
        | nil => exact absurd (List.cons.inj hr).1 (by decide)
        | cons c r =>
          obtain ⟨rfl, rfl⟩ := List.cons.inj hr
          exact Or.inr (Or.inl ⟨more, r, rfl, rfl, rfl⟩)
  · cases more with
    | nil =>
      rw [List.nil_append, List.cons.injEq] at hmore
      exact Or.inl ⟨(List.append_nil front).symm, hmore.2⟩
    | cons c more =>
      -- no opening brace stands in front of the first one
      obtain ⟨rfl, -⟩ := List.cons.inj hmore
      exact absurd (List.mem_append_right front List.mem_cons_self) ho

/-- A choice is offered by the first group, in it or behind it. -/
theorem offersChoice_iff (hb : IsBalanced body) :
    OffersChoice (before ++ '{' :: (body ++ '}' :: after)) ↔
      1 < (alternatives body).length ∨ OffersChoice body ∨ OffersChoice after := by
  have hinside (f r : List Char) (h : body = f ++ '{' :: r) : IsClosed r :=
    isClosed_of_closes 0 f r (h ▸ hb)
  constructor
  · intro h
    obtain ⟨front, rest, he, ⟨inner, behind, hrest, hinner, hmany⟩, hclosed⟩ := h
    rcases opening_cases before body after ho front rest he with
      ⟨-, hr⟩ | ⟨f, r, hbody, -, hr⟩ | ⟨f, hafter, hfront⟩
    · left
      rw [(balanced_unique body inner after behind hb hinner (hr.symm.trans hrest)).1]
      exact hmany
    · right; left
      -- the group with the choice ends before the group that it stands in
      obtain ⟨inner', more, rfl, hinner'⟩ := hinside f r hbody
      rw [hr, List.append_assoc, List.cons_append] at hrest
      obtain ⟨rfl, -⟩ := balanced_unique inner' inner _ behind hinner' hinner hrest
      exact ⟨f, _, hbody, ⟨inner', more, rfl, hinner, hmany⟩, fun f' r' hf' _ => hinside f' r' hf'⟩
    · right; right
      refine ⟨f, rest, hafter, ⟨inner, behind, hrest, hinner, hmany⟩, ?_⟩
      intro f' r' hf' hlt
      apply hclosed (before ++ '{' :: (body ++ '}' :: f')) r'
      · simp [hf']
      · simp [hfront, hlt]
  · intro h
    rcases h with hmany | ⟨f, r, hbody, ⟨inner, behind, rfl, hinner, hmany⟩, -⟩ |
      ⟨f, r, hafter, hchoice, hclosed⟩
    · refine ⟨before, body ++ '}' :: after, rfl, ⟨body, after, rfl, hb, hmany⟩, ?_⟩
      intro front rest he hlt
      rcases opening_cases before body after ho front rest he with
        ⟨rfl, -⟩ | ⟨f, r, -, rfl, -⟩ | ⟨f, -, rfl⟩
      · omega
      · rw [List.length_append] at hlt
        omega
      · rw [List.length_append] at hlt
        omega
    · refine ⟨before ++ '{' :: f, _, ?_, ⟨inner, behind ++ '}' :: after, rfl, hinner, hmany⟩, ?_⟩
      · simp [hbody]
      · intro front rest he hlt
        rcases opening_cases before body after ho front rest he with
          ⟨-, rfl⟩ | ⟨f', r', hbody', -, rfl⟩ | ⟨f', -, rfl⟩
        · exact ⟨body, after, rfl, hb⟩
        · exact IsClosed.append r' _ (hinside f' r' hbody')
        · -- this brace stands behind the group
          rw [hbody] at hlt
          simp only [List.length_append, List.length_cons] at hlt
          omega
    · refine ⟨before ++ '{' :: (body ++ '}' :: f), r, by simp [hafter], hchoice, ?_⟩
      intro front rest he hlt
      rcases opening_cases before body after ho front rest he with
        ⟨-, rfl⟩ | ⟨f', r', hbody', -, rfl⟩ | ⟨f', hafter', rfl⟩
      · exact ⟨body, after, rfl, hb⟩
      · exact IsClosed.append r' _ (hinside f' r' hbody')
      · apply hclosed f' rest hafter'
        simpa using hlt

end

/-- Where the scan finds no group, no choice is offered. -/
theorem not_offersChoice_of_none (p : List Char) (h : firstGroup? p = none) : ¬ OffersChoice p := by
  intro hchoice
  obtain ⟨front, rest, rfl, ⟨body, after, rfl, hb, -⟩, hclosed⟩ := hchoice
  by_cases ho : '{' ∈ front
  · -- the first opening brace is closed, so it begins a group
    obtain ⟨front', rest', rfl, ho'⟩ := List.eq_append_cons_of_mem ho
    obtain ⟨body', after', he, hb'⟩ := hclosed front' (rest' ++ '{' :: (body ++ '}' :: after))
      (by simp) (by simp)
    have hg := firstGroup?_eq_some front' body' after' ho' hb'
    rw [← he] at hg
    simp [hg] at h
  · have hg := firstGroup?_eq_some front body after ho hb
    rw [hg] at h
    exact absurd h nofun

theorem count_group (p : List Char) (g : Group) (h : firstGroup? p = some g) :
    p.count '{' = g.before.count '{' + g.body.count '{' + g.after.count '{' + 1 := by
  rw [← text_of_firstGroup? h, Group.text]
  simp only [List.count_append, List.count_cons_self,
    List.count_cons_of_ne (show '}' ≠ '{' by decide)]
  omega

theorem count_alternative_le (p : List Char) (g : Group) (h : firstGroup? p = some g)
    (a : List Char) (ha : a ∈ alternatives g.body) :
    (g.before ++ a ++ g.after).count '{' < p.count '{' := by
  have hle : a.count '{' ≤ g.body.count '{' := count_le_of_mem_alternativesAt ha
  rw [count_group p g h, List.count_append, List.count_append]
  omega

/-- No expansion has more opening braces than the pattern, and if there was a choice, it has less: the
braces of the group from which an alternative is taken are gone. -/
theorem count_of_mem_expand (p e : List Char) (he : e ∈ expand p) :
    e.count '{' ≤ p.count '{' ∧ (OffersChoice p → e.count '{' < p.count '{') := by
  -- every text that is scanned again has fewer opening braces
  induction hn : p.count '{' using Nat.strongRecOn generalizing p e with
  | ind n ih =>
    subst hn
    cases hg : firstGroup? p with
    | none =>
      rw [expand_of_none p hg, List.mem_singleton] at he
      subst he
      exact ⟨Nat.le_refl _, fun h => absurd h (not_offersChoice_of_none e hg)⟩
    | some g =>
      have hcount := count_group p g hg
      by_cases hone : (alternatives g.body).length < 2
      · rw [expand_of_one p g hg hone, List.mem_eraseDups, List.mem_flatMap] at he
        obtain ⟨inner, hinner, he⟩ := he
        obtain ⟨rest, hrest, rfl⟩ := List.mem_map.mp he
        obtain ⟨hi, hilt⟩ := ih _ (by omega) g.body inner hinner rfl
        obtain ⟨hr, hrlt⟩ := ih _ (by omega) g.after rest hrest rfl
        have htext : (g.before ++ '{' :: (inner ++ '}' :: rest)).count '{' =
            g.before.count '{' + inner.count '{' + rest.count '{' + 1 := by
          simp only [List.count_append, List.count_cons_self,
            List.count_cons_of_ne (show '}' ≠ '{' by decide)]
          omega
        rw [htext, hcount]
        refine ⟨by omega, fun h => ?_⟩
        -- the choice is in the group or behind it, as the group itself has one alternative
        obtain ⟨hp, ho, hb⟩ := (firstGroup?_eq_some_iff p g).mp hg
        rw [← hp, Group.text, offersChoice_iff g.before g.body g.after ho hb] at h
        rcases h with hmany | hin | hbehind
        · omega
        · have := hilt hin
          omega
        · have := hrlt hbehind
          omega
      · rw [expand_of_many p g hg hone, List.mem_eraseDups, List.mem_flatMap] at he
        obtain ⟨a, ha, he⟩ := he
        have hlt := count_alternative_le p g hg a ha
        obtain ⟨hle, -⟩ := ih _ hlt (g.before ++ a ++ g.after) e he rfl
        exact ⟨by omega, fun _ => by omega⟩

/-- A pattern without a choice stands for itself. -/
theorem expand_of_not_offersChoice (p : List Char) (h : ¬ OffersChoice p) : expand p = [p] := by
  induction hn : p.count '{' using Nat.strongRecOn generalizing p with
  | ind n ih =>
    subst hn
    cases hg : firstGroup? p with
    | none => exact expand_of_none p hg
    | some g =>
      have hcount := count_group p g hg
      obtain ⟨hp, ho, hb⟩ := (firstGroup?_eq_some_iff p g).mp hg
      rw [← hp, Group.text, offersChoice_iff g.before g.body g.after ho hb, not_or, not_or] at h
      obtain ⟨hone, hin, hbehind⟩ := h
      have hbody := ih _ (by omega) g.body hin rfl
      have hafter := ih _ (by omega) g.after hbehind rfl
      calc expand p
          = ([g.body].flatMap fun inner => [g.after].map fun rest =>
              g.before ++ '{' :: (inner ++ '}' :: rest)).eraseDups := by
            rw [expand_of_one p g hg (by omega), hbody, hafter]
        _ = [g.text] := rfl
        _ = [p] := by rw [hp]

/-- A pattern stands for itself alone exactly if it offers no choice. -/
theorem expand_eq_self_iff (p : List Char) : expand p = [p] ↔ ¬ OffersChoice p := by
  constructor
  · intro h hchoice
    have hp : p ∈ expand p := by
      rw [h]
      exact List.mem_singleton_self p
    exact Nat.lt_irrefl _ ((count_of_mem_expand p p hp).2 hchoice)
  · exact expand_of_not_offersChoice p

instance (p : List Char) : Decidable (OffersChoice p) :=
  decidable_of_iff (¬ expand p = [p]) (by rw [expand_eq_self_iff, not_not])

/-- What stands in front of all opening braces, closing braces among it, stays in front of whatever the
rest is expanded to. -/
theorem expand_append (front p : List Char) (ho : '{' ∉ front) :
    expand (front ++ p) = (expand p).map (front ++ ·) := by
  induction hn : p.count '{' using Nat.strongRecOn generalizing p with
  | ind n ih =>
    subst hn
    have hinjective : Function.Injective (front ++ · : List Char → List Char) :=
      fun _ _ he => List.append_cancel_left he
    cases hg : firstGroup? p with
    | none =>
      have hnone : firstGroup? (front ++ p) = none := by
        rw [firstGroup?_append front p ho, hg, Option.map_none]
      rw [expand_of_none p hg, expand_of_none _ hnone, List.map_singleton]
    | some g =>
      have hsome : firstGroup? (front ++ p) = some { g with before := front ++ g.before } := by
        rw [firstGroup?_append front p ho, hg, Option.map_some]
      by_cases hone : (alternatives g.body).length < 2
      · rw [expand_of_one p g hg hone, expand_of_one _ _ hsome hone, ← eraseDups_map _ _ hinjective,
          List.map_flatMap]
        simp only [List.map_map, List.append_assoc, Function.comp_def]
      · rw [expand_of_many p g hg hone, expand_of_many _ _ hsome hone, ← eraseDups_map _ _ hinjective,
          List.map_flatMap]
        -- each alternative in the place of the group is again a text with fewer opening braces
        refine congrArg List.eraseDups (List.flatMap_congr fun a ha => ?_)
        rw [← ih _ (count_alternative_le p g hg a ha) (g.before ++ a ++ g.after) rfl]
        simp only [List.append_assoc]

theorem append_ofList_injective (front : String) :
    Function.Injective fun cs : List Char => front ++ String.ofList cs := by
  intro cs cs' he
  have hl := congrArg String.toList he
  simpa only [String.toList_append, String.toList_ofList, List.append_cancel_left_eq] using hl

theorem expandBraces_append (front p : String) (ho : '{' ∉ front.toList) :
    expandBraces (front ++ p) = (expandBraces p).map fun e => front ++ e := by
  rw [expandBraces, expandBraces, String.toList_append, expand_append _ _ ho, List.map_map,
    List.map_map]
  apply List.map_congr_left
  intro e _
  apply String.toList_inj.mp
  simp only [Function.comp_apply, String.toList_append, String.toList_ofList]

/-- Behind an opening brace that is never closed nothing is expanded: the pattern stands for itself.
That is what the rest of it comes to only if the rest offers no choice. A closing brace that closes
nothing leaves the rest to be expanded as it is. -/
theorem expandBraces_unclosed (front p : String)
    (hfront : ∀ c ∈ front.toList, c ≠ '{' ∧ c ≠ '}') (hp : ¬ IsClosed p.toList) :
    expandBraces (front.push '{' ++ p) = [front.push '{' ++ p] ∧
    (expandBraces (front.push '{' ++ p) = (expandBraces p).map (fun e => front.push '{' ++ e) ↔
      ¬ OffersChoice p.toList) ∧
    ∀ q, expandBraces (front.push '}' ++ q) = (expandBraces q).map fun e => front.push '}' ++ e := by
  have ho : '{' ∉ front.toList := fun h => (hfront _ h).1 rfl
  have hself : expandBraces (front.push '{' ++ p) = [front.push '{' ++ p] := by
    have hlist : (front.push '{' ++ p).toList = front.toList ++ '{' :: p.toList := by simp
    have hnone := firstGroup?_unclosed front.toList p.toList ho hp
    rw [expandBraces, hlist, expand_of_none _ hnone, ← hlist, List.map_singleton,
      String.ofList_toList]
  refine ⟨hself, ?_, ?_⟩
  · -- the two lists are the images of the rest and of its expansions
    have hmap : (expandBraces p).map (fun e => front.push '{' ++ e) =
        (expand p.toList).map fun cs => front.push '{' ++ String.ofList cs := by
      rw [expandBraces, List.map_map]
      rfl
    have hone : [front.push '{' ++ p] =
        [p.toList].map fun cs => front.push '{' ++ String.ofList cs := by
      rw [List.map_singleton, String.ofList_toList]
    rw [hself, hmap, hone, (List.map_injective_iff.mpr (append_ofList_injective _)).eq_iff, eq_comm]
    exact expand_eq_self_iff p.toList
  · intro q
    apply expandBraces_append
    simpa using ho

/-- The two groups behind the brace are kept as they are, as one of them offers a choice. -/
theorem expandBraces_lib :
    (∀ c ∈ "lib/".toList, c ≠ '{' ∧ c ≠ '}') ∧ ¬ IsClosed "{x}{a,b}.ts".toList ∧
    expandBraces ("lib/".push '{' ++ "{x}{a,b}.ts") = ["lib/".push '{' ++ "{x}{a,b}.ts"] ∧
    expandBraces ("lib/".push '{' ++ "{x}{a,b}.ts") ≠
      (expandBraces "{x}{a,b}.ts").map fun e => "lib/".push '{' ++ e := by
  have hfront : ∀ c ∈ "lib/".toList, c ≠ '{' ∧ c ≠ '}' := by simp
  have hp : ¬ IsClosed "{x}{a,b}.ts".toList := by decide +kernel
  have hchoice : OffersChoice "{x}{a,b}.ts".toList := by decide +kernel
  obtain ⟨hself, hiff, -⟩ := expandBraces_unclosed "lib/" "{x}{a,b}.ts" hfront hp
  exact ⟨hfront, hp, hself, fun he => hiff.mp he hchoice⟩

/-- Not every group behind an opening brace without a partner is expanded. -/
theorem unclosed_hides_group :
    ¬ ∀ front p : String, (∀ c ∈ front.toList, c ≠ '{' ∧ c ≠ '}') → ¬ IsClosed p.toList →
      expandBraces (front.push '{' ++ p) = (expandBraces p).map fun e => front.push '{' ++ e := by
  intro h
  have hall := h "" "{a,b}" (by simp) (by decide +kernel)
  have hself : expandBraces ("".push '{' ++ "{a,b}") = ["".push '{' ++ "{a,b}"] := by
    decide +kernel
  have hgroup : expandBraces "{a,b}" = ["a", "b"] := by decide +kernel
  rw [hself, hgroup] at hall
  exact absurd hall (by decide)

end TreeSelect.Glob
