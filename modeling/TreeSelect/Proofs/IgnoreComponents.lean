import TreeSelect.Ignore.Rule
import TreeSelect.Proofs.GroupedMatch

/-! A pattern with a slash is about the way from the working directory on. Ignore files are defined
component by component; here the text of a whole way is matched at once. The two agree as long as two
stars stand at the ends of the pattern only and no other component can match across a slash. -/
namespace TreeSelect.Ignore
open Glob

def dropLastSlash (cs : List Char) : List Char :=
  if cs.getLast? = some '/' then cs.dropLast else cs

def dropFirstSlash (cs : List Char) : List Char :=
  if cs.head? = some '/' then cs.tail else cs

/-- What a pattern says about names: a slash at its end is about directories, one in front about
nothing but that there is a slash. -/
def componentsOf (pattern : String) : List String :=
  (Text.split '/' (dropFirstSlash (dropLastSlash pattern.toList))).map String.ofList

/-- The ways from the working directory to a path or to a directory that it lies in; for a pattern
with a slash at its end to such a directory. -/
def LeadsTo (pattern : String) (way names : List String) : Prop :=
  way ≠ [] ∧ way <+: names ∧ (pattern.toList.getLast? = some '/' → way ≠ names)

/-- Whether a pattern with a slash excludes a path, as ignore files define it. -/
def ExcludesByComponents (pattern path : String) : Prop :=
  ∃ way, LeadsTo pattern way (Path.ofString path).names ∧
    TakesNames (componentsOf pattern) way

/-- A pattern with a slash in front of its last character, which is not negated. -/
structure IsSlashed (pattern : String) : Prop where
  trimmed : Text.trim pattern.toList = pattern.toList
  positive : pattern.toList.head? ≠ some '!'
  slash : '/' ∈ dropLastSlash pattern.toList

/-- There are no two slashes at an end, and no set in brackets reaches over a slash. -/
structure IsRegular (pattern : String) : Prop where
  first : (componentsOf pattern).head? ≠ some ""
  last : (componentsOf pattern).getLast? ≠ some ""
  sets : Sectioned (componentsOf pattern)

theorem slashed_componentsOf (pattern : String) :
    slashed (componentsOf pattern) = dropFirstSlash (dropLastSlash pattern.toList) := by
  have hid : String.toList ∘ String.ofList = id := funext fun l => String.toList_ofList
  rw [slashed, componentsOf, List.map_map, hid, List.map_id, split_eq_splitOn,
    List.intercalate_splitOn]

theorem componentsOf_ne_nil (pattern : String) : componentsOf pattern ≠ [] := by
  rw [componentsOf, split_eq_splitOn, Ne, List.map_eq_nil_iff]
  exact List.splitOn_ne_nil '/' _

theorem not_mem_slash_of_mem_componentsOf (pattern component : String)
    (h : component ∈ componentsOf pattern) : '/' ∉ component.toList := by
  obtain ⟨l, hl, rfl⟩ := List.mem_map.mp h
  rw [String.toList_ofList]
  exact not_mem_of_mem_split '/' _ l hl

theorem mem_beginnings_iff {α : Type} (names way : List α) :
    way ∈ beginnings names ↔ way ≠ [] ∧ way <+: names := by
  induction names generalizing way with
  | nil => simp [beginnings]
  | cons name names ih =>
    rw [beginnings, List.mem_cons, List.mem_map]
    constructor
    · intro h
      rcases h with rfl | ⟨later, hl, rfl⟩
      · exact ⟨by simp, ⟨names, rfl⟩⟩
      · exact ⟨by simp, List.cons_prefix_cons.mpr ⟨rfl, ((ih later).mp hl).2⟩⟩
    · intro h
      obtain ⟨hne, hp⟩ := h
      obtain ⟨first, later, rfl⟩ := List.exists_cons_of_ne_nil hne
      obtain ⟨rfl, hlater⟩ := List.cons_prefix_cons.mp hp
      by_cases hl : later = []
      · exact Or.inl (by rw [hl])
      · exact Or.inr ⟨later, (ih later).mpr ⟨hl, hlater⟩, rfl⟩

theorem prefix_dropLast_iff {α : Type} (names way : List α) (hne : names ≠ []) :
    way <+: names.dropLast ↔ way <+: names ∧ way ≠ names := by
  have hlast := List.dropLast_concat_getLast hne
  constructor
  · intro h
    refine ⟨h.trans (List.dropLast_prefix names), ?_⟩
    intro he
    have hle := h.length_le
    have hpos := List.length_pos_iff.mpr hne
    rw [he, List.length_dropLast] at hle
    omega
  · intro h
    obtain ⟨h, hway⟩ := h
    rw [← hlast, List.prefix_concat_iff] at h
    rcases h with h | h
    · exact absurd (h.trans hlast) hway
    · exact h

theorem mem_beginnings_scope_iff (pattern text : String) (names way : List String) :
    way ∈ beginnings (Rule.scope ⟨text, true, pattern.toList.getLast? == some '/'⟩ names false) ↔
      LeadsTo pattern way names := by
  rw [mem_beginnings_iff, LeadsTo, Rule.scope]
  by_cases hd : pattern.toList.getLast? = some '/'
  · by_cases hn : names = []
    · subst hn
      simp only [List.dropLast_nil, ite_self, List.prefix_nil]
      constructor
      · intro h
        exact absurd h.2 h.1
      · intro h
        exact absurd h.2.1 h.1
    · simp [hd, prefix_dropLast_iff names way hn]
  · simp [hd]

theorem slashed_eq_cons (component : String) (components : List String) (hne : component ≠ "")
    (hc : '/' ∉ component.toList) :
    ∃ c rest, slashed (component :: components) = c :: rest ∧ c ≠ '/' := by
  obtain ⟨c, cs, he⟩ := List.exists_cons_of_ne_nil (l := component.toList) (by simpa using hne)
  have hslash : c ≠ '/' := fun h => hc (by simp [he, h])
  by_cases hr : components = []
  · subst hr
    exact ⟨c, cs, by rw [slashed_singleton, he], hslash⟩
  · exact ⟨c, cs ++ '/' :: slashed components, by rw [slashed_cons _ _ hr, he, List.cons_append],
      hslash⟩

theorem slashed_eq_concat (component : String) (components : List String) (hne : component ≠ "")
    (hc : '/' ∉ component.toList) :
    ∃ front c, slashed (components ++ [component]) = front ++ [c] ∧ c ≠ '/' := by
  have hcs : component.toList ≠ [] := by simpa using hne
  obtain ⟨cs, c, he⟩ : ∃ cs c, component.toList = cs ++ [c] :=
    ⟨_, _, (List.dropLast_concat_getLast hcs).symm⟩
  have hslash : c ≠ '/' := fun h => hc (by simp [he, h])
  by_cases hr : components = []
  · subst hr
    exact ⟨cs, c, by rw [List.nil_append, slashed_singleton, he], hslash⟩
  · refine ⟨slashed components ++ '/' :: cs, c, ?_, hslash⟩
    rw [slashed_append _ _ hr (by simp), slashed_singleton, he, List.append_assoc, List.cons_append]

theorem dropWhile_slash (cs : List Char) (h : (dropFirstSlash cs).head? ≠ some '/') :
    cs.dropWhile (· = '/') = dropFirstSlash cs := by
  have hdone : ∀ ds : List Char, ds.head? ≠ some '/' → ds.dropWhile (· = '/') = ds := by
    intro ds hd
    cases ds with
    | nil => rfl
    | cons d ds => exact List.dropWhile_cons_of_neg (by simpa using hd)
  by_cases hc : cs.head? = some '/'
  · obtain ⟨rest, rfl⟩ := List.head?_eq_some_iff.mp hc
    rw [dropFirstSlash, if_pos hc, List.tail_cons] at h ⊢
    rw [List.dropWhile_cons_of_pos (by decide), hdone rest h]
  · rw [dropFirstSlash, if_neg hc, hdone cs hc]

theorem dropLastSlash_eq_reverse (cs : List Char) :
    dropLastSlash cs = (dropFirstSlash cs.reverse).reverse := by
  rw [dropLastSlash, dropFirstSlash, List.head?_reverse, List.tail_reverse]
  split <;> rw [List.reverse_reverse]

theorem dropWhile_slash_reverse (cs : List Char) (h : (dropLastSlash cs).getLast? ≠ some '/') :
    (cs.reverse.dropWhile (· = '/')).reverse = dropLastSlash cs := by
  rw [dropLastSlash_eq_reverse, List.getLast?_reverse] at h
  rw [dropWhile_slash cs.reverse h, dropLastSlash_eq_reverse]

theorem getLast?_dropFirstSlash (cs : List Char) (hne : dropFirstSlash cs ≠ []) :
    (dropFirstSlash cs).getLast? = cs.getLast? := by
  rw [dropFirstSlash] at hne ⊢
  split at hne
  · next h =>
    obtain ⟨rest, rfl⟩ := List.head?_eq_some_iff.mp h
    rw [List.tail_cons] at hne
    rw [if_pos h, List.tail_cons, List.getLast?_cons_of_ne_nil hne]
  · next h => rw [if_neg h]

/-- All that is taken away of such a pattern is a slash at its end and one in front. -/
theorem compile_slashed (pattern : String) (hs : IsSlashed pattern) (hr : IsRegular pattern) :
    compile [pattern] = [⟨String.intercalate "/" (componentsOf pattern), true,
      pattern.toList.getLast? == some '/'⟩] := by
  have hslashed := slashed_componentsOf pattern
  have hmem := not_mem_slash_of_mem_componentsOf pattern
  have hne := componentsOf_ne_nil pattern
  obtain ⟨first, later, hcons⟩ := List.exists_cons_of_ne_nil hne
  obtain ⟨front, last, hconcat⟩ : ∃ front last, componentsOf pattern = front ++ [last] :=
    ⟨_, _, (List.dropLast_concat_getLast hne).symm⟩
  obtain ⟨c, cs, hc, hslash⟩ := slashed_eq_cons first later
    (by simpa [hcons] using hr.first) (hmem first (by simp [hcons]))
  obtain ⟨ds, d, hd, hlastslash⟩ := slashed_eq_concat last front
    (by simpa [hconcat] using hr.last) (hmem last (by simp [hconcat]))
  rw [← hcons, hslashed] at hc
  rw [← hconcat, hslashed] at hd
  have hbare : dropFirstSlash (dropLastSlash pattern.toList) ≠ [] := by simp [hc]
  have hend := dropWhile_slash_reverse pattern.toList
    (by simpa [← getLast?_dropFirstSlash _ hbare, hd] using hlastslash)
  have hfront := dropWhile_slash (dropLastSlash pattern.toList) (by simpa [hc] using hslash)
  have htext : String.intercalate "/" (componentsOf pattern) =
      String.ofList (dropFirstSlash (dropLastSlash pattern.toList)) := by
    rw [← String.toList_inj, toList_intercalate_slash, hslashed, String.toList_ofList]
  simp only [compile, compileOne, hs.trimmed, hs.positive, hend, hfront, hbare, htext,
    List.filterMap_cons, List.filterMap_nil, if_false, List.contains_iff_mem.mpr hs.slash]

/-- Where two stars and a slash begin the pattern, what follows them is an alternative. -/
theorem mem_alternatives_iff (components : List String) (hc : ∀ c ∈ components, '/' ∉ c.toList)
    (directoryOnly : Bool) (p : String) :
    p ∈ Rule.alternatives ⟨String.intercalate "/" components, true, directoryOnly⟩ ↔
      p = String.intercalate "/" components ∨
        ∃ rest, rest ≠ [] ∧ components = globstar :: rest ∧ p = String.intercalate "/" rest := by
  have hstars : ∀ rest, rest ≠ [] → components = globstar :: rest →
      (String.intercalate "/" components).toList = '*' :: '*' :: '/' :: slashed rest := by
    intro rest hne he
    rw [he, toList_intercalate_slash, slashed_cons _ _ hne]
    rfl
  rw [Rule.alternatives]
  split
  · next later he =>
    have hcut : slashed components = ['*', '*'] ++ '/' :: later := by
      rw [← toList_intercalate_slash, he]
      rfl
    obtain ⟨group, rest, hg, hr, rfl, hgroup, rfl⟩ := exists_cut components hc _ later hcut
    obtain ⟨name, rfl⟩ := eq_singleton_of_not_mem_slash group hg (by rw [← hgroup]; decide)
    have hname : name = globstar := by
      rw [slashed_singleton] at hgroup
      exact String.toList_inj.mp hgroup.symm
    have hrest : String.ofList (slashed rest) = String.intercalate "/" rest := by
      rw [← String.toList_inj, String.toList_ofList, toList_intercalate_slash]
    subst hname
    rw [List.mem_cons, List.mem_singleton, hrest]
    constructor
    · intro h
      rcases h with hp | hp
      · exact Or.inl hp
      · exact Or.inr ⟨rest, hr, rfl, hp⟩
    · intro h
      rcases h with hp | ⟨_, _, he, hp⟩
      · exact Or.inl hp
      · rw [List.singleton_append, List.cons.injEq] at he
        exact Or.inr (by rw [hp, he.2])
  · next hno =>
    rw [List.mem_singleton]
    constructor
    · exact Or.inl
    · intro h
      rcases h with hp | ⟨rest, hne, he, _⟩
      · exact hp
      · exact absurd (hstars rest hne he) (hno _)

/-- A pattern with a slash keeps out a path if one of the ways to it falls into groups of names, one
for each component; two stars in front may stand for no group. -/
theorem ignoresPath_iff_grouped (pattern path : String) (hs : IsSlashed pattern)
    (hr : IsRegular pattern) (hpath : (Path.ofString path).isAbsolute = false) :
    ignoresPath [pattern] path = true ↔
      ∃ way, LeadsTo pattern way (Path.ofString path).names ∧
        (Grouped (componentsOf pattern) way ∨
          ∃ rest, componentsOf pattern = globstar :: rest ∧ Grouped rest way) := by
  have hparts : (Path.ofString path).parts = (Path.ofString path).names := by
    rw [Path.parts, hpath]
    rfl
  have hsets := hr.sets
  have hcs := componentsOf_ne_nil pattern
  rw [ignoresPath, isIgnored, hparts, compile_slashed pattern hs hr, List.any_cons,
    List.any_nil, Bool.or_false, Bool.and_eq_true, Rule.excludes, if_pos rfl, List.any_eq_true]
  simp only [mem_beginnings_scope_iff, List.any_eq_true,
    mem_alternatives_iff _ (not_mem_slash_of_mem_componentsOf pattern)]
  -- the names of a path have no slashes, so a slash of the pattern takes one between them
  have hway : ∀ way, LeadsTo pattern way (Path.ofString path).names →
      way ≠ [] ∧ ∀ n ∈ way, '/' ∉ n.toList := by
    intro way hl
    exact ⟨hl.1, fun n hn => (Path.names_ofString path n (hl.2.1.subset hn)).2.2⟩
  constructor
  · intro h
    obtain ⟨_, way, hl, p, rfl | ⟨rest, hne, he, rfl⟩, hp⟩ := h
    · obtain ⟨hne, hn⟩ := hway way hl
      exact ⟨way, hl, Or.inl ((wildcard_iff_grouped _ way hsets hcs hne hn).mp hp)⟩
    · obtain ⟨hwne, hn⟩ := hway way hl
      rw [he] at hsets
      exact ⟨way, hl, Or.inr ⟨rest, he,
        (wildcard_iff_grouped rest way (hsets.tail rest hne) hne hwne hn).mp hp⟩⟩
  · intro h
    obtain ⟨way, hl, hg⟩ := h
    obtain ⟨hwne, hn⟩ := hway way hl
    have hnames : (Path.ofString path).names ≠ [] := by
      intro he
      exact hwne (List.prefix_nil.mp (he ▸ hl.2.1))
    refine ⟨by simpa using hnames, way, hl, ?_⟩
    rcases hg with hg | ⟨rest, he, hg⟩
    · exact ⟨_, Or.inl rfl, (wildcard_iff_grouped _ way hsets hcs hwne hn).mpr hg⟩
    · have hne : rest ≠ [] := hg.components_ne_nil
      rw [he] at hsets
      exact ⟨_, Or.inr ⟨rest, hne, he, rfl⟩,
        (wildcard_iff_grouped rest way (hsets.tail rest hne) hne hwne hn).mpr hg⟩

theorem LeadsTo.of_prefix (pattern : String) (front way names : List String) (hf : front ≠ [])
    (hp : front <+: way) (h : LeadsTo pattern way names) : LeadsTo pattern front names := by
  obtain ⟨_, hw, hd⟩ := h
  refine ⟨hf, hp.trans hw, ?_⟩
  intro hslash he
  -- a beginning of the way that is the whole path leaves no room for a longer way
  rw [he] at hp
  exact hd hslash (hw.eq_of_length (Nat.le_antisymm hw.length_le hp.length_le))

/-- A pattern with a slash keeps out all that it excludes by its components, if two stars stand at its
ends only; and nothing else, if no other component can match across a slash, but for stars at the end
of the last one. -/
theorem ignoresPath_by_components (pattern path : String) (hs : IsSlashed pattern)
    (hr : IsRegular pattern) (hpath : (Path.ofString path).isAbsolute = false) :
    ((∀ c ∈ (componentsOf pattern).tail.dropLast, c ≠ globstar) →
      ExcludesByComponents pattern path → ignoresPath [pattern] path = true) ∧
    ((∀ c ∈ (componentsOf pattern).dropLast, c = globstar ∨ Held c) →
      (∀ c ∈ (componentsOf pattern).getLast?, HeldAtFront c) →
      ignoresPath [pattern] path = true → ExcludesByComponents pattern path) := by
  have hexact := ignoresPath_iff_grouped pattern path hs hr hpath
  constructor
  · intro hstars hlaw
    obtain ⟨way, hl, htakes⟩ := hlaw
    rw [hexact]
    exact ⟨way, hl, htakes.grouped_or_tail _ way hstars (componentsOf_ne_nil pattern)⟩
  · intro hheld hend hignored
    obtain ⟨way, hl, hg | ⟨rest, he, hg⟩⟩ := hexact.mp hignored
    · obtain ⟨front, hf, hp, htakes⟩ := hg.exists_takesNames _ way hheld hend
      exact ⟨front, hl.of_prefix pattern front way _ hf hp, htakes⟩
    · have hne : rest ≠ [] := hg.components_ne_nil
      rw [he, List.dropLast_cons_of_ne_nil hne] at hheld
      rw [he, List.getLast?_cons_of_ne_nil hne] at hend
      obtain ⟨front, hf, hp, htakes⟩ :=
        hg.exists_takesNames rest way (fun c hc => hheld c (List.mem_cons_of_mem _ hc)) hend
      refine ⟨front, hl.of_prefix pattern front way _ hf hp, ?_⟩
      rw [he]
      exact .stars [] rest front hne htakes

theorem generated_directory_ignored :
    ExcludesByComponents "/**/gen*/" "lib/generated/a.js" ∧
      ignoresPath ["/**/gen*/"] "lib/generated/a.js" = true := by
  have hc : componentsOf "/**/gen*/" = ["**", "gen*"] := by decide +kernel
  have hsets : Sectioned (componentsOf "/**/gen*/") := by
    rw [hc]
    exact sectioned_of_no_brackets _ (by decide)
  have hs : IsSlashed "/**/gen*/" := ⟨by decide +kernel, by decide +kernel, by decide +kernel⟩
  have hr : IsRegular "/**/gen*/" := ⟨by decide +kernel, by decide +kernel, hsets⟩
  have h := ignoresPath_by_components "/**/gen*/" "lib/generated/a.js" hs hr (by decide +kernel)
  have hfront : HeldAtFront "gen*" :=
    ⟨[.char 'g', .char 'e', .char 'n'], 1, by decide +kernel, by decide +kernel⟩
  rw [hc] at h
  have hlaw := h.2 (by simp [globstar]) (by simpa using hfront) (by decide +kernel)
  exact ⟨hlaw, h.1 (by simp) hlaw⟩

/-- A star takes a slash, and two stars in the middle of a pattern do not stand for no name. -/
theorem not_by_components :
    (ignoresPath ["src/*.js"] "src/a/b.js" = true ∧ ¬ExcludesByComponents "src/*.js" "src/a/b.js") ∧
      (ignoresPath ["a/**/b"] "a/b" = false ∧ ExcludesByComponents "a/**/b" "a/b") := by
  have hstar : componentsOf "src/*.js" = ["src", "*.js"] := by decide +kernel
  have hstars : componentsOf "a/**/b" = ["a", "**", "b"] := by decide +kernel
  have hdeep : (Path.ofString "src/a/b.js").names = ["src", "a", "b.js"] := by decide +kernel
  have hflat : (Path.ofString "a/b").names = ["a", "b"] := by decide +kernel
  refine ⟨⟨by decide +kernel, ?_⟩, by decide +kernel, ["a", "b"], ?_, ?_⟩
  · intro h
    obtain ⟨way, ⟨_, hp, _⟩, htakes⟩ := h
    rw [hstar, takesNames_name_iff _ _ _ (by decide)] at htakes
    obtain ⟨first, rest, rfl, _, hrest⟩ := htakes
    obtain ⟨second, rest, rfl, hm, _⟩ := (takesNames_name_iff _ _ _ (by decide)).mp hrest
    rw [hdeep, List.cons_prefix_cons, List.cons_prefix_cons] at hp
    rw [hp.2.1] at hm
    exact absurd hm (by decide +kernel)
  · rw [hflat]
    exact ⟨by simp, List.prefix_refl _, by decide +kernel⟩
  · rw [hstars]
    exact .name "a" "a" _ _ (by decide) (by decide +kernel)
      (.stars [] ["b"] ["b"] (by simp)
        (.name "b" "b" _ _ (by decide) (by decide +kernel) .done))

end TreeSelect.Ignore
