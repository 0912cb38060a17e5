import TreeSelect.Glob.Segments
import TreeSelect.Proofs.PathText

/-! A pattern that is matched against the text of a whole way, slashes and all. A slash of the pattern
takes one of the slashes between the names, so that each component of the pattern takes one or more
names at once. That is matching name by name as long as two stars stand at the ends only and no item
of another component can take a slash. -/
namespace TreeSelect.Glob

theorem matchesItems_run_iff (items : List Item) (cs : List Char) :
    matchesItems (.run :: items) cs = true ↔
      ∃ taken rest, cs = taken ++ rest ∧ matchesItems items rest = true := by
  rw [matchesItems_run]
  induction cs with
  | nil =>
    rw [suffixes, List.any_cons, List.any_nil, Bool.or_false]
    constructor
    · intro h
      exact ⟨[], [], rfl, h⟩
    · intro h
      obtain ⟨taken, rest, he, h⟩ := h
      rwa [(List.append_eq_nil_iff.mp he.symm).2] at h
  | cons c cs ih =>
    rw [suffixes, List.any_cons, Bool.or_eq_true, ih]
    constructor
    · intro h
      rcases h with h | ⟨taken, rest, he, h⟩
      · exact ⟨[], c :: cs, rfl, h⟩
      · exact ⟨c :: taken, rest, by rw [he, List.cons_append], h⟩
    · intro h
      obtain ⟨taken, rest, he, h⟩ := h
      cases taken with
      | nil => exact Or.inl (by rwa [he])
      | cons t taken => exact Or.inr ⟨taken, rest, (List.cons.inj he).2, h⟩

theorem matchesItems_runs (k : Nat) (cs : List Char) :
    matchesItems (List.replicate k .run) cs = true ↔ k = 0 → cs = [] := by
  induction k generalizing cs with
  | zero => simp [matchesItems]
  | succ k ih =>
    rw [List.replicate_succ, matchesItems_run_iff]
    have hall : ∃ taken rest, cs = taken ++ rest ∧
        matchesItems (List.replicate k .run) rest = true :=
      ⟨cs, [], by simp, (ih []).mpr fun _ => rfl⟩
    simp [hall]

theorem matchesItems_append (items later : List Item) (cs : List Char) :
    matchesItems (items ++ later) cs = true ↔
      ∃ front rest, cs = front ++ rest ∧ matchesItems items front = true ∧
        matchesItems later rest = true := by
  induction items generalizing cs with
  | nil =>
    rw [List.nil_append]
    constructor
    · intro h
      exact ⟨[], cs, rfl, by rw [matchesItems]; rfl, h⟩
    · intro h
      obtain ⟨front, rest, rfl, hf, hr⟩ := h
      rw [matchesItems, List.isEmpty_iff] at hf
      rwa [hf]
  | cons item items ih =>
    rw [List.cons_append]
    by_cases hrun : item = .run
    · subst hrun
      rw [matchesItems_run_iff]
      constructor
      · intro h
        obtain ⟨taken, cs, rfl, h⟩ := h
        obtain ⟨front, rest, rfl, hf, hr⟩ := (ih cs).mp h
        refine ⟨taken ++ front, rest, by rw [List.append_assoc], ?_, hr⟩
        exact (matchesItems_run_iff items _).mpr ⟨taken, front, rfl, hf⟩
      · intro h
        obtain ⟨front, rest, rfl, hf, hr⟩ := h
        obtain ⟨taken, later, rfl, hl⟩ := (matchesItems_run_iff items front).mp hf
        exact ⟨taken, later ++ rest, by rw [List.append_assoc],
          (ih _).mpr ⟨later, rest, rfl, hl, hr⟩⟩
    · cases cs with
      | nil =>
        rw [matchesItems_cons_nil hrun]
        constructor
        · intro h
          exact absurd h Bool.false_ne_true
        · intro h
          obtain ⟨front, rest, he, hf, _⟩ := h
          rw [(List.append_eq_nil_iff.mp he.symm).1, matchesItems_cons_nil hrun] at hf
          exact hf
      | cons c cs =>
        rw [matchesItems_cons_cons hrun, Bool.and_eq_true, ih]
        constructor
        · intro h
          obtain ⟨hc, front, rest, rfl, hf, hr⟩ := h
          refine ⟨c :: front, rest, rfl, ?_, hr⟩
          rw [matchesItems_cons_cons hrun, hc, hf, Bool.and_self]
        · intro h
          obtain ⟨front, rest, he, hf, hr⟩ := h
          cases front with
          | nil =>
            rw [matchesItems_cons_nil hrun] at hf
            exact absurd hf Bool.false_ne_true
          | cons d front =>
            obtain ⟨rfl, rfl⟩ := List.cons.inj he
            rw [matchesItems_cons_cons hrun, Bool.and_eq_true] at hf
            exact ⟨hf.1, front, rest, rfl, hf.2, hr⟩

theorem matchesItems_char_cons (d : Char) (items : List Item) (cs : List Char) :
    matchesItems (.char d :: items) cs = true ↔
      ∃ rest, cs = d :: rest ∧ matchesItems items rest = true := by
  cases cs with
  | nil => simp [matchesItems]
  | cons c cs =>
    simp only [matchesItems, Item.takes, Bool.and_eq_true, beq_iff_eq, List.cons.injEq]
    constructor
    · intro h
      obtain ⟨hc, h⟩ := h
      exact ⟨cs, ⟨hc, rfl⟩, h⟩
    · intro h
      obtain ⟨rest, ⟨hc, rfl⟩, h⟩ := h
      exact ⟨hc, h⟩

/-- Names, or components of a pattern, with slashes between them. -/
def slashed (names : List String) : List Char := ['/'].intercalate (names.map String.toList)

theorem toList_intercalate_slash (names : List String) :
    (String.intercalate "/" names).toList = slashed names := String.toList_intercalate

theorem wildcard_intercalate (component : String) (group : List String) :
    wildcard component (String.intercalate "/" group) =
      matchesItems (itemsOf component.toList) (slashed group) := by
  rw [wildcard_eq, toList_intercalate_slash]

theorem slashed_singleton (name : String) : slashed [name] = name.toList := by
  rw [slashed, List.map_singleton, List.intercalate_singleton]

theorem intercalate_map_cons {α β : Type} (sep : β) (f : α → List β) (x : α) (xs : List α)
    (hne : xs ≠ []) :
    [sep].intercalate ((x :: xs).map f) = f x ++ sep :: [sep].intercalate (xs.map f) := by
  obtain ⟨y, ys, rfl⟩ := List.exists_cons_of_ne_nil hne
  rw [List.map_cons, List.map_cons, List.intercalate_cons_cons, List.append_assoc,
    List.singleton_append]

theorem slashed_cons (name : String) (names : List String) (hne : names ≠ []) :
    slashed (name :: names) = name.toList ++ '/' :: slashed names :=
  intercalate_map_cons '/' String.toList name names hne

theorem slashed_append (group later : List String) (hg : group ≠ []) (hl : later ≠ []) :
    slashed (group ++ later) = slashed group ++ '/' :: slashed later := by
  induction group with
  | nil => exact absurd rfl hg
  | cons name group ih =>
    by_cases hne : group = []
    · subst hne
      rw [List.singleton_append, slashed_cons name later hl, slashed_singleton]
    · calc slashed (name :: (group ++ later))
          = name.toList ++ '/' :: slashed (group ++ later) := slashed_cons name _ (by simp [hne])
        _ = name.toList ++ '/' :: (slashed group ++ '/' :: slashed later) := by rw [ih hne]
        _ = slashed (name :: group) ++ '/' :: slashed later := by
          rw [slashed_cons name group hne, List.append_assoc, List.cons_append]

/-- Each slash in the text of a way stands between two of its names. -/
theorem exists_cut (way : List String) (hn : ∀ n ∈ way, '/' ∉ n.toList) (front rest : List Char)
    (h : slashed way = front ++ '/' :: rest) :
    ∃ group later, group ≠ [] ∧ later ≠ [] ∧ way = group ++ later ∧ front = slashed group ∧
      rest = slashed later := by
  induction way generalizing front with
  | nil => simp [slashed] at h
  | cons name way ih =>
    have hname : '/' ∉ name.toList := hn name (by simp)
    by_cases hne : way = []
    · subst hne
      rw [slashed_singleton] at h
      exact absurd (show '/' ∈ name.toList by simp [h]) hname
    · rw [slashed_cons name way hne] at h
      rcases List.append_eq_append_iff.mp h with ⟨more, hfront, hlater⟩ | ⟨more, hmore, hrest⟩
      · -- the cut is behind the first name: either right there or at a later slash
        cases more with
        | nil =>
          refine ⟨[name], way, by simp, hne, rfl, ?_, ?_⟩
          · rw [hfront, List.append_nil, slashed_singleton]
          · exact (List.cons.inj hlater).2.symm
        | cons c more =>
          obtain ⟨rfl, hcut⟩ := List.cons.inj hlater
          obtain ⟨group, later, hg, hl, rfl, rfl, rfl⟩ :=
            ih (fun n hm => hn n (by simp [hm])) more hcut
          refine ⟨name :: group, later, by simp, hl, rfl, ?_, rfl⟩
          rw [hfront, slashed_cons name group hg]
      · cases more with
        | nil =>
          refine ⟨[name], way, by simp, hne, rfl, ?_, ?_⟩
          · rw [slashed_singleton, hmore, List.append_nil]
          · exact (List.cons.inj hrest).2
        | cons c more =>
          obtain ⟨rfl, _⟩ := List.cons.inj hrest
          exact absurd (show '/' ∈ name.toList by simp [hmore]) hname

theorem eq_singleton_of_not_mem_slash (way : List String) (hne : way ≠ [])
    (h : '/' ∉ slashed way) : ∃ name, way = [name] := by
  obtain ⟨name, way, rfl⟩ := List.exists_cons_of_ne_nil hne
  by_cases hw : way = []
  · exact ⟨name, by rw [hw]⟩
  · rw [slashed_cons name way hw] at h
    exact absurd (by simp) h

/-- Whether the components, one after the other, match one or more names each, as one text. -/
inductive Grouped : List String → List String → Prop
  | last (component : String) (way : List String) (hne : way ≠ [])
      (hc : wildcard component (String.intercalate "/" way) = true) : Grouped [component] way
  | cons (component : String) (group components way : List String) (hne : group ≠ [])
      (hc : wildcard component (String.intercalate "/" group) = true)
      (hr : Grouped components way) : Grouped (component :: components) (group ++ way)

theorem Grouped.components_ne_nil (components way : List String) (h : Grouped components way) :
    components ≠ [] := by
  cases h <;> simp

theorem Grouped.way_ne_nil (components way : List String) (h : Grouped components way) :
    way ≠ [] := by
  induction h with
  | last _ _ hne _ => exact hne
  | cons _ _ _ _ hne _ _ _ => simp [hne]

/-- The items of components that are read one by one, with slashes between them. -/
def jointItems (components : List String) : List Item :=
  [Item.char '/'].intercalate (components.map fun c => itemsOf c.toList)

theorem jointItems_singleton (component : String) :
    jointItems [component] = itemsOf component.toList := by
  rw [jointItems, List.map_singleton, List.intercalate_singleton]

theorem jointItems_cons (component : String) (components : List String) (hne : components ≠ []) :
    jointItems (component :: components) =
      itemsOf component.toList ++ .char '/' :: jointItems components :=
  intercalate_map_cons (Item.char '/') (fun c : String => itemsOf c.toList) component components hne

/-- Reading the components one by one gives the items of the whole: no set in brackets reaches over a
slash. -/
def Sectioned (components : List String) : Prop :=
  itemsOf (slashed components) = jointItems components

instance (components : List String) : Decidable (Sectioned components) :=
  inferInstanceAs (Decidable (_ = _))

theorem itemsOf_append (front rest : List Char) (hf : '[' ∉ front) :
    itemsOf (front ++ rest) = itemsOf front ++ itemsOf rest := by
  induction front with
  | nil => rw [List.nil_append, itemsOf, List.nil_append]
  | cons c front ih =>
    have hc : c ≠ '[' := fun he => hf (by simp [he])
    have hi := ih fun hm => hf (by simp [hm])
    rw [List.cons_append]
    by_cases hs : c = '*'
    · subst hs
      rw [itemsOf, itemsOf, hi, List.cons_append]
    · by_cases hq : c = '?'
      · subst hq
        rw [itemsOf, itemsOf, hi, List.cons_append]
      · rw [itemsOf, itemsOf, hi, List.cons_append] <;> simp_all

theorem itemsOf_slash (rest : List Char) :
    itemsOf ('/' :: rest) = Item.char '/' :: itemsOf rest := by
  rw [itemsOf] <;> simp

theorem sectioned_of_no_brackets (components : List String)
    (h : ∀ c ∈ components, '[' ∉ c.toList) : Sectioned components := by
  induction components with
  | nil =>
    rw [Sectioned, slashed, List.map_nil, List.intercalate_nil, itemsOf]
    rfl
  | cons c components ih =>
    by_cases hne : components = []
    · subst hne
      rw [Sectioned, slashed_singleton, jointItems_singleton]
    · have hi : Sectioned components := ih fun d hd => h d (by simp [hd])
      calc itemsOf (slashed (c :: components))
          = itemsOf c.toList ++ itemsOf ('/' :: slashed components) := by
            rw [slashed_cons c _ hne, itemsOf_append _ _ (h c (by simp))]
        _ = itemsOf c.toList ++ Item.char '/' :: jointItems components := by
            rw [itemsOf_slash, show itemsOf (slashed components) = jointItems components from hi]
        _ = jointItems (c :: components) := (jointItems_cons c _ hne).symm

theorem Sectioned.tail (components : List String) (hne : components ≠ [])
    (h : Sectioned (globstar :: components)) : Sectioned components := by
  have hglobstar : itemsOf globstar.toList = [.run, .run] := by decide +kernel
  have hstars : itemsOf (globstar.toList ++ '/' :: slashed components) =
      [.run, .run] ++ Item.char '/' :: itemsOf (slashed components) := by
    rw [itemsOf_append _ _ (by decide), hglobstar, itemsOf_slash]
  rw [Sectioned, slashed_cons globstar _ hne, hstars, jointItems_cons globstar _ hne,
    hglobstar] at h
  exact (List.cons.inj (List.append_cancel_left h)).2

theorem matches_iff_grouped (components way : List String) (hc : components ≠ [])
    (hne : way ≠ []) (hn : ∀ n ∈ way, '/' ∉ n.toList) :
    matchesItems (jointItems components) (slashed way) = true ↔ Grouped components way := by
  induction components generalizing way with
  | nil => exact absurd rfl hc
  | cons component components ih =>
    cases components with
    | nil =>
      rw [jointItems_singleton]
      constructor
      · intro h
        exact .last component way hne (by rwa [wildcard_intercalate])
      · intro h
        cases h with
        | last _ _ _ hm => rwa [wildcard_intercalate] at hm
        | cons _ _ _ _ _ _ hr => exact absurd rfl hr.components_ne_nil
    | cons next components =>
      have hlater : next :: components ≠ [] := List.cons_ne_nil _ _
      rw [jointItems_cons component _ hlater, matchesItems_append]
      simp only [matchesItems_char_cons]
      constructor
      · intro h
        obtain ⟨front, _, he, hf, rest, rfl, hr⟩ := h
        obtain ⟨group, later, hg, hl, rfl, rfl, rfl⟩ := exists_cut way hn front rest he
        have hnl : ∀ n ∈ later, '/' ∉ n.toList := fun n hm => hn n (by simp [hm])
        have hlaterGrouped := (ih later hlater hl hnl).mp hr
        exact .cons component group _ later hg (by rwa [wildcard_intercalate]) hlaterGrouped
      · intro h
        cases h with
        | cons _ group _ later hg hm hr =>
          have hl : later ≠ [] := hr.way_ne_nil
          have hnl : ∀ n ∈ later, '/' ∉ n.toList := fun n hm => hn n (by simp [hm])
          rw [wildcard_intercalate] at hm
          exact ⟨slashed group, _, slashed_append group later hg hl, hm, slashed later, rfl,
            (ih later hlater hl hnl).mpr hr⟩

theorem wildcard_iff_grouped (components way : List String) (hs : Sectioned components)
    (hc : components ≠ []) (hne : way ≠ []) (hn : ∀ n ∈ way, '/' ∉ n.toList) :
    wildcard (String.intercalate "/" components) (String.intercalate "/" way) = true ↔
      Grouped components way := by
  rw [wildcard_intercalate, toList_intercalate_slash, hs]
  exact matches_iff_grouped components way hc hne hn

/-- Whether the components match the names one by one. Two stars take any number of names, but at
least one at the end. -/
inductive TakesNames : List String → List String → Prop
  | done : TakesNames [] []
  | name (component name : String) (components names : List String) (hc : component ≠ globstar)
      (hm : wildcard component name = true) (hr : TakesNames components names) :
      TakesNames (component :: components) (name :: names)
  | stars (taken components names : List String) (hne : components ≠ [])
      (hr : TakesNames components names) : TakesNames (globstar :: components) (taken ++ names)
  | lastStars (taken : List String) (hne : taken ≠ []) : TakesNames [globstar] taken

theorem takesNames_name_iff (component : String) (components way : List String)
    (hc : component ≠ globstar) :
    TakesNames (component :: components) way ↔
      ∃ name rest, way = name :: rest ∧ wildcard component name = true ∧
        TakesNames components rest := by
  constructor
  · intro h
    cases h with
    | name _ name _ names _ hm hr => exact ⟨name, names, rfl, hm, hr⟩
    | stars _ _ _ _ _ => exact absurd rfl hc
    | lastStars _ _ => exact absurd rfl hc
  · intro h
    obtain ⟨name, rest, rfl, hm, hr⟩ := h
    exact .name component name components rest hc hm hr

theorem wildcard_globstar (name : String) : wildcard globstar name = true := by
  have hglobstar : itemsOf globstar.toList = List.replicate 2 .run := by decide +kernel
  rw [wildcard_eq, hglobstar, matchesItems_runs]
  intro h
  exact absurd h (by decide)

/-- With two stars at the end only, what is taken name by name is taken in groups of one name. -/
theorem TakesNames.grouped (components way : List String)
    (hs : ∀ c ∈ components.dropLast, c ≠ globstar) (hc : components ≠ [])
    (h : TakesNames components way) : Grouped components way := by
  induction h with
  | done => exact absurd rfl hc
  | name component name components names _ hm hr ih =>
    have hone : wildcard component (String.intercalate "/" [name]) = true := by simpa using hm
    by_cases hne : components = []
    · subst hne
      cases hr
      exact .last component [name] (by simp) hone
    · rw [List.dropLast_cons_of_ne_nil hne] at hs
      exact .cons component [name] components names (by simp) hone
        (ih (fun c hm => hs c (by simp [hm])) hne)
  | stars taken components names hne _ _ =>
    rw [List.dropLast_cons_of_ne_nil hne] at hs
    exact absurd rfl (hs globstar (by simp))
  | lastStars taken hne => exact .last globstar taken hne (wildcard_globstar _)

/-- With two stars at both ends, those in front take either a group or nothing. -/
theorem TakesNames.grouped_or_tail (components way : List String)
    (hs : ∀ c ∈ components.tail.dropLast, c ≠ globstar) (hc : components ≠ [])
    (h : TakesNames components way) :
    Grouped components way ∨ ∃ rest, components = globstar :: rest ∧ Grouped rest way := by
  obtain ⟨first, rest, rfl⟩ := List.exists_cons_of_ne_nil hc
  by_cases hf : first = globstar
  · subst hf
    cases h with
    | name _ _ _ _ hc _ _ => exact absurd rfl hc
    | stars taken _ names hne hr =>
      have hg : Grouped rest names := hr.grouped rest names hs hne
      by_cases htaken : taken = []
      · subst htaken
        exact Or.inr ⟨rest, rfl, hg⟩
      · exact Or.inl (.cons globstar taken rest names htaken (wildcard_globstar _) hg)
    | lastStars _ hne => exact Or.inl (.last globstar way hne (wildcard_globstar _))
  · refine Or.inl (h.grouped (first :: rest) way ?_ hc)
    intro c hm
    by_cases hr : rest = []
    · subst hr
      exact absurd hm List.not_mem_nil
    · rw [List.dropLast_cons_of_ne_nil hr, List.mem_cons] at hm
      rcases hm with rfl | hm
      · exact hf
      · exact hs c hm

/-- An item that takes one character, and never a slash. -/
def Item.Solid (item : Item) : Prop := item ≠ .run ∧ item.takes '/' = false

instance (item : Item) : Decidable item.Solid := inferInstanceAs (Decidable (_ ∧ _))

/-- A component that cannot match across a slash. -/
def Held (component : String) : Prop := ∀ item ∈ itemsOf component.toList, item.Solid

instance (component : String) : Decidable (Held component) :=
  inferInstanceAs (Decidable (∀ _ ∈ _, _))

/-- A component that can match across a slash with the stars at its end only. -/
def HeldAtFront (component : String) : Prop :=
  ∃ items k, itemsOf component.toList = items ++ List.replicate k .run ∧
    ∀ item ∈ items, item.Solid

theorem not_mem_slash_of_solid (items : List Item) (hs : ∀ item ∈ items, item.Solid)
    (cs : List Char) (h : matchesItems items cs = true) : '/' ∉ cs := by
  induction items generalizing cs with
  | nil =>
    rw [matchesItems, List.isEmpty_iff] at h
    simp [h]
  | cons item items ih =>
    obtain ⟨hrun, hslash⟩ := hs item (by simp)
    cases cs with
    | nil => exact List.not_mem_nil
    | cons c cs =>
      rw [matchesItems_cons_cons hrun, Bool.and_eq_true] at h
      have hc : '/' ≠ c := by
        intro he
        rw [← he, hslash] at h
        exact absurd h.1 Bool.false_ne_true
      have hrest := ih (fun i hi => hs i (by simp [hi])) cs h.2
      simp [hc, hrest]

theorem eq_singleton_of_held (component : String) (group : List String) (hh : Held component)
    (hne : group ≠ []) (hc : wildcard component (String.intercalate "/" group) = true) :
    ∃ name, group = [name] ∧ wildcard component name = true := by
  have hslash : '/' ∉ slashed group := by
    rw [wildcard_intercalate] at hc
    exact not_mem_slash_of_solid _ hh _ hc
  obtain ⟨name, rfl⟩ := eq_singleton_of_not_mem_slash group hne hslash
  exact ⟨name, rfl, by simpa using hc⟩

/-- What is in front of the stars at the end lies within the first name, and the stars take the rest
of that name. -/
theorem wildcard_head_of_heldAtFront (component name : String) (names : List String)
    (hh : HeldAtFront component)
    (hc : wildcard component (String.intercalate "/" (name :: names)) = true) :
    wildcard component name = true := by
  obtain ⟨items, k, hi, hs⟩ := hh
  rw [wildcard_intercalate, hi, matchesItems_append] at hc
  obtain ⟨front, rest, he, hf, hr⟩ := hc
  have hslash : '/' ∉ front := not_mem_slash_of_solid items hs front hf
  rw [wildcard_eq, hi, matchesItems_append]
  by_cases hne : names = []
  · subst hne
    rw [slashed_singleton] at he
    exact ⟨front, rest, he, hf, hr⟩
  · rw [slashed_cons name names hne] at he
    -- the front has no slash, and so ends where the name does or before
    rcases List.append_eq_append_iff.mp he with ⟨more, hfront, hlater⟩ | ⟨more, hname, hrest⟩
    · cases more with
      | nil =>
        refine ⟨front, [], by rw [hfront, List.append_nil, List.append_nil], hf, ?_⟩
        rw [matchesItems_runs]
        exact fun _ => rfl
      | cons c more =>
        obtain ⟨rfl, _⟩ := List.cons.inj hlater
        exact absurd (by simp [hfront]) hslash
    · refine ⟨front, more, hname, hf, ?_⟩
      rw [matchesItems_runs] at hr ⊢
      -- the rest holds a slash at least, so there is a star to take it
      intro hk
      have hnil := hr hk
      simp [hrest] at hnil

/-- Where no component but the last can match across a slash, and the last only behind all else, a way
that is taken in groups begins with one that is taken name by name. -/
theorem Grouped.exists_takesNames (components way : List String)
    (hh : ∀ c ∈ components.dropLast, c = globstar ∨ Held c)
    (hl : ∀ c ∈ components.getLast?, HeldAtFront c) (h : Grouped components way) :
    ∃ front, front ≠ [] ∧ front <+: way ∧ TakesNames components front := by
  induction h with
  | last component way hne hc =>
    -- the stars at the end took all the names behind the first as well
    obtain ⟨name, names, rfl⟩ := List.exists_cons_of_ne_nil hne
    refine ⟨[name], by simp, ⟨names, rfl⟩, ?_⟩
    by_cases hs : component = globstar
    · subst hs
      exact .lastStars [name] (by simp)
    · exact .name component name [] [] hs
        (wildcard_head_of_heldAtFront component name names (hl component (by simp)) hc) .done
  | cons component group components way hne hc hr ih =>
    have hcs : components ≠ [] := hr.components_ne_nil
    rw [List.dropLast_cons_of_ne_nil hcs] at hh
    rw [List.getLast?_cons_of_ne_nil hcs] at hl
    obtain ⟨front, hf, hp, ht⟩ := ih (fun c hm => hh c (by simp [hm])) hl
    refine ⟨group ++ front, by simp [hf], (List.prefix_append_right_inj group).mpr hp, ?_⟩
    rcases hh component (by simp) with rfl | hheld
    · exact .stars group components front hcs ht
    · have hs : component ≠ globstar := by
        intro he
        subst he
        exact absurd hheld (by decide +kernel)
      obtain ⟨name, rfl, hm⟩ := eq_singleton_of_held component group hheld hne hc
      exact .name component name components front hs hm ht

end TreeSelect.Glob
