import TreeSelect.Proofs.SearchWalk

/-! A search is a filter over the files of a directory tree. Braces, shared walks, pruning and the
dropping of repetitions lose no file that a pattern matches and find none twice. Only the file that
the fixed parts of a pattern name, taken as a directory to begin in, is not looked at. -/
namespace TreeSelect.Files
open Glob

/-- Some pattern with these segments is searched for in a base. -/
def Grouped (groups : List (Path × List (List String))) (base : Path) (segments : List String) :
    Prop :=
  ∃ patterns, (base, patterns) ∈ groups ∧ segments ∈ patterns

theorem grouped_addSegments (base b : Path) (segments p : List String)
    (groups : List (Path × List (List String))) :
    Grouped (addSegments base segments groups) b p ↔
      b = base ∧ p = segments ∨ Grouped groups b p := by
  induction groups with
  | nil => simp [addSegments, Grouped]
  | cons group groups ih =>
    obtain ⟨b', patterns⟩ := group
    have hcons (gs : List (Path × List (List String))) (ps : List (List String)) :
        Grouped ((b', ps) :: gs) b p ↔ (b = b' ∧ p ∈ ps) ∨ Grouped gs b p := by
      simp only [Grouped, List.mem_cons, Prod.mk.injEq]
      constructor
      · rintro ⟨qs, ⟨rfl, rfl⟩ | hq, hp⟩
        · exact Or.inl ⟨rfl, hp⟩
        · exact Or.inr ⟨qs, hq, hp⟩
      · rintro (⟨rfl, hp⟩ | ⟨qs, hq, hp⟩)
        · exact ⟨ps, Or.inl ⟨rfl, rfl⟩, hp⟩
        · exact ⟨qs, Or.inr hq, hp⟩
    rw [addSegments]
    split
    · next hb =>
      subst hb
      rw [hcons, hcons, List.mem_append, List.mem_singleton]
      tauto
    · rw [hcons, hcons, ih]
      tauto

theorem grouped_foldl (patterns : List String) (groups : List (Path × List (List String)))
    (b : Path) (p : List String) :
    Grouped (patterns.foldl (fun groups pattern =>
        let (base, segments) := splitBase pattern
        if segments = [] then groups else addSegments base segments groups) groups) b p ↔
      Grouped groups b p ∨ p ≠ [] ∧ ∃ e ∈ patterns, splitBase e = (b, p) := by
  induction patterns generalizing groups with
  | nil => simp
  | cons e patterns ih =>
    rw [List.foldl_cons, ih]
    obtain ⟨base, segments, hs⟩ : ∃ base segments, splitBase e = (base, segments) := ⟨_, _, rfl⟩
    simp only [List.mem_cons, exists_eq_or_imp, hs, Prod.mk.injEq]
    split
    · next hnil =>
      subst hnil
      constructor
      · tauto
      · rintro (hg | ⟨hp, ⟨rfl, rfl⟩ | he⟩)
        · exact Or.inl hg
        · exact absurd rfl hp
        · exact Or.inr ⟨hp, he⟩
    · next hne =>
      rw [grouped_addSegments]
      constructor
      · rintro ((⟨rfl, rfl⟩ | hg) | ⟨hp, he⟩)
        · exact Or.inr ⟨hne, Or.inl ⟨rfl, rfl⟩⟩
        · exact Or.inl hg
        · exact Or.inr ⟨hp, Or.inr he⟩
      · rintro (hg | ⟨hp, ⟨rfl, rfl⟩ | he⟩)
        · exact Or.inl (Or.inr hg)
        · exact Or.inl (Or.inl ⟨rfl, rfl⟩)
        · exact Or.inr ⟨hp, he⟩

theorem grouped_groupsOf (pattern : String) (b : Path) (p : List String) :
    Grouped (groupsOf pattern) b p ↔
      p ≠ [] ∧ ∃ e ∈ expandBraces pattern, splitBase e = (b, p) := by
  rw [groupsOf, grouped_foldl]
  simp [Grouped]

theorem addSegments_ne_nil (base : Path) (segments : List String)
    (groups : List (Path × List (List String))) (h : ∀ g ∈ groups, g.2 ≠ []) :
    ∀ g ∈ addSegments base segments groups, g.2 ≠ [] := by
  induction groups with
  | nil => simp [addSegments]
  | cons group groups ih =>
    obtain ⟨hg, hgs⟩ := List.forall_mem_cons.mp h
    rw [addSegments]
    split
    · exact List.forall_mem_cons.mpr ⟨by simp, hgs⟩
    · exact List.forall_mem_cons.mpr ⟨hg, ih hgs⟩

theorem groupsOf_ne_nil (pattern : String) : ∀ g ∈ groupsOf pattern, g.2 ≠ [] := by
  refine List.foldlRecOn
    (motive := fun groups : List (Path × List (List String)) => ∀ g ∈ groups, g.2 ≠ []) _ _ ?_ ?_
  · exact fun g hg => absurd hg List.not_mem_nil
  · intro groups h e _
    obtain ⟨base, segments, hs⟩ : ∃ base segments, splitBase e = (base, segments) := ⟨_, _, rfl⟩
    simp only [hs]
    split
    · exact h
    · exact addSegments_ne_nil base segments groups h

theorem mem_found_dropRepeated (seen : List String) (visits : List Visit) (path : String) :
    path ∈ found (dropRepeated seen visits) ↔ path ∈ found visits ∧ path ∉ seen := by
  induction visits generalizing seen with
  | nil => simp [dropRepeated, found]
  | cons visit visits ih =>
    cases visit with
    | read directory => exact ih seen
    | skipped directory error => exact ih seen
    | found p =>
      have hcons (vs : List Visit) : path ∈ found (.found p :: vs) ↔ path = p ∨ path ∈ found vs :=
        List.mem_cons
      rw [dropRepeated, hcons]
      split
      · next hp =>
        have hp' : p ∈ seen := by simpa using hp
        rw [ih]
        constructor
        · tauto
        · rintro ⟨rfl | hf, hs⟩
          · exact absurd hp' hs
          · exact ⟨hf, hs⟩
      · next hp =>
        have hp' : p ∉ seen := by simpa using hp
        rw [hcons, ih, List.mem_cons, not_or]
        constructor
        · rintro (rfl | ⟨hf, _, hs⟩)
          · exact ⟨Or.inl rfl, hp'⟩
          · exact ⟨Or.inr hf, hs⟩
        · rintro ⟨rfl | hf, hs⟩
          · exact Or.inl rfl
          · by_cases he : path = p
            · exact Or.inl he
            · exact Or.inr ⟨hf, he, hs⟩

theorem nodup_found_dropRepeated (seen : List String) (visits : List Visit) :
    (found (dropRepeated seen visits)).Nodup := by
  induction visits generalizing seen with
  | nil => exact List.nodup_nil
  | cons visit visits ih =>
    cases visit with
    | read directory => exact ih seen
    | skipped directory error => exact ih seen
    | found p =>
      rw [dropRepeated]
      split
      · exact ih seen
      · refine List.nodup_cons.mpr ⟨?_, ih (p :: seen)⟩
        intro hp
        exact ((mem_found_dropRepeated _ _ _).mp hp).2 List.mem_cons_self

theorem relative_append (base more : List String) : Path.relative base (base ++ more) = more := by
  induction base with
  | nil => cases more <;> simp [Path.relative]
  | cons b base ih => simp [Path.relative, ih]

theorem normal_append (names fixed : List String) (hf : ".." ∉ fixed) :
    Path.normal (names ++ fixed) = Path.normal names ++ fixed := by
  induction fixed generalizing names with
  | nil => simp
  | cons name fixed ih =>
    have hname : name ≠ ".." := fun h => hf (by simp [h])
    have hfixed : ".." ∉ fixed := fun h => hf (by simp [h])
    have hone : Path.normal (names ++ [name]) = Path.normal names ++ [name] := by
      simp [Path.normal, hname]
    have hmore := ih (names ++ [name]) hfixed
    rw [hone] at hmore
    simpa using hmore

section

variable (root : List Entry) (directory : Path) (trail : Trail) (rules : List Ignore.Rule)
  (patterns : List (List String)) (fixed : List String)

theorem searchOf_fields (hf : ".." ∉ fixed) :
    (searchOf root directory rules (⟨"", fixed⟩, patterns)).base.names = directory.names ++ fixed ∧
    (searchOf root directory rules (⟨"", fixed⟩, patterns)).way = fixed := by
  have hbase : (directory.join ⟨"", fixed⟩).names = directory.names ++ fixed := rfl
  refine ⟨hbase, ?_⟩
  rw [searchOf, hbase, normal_append _ _ hf, relative_append]

/-- The walk for patterns with the same fixed parts finds the files below the directory of these
parts that some of the patterns match. -/
theorem found_searchOf (hd : resolve root directory = .ok (.directory trail))
    (ht : ArePlain (trail.entries root)) (hf : ∀ n ∈ fixed, n ≠ "." ∧ n ≠ "..") :
    (found (searchOf root directory rules (⟨"", fixed⟩, patterns)).run).Nodup ∧
    ∀ path, path ∈ found (searchOf root directory rules (⟨"", fixed⟩, patterns)).run ↔
      ∃ rest, rest ≠ [] ∧ fixed ++ rest ∈ filesOf (trail.entries root) ∧
        path = Path.text ⟨"", fixed ++ rest⟩ ∧
        Ignore.isIgnored rules (fixed ++ rest) false = false ∧
        ∃ p ∈ patterns, matchParts p rest = true := by
  let s := searchOf root directory rules (⟨"", fixed⟩, patterns)
  obtain ⟨hbase, hway⟩ := searchOf_fields root directory rules patterns fixed
    fun h => (hf _ h).2 rfl
  obtain ⟨left, hfollow⟩ := follow_append root linkLimit [] trail directory.names hd
  have hres : resolve s.root s.base = follow root left trail fixed := by
    rw [resolve, hbase]
    exact hfollow fixed
  have haccepts (rest : List String) : s.accepts rest = true ↔
      Ignore.isIgnored rules (fixed ++ rest) false = false ∧
        ∃ p ∈ patterns, matchParts p rest = true := by
    rw [Search.accepts, Search.ignores, hway, Bool.and_eq_true, Bool.not_eq_true',
      List.any_eq_true]
    exact Iff.rfl
  have htold (rest : List String) : s.told rest = Path.text ⟨"", fixed ++ rest⟩ := rfl
  cases hb : below? (trail.entries root) fixed with
  | none =>
    have hnil : found s.run = [] := by
      apply found_run_eq_nil
      intro t hr
      rw [hres] at hr
      have hsome := (below?_eq_some_iff root left trail fixed _ ht hf).mpr ⟨t, hr, rfl⟩
      rw [hb] at hsome
      cases hsome
    rw [hnil]
    refine ⟨List.nodup_nil, fun path => ⟨fun h => absurd h List.not_mem_nil, ?_⟩⟩
    rintro ⟨rest, hne, hm, _⟩
    obtain ⟨below, hbelow, _⟩ := (mem_filesOf_append _ fixed rest ht hne).mp hm
    rw [hb] at hbelow
    cases hbelow
  | some below =>
    obtain ⟨t, hr, rfl⟩ := (below?_eq_some_iff root left trail fixed _ ht hf).mp hb
    have hplain := arePlain_of_below? _ _ fixed ht hb
    have hperm := found_run s t (hres.trans hr) hplain
    have hmem (rest : List String) (hne : rest ≠ []) :
        fixed ++ rest ∈ filesOf (trail.entries root) ↔ rest ∈ filesOf (t.entries root) := by
      rw [mem_filesOf_append _ fixed rest ht hne, hb]
      simp
    constructor
    · refine hperm.nodup_iff.mpr (List.Nodup.map_on ?_ ((nodup_filesOf _ hplain).filter _))
      intro a ha b hb' he
      have ha' := (List.mem_filter.mp ha).1
      have hb'' := (List.mem_filter.mp hb').1
      have hna := ne_nil_of_mem_filesOf _ a ha'
      have hnb := ne_nil_of_mem_filesOf _ b hb''
      have hwhole := Path.text_injective (fixed ++ a) (fixed ++ b) (by simp [hna]) (by simp [hnb])
        (isName_of_mem_filesOf _ ht _ ((hmem a hna).mpr ha'))
        (isName_of_mem_filesOf _ ht _ ((hmem b hnb).mpr hb'')) he
      exact List.append_cancel_left hwhole
    · intro path
      rw [hperm.mem_iff, List.mem_map]
      constructor
      · rintro ⟨rest, hr, rfl⟩
        obtain ⟨hin, ha⟩ := List.mem_filter.mp hr
        have hne := ne_nil_of_mem_filesOf _ rest hin
        obtain ⟨hi, hp⟩ := (haccepts rest).mp ha
        exact ⟨rest, hne, (hmem rest hne).mpr hin, htold rest, hi, hp⟩
      · rintro ⟨rest, hne, hin, rfl, hi, hp⟩
        exact ⟨rest, List.mem_filter.mpr ⟨(hmem rest hne).mp hin, (haccepts rest).mpr ⟨hi, hp⟩⟩,
          htold rest⟩

end

theorem mem_enumerate (root : List Entry) (directory : Path) (pattern : String)
    (ignored : List String) (path : String) :
    path ∈ enumerate root directory pattern ignored ↔ ∃ g ∈ groupsOf pattern,
      path ∈ found (searchOf root directory (Ignore.compile ignored) g).run := by
  have hall : path ∈ found ((searchesOf root directory pattern ignored).flatMap Search.run) ↔
      ∃ g ∈ groupsOf pattern,
        path ∈ found (searchOf root directory (Ignore.compile ignored) g).run := by
    simp only [found, List.filterMap_flatMap, List.mem_flatMap, searchesOf, List.mem_map]
    constructor
    · rintro ⟨_, ⟨g, hg, rfl⟩, hp⟩
      exact ⟨g, hg, hp⟩
    · rintro ⟨g, hg, hp⟩
      exact ⟨_, ⟨g, hg, rfl⟩, hp⟩
  rw [← hall]
  change path ∈ found (search root directory pattern ignored) ↔ _
  rw [search]
  split
  · rw [mem_found_dropRepeated]
    simp
  · exact Iff.rfl

/-- The directory in which a walk begins is told by names that stay below the working directory. -/
theorem group_relative (pattern : String)
    (hp : ∀ e ∈ expandBraces pattern,
      (Path.ofString e).isAbsolute = false ∧ ".." ∉ (Path.ofString e).names)
    (base : Path) (patterns : List (List String)) (hg : (base, patterns) ∈ groupsOf pattern) :
    ∃ fixed, base = ⟨"", fixed⟩ ∧ ∀ n ∈ fixed, n ≠ "." ∧ n ≠ ".." := by
  obtain ⟨segments, hmem⟩ := List.exists_mem_of_ne_nil patterns (groupsOf_ne_nil pattern _ hg)
  obtain ⟨_, e, he, hs⟩ := (grouped_groupsOf pattern base segments).mp ⟨patterns, hg, hmem⟩
  obtain ⟨hrel, hdots⟩ := hp e he
  obtain ⟨fixed, rest, hsplit, _, hnames, _⟩ := splitBase_of_relative e hrel
  rw [hsplit, Prod.mk.injEq] at hs
  refine ⟨fixed, hs.1.symm, fun n hn => ⟨?_, ?_⟩⟩
  · exact (Path.names_ofString e n (by simp [hnames, hn])).2.1
  · rintro rfl
    exact hdots (by simp [hnames, hn])

theorem nodup_enumerate (root : List Entry) (directory : Path) (trail : Trail)
    (pattern : String) (ignored : List String)
    (hd : resolve root directory = .ok (.directory trail)) (ht : ArePlain (trail.entries root))
    (hp : ∀ e ∈ expandBraces pattern,
      (Path.ofString e).isAbsolute = false ∧ ".." ∉ (Path.ofString e).names) :
    (enumerate root directory pattern ignored).Nodup := by
  change (found (search root directory pattern ignored)).Nodup
  rw [search]
  split
  · exact nodup_found_dropRepeated [] _
  · next hone =>
    -- A walk that shares its search with no other repeats nothing by itself.
    rw [searchesOf, List.length_map] at hone
    rw [searchesOf]
    cases hgs : groupsOf pattern with
    | nil => exact List.nodup_nil
    | cons group groups =>
      have hnil : groups = [] := by
        rw [hgs, List.length_cons] at hone
        exact List.length_eq_zero_iff.mp (by omega)
      obtain ⟨base, patterns⟩ := group
      obtain ⟨fixed, rfl, hf⟩ := group_relative pattern hp base patterns (by simp [hgs])
      have hnodup := (found_searchOf root directory trail (Ignore.compile ignored) patterns fixed
        hd ht hf).1
      simpa [hnil] using hnodup

theorem ignoresPath_text (entries : List Entry) (ht : ArePlain entries) (ignored : List String)
    (names : List String) (hn : names ∈ filesOf entries) :
    Ignore.ignoresPath ignored (Path.text ⟨"", names⟩) =
      Ignore.isIgnored (Ignore.compile ignored) names false := by
  rw [Ignore.ignoresPath, Path.ofString_text names (ne_nil_of_mem_filesOf _ _ hn)
    (isName_of_mem_filesOf _ ht names hn)]
  rfl

/-- The files that a search finds are those of the directory tree that some expansion of the pattern
matches and no rule keeps out, each once. A file that is itself what the fixed parts of an expansion
name is not below a directory of that name and is left out. -/
theorem enumerate_eq_filter (root : List Entry) (directory : Path) (trail : Trail)
    (pattern : String) (ignored : List String)
    (hd : resolve root directory = .ok (.directory trail)) (ht : ArePlain (trail.entries root))
    (hp : ∀ e ∈ expandBraces pattern,
      (Path.ofString e).isAbsolute = false ∧ ".." ∉ (Path.ofString e).names) :
    (enumerate root directory pattern ignored).Nodup ∧
    ∀ path, path ∈ enumerate root directory pattern ignored ↔
      ∃ names ∈ filesOf (trail.entries root), path = Path.text ⟨"", names⟩ ∧
        (∃ e ∈ expandBraces pattern, names ≠ (splitBase e).1.names ∧
          matchParts (Path.ofString e).parts names = true) ∧
        Ignore.ignoresPath ignored path = false := by
  refine ⟨nodup_enumerate root directory trail pattern ignored hd ht hp, ?_⟩
  intro path
  have hignored := ignoresPath_text (trail.entries root) ht ignored
  rw [mem_enumerate]
  constructor
  · -- the names below the base, behind the fixed names, are the file's names from the root on
    rintro ⟨⟨base, patterns⟩, hg, hfound⟩
    obtain ⟨fixed, rfl, hf⟩ := group_relative pattern hp base patterns hg
    obtain ⟨rest, hne, hin, rfl, hi, p, hpat, hm⟩ := ((found_searchOf root directory trail
      (Ignore.compile ignored) patterns fixed hd ht hf).2 path).mp hfound
    obtain ⟨_, e, he, hs⟩ := (grouped_groupsOf pattern _ p).mp ⟨patterns, hg, hpat⟩
    obtain ⟨fixed', segments, hsplit, hparts, _, hwild⟩ := splitBase_of_relative e (hp e he).1
    rw [hsplit, Prod.mk.injEq, Path.mk.injEq] at hs
    obtain ⟨⟨_, rfl⟩, rfl⟩ := hs
    refine ⟨fixed' ++ rest, hin, rfl, ⟨e, he, ?_, ?_⟩, (hignored _ hin).trans hi⟩
    · rw [hsplit]
      simpa using hne
    · rw [hparts]
      exact (matchParts_fixed fixed' segments _ hwild).mpr ⟨rest, rfl, hm⟩
  · -- an expansion that matches below its base has segments left, so it is in some group
    rintro ⟨names, hin, rfl, ⟨e, he, hbase, hm⟩, hi⟩
    obtain ⟨fixed, segments, hsplit, hparts, _, hwild⟩ := splitBase_of_relative e (hp e he).1
    rw [hparts] at hm
    obtain ⟨rest, rfl, hrest⟩ := (matchParts_fixed fixed segments names hwild).mp hm
    have hne : rest ≠ [] := by
      rintro rfl
      exact hbase (by simp [hsplit])
    have hsegments : segments ≠ [] := by
      rintro rfl
      exact hne (by simpa [matchParts] using hrest)
    obtain ⟨patterns, hg, hpat⟩ := (grouped_groupsOf pattern ⟨"", fixed⟩ segments).mpr
      ⟨hsegments, e, he, hsplit⟩
    obtain ⟨fixed', hfix, hf⟩ := group_relative pattern hp _ patterns hg
    obtain rfl : fixed = fixed' := congrArg Path.names hfix
    refine ⟨_, hg, ((found_searchOf root directory trail (Ignore.compile ignored) patterns fixed
      hd ht hf).2 _).mpr ?_⟩
    exact ⟨rest, hne, hin, rfl, (hignored _ hin).symm.trans hi, segments, hpat, hrest⟩

/-- A directory with sources at two depths, one of them hidden and one generated. -/
def sampleTree : List Entry :=
  [.directory "w" [.file "a.ts" [], .directory "src" [.directory ".git" [.file "c.ts" []],
    .file "b.ts" [], .directory "gen" [.file "d.ts" []]]]]

theorem enumerate_sampleTree :
    resolve sampleTree ⟨"/", ["w"]⟩ = .ok (.directory [("w", entriesOf sampleTree "w")]) ∧
    ArePlain (entriesOf sampleTree "w") ∧
    (∀ e ∈ expandBraces "{**,src}/*.ts",
      (Path.ofString e).isAbsolute = false ∧ ".." ∉ (Path.ofString e).names) ∧
    (enumerate sampleTree ⟨"/", ["w"]⟩ "{**,src}/*.ts" ["gen/"]).Nodup ∧
    ∀ path, path ∈ enumerate sampleTree ⟨"/", ["w"]⟩ "{**,src}/*.ts" ["gen/"] ↔
      ∃ names ∈ filesOf (entriesOf sampleTree "w"), path = Path.text ⟨"", names⟩ ∧
        (∃ e ∈ expandBraces "{**,src}/*.ts", names ≠ (splitBase e).1.names ∧
          matchParts (Path.ofString e).parts names = true) ∧
        Ignore.ignoresPath ["gen/"] path = false := by
  have hd : resolve sampleTree ⟨"/", ["w"]⟩ =
      .ok (.directory [("w", entriesOf sampleTree "w")]) := by
    simp [resolve, follow, sampleTree, entriesOf, find?, Entry.name, Trail.entries]
  have ht : ArePlain (entriesOf sampleTree "w") := by
    simp [sampleTree, entriesOf, find?, Entry.name, ArePlain, Entry.IsPlain, IsName]
  have he : expandBraces "{**,src}/*.ts" = ["**/*.ts", "src/*.ts"] := by decide +kernel
  have hp : ∀ e ∈ expandBraces "{**,src}/*.ts",
      (Path.ofString e).isAbsolute = false ∧ ".." ∉ (Path.ofString e).names := by
    rw [he]
    decide
  exact ⟨hd, ht, hp, enumerate_eq_filter _ _ _ _ ["gen/"] hd ht hp⟩

/-- Not every file that a pattern matches is found: `a.js/**` matches the file `a.js`, as two stars
may stand for nothing, but the search begins in a directory of that name. -/
theorem file_at_base_not_found :
    ¬ ∀ (root : List Entry) (directory : Path) (trail : Trail) (pattern : String)
      (ignored : List String), resolve root directory = .ok (.directory trail) →
      ArePlain (trail.entries root) →
      (∀ e ∈ expandBraces pattern,
        (Path.ofString e).isAbsolute = false ∧ ".." ∉ (Path.ofString e).names) →
      (enumerate root directory pattern ignored).Nodup ∧
      ∀ path, path ∈ enumerate root directory pattern ignored ↔
        ∃ names ∈ filesOf (trail.entries root), path = Path.text ⟨"", names⟩ ∧
          (∃ e ∈ expandBraces pattern, matchParts (Path.ofString e).parts names = true) ∧
          Ignore.ignoresPath ignored path = false := by
  intro h
  have he : expandBraces "a.js/**" = ["a.js/**"] := by decide +kernel
  have hfiles : resolve [.directory "w" [.file "a.js" []]] ⟨"/", ["w"]⟩ =
      .ok (.directory [("w", [.file "a.js" []])]) := by
    simp [resolve, follow, find?, Entry.name, Trail.entries]
  have hplain : ArePlain [.file "a.js" []] := by simp [ArePlain, Entry.IsPlain, IsName]
  have hgroups : groupsOf "a.js/**" = [(⟨"", ["a.js"]⟩, [["**"]])] := by decide +kernel
  -- nothing stands below the base, as it is a file
  have hnot : "a.js" ∉ enumerate [.directory "w" [.file "a.js" []]] ⟨"/", ["w"]⟩ "a.js/**" [] := by
    rw [mem_enumerate, hgroups]
    rintro ⟨g, hg, hfound⟩
    obtain rfl := List.mem_singleton.mp hg
    obtain ⟨rest, hne, hin, -⟩ := ((found_searchOf _ _ _ (Ignore.compile []) [["**"]] ["a.js"] hfiles
      hplain (by simp)).2 "a.js").mp hfound
    simp [Trail.entries, filesOf, Entry.files] at hin
    exact hne hin
  have hmatch : matchParts (Path.ofString "a.js/**").parts ["a.js"] = true := by decide +kernel
  have hall := (h _ _ _ "a.js/**" [] hfiles hplain (by rw [he]; decide)).2 "a.js"
  exact hnot (hall.mpr ⟨["a.js"], by simp [Trail.entries, filesOf, Entry.files], by decide,
    ⟨"a.js/**", by simp [he], hmatch⟩, by decide⟩)

end TreeSelect.Files
