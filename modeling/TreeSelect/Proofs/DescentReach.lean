import TreeSelect.Proofs.SearchFilter

namespace TreeSelect.Glob

/-- Every segment of a pattern takes some name, but for two stars, which need none. -/
def Satisfiable (pattern : List String) : Prop :=
  ∀ segment ∈ pattern, segment ≠ globstar → ∃ name, segmentMatches segment name = true

theorem Satisfiable.tail (segment : String) (segments : List String)
    (h : Satisfiable (segment :: segments)) : Satisfiable segments :=
  fun s hs => h s (List.mem_cons_of_mem segment hs)

/-- Two stars may take a name that is not hidden before what the other segments take. -/
theorem matchParts_plain_cons (segments names : List String) (name : String)
    (hn : isHidden name = false) (hm : matchParts segments names = true) :
    matchParts (globstar :: segments) (name :: names) = true := by
  apply (matchParts_globstar segments (name :: names)).mpr
  refine ⟨[name], names, rfl, ?_, hm⟩
  intro n hmem
  rwa [List.mem_singleton.mp hmem]

/-- A satisfiable pattern has a match, and if it has a segment at all, one with some name. -/
theorem exists_match (pattern : List String) (h : Satisfiable pattern) :
    ∃ names, matchParts pattern names = true ∧ (pattern ≠ [] → names ≠ []) := by
  induction pattern with
  | nil => exact ⟨[], rfl, fun hne => absurd rfl hne⟩
  | cons segment segments ih =>
    obtain ⟨names, hm, -⟩ := ih (h.tail segment segments)
    by_cases hs : segment = globstar
    · -- two stars need no name, but they may take one
      subst hs
      refine ⟨"a" :: names, ?_, fun _ => List.cons_ne_nil _ _⟩
      exact matchParts_plain_cons segments names "a" (by decide) hm
    · obtain ⟨name, hn⟩ := h segment List.mem_cons_self hs
      refine ⟨name :: names, ?_, fun _ => List.cons_ne_nil _ _⟩
      exact (matchParts_segment segment segments _ hs).mpr ⟨name, names, rfl, hn, hm⟩

/-- Below a directory that can be descended into, a path can match. -/
theorem exists_below_of_canDescend (pattern directory : List String) (h : Satisfiable pattern)
    (hd : canDescend pattern directory = true) :
    ∃ below, below ≠ [] ∧ matchParts pattern (directory ++ below) = true := by
  induction pattern generalizing directory with
  | nil =>
    rw [canDescend] at hd
    exact absurd hd Bool.false_ne_true
  | cons segment segments ih =>
    have htail := h.tail segment segments
    by_cases hs : segment = globstar
    · subst hs
      simp only [canDescend, ↓reduceIte, List.any_eq_true, mem_leftovers_iff, Bool.or_eq_true,
        List.isEmpty_iff] at hd
      obtain ⟨rest, ⟨taken, rfl, ht⟩, hnil | hrest⟩ := hd
      · -- the stars take all of the directory, and one name below it in front of the other segments
        subst hnil
        obtain ⟨names, hm, -⟩ := exists_match segments htail
        refine ⟨"a" :: names, List.cons_ne_nil _ _, ?_⟩
        apply (matchParts_globstar segments _).mpr
        refine ⟨taken ++ ["a"], names, by simp, ?_, hm⟩
        intro n hn
        rcases List.mem_append.mp hn with hn | hn
        · exact ht n hn
        · rw [List.mem_singleton.mp hn]
          decide
      · -- the stars end inside the directory
        obtain ⟨below, hne, hm⟩ := ih rest htail hrest
        refine ⟨below, hne, ?_⟩
        apply (matchParts_globstar segments _).mpr
        exact ⟨taken, rest ++ below, List.append_assoc taken rest below, ht, hm⟩
    · cases directory with
      | nil =>
        obtain ⟨names, hm, hne⟩ := exists_match (segment :: segments) h
        exact ⟨names, hne (List.cons_ne_nil _ _), hm⟩
      | cons name directory =>
        rw [canDescend, if_neg hs, Bool.and_eq_true] at hd
        obtain ⟨below, hne, hm⟩ := ih directory htail hd.2
        refine ⟨below, hne, ?_⟩
        apply (matchParts_segment segment segments _ hs).mpr
        exact ⟨name, directory ++ below, rfl, hd.1, hm⟩

end TreeSelect.Glob

namespace TreeSelect.Files
open Glob

/-- The text of the directory that names lead to from the base of a search on. -/
def Search.directoryAt (s : Search) (names : List String) : String :=
  (s.base.join ⟨"", names⟩).text

theorem directoryAt_nil (s : Search) : s.directoryAt [] = s.base.text := by
  show Path.text ⟨s.base.root, s.base.names ++ []⟩ = s.base.text
  rw [List.append_nil]

/-- A visit of a directory is of this one or of one below it. -/
theorem directory_of_mem_open (s : Search) (trail : Trail) (names : List String)
    (entries : List Entry) (below : List Visit) (v : Visit) (text : String)
    (hv : v ∈ s.open_ trail names entries below) (ht : v.directory? = some text) :
    text = s.directoryAt names ∨ v ∈ below := by
  rw [Search.open_] at hv
  split at hv
  · rw [List.mem_singleton] at hv
    subst hv
    exact Or.inl (Option.some.inj ht).symm
  · rw [List.cons_append, List.mem_cons, List.mem_append, List.mem_map] at hv
    rcases hv with rfl | ⟨file, -, rfl⟩ | hv
    · exact Or.inl (Option.some.inj ht).symm
    · -- a file that is found is no directory
      rw [Visit.directory?] at ht
      exact absurd ht (Option.some_ne_none text).symm
    · exact Or.inr hv

mutual

/-- Whatever directory is visited below another one, the search enters it. -/
theorem entered_of_mem_visit (s : Search) (e : Entry) (trail : Trail) (names : List String)
    (v : Visit) (text : String) (hv : v ∈ s.visit trail names e) (ht : v.directory? = some text) :
    ∃ way, text = s.directoryAt way ∧ s.enters way = true := by
  match e with
  | .file name content => exact absurd hv List.not_mem_nil
  | .link name target => exact absurd hv List.not_mem_nil
  | .directory name entries =>
    rw [Search.visit] at hv
    split at hv
    · next he =>
      rcases directory_of_mem_open s _ _ entries _ v text hv ht with hown | hbelow
      · exact ⟨names ++ [name], hown, he⟩
      · exact entered_of_mem_visitAll s entries _ _ v text hbelow ht
    · exact absurd hv List.not_mem_nil

theorem entered_of_mem_visitAll (s : Search) (entries : List Entry) (trail : Trail)
    (names : List String) (v : Visit) (text : String) (hv : v ∈ s.visitAll trail names entries)
    (ht : v.directory? = some text) : ∃ way, text = s.directoryAt way ∧ s.enters way = true := by
  match entries with
  | [] => exact absurd hv List.not_mem_nil
  | e :: entries =>
    rw [Search.visitAll, List.mem_append] at hv
    rcases hv with hv | hv
    · exact entered_of_mem_visit s e trail names v text hv ht
    · exact entered_of_mem_visitAll s entries trail names v text hv ht

end

/-- A walk visits the base and directories that it enters. -/
theorem entered_of_mem_run (s : Search) (v : Visit) (text : String) (hv : v ∈ s.run)
    (ht : v.directory? = some text) :
    ∃ way, text = s.directoryAt way ∧ (way = [] ∨ s.enters way = true) := by
  have hbase (e : PathError) (h : v ∈ [Visit.skipped s.base.text e]) :
      ∃ way, text = s.directoryAt way ∧ (way = [] ∨ s.enters way = true) := by
    rw [List.mem_singleton] at h
    subst h
    refine ⟨[], ?_, Or.inl rfl⟩
    rw [directoryAt_nil]
    exact (Option.some.inj ht).symm
  rw [Search.run] at hv
  split at hv
  · exact hbase _ hv
  · exact hbase _ hv
  · next trail _ =>
    rcases directory_of_mem_open s trail [] _ _ v text hv ht with hown | hbelow
    · exact ⟨[], hown, Or.inl rfl⟩
    · obtain ⟨way, htext, he⟩ := entered_of_mem_visitAll s _ trail [] v text hbelow ht
      exact ⟨way, htext, Or.inr he⟩

/-- Below a directory that a walk visits, some pattern of the walk can match. -/
theorem exists_below_of_mem_run (s : Search) (hne : s.segments ≠ [])
    (hall : ∀ p ∈ s.segments, p ≠ [] ∧ Satisfiable p) (v : Visit) (text : String) (hv : v ∈ s.run)
    (ht : v.directory? = some text) :
    ∃ p ∈ s.segments, ∃ way below, text = s.directoryAt way ∧ below ≠ [] ∧
      matchParts p (way ++ below) = true := by
  obtain ⟨way, htext, rfl | he⟩ := entered_of_mem_run s v text hv ht
  · -- the base is read whatever is in it, but no pattern of a walk is empty
    obtain ⟨p, hp⟩ := List.exists_mem_of_ne_nil s.segments hne
    obtain ⟨names, hm, hnames⟩ := exists_match p (hall p hp).2
    exact ⟨p, hp, [], names, htext, hnames (hall p hp).1, hm⟩
  · rw [Search.enters, Bool.and_eq_true] at he
    obtain ⟨p, hp, hd⟩ := List.any_eq_true.mp he.2
    obtain ⟨below, hbelow, hm⟩ := exists_below_of_canDescend p way (hall p hp).2 hd
    exact ⟨p, hp, way, below, htext, hbelow, hm⟩

theorem mem_of_mem_dropRepeated (seen : List String) (visits : List Visit) (v : Visit)
    (hv : v ∈ dropRepeated seen visits) : v ∈ visits := by
  induction visits generalizing seen with
  | nil => exact absurd hv List.not_mem_nil
  | cons visit visits ih =>
    have hcons (more : List String) (h : v ∈ visit :: dropRepeated more visits) :
        v ∈ visit :: visits := by
      rcases List.mem_cons.mp h with rfl | h
      · exact List.mem_cons_self
      · exact List.mem_cons_of_mem visit (ih more h)
    cases visit with
    | read directory => exact hcons seen hv
    | skipped directory error => exact hcons seen hv
    | found path =>
      rw [dropRepeated] at hv
      split at hv
      · exact List.mem_cons_of_mem _ (ih seen hv)
      · exact hcons (path :: seen) hv

theorem exists_run_of_mem_search (root : List Entry) (directory : Path) (pattern : String)
    (ignored : List String) (v : Visit) (hv : v ∈ search root directory pattern ignored) :
    ∃ g ∈ groupsOf pattern, v ∈ (searchOf root directory (Ignore.compile ignored) g).run := by
  have hall : v ∈ (searchesOf root directory pattern ignored).flatMap Search.run := by
    rw [search] at hv
    split at hv
    · exact mem_of_mem_dropRepeated [] _ v hv
    · exact hv
  rw [searchesOf, List.flatMap_map] at hall
  exact List.mem_flatMap.mp hall

/-- A search visits a directory only if some names below it would make a file that some expansion of
its pattern takes. -/
theorem exists_below_of_mem_search (root : List Entry) (directory : Path) (pattern : String)
    (ignored : List String) (hall : ∀ e ∈ expandBraces pattern, Satisfiable (splitBase e).2)
    (v : Visit) (text : String) (hv : v ∈ search root directory pattern ignored)
    (ht : v.directory? = some text) :
    ∃ e ∈ expandBraces pattern, ∃ way below,
      text = ((directory.join (splitBase e).1).join ⟨"", way⟩).text ∧ below ≠ [] ∧
        matchParts (splitBase e).2 (way ++ below) = true := by
  obtain ⟨⟨base, patterns⟩, hg, hrun⟩ := exists_run_of_mem_search root directory pattern ignored v hv
  have hgroup (p : List String) (hp : p ∈ patterns) :
      p ≠ [] ∧ ∃ e ∈ expandBraces pattern, splitBase e = (base, p) :=
    (grouped_groupsOf pattern base p).mp ⟨patterns, hg, hp⟩
  have hsatisfiable (p : List String) (hp : p ∈ patterns) : p ≠ [] ∧ Satisfiable p := by
    obtain ⟨hne, e, he, hs⟩ := hgroup p hp
    have h := hall e he
    rw [hs] at h
    exact ⟨hne, h⟩
  obtain ⟨p, hp, way, below, htext, hbelow, hm⟩ := exists_below_of_mem_run
    (searchOf root directory (Ignore.compile ignored) (base, patterns))
    (groupsOf_ne_nil pattern _ hg) hsatisfiable v text hrun ht
  obtain ⟨-, e, he, hs⟩ := hgroup p hp
  refine ⟨e, he, way, below, ?_, hbelow, ?_⟩
  · rw [hs]
    exact htext
  · rw [hs]
    exact hm

/-- A directory can be descended into if a path below it matches, and only then if each segment takes
some name. A search whose segments do so visits no directory below which nothing could be found. -/
theorem descent_exact (segments names : List String) :
    (∀ below, below ≠ [] → matchParts segments (names ++ below) = true →
      canDescend segments names = true) ∧
    (Satisfiable segments → (canDescend segments names = true ↔
      ∃ below, below ≠ [] ∧ matchParts segments (names ++ below) = true)) ∧
    ∀ (root : List Entry) (directory : Path) (pattern : String) (ignored : List String),
      (∀ e ∈ expandBraces pattern, Satisfiable (splitBase e).2) →
      ∀ v ∈ search root directory pattern ignored, ∀ text, v.directory? = some text →
        ∃ e ∈ expandBraces pattern, ∃ way below,
          text = ((directory.join (splitBase e).1).join ⟨"", way⟩).text ∧ below ≠ [] ∧
            matchParts (splitBase e).2 (way ++ below) = true := by
  refine ⟨canDescend_of_matchParts segments names, ?_, ?_⟩
  · intro h
    constructor
    · exact exists_below_of_canDescend segments names h
    · intro hbelow
      obtain ⟨below, hne, hm⟩ := hbelow
      exact canDescend_of_matchParts segments names below hne hm
  · intro root directory pattern ignored hall v hv text ht
    exact exists_below_of_mem_search root directory pattern ignored hall v text hv ht

theorem read_sampleTree :
    Visit.read "/w/src/gen" ∈ search sampleTree ⟨"/", ["w"]⟩ "src/**/*.test.ts" [] := by
  have hgroups : groupsOf "src/**/*.test.ts" = [(⟨"", ["src"]⟩, [["**", "*.test.ts"]])] := by
    decide +kernel
  have hbase : Path.join ⟨"/", ["w"]⟩ ⟨"", ["src"]⟩ = ⟨"/", ["w", "src"]⟩ := by decide +kernel
  have hresolve : resolve sampleTree ⟨"/", ["w", "src"]⟩ = .ok (.directory
      [("src", [.directory ".git" [.file "c.ts" []], .file "b.ts" [],
        .directory "gen" [.file "d.ts" []]]), ("w", entriesOf sampleTree "w")]) := by
    simp [resolve, follow, sampleTree, entriesOf, find?, Entry.name, Trail.entries]
  have hgen : Ignore.isIgnored (Ignore.compile [])
        (Path.relative (Path.normal ["w"]) (Path.normal ["w", "src"]) ++ ["gen"]) true = false ∧
      canDescend ["**", "*.test.ts"] ["gen"] = true := by
    decide +kernel
  have htext : (Path.join ⟨"/", ["w", "src"]⟩ ⟨"", ["gen"]⟩).text = "/w/src/gen" := by
    decide +kernel
  rw [search, searchesOf, hgroups]
  simp only [searchOf, hbase, List.map_singleton, List.length_singleton, Nat.lt_irrefl, if_false,
    List.flatMap_singleton]
  rw [Search.run, hresolve]
  -- the walk comes to `gen` behind the hidden directory and the file beside it
  simp [Trail.entries, Search.open_, Search.visitAll, Search.visit, fileNames, fileName?,
    Search.enters, Search.ignores, Except.map, pure, Except.pure, bind, Except.bind, htext, hgen]

/-- A directory of which two stars take the last name, and one that a walk reads though no file in it
matches: one could. -/
theorem descent_exact_tests :
    (Satisfiable ["src", "**", "*.test.ts"] ∧
      canDescend ["src", "**", "*.test.ts"] ["src", "lib"] = true ∧
      ∃ below, below ≠ [] ∧
        matchParts ["src", "**", "*.test.ts"] (["src", "lib"] ++ below) = true) ∧
    Visit.read "/w/src/gen" ∈ search sampleTree ⟨"/", ["w"]⟩ "src/**/*.test.ts" [] ∧
    ∃ e ∈ expandBraces "src/**/*.test.ts", ∃ way below,
      "/w/src/gen" = (Path.join (Path.join ⟨"/", ["w"]⟩ (splitBase e).1) ⟨"", way⟩).text ∧
        below ≠ [] ∧ matchParts (splitBase e).2 (way ++ below) = true := by
  have hfile : Satisfiable ["**", "*.test.ts"] := by
    intro segment hs hne
    rw [List.mem_cons, List.mem_singleton] at hs
    rcases hs with rfl | rfl
    · exact absurd rfl hne
    · exact ⟨"a.test.ts", by decide +kernel⟩
  have h : Satisfiable ["src", "**", "*.test.ts"] := by
    intro segment hs hne
    rcases List.mem_cons.mp hs with rfl | hs
    · exact ⟨"src", by decide +kernel⟩
    · exact hfile segment hs hne
  have hd : canDescend ["src", "**", "*.test.ts"] ["src", "lib"] = true := by decide +kernel
  obtain ⟨-, hiff, hread⟩ := descent_exact ["src", "**", "*.test.ts"] ["src", "lib"]
  have hall : ∀ e ∈ expandBraces "src/**/*.test.ts", Satisfiable (splitBase e).2 := by
    have he : expandBraces "src/**/*.test.ts" = ["src/**/*.test.ts"] := by decide +kernel
    have hs : (splitBase "src/**/*.test.ts").2 = ["**", "*.test.ts"] := by decide +kernel
    rw [he]
    intro e hmem
    rw [List.mem_singleton.mp hmem, hs]
    exact hfile
  exact ⟨⟨h, hd, (hiff h).mp hd⟩, read_sampleTree,
    hread sampleTree ⟨"/", ["w"]⟩ "src/**/*.test.ts" [] hall _ read_sampleTree "/w/src/gen" rfl⟩

end TreeSelect.Files
