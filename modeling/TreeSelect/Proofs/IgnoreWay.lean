import TreeSelect.Ignore.Rule

namespace TreeSelect.Ignore

theorem mem_beginnings_append {α : Type} (xs ys way : List α) (h : way ∈ beginnings xs) :
    way ∈ beginnings (xs ++ ys) := by
  induction xs generalizing way with
  | nil => exact absurd h List.not_mem_nil
  | cons x xs ih =>
    rw [beginnings, List.mem_cons, List.mem_map] at h
    rw [List.cons_append, beginnings, List.mem_cons, List.mem_map]
    rcases h with rfl | ⟨later, hl, rfl⟩
    · exact Or.inl rfl
    · exact Or.inr ⟨later, ih later hl, rfl⟩

theorem scope_directory (r : Rule) (names : List String) : r.scope names true = names := by
  simp [Rule.scope]

theorem scope_below (r : Rule) (directory below : List String) (isDirectory : Bool)
    (hb : below ≠ []) : ∃ more, r.scope (directory ++ below) isDirectory = directory ++ more := by
  rw [Rule.scope]
  split
  · exact ⟨below.dropLast, List.dropLast_append_of_ne_nil hb⟩
  · exact ⟨below, rfl⟩

theorem excludes_below (r : Rule) (directory below : List String) (isDirectory : Bool)
    (hb : below ≠ []) (h : r.excludes directory true = true) :
    r.excludes (directory ++ below) isDirectory = true := by
  obtain ⟨more, hm⟩ := scope_below r directory below isDirectory hb
  rw [Rule.excludes, scope_directory] at h
  rw [Rule.excludes, hm]
  by_cases ha : r.anchored = true
  · rw [if_pos ha] at h ⊢
    obtain ⟨way, hw, hp⟩ := List.any_eq_true.mp h
    exact List.any_eq_true.mpr ⟨way, mem_beginnings_append directory more way hw, hp⟩
  · rw [if_neg ha] at h ⊢
    obtain ⟨name, hn, hp⟩ := List.any_eq_true.mp h
    exact List.any_eq_true.mpr ⟨name, List.mem_append_left more hn, hp⟩

theorem isIgnored_below (rules : List Rule) (directory below : List String) (isDirectory : Bool)
    (hb : below ≠ []) (h : isIgnored rules directory true = true) :
    isIgnored rules (directory ++ below) isDirectory = true := by
  rw [isIgnored, Bool.and_eq_true] at h ⊢
  obtain ⟨r, hr, he⟩ := List.any_eq_true.mp h.2
  exact ⟨by simp [hb], List.any_eq_true.mpr ⟨r, hr, excludes_below r directory below _ hb he⟩⟩

/-- Whether a walk to the last of these names, which begins below `above`, comes upon something that
is kept out: a directory on the way or the file at its end. -/
def stopsOnWay (rules : List Rule) (above : List String) : List String → Bool
  | [] => false
  | [file] => isIgnored rules (above ++ [file]) false
  | directory :: name :: names =>
    isIgnored rules (above ++ [directory]) true ||
      stopsOnWay rules (above ++ [directory]) (name :: names)

/-- The walk comes to the answer for the whole path: where it stops early, the path is kept out with
the directory, and where it does not, it asks for the path itself in the end. -/
theorem stopsOnWay_eq_isIgnored (rules : List Rule) (above names : List String) (hne : names ≠ []) :
    stopsOnWay rules above names = isIgnored rules (above ++ names) false := by
  induction names generalizing above with
  | nil => exact absurd rfl hne
  | cons directory names ih =>
    cases names with
    | nil => rfl
    | cons name names =>
      have hsplit : above ++ directory :: name :: names =
          (above ++ [directory]) ++ name :: names := by
        rw [List.append_assoc, List.singleton_append]
      rw [stopsOnWay, ih (above ++ [directory]) (List.cons_ne_nil name names), hsplit]
      cases hd : isIgnored rules (above ++ [directory]) true with
      | false => exact Bool.false_or _
      | true =>
        rw [Bool.true_or]
        symm
        apply isIgnored_below rules (above ++ [directory]) (name :: names) false
        · exact List.cons_ne_nil name names
        · exact hd

/-- Whatever the rules are, those that keep out a directory keep out all that lies below it, and a
path is kept out exactly if the walk to it stops at a directory or at the path itself. -/
theorem ignoresPath_eq_stopsOnWay (patterns : List String) :
    (∀ directory below isDirectory, directory ≠ [] → below ≠ [] →
      isIgnored (compile patterns) directory true = true →
      isIgnored (compile patterns) (directory ++ below) isDirectory = true) ∧
    ∀ path, ignoresPath patterns path =
      stopsOnWay (compile patterns) [] (Path.ofString path).parts := by
  constructor
  · intro directory below isDirectory _ hbelow h
    exact isIgnored_below (compile patterns) directory below isDirectory hbelow h
  · intro path
    rw [ignoresPath]
    by_cases hne : (Path.ofString path).parts = []
    · -- a path without names is never kept out, and there is nothing to walk to
      rw [hne]
      rfl
    · rw [stopsOnWay_eq_isIgnored _ [] _ hne, List.nil_append]

/-- Rules of all kinds, of which that about directories only keeps out the file. -/
theorem stopsOnWay_build :
    isIgnored (compile ["*.min.js", "/dist", "**/gen/*.ts", "build/"]) ["src", "build"] true = true ∧
    isIgnored (compile ["*.min.js", "/dist", "**/gen/*.ts", "build/"]) ["src", "build", "a.js"]
      false = true ∧
    ignoresPath ["*.min.js", "/dist", "**/gen/*.ts", "build/"] "src/build/a.js" =
      stopsOnWay (compile ["*.min.js", "/dist", "**/gen/*.ts", "build/"]) []
        (Path.ofString "src/build/a.js").parts := by
  have hd : isIgnored (compile ["*.min.js", "/dist", "**/gen/*.ts", "build/"]) ["src", "build"]
      true = true := by
    decide +kernel
  obtain ⟨hbelow, hwalk⟩ := ignoresPath_eq_stopsOnWay ["*.min.js", "/dist", "**/gen/*.ts", "build/"]
  refine ⟨hd, ?_, hwalk "src/build/a.js"⟩
  exact hbelow ["src", "build"] ["a.js"] false (by decide) (by decide) hd

end TreeSelect.Ignore
