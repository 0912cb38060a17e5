import Mathlib.Data.List.Nodup
import TreeSelect.Files.Resolve
import TreeSelect.Proofs.PathText

namespace TreeSelect.Files

mutual

/-- A file or a directory in which no link stands anywhere. -/
def Entry.IsPlain : Entry → Prop
  | .file name _ => IsName name
  | .link _ _ => False
  | .directory name entries => IsName name ∧ ArePlain entries

/-- Plain entries, no two of one name. -/
def ArePlain : List Entry → Prop
  | [] => True
  | e :: es => e.IsPlain ∧ (∀ d ∈ es, d.name ≠ e.name) ∧ ArePlain es

end

mutual

/-- The names that lead to the files at or below an entry. -/
def Entry.files : Entry → List (List String)
  | .file name _ => [[name]]
  | .link _ _ => []
  | .directory name entries => (filesOf entries).map fun names => name :: names

/-- The names that lead to the files of a directory, at any depth. -/
def filesOf : List Entry → List (List String)
  | [] => []
  | e :: es => e.files ++ filesOf es

end

theorem Entry.IsPlain.of_mem (entries : List Entry) (h : ArePlain entries) (e : Entry)
    (he : e ∈ entries) : e.IsPlain := by
  induction entries with
  | nil => exact absurd he List.not_mem_nil
  | cons d entries ih =>
    rcases List.mem_cons.mp he with rfl | he
    · exact h.1
    · exact ih h.2.2 he

theorem head_of_mem_files (e : Entry) (names : List String) (h : names ∈ e.files) :
    ∃ rest, names = e.name :: rest := by
  cases e with
  | file name content => exact ⟨[], List.mem_singleton.mp h⟩
  | link name target => exact absurd h List.not_mem_nil
  | directory name entries =>
    obtain ⟨rest, _, rfl⟩ := List.mem_map.mp h
    exact ⟨rest, rfl⟩

theorem mem_filesOf_iff (entries : List Entry) (names : List String) :
    names ∈ filesOf entries ↔ ∃ e ∈ entries, names ∈ e.files := by
  induction entries with
  | nil => simp [filesOf]
  | cons e entries ih => simp [filesOf, ih]

theorem ne_nil_of_mem_filesOf (entries : List Entry) (names : List String)
    (h : names ∈ filesOf entries) : names ≠ [] := by
  obtain ⟨e, _, he⟩ := (mem_filesOf_iff entries names).mp h
  obtain ⟨rest, rfl⟩ := head_of_mem_files e names he
  exact List.cons_ne_nil _ _

mutual

theorem Entry.isName_of_mem_files (e : Entry) (h : e.IsPlain) (names : List String)
    (hn : names ∈ e.files) : ∀ n ∈ names, IsName n := by
  match e with
  | .file name content =>
    rw [Entry.files, List.mem_singleton] at hn
    subst hn
    exact List.forall_mem_singleton.mpr h
  | .link name target => exact h.elim
  | .directory name entries =>
    obtain ⟨rest, hr, rfl⟩ := List.mem_map.mp hn
    have hrest := isName_of_mem_filesOf entries h.2 rest hr
    exact List.forall_mem_cons.mpr ⟨h.1, hrest⟩

theorem isName_of_mem_filesOf (entries : List Entry) (h : ArePlain entries) (names : List String)
    (hn : names ∈ filesOf entries) : ∀ n ∈ names, IsName n := by
  match entries with
  | [] => exact absurd hn List.not_mem_nil
  | e :: entries =>
    rcases List.mem_append.mp hn with hn | hn
    · exact Entry.isName_of_mem_files e h.1 names hn
    · exact isName_of_mem_filesOf entries h.2.2 names hn

end

mutual

theorem Entry.nodup_files (e : Entry) (h : e.IsPlain) : e.files.Nodup := by
  match e with
  | .file name content => exact List.nodup_singleton _
  | .link name target => exact List.nodup_nil
  | .directory name entries =>
    exact (nodup_filesOf entries h.2).map (List.cons_injective (a := name))

/-- Each file of a plain tree is listed once. -/
theorem nodup_filesOf (entries : List Entry) (h : ArePlain entries) : (filesOf entries).Nodup := by
  match entries with
  | [] => exact List.nodup_nil
  | e :: entries =>
    refine List.nodup_append.mpr ⟨Entry.nodup_files e h.1, nodup_filesOf entries h.2.2, ?_⟩
    -- Files of different entries differ in their first name.
    rintro names hn _ hm rfl
    obtain ⟨d, hd, hdn⟩ := (mem_filesOf_iff entries names).mp hm
    obtain ⟨rest, rfl⟩ := head_of_mem_files e names hn
    obtain ⟨rest', he⟩ := head_of_mem_files d _ hdn
    exact h.2.1 d hd (List.cons.inj he).1.symm

end

theorem find?_of_mem (entries : List Entry) (h : ArePlain entries) (e : Entry) (he : e ∈ entries) :
    find? entries e.name = some e := by
  induction entries with
  | nil => exact absurd he List.not_mem_nil
  | cons d entries ih =>
    rcases List.mem_cons.mp he with rfl | he
    · simp [find?]
    · have hd : d.name ≠ e.name := (h.2.1 e he).symm
      have hrest := ih h.2.2 he
      rw [find?] at hrest
      simpa [find?, hd] using hrest

/-- The entries of the directory at the end of a way, where there is one. -/
def below? : List Entry → List String → Option (List Entry)
  | entries, [] => some entries
  | entries, name :: names =>
    match find? entries name with
    | some (.directory _ inner) => below? inner names
    | _ => none

theorem arePlain_of_below? (entries below : List Entry) (way : List String) (h : ArePlain entries)
    (hb : below? entries way = some below) : ArePlain below := by
  induction way generalizing entries with
  | nil =>
    rw [below?, Option.some.injEq] at hb
    exact hb ▸ h
  | cons name way ih =>
    rw [below?] at hb
    split at hb
    · next n inner hf =>
      exact ih inner (Entry.IsPlain.of_mem entries h _ (List.mem_of_find?_eq_some hf)).2 hb
    · exact absurd hb nofun

/-- The files whose names begin with a way are those below the directory at its end. -/
theorem mem_filesOf_append (entries : List Entry) (way names : List String) (h : ArePlain entries)
    (hne : names ≠ []) :
    way ++ names ∈ filesOf entries ↔ ∃ below, below? entries way = some below ∧
      names ∈ filesOf below := by
  induction way generalizing entries with
  | nil => simp [below?]
  | cons name way ih =>
    have hrest : way ++ names ≠ [] := by simp [hne]
    rw [List.cons_append, mem_filesOf_iff]
    constructor
    · rintro ⟨e, he, hm⟩
      obtain ⟨rest, hr⟩ := head_of_mem_files e _ hm
      obtain ⟨rfl, rfl⟩ := List.cons.inj hr
      have hf := find?_of_mem entries h e he
      cases e with
      | file n content =>
        rw [Entry.files, List.mem_singleton] at hm
        exact absurd (List.cons.inj hm).2 hrest
      | link n target => exact absurd hm List.not_mem_nil
      | directory n inner =>
        obtain ⟨rest, hi, hr⟩ := List.mem_map.mp hm
        obtain ⟨_, rfl⟩ := List.cons.inj hr
        rw [below?, hf]
        exact (ih inner (Entry.IsPlain.of_mem entries h _ he).2).mp hi
    · rintro ⟨below, hb, hm⟩
      rw [below?] at hb
      split at hb
      · next n inner hf =>
        have he := List.mem_of_find?_eq_some hf
        have hn : (Entry.directory n inner).name = name := by simpa using List.find?_some hf
        change n = name at hn
        have hi := (ih inner (Entry.IsPlain.of_mem entries h _ he).2).mpr ⟨below, hb, hm⟩
        exact ⟨_, he, List.mem_map.mpr ⟨_, hi, by rw [hn]⟩⟩
      · exact absurd hb nofun

/-- A way that leads to a directory may be followed further from there. -/
theorem follow_append (root : List Entry) (links : Nat) (trail t : Trail) (way : List String)
    (h : follow root links trail way = .ok (.directory t)) :
    ∃ left, ∀ rest, follow root links trail (way ++ rest) = follow root left t rest := by
  fun_induction follow root links trail way with
  | case1 links trail =>
    cases h
    exact ⟨links, fun rest => rfl⟩
  | case2 links trail way ih =>
    obtain ⟨left, hl⟩ := ih h
    exact ⟨left, fun rest => by rw [List.cons_append, follow, if_pos rfl, hl]⟩
  | case3 links trail way hdot ih =>
    obtain ⟨left, hl⟩ := ih h
    exact ⟨left, fun rest => by rw [List.cons_append, follow, if_neg hdot, if_pos rfl, hl]⟩
  | case4 => cases h
  | case5 links trail name way h1 h2 n inner hf ih =>
    obtain ⟨left, hl⟩ := ih h
    exact ⟨left, fun rest => by rw [List.cons_append, follow, if_neg h1, if_neg h2, hf, ← hl]⟩
  | case6 => cases h
  | case7 => cases h
  | case8 => cases h
  | case9 trail name way h1 h2 n target hf links ih =>
    obtain ⟨left, hl⟩ := ih h
    refine ⟨left, fun rest => ?_⟩
    rw [List.cons_append, follow, if_neg h1, if_neg h2, hf, ← hl rest, List.append_assoc]
    rfl

/-- In a plain tree a way without dots leads down, one directory for each name. -/
theorem below?_eq_some_iff (root : List Entry) (links : Nat) (trail : Trail) (way : List String)
    (below : List Entry) (hp : ArePlain (trail.entries root))
    (hw : ∀ n ∈ way, n ≠ "." ∧ n ≠ "..") :
    below? (trail.entries root) way = some below ↔
      ∃ t, follow root links trail way = .ok (.directory t) ∧ t.entries root = below := by
  induction way generalizing trail with
  | nil => simp [below?, follow]
  | cons name way ih =>
    obtain ⟨h1, h2⟩ := hw name (by simp)
    have hw' : ∀ n ∈ way, n ≠ "." ∧ n ≠ ".." := fun n hn => hw n (by simp [hn])
    rw [below?, follow, if_neg h1, if_neg h2]
    cases hf : find? (trail.entries root) name with
    | none => simp
    | some e =>
      have he := Entry.IsPlain.of_mem _ hp e (List.mem_of_find?_eq_some hf)
      cases e with
      | file n content =>
        simp only
        split <;> simp
      | link n target => exact he.elim
      | directory n inner => exact ih ((name, inner) :: trail) he.2 hw'

end TreeSelect.Files
