import Mathlib.Data.List.Basic
import Mathlib.Data.List.Induction
import TreeSelect.Source.Query

namespace TreeSelect.Source
open Grammar

/-- What a parser may be asked: for a grammar, for all that dialects need, or for the tree of a
text. -/
inductive Request where
  | get (name : String)
  | preload (dialects : List String)
  | parse (text filename : String) (directory : Option String) (dialects : List String)

/-- The loaded grammars after a request, and its answer, which is a tree only where a text is read. -/
def perform (supply : Supply) (reader : Reader) (loaded : List Grammar) :
    Request → List Grammar × Except ParseError (Option Parsed)
  | .get name =>
    match requestNamed supply loaded name with
    | .ok more => (more, .ok none)
    | .error e => (loaded, .error (.unavailable e))
  | .preload dialects =>
    match Grammar.preload supply loaded dialects with
    | (more, none) => (more, .ok none)
    | (more, some e) => (more, .error (.unavailable e))
  | .parse text filename directory dialects =>
    let (more, answer) := Source.parse supply loaded reader text filename directory dialects
    (more, answer.map some)

/-- The grammars that a new parser has loaded after some requests. -/
def after (supply : Supply) (reader : Reader) (history : List Request) : List Grammar :=
  history.foldl (fun loaded r => (perform supply reader loaded r).1) []

/-- The names of the grammars that a request asks for, as far as they can be had. -/
def Request.asked : Request → List String
  | .get name => [name]
  | .preload dialects => (needed dialects).map Grammar.name
  | .parse _ filename _ dialects => [(select filename dialects).name]

/-- Whether a name is unknown, or that of a grammar that is neither available nor loaded. -/
def Refused (supply : Supply) (loaded : List Grammar) (name : String) : Prop :=
  ∀ g : Grammar, g.name = name → supply.available g = false ∧ g ∉ loaded

/-- Whether a request comes to ask for a grammar and has it. -/
def Obtains (supply : Supply) (loaded : List Grammar) (r : Request) (g : Grammar) : Prop :=
  ∃ before rest, r.asked = before ++ g.name :: rest ∧
    ∀ name ∈ before ++ [g.name], ¬ Refused supply loaded name

theorem name_inj (g h : Grammar) : g.name = h.name ↔ g = h := by
  cases g <;> cases h <;> decide

theorem named?_eq_some_iff (name : String) (g : Grammar) : named? name = some g ↔ g.name = name := by
  constructor
  · intro h
    unfold named? at h
    split at h <;> cases h <;> rfl
  · rintro rfl
    cases g <;> rfl

theorem refused_name_iff (supply : Supply) (loaded : List Grammar) (g : Grammar) :
    Refused supply loaded g.name ↔ supply.available g = false ∧ g ∉ loaded := by
  constructor
  · exact fun h => h g rfl
  · intro h k hk
    rw [(name_inj k g).mp hk]
    exact h

theorem mem_needed_iff (dialects : List String) (g : Grammar) :
    g ∈ needed dialects ↔ ∃ filename, select filename dialects = g := by
  have hts : (Path.ofString "a.ts").suffix ∈ plainSuffixes := by decide +kernel
  have hjs : (Path.ofString "a.js").suffix ∉ plainSuffixes := by decide +kernel
  constructor
  · intro h
    simp only [needed] at h
    split at h
    · next ht =>
      obtain rfl := List.mem_singleton.mp h
      exact ⟨"a.js", if_pos ht⟩
    · next ht =>
      split at h
      · next hj =>
        rcases List.mem_cons.mp h with rfl | h
        · exact ⟨"a.js", by simp [select, ht, hj, hjs]⟩
        · obtain rfl := List.mem_singleton.mp h
          exact ⟨"a.ts", by simp [select, ht, hts]⟩
      · next hj =>
        obtain rfl := List.mem_singleton.mp h
        exact ⟨"a.ts", by simp [select, ht, hj]⟩
  · rintro ⟨filename, rfl⟩
    rw [select, needed]
    split
    · simp
    · by_cases hj : jsx ∈ dialects
      · rw [if_pos hj]
        split <;> simp
      · simp [hj]

theorem pairwise_needed (dialects : List String) :
    (needed dialects).Pairwise fun g h => g.name < h.name := by
  rw [needed]
  split
  · exact List.pairwise_singleton _ _
  · split
    · decide
    · exact List.pairwise_singleton _ _

theorem request_eq_ok_or_error (supply : Supply) (loaded : List Grammar) (g : Grammar) :
    (¬ Refused supply loaded g.name ∧ ∃ more, request supply loaded g = .ok more ∧
      ∀ h, h ∈ more ↔ h ∈ loaded ∨ h = g) ∨
    (Refused supply loaded g.name ∧
      request supply loaded g = .error (.absent g (supply.home g))) := by
  rw [refused_name_iff, request]
  by_cases hl : g ∈ loaded
  · refine Or.inl ⟨fun h => h.2 hl, loaded, if_pos hl, fun h => ?_⟩
    constructor
    · exact Or.inl
    · rintro (h | rfl)
      · exact h
      · exact hl
  · rw [if_neg hl]
    cases ha : supply.available g with
    | true => exact Or.inl ⟨by simp, loaded ++ [g], rfl, by simp⟩
    | false => exact Or.inr ⟨⟨rfl, hl⟩, rfl⟩

/-- A grammar that can be had can still be had when others are loaded, and the other way around. -/
theorem refused_congr (supply : Supply) (loaded more : List Grammar) (g : Grammar)
    (hg : ¬ Refused supply loaded g.name) (hm : ∀ h, h ∈ more ↔ h ∈ loaded ∨ h = g) (k : Grammar) :
    Refused supply more k.name ↔ Refused supply loaded k.name := by
  rw [refused_name_iff, refused_name_iff, hm]
  constructor
  · exact fun h => ⟨h.1, fun hl => h.2 (Or.inl hl)⟩
  · rintro h
    refine ⟨h.1, ?_⟩
    rintro (hl | rfl)
    · exact h.2 hl
    · exact hg ((refused_name_iff supply loaded k).mpr h)

/-- Asking in turn either has all, or it has what stands before the first that is refused. -/
theorem requestAll_cases (supply : Supply) (gs loaded : List Grammar) :
    (∃ more, requestAll supply loaded gs = (more, none) ∧
      (∀ g ∈ gs, ¬ Refused supply loaded g.name) ∧ ∀ h, h ∈ more ↔ h ∈ loaded ∨ h ∈ gs) ∨
    ∃ before g rest more, gs = before ++ g :: rest ∧
      requestAll supply loaded gs = (more, some (.absent g (supply.home g))) ∧
      Refused supply loaded g.name ∧ (∀ k ∈ before, ¬ Refused supply loaded k.name) ∧
      ∀ h, h ∈ more ↔ h ∈ loaded ∨ h ∈ before := by
  induction gs generalizing loaded with
  | nil => exact Or.inl ⟨loaded, rfl, by simp, by simp⟩
  | cons g gs ih =>
    rw [requestAll]
    rcases request_eq_ok_or_error supply loaded g with ⟨hg, next, hnext, hmem⟩ | ⟨hg, herr⟩
    · rw [hnext]
      have hsame := refused_congr supply loaded next g hg hmem
      rcases ih next with ⟨more, he, hall, hm⟩ | ⟨before, k, rest, more, rfl, he, hk, hbefore, hm⟩
      · refine Or.inl ⟨more, he, ?_, fun h => ?_⟩
        · rintro k (_ | ⟨_, hk⟩)
          · exact hg
          · exact fun hr => hall k hk ((hsame k).mpr hr)
        · rw [hm, hmem, List.mem_cons, or_assoc]
      · refine Or.inr ⟨g :: before, k, rest, more, rfl, he, (hsame k).mp hk, ?_, fun h => ?_⟩
        · rintro k (_ | ⟨_, hk⟩)
          · exact hg
          · exact fun hr => hbefore k hk ((hsame k).mpr hr)
        · rw [hm, hmem, List.mem_cons, or_assoc]
    · rw [herr]
      exact Or.inr ⟨[], g, gs, loaded, rfl, rfl, hg, by simp, by simp⟩

/-- A request that is refused nothing: all that it asks for is loaded then. -/
structure Served (supply : Supply) (reader : Reader) (loaded : List Grammar) (r : Request) :
    Prop where
  allowed : ∀ name ∈ r.asked, ¬ Refused supply loaded name
  answer : ∀ e, (perform supply reader loaded r).2 ≠ .error (.unavailable e)
  mem_iff : ∀ g, g ∈ (perform supply reader loaded r).1 ↔ g ∈ loaded ∨ g.name ∈ r.asked

/-- A request that is refused a name: what it asks for before is loaded, and nothing else. -/
structure Stopped (supply : Supply) (reader : Reader) (loaded : List Grammar) (r : Request)
    (before : List String) (name : String) : Prop where
  asked : ∃ rest, r.asked = before ++ name :: rest
  refused : Refused supply loaded name
  allowed : ∀ n ∈ before, ¬ Refused supply loaded n
  answer : ∃ e, (perform supply reader loaded r).2 = .error (.unavailable e)
  mem_iff : ∀ g, g ∈ (perform supply reader loaded r).1 ↔ g ∈ loaded ∨ g.name ∈ before

/-- A request for a single grammar does what asking for the grammar does. -/
theorem served_or_stopped_single (supply : Supply) (reader : Reader) (loaded : List Grammar)
    (r : Request) (g : Grammar) (hasked : r.asked = [g.name])
    (hok : ∀ more, request supply loaded g = .ok more →
      (perform supply reader loaded r).1 = more ∧
        ∀ e, (perform supply reader loaded r).2 ≠ .error (.unavailable e))
    (herr : ∀ e, request supply loaded g = .error e →
      perform supply reader loaded r = (loaded, .error (.unavailable e))) :
    Served supply reader loaded r ∨ ∃ before name, Stopped supply reader loaded r before name := by
  rcases request_eq_ok_or_error supply loaded g with ⟨hg, more, he, hm⟩ | ⟨hg, he⟩
  · obtain ⟨hmore, hanswer⟩ := hok more he
    refine Or.inl ⟨by simpa [hasked] using hg, hanswer, fun h => ?_⟩
    rw [hmore, hm, hasked, List.mem_singleton, name_inj]
  · have hperform := herr _ he
    refine Or.inr ⟨[], g.name, ⟨[], hasked⟩, hg, by simp, ⟨.absent g (supply.home g), ?_⟩,
      fun h => ?_⟩
    · rw [hperform]
    · simp [hperform]

/-- What any request does to the loaded grammars, and when a grammar is wanting for it. -/
theorem served_or_stopped (supply : Supply) (reader : Reader) (loaded : List Grammar)
    (r : Request) :
    Served supply reader loaded r ∨ ∃ before name, Stopped supply reader loaded r before name := by
  cases r with
  | get name =>
    cases hn : named? name with
    | none =>
      -- a name that no grammar has is refused before anything is loaded
      refine Or.inr ⟨[], name, ⟨[], rfl⟩, fun g hg => ?_, by simp, ⟨.unknown name, ?_⟩, ?_⟩
      · rw [(named?_eq_some_iff name g).mpr hg] at hn
        cases hn
      · simp [perform, requestNamed, hn]
      · simp [perform, requestNamed, hn]
    | some g =>
      obtain rfl := (named?_eq_some_iff name g).mp hn
      refine served_or_stopped_single supply reader loaded _ g rfl ?_ ?_
      · intro more he
        simp [perform, requestNamed, hn, he]
      · intro e he
        simp [perform, requestNamed, hn, he]
  | preload dialects =>
    rcases requestAll_cases supply (needed dialects) loaded with
      ⟨more, he, hall, hm⟩ | ⟨before, g, rest, more, hneeded, he, hg, hbefore, hm⟩
    · refine Or.inl ⟨by simpa [Request.asked] using hall, ?_, fun h => ?_⟩
      · simp [perform, Grammar.preload, he]
      · simp [perform, Grammar.preload, he, hm, Request.asked, name_inj]
    · refine Or.inr ⟨before.map Grammar.name, g.name, ⟨rest.map Grammar.name, ?_⟩, hg,
        by simpa using hbefore, ⟨.absent g (supply.home g), ?_⟩, fun h => ?_⟩
      · rw [Request.asked, hneeded, List.map_append, List.map_cons]
      · simp [perform, Grammar.preload, he]
      · simp [perform, Grammar.preload, he, hm, name_inj]
  | parse text filename directory dialects =>
    refine served_or_stopped_single supply reader loaded _ (select filename dialects) rfl ?_ ?_
    · intro more he
      refine ⟨by simp [perform, Source.parse, he], fun e => ?_⟩
      -- the grammar is there, so only the text itself can be at fault
      simp only [perform, Source.parse, he]
      cases accept reader text filename directory (select filename dialects) <;>
        simp [Except.mapError, Except.map]
    · intro e he
      simp [perform, Source.parse, he, Except.map]

/-- A request that is not refused anything obtains all that it asks for. -/
theorem obtains_of_asked (supply : Supply) (loaded : List Grammar) (r : Request)
    (h : ∀ name ∈ r.asked, ¬ Refused supply loaded name) (g : Grammar) (hg : g.name ∈ r.asked) :
    Obtains supply loaded r g := by
  obtain ⟨before, rest, he⟩ := List.append_of_mem hg
  refine ⟨before, rest, he, fun name hn => h name ?_⟩
  rw [he, List.append_cons]
  exact List.mem_append_left _ hn

/-- A request adds the grammars that it obtains. -/
theorem mem_perform_iff (supply : Supply) (reader : Reader) (loaded : List Grammar) (r : Request)
    (g : Grammar) :
    g ∈ (perform supply reader loaded r).1 ↔ g ∈ loaded ∨ Obtains supply loaded r g := by
  rcases served_or_stopped supply reader loaded r with hserved | ⟨before, name, hstop⟩
  · rw [hserved.mem_iff]
    refine or_congr_right ⟨obtains_of_asked supply loaded r hserved.allowed g, ?_⟩
    rintro ⟨front, rest, he, -⟩
    simp [he]
  · obtain ⟨rest, hasked⟩ := hstop.asked
    rw [hstop.mem_iff]
    refine or_congr_right ⟨fun h => ?_, ?_⟩
    · obtain ⟨front, more, rfl⟩ := List.append_of_mem h
      refine ⟨front, more ++ name :: rest, by simp [hasked], fun n hn => hstop.allowed n ?_⟩
      simp only [List.mem_append, List.mem_singleton] at hn
      simp only [List.mem_append, List.mem_cons]
      tauto
    · -- what is asked for at or behind the refused name is not obtained
      rintro ⟨front, more, he, hfront⟩
      rw [hasked] at he
      rcases List.append_eq_append_iff.mp he with ⟨between, rfl, hb⟩ | ⟨between, rfl, hb⟩
      · exact absurd hstop.refused (hfront name (by cases between <;> simp_all))
      · cases between with
        | nil => exact absurd hstop.refused (hfront name (by simp_all))
        | cons n between =>
          obtain ⟨rfl, -⟩ := List.cons.inj hb
          simp

theorem after_append_singleton (supply : Supply) (reader : Reader) (history : List Request)
    (r : Request) :
    after supply reader (history ++ [r]) =
      (perform supply reader (after supply reader history) r).1 := by
  rw [after, List.foldl_append]
  rfl

/-- Exactly those grammars are loaded that some request obtained. -/
theorem mem_after_iff (supply : Supply) (reader : Reader) (history : List Request) (g : Grammar) :
    g ∈ after supply reader history ↔ ∃ earlier r later, history = earlier ++ r :: later ∧
      Obtains supply (after supply reader earlier) r g := by
  induction history using List.reverseRecOn with
  | nil => simp [after]
  | append_singleton history r ih =>
    rw [after_append_singleton, mem_perform_iff, ih]
    constructor
    · rintro (⟨earlier, k, later, rfl, hk⟩ | h)
      · exact ⟨earlier, k, later ++ [r], by simp, hk⟩
      · exact ⟨history, r, [], rfl, h⟩
    · rintro ⟨earlier, k, later, he, hk⟩
      -- the request that obtained the grammar is the last one, or one of those before it
      rcases List.eq_nil_or_concat' later with rfl | ⟨later, last, rfl⟩
      · obtain ⟨rfl, hr⟩ := List.append_inj' he rfl
        obtain rfl : r = k := by simpa using hr
        exact Or.inr hk
      · rw [← List.cons_append, ← List.append_assoc] at he
        exact Or.inl ⟨earlier, k, later, (List.append_inj' he rfl).1, hk⟩

theorem unavailable_iff (supply : Supply) (reader : Reader) (loaded : List Grammar) (r : Request) :
    (∃ e, (perform supply reader loaded r).2 = .error (.unavailable e)) ↔
      ∃ name ∈ r.asked, Refused supply loaded name := by
  rcases served_or_stopped supply reader loaded r with hserved | ⟨before, name, hstop⟩
  · constructor
    · rintro ⟨e, he⟩
      exact absurd he (hserved.answer e)
    · rintro ⟨name, hn, hr⟩
      exact absurd hr (hserved.allowed name hn)
  · obtain ⟨rest, hasked⟩ := hstop.asked
    exact ⟨fun _ => ⟨name, by simp [hasked], hstop.refused⟩, fun _ => hstop.answer⟩

theorem perform_get_of_unavailable (supply : Supply) (reader : Reader) (loaded : List Grammar)
    (name : String) (e : LoadError)
    (h : (perform supply reader loaded (.get name)).2 = .error (.unavailable e)) :
    (perform supply reader loaded (.get name)).1 = loaded := by
  simp only [perform] at h ⊢
  cases hr : requestNamed supply loaded name with
  | error e => rfl
  | ok more =>
    rw [hr] at h
    cases h

/-- A preload that fails has loaded what stands before the grammar that is wanting. -/
theorem perform_preload_of_unavailable (supply : Supply) (reader : Reader) (loaded : List Grammar)
    (dialects : List String) (e : LoadError)
    (h : (perform supply reader loaded (.preload dialects)).2 = .error (.unavailable e)) :
    ∃ before g rest, needed dialects = before ++ g :: rest ∧ e = .absent g (supply.home g) ∧
      Refused supply loaded g.name ∧
      ∀ k, k ∈ (perform supply reader loaded (.preload dialects)).1 ↔ k ∈ loaded ∨ k ∈ before := by
  rcases requestAll_cases supply (needed dialects) loaded with
    ⟨more, he, -, -⟩ | ⟨before, g, rest, more, hneeded, he, hg, -, hm⟩
  · simp [perform, Grammar.preload, he] at h
  · simp only [perform, Grammar.preload, he, Except.error.injEq, ParseError.unavailable.injEq] at h ⊢
    exact ⟨before, g, rest, hneeded, h.symm, hg, hm⟩

theorem after_subset_append (supply : Supply) (reader : Reader) (history later : List Request) :
    after supply reader history ⊆ after supply reader (history ++ later) := by
  intro g hg
  obtain ⟨earlier, r, rest, rfl, hr⟩ := (mem_after_iff supply reader history g).mp hg
  exact (mem_after_iff supply reader _ g).mpr ⟨earlier, r, rest ++ later, by simp, hr⟩

/-- A text whose grammar is loaded is read without asking for more. -/
theorem perform_parse_of_loaded (supply : Supply) (reader : Reader) (loaded : List Grammar)
    (text filename : String) (directory : Option String) (dialects : List String)
    (h : select filename dialects ∈ loaded) :
    (perform supply reader loaded (.parse text filename directory dialects)).1 = loaded ∧
      ∀ e, (perform supply reader loaded (.parse text filename directory dialects)).2 ≠
        .error (.unavailable e) := by
  constructor
  · simp [perform, Source.parse, request, h]
  · intro e he
    obtain ⟨name, hn, hr⟩ := (unavailable_iff supply reader loaded _).mp ⟨e, he⟩
    obtain rfl := List.mem_singleton.mp hn
    exact ((refused_name_iff supply loaded _).mp hr).2 h

/-- The grammars that dialects need are those by which some file is read. After any requests to a
parser exactly those grammars are loaded that some request obtained; a request is refused exactly if
one that it asks for is neither loaded nor available, and then what it asked for before stays loaded.
Once the grammars of some dialects are loaded, no file is refused under them or loads another. -/
theorem preload_suffices (supply : Supply) (reader : Reader) :
    (∀ dialects g, g ∈ needed dialects ↔ ∃ filename, select filename dialects = g) ∧
    (∀ dialects, (needed dialects).Pairwise fun g h => g.name < h.name) ∧
    ∀ history : List Request,
      (∀ g, g ∈ after supply reader history ↔ ∃ earlier r later, history = earlier ++ r :: later ∧
        Obtains supply (after supply reader earlier) r g) ∧
      (∀ r, after supply reader history ⊆ (perform supply reader (after supply reader history) r).1 ∧
        ((∃ e, (perform supply reader (after supply reader history) r).2 =
            .error (.unavailable e)) ↔
          ∃ name ∈ r.asked, Refused supply (after supply reader history) name)) ∧
      (∀ name e, (perform supply reader (after supply reader history) (.get name)).2 =
          .error (.unavailable e) →
        (perform supply reader (after supply reader history) (.get name)).1 =
          after supply reader history) ∧
      (∀ dialects e, (perform supply reader (after supply reader history) (.preload dialects)).2 =
          .error (.unavailable e) →
        ∃ before g rest, needed dialects = before ++ g :: rest ∧ e = .absent g (supply.home g) ∧
          Refused supply (after supply reader history) g.name ∧
          ∀ k, k ∈ (perform supply reader (after supply reader history) (.preload dialects)).1 ↔
            k ∈ after supply reader history ∨ k ∈ before) ∧
      ∀ dialects, (perform supply reader (after supply reader history) (.preload dialects)).2 =
          .ok none →
        ∀ later text filename directory,
          let loaded := after supply reader (history ++ .preload dialects :: later)
          (perform supply reader loaded (.parse text filename directory dialects)).1 = loaded ∧
            ∀ e, (perform supply reader loaded (.parse text filename directory dialects)).2 ≠
              .error (.unavailable e) := by
  refine ⟨mem_needed_iff, pairwise_needed, fun history => ⟨mem_after_iff supply reader history, ?_,
    perform_get_of_unavailable supply reader _, perform_preload_of_unavailable supply reader _, ?_⟩⟩
  · intro r
    refine ⟨fun g hg => (mem_perform_iff supply reader _ r g).mpr (Or.inl hg), ?_⟩
    exact unavailable_iff supply reader _ r
  · intro dialects hok later text filename directory
    refine perform_parse_of_loaded supply reader _ text filename directory dialects ?_
    -- what the preload has had is still loaded after any further requests
    rw [List.append_cons]
    refine after_subset_append supply reader _ later ?_
    refine (mem_after_iff supply reader _ _).mpr ⟨history, .preload dialects, [], rfl,
      obtains_of_asked supply _ _ ?_ _ ?_⟩
    · intro name hn hr
      obtain ⟨e, he⟩ := (unavailable_iff supply reader _ (.preload dialects)).mpr ⟨name, hn, hr⟩
      rw [hok] at he
      cases he
    · exact List.mem_map_of_mem ((mem_needed_iff dialects _).mpr ⟨filename, rfl⟩)

/-- A supply in which one grammar is wanting. -/
def lacking (g : Grammar) : Supply :=
  ⟨packageOf, fun h => h ≠ g⟩

/-- A program without parts. -/
def bareProgram : Reader :=
  fun _ _ => ⟨⟨"program", 0, 0, ⟨0, 0⟩, ⟨0, 0⟩, none, true, false, false, false⟩, []⟩

/-- The grammar of typed sources is wanting at first; without the one of untyped sources, all typed
sources can be read although a request has failed before and another fails later. -/
theorem preload_lacking :
    (perform (lacking .typescript) bareProgram (after (lacking .typescript) bareProgram [])
        (.preload [typed, jsx])).2 =
      .error (.unavailable (.absent .typescript "tree_sitter_typescript")) ∧
    (∃ before g rest, needed [typed, jsx] = before ++ g :: rest ∧
      LoadError.absent .typescript "tree_sitter_typescript" =
        .absent g ((lacking .typescript).home g) ∧
      Refused (lacking .typescript) (after (lacking .typescript) bareProgram []) g.name ∧
      ∀ k, k ∈ (perform (lacking .typescript) bareProgram
          (after (lacking .typescript) bareProgram []) (.preload [typed, jsx])).1 ↔
        k ∈ after (lacking .typescript) bareProgram [] ∨ k ∈ before) ∧
    (perform (lacking .javascript) bareProgram
        (after (lacking .javascript) bareProgram [.get "javascript"])
        (.preload [typed, jsx])).2 = .ok none ∧
    ∀ text filename directory,
      let loaded := after (lacking .javascript) bareProgram
        ([.get "javascript"] ++ .preload [typed, jsx] :: [.get "rust"])
      (perform (lacking .javascript) bareProgram loaded
          (.parse text filename directory [typed, jsx])).1 = loaded ∧
        ∀ e, (perform (lacking .javascript) bareProgram loaded
          (.parse text filename directory [typed, jsx])).2 ≠ .error (.unavailable e) := by
  have hfails : (perform (lacking .typescript) bareProgram
      (after (lacking .typescript) bareProgram []) (.preload [typed, jsx])).2 =
        .error (.unavailable (.absent .typescript "tree_sitter_typescript")) := by
    rfl
  have hloads : (perform (lacking .javascript) bareProgram
      (after (lacking .javascript) bareProgram [.get "javascript"])
      (.preload [typed, jsx])).2 = .ok none := by
    rfl
  obtain ⟨-, -, hpartly⟩ := preload_suffices (lacking .typescript) bareProgram
  obtain ⟨-, -, hlater⟩ := preload_suffices (lacking .javascript) bareProgram
  obtain ⟨-, -, -, hfailed, -⟩ := hpartly []
  obtain ⟨-, -, -, -, hloaded⟩ := hlater [.get "javascript"]
  exact ⟨hfails, hfailed _ _ hfails, hloads, hloaded _ hloads [.get "rust"]⟩

end TreeSelect.Source
