import TreeSelect.Proofs.BraceBalance
import TreeSelect.Proofs.Repeats

/-! What a pattern with braces means, told by its structure: a group with commas means what its
alternatives mean, one without means itself around what its content means, and parts in a row mean all
that can be made of what they mean. Expansion puts texts together and scans them again, and gives each
meaning once. -/
namespace TreeSelect.Glob

/-- Outside of groups every character but an opening brace stands for itself; in a group a closing
brace or a comma would end the alternative. -/
structure StandsAlone (inside : Bool) (c : Char) : Prop where
  ne_open : c ≠ '{'
  ne_close : inside = true → c ≠ '}'
  ne_comma : inside = true → c ≠ ','

mutual

/-- Characters and groups in a row, inside of a group or not. -/
inductive Pattern : Bool → Type
  | done (inside : Bool) : Pattern inside
  | char (inside : Bool) (c : Char) (h : StandsAlone inside c) (rest : Pattern inside) :
      Pattern inside
  | group (inside : Bool) (choice : Choice) (rest : Pattern inside) : Pattern inside

/-- The alternatives of a group, of which there is at least one. -/
inductive Choice : Type
  | last (alternative : Pattern true)
  | more (alternative : Pattern true) (others : Choice)

end

mutual

def Pattern.text {inside : Bool} : Pattern inside → List Char
  | .done _ => []
  | .char _ c _ rest => c :: rest.text
  | .group _ choice rest => '{' :: (choice.text ++ '}' :: rest.text)

def Choice.text : Choice → List Char
  | .last alternative => alternative.text
  | .more alternative others => alternative.text ++ ',' :: others.text

end

mutual

/-- What a pattern means, the leftmost choice changing last. -/
def Pattern.meaning {inside : Bool} : Pattern inside → List (List Char)
  | .done _ => [[]]
  | .char _ c _ rest => rest.meaning.map fun r => c :: r
  | .group _ choice rest => choice.meaning.flatMap fun m => rest.meaning.map fun r => m ++ r

/-- What a group means; if it offers no choice, it keeps its braces. -/
def Choice.meaning : Choice → List (List Char)
  | .last alternative => alternative.meaning.map fun m => '{' :: (m ++ ['}'])
  | .more alternative others => alternative.meaning ++ others.offers

/-- What the alternatives mean, one after the other. -/
def Choice.offers : Choice → List (List Char)
  | .last alternative => alternative.meaning
  | .more alternative others => alternative.meaning ++ others.offers

end

def Choice.alternatives : Choice → List (Pattern true)
  | .last alternative => [alternative]
  | .more alternative others => alternative :: others.alternatives

def Pattern.ofChars (inside : Bool) : (cs : List Char) → (∀ c ∈ cs, StandsAlone inside c) →
    Pattern inside
  | [], _ => .done inside
  | c :: cs, h =>
    .char inside c (h c List.mem_cons_self) (ofChars inside cs fun d hd => h d (.tail c hd))

/-- Two patterns in a row. What stands inside of a group may also stand outside. -/
def Pattern.append {a b : Bool} (h : b = true → a = true) : Pattern a → Pattern b → Pattern b
  | .done _, q => q
  | .char _ c hc rest, q =>
    .char b c ⟨hc.ne_open, fun hb => hc.ne_close (h hb), fun hb => hc.ne_comma (h hb)⟩
      (rest.append h q)
  | .group _ choice rest, q => .group b choice (rest.append h q)

theorem text_ofChars (inside : Bool) (cs : List Char) (h : ∀ c ∈ cs, StandsAlone inside c) :
    (Pattern.ofChars inside cs h).text = cs := by
  induction cs with
  | nil => rfl
  | cons c cs ih => rw [Pattern.ofChars, Pattern.text, ih]

theorem meaning_ofChars (inside : Bool) (cs : List Char) (h : ∀ c ∈ cs, StandsAlone inside c) :
    (Pattern.ofChars inside cs h).meaning = [cs] := by
  induction cs with
  | nil => rfl
  | cons c cs ih => rw [Pattern.ofChars, Pattern.meaning, ih, List.map_singleton]

theorem text_append {a b : Bool} (h : b = true → a = true) (p : Pattern a) (q : Pattern b) :
    (p.append h q).text = p.text ++ q.text := by
  match p with
  | .done _ => rfl
  | .char _ c _ rest =>
    rw [Pattern.append, Pattern.text, Pattern.text, text_append h rest q, List.cons_append]
  | .group _ choice rest =>
    rw [Pattern.append, Pattern.text, Pattern.text, text_append h rest q, List.cons_append,
      List.append_assoc, List.cons_append]

theorem meaning_append {a b : Bool} (h : b = true → a = true) (p : Pattern a) (q : Pattern b) :
    (p.append h q).meaning = p.meaning.flatMap fun m => q.meaning.map fun r => m ++ r := by
  match p with
  | .done _ => simp [Pattern.append, Pattern.meaning]
  | .char _ c _ rest =>
    rw [Pattern.append, Pattern.meaning, Pattern.meaning, meaning_append h rest q, List.map_flatMap,
      List.flatMap_map]
    simp only [List.map_map, List.cons_append]
    rfl
  | .group _ choice rest =>
    rw [Pattern.append, Pattern.meaning, Pattern.meaning, meaning_append h rest q, List.flatMap_assoc]
    simp only [List.map_flatMap, List.flatMap_map, List.map_map, List.append_assoc]
    rfl

theorem offers_eq_flatMap (choice : Choice) :
    choice.offers = choice.alternatives.flatMap Pattern.meaning := by
  match choice with
  | .last alternative => simp [Choice.offers, Choice.alternatives]
  | .more alternative others =>
    rw [Choice.offers, Choice.alternatives, List.flatMap_cons, offers_eq_flatMap others]

/-- A pattern is without groups, or some characters stand in front of its first group. -/
theorem Pattern.cases_group {b : Bool} (p : Pattern b) :
    (∃ cs h, p = ofChars b cs h) ∨
      ∃ cs h choice rest, p = (ofChars b cs h).append id (.group b choice rest) := by
  match p with
  | .done _ => exact Or.inl ⟨[], by simp, rfl⟩
  | .char _ c hc rest =>
    rcases rest.cases_group with ⟨cs, h, rfl⟩ | ⟨cs, h, choice, rest, rfl⟩
    · exact Or.inl ⟨c :: cs, by simpa using ⟨hc, h⟩, rfl⟩
    · exact Or.inr ⟨c :: cs, by simpa using ⟨hc, h⟩, choice, rest, rfl⟩
  | .group _ choice rest => exact Or.inr ⟨[], by simp, choice, rest, rfl⟩

mutual

theorem isBalanced_text (p : Pattern true) : IsBalanced p.text := by
  match p with
  | .done _ => exact (closes_nil_iff 0).mpr rfl
  | .char _ c h rest =>
    rw [Pattern.text]
    exact (closes_plain_iff 0 c _ h.ne_open (h.ne_close rfl)).mpr (isBalanced_text rest)
  | .group _ choice rest =>
    rw [Pattern.text, ← closes_zero_iff, closes_open_iff,
      closes_append_iff 0 1 _ _ (isBalanced_choice choice)]
    exact (closes_close_iff 1 _).mpr ⟨0, rfl, isBalanced_text rest⟩

theorem isBalanced_choice (choice : Choice) : IsBalanced choice.text := by
  match choice with
  | .last alternative => exact isBalanced_text alternative
  | .more alternative others =>
    refine isBalanced_append _ _ (isBalanced_text alternative) ?_
    exact (closes_plain_iff 0 ',' _ (by decide) (by decide)).mpr (isBalanced_choice others)

end

theorem firstGroup?_group (b : Bool) (cs : List Char) (h : ∀ c ∈ cs, StandsAlone b c)
    (choice : Choice) (rest : Pattern b) :
    firstGroup? ((Pattern.ofChars b cs h).append id (.group b choice rest)).text =
      some ⟨cs, choice.text, rest.text⟩ := by
  rw [text_append, text_ofChars, Pattern.text]
  exact firstGroup?_eq_some cs choice.text rest.text (fun hc => (h _ hc).ne_open rfl)
    (isBalanced_choice choice)

theorem foldr_consFirst (cs l : List Char) (ls : List (List Char)) :
    cs.foldr Text.consFirst (l :: ls) = (cs ++ l) :: ls := by
  induction cs with
  | nil => rfl
  | cons c cs ih => rw [List.foldr_cons, ih, Text.consFirst, List.cons_append]

mutual

theorem alternativesAt_text (depth : Nat) (p : Pattern true) (r : List Char) :
    alternativesAt depth (p.text ++ r) = p.text.foldr Text.consFirst (alternativesAt depth r) := by
  -- the commas of an alternative stand in its groups, where they do not cut
  match p with
  | .done _ => rfl
  | .char _ c h rest =>
    rw [Pattern.text, List.cons_append, alternativesAt, if_neg h.ne_open,
      if_neg (h.ne_close rfl), alternativesAt_text depth rest r, List.foldr_cons]
    exact fun _ hc => h.ne_comma rfl hc
  | .group _ choice rest =>
    rw [Pattern.text, List.cons_append, alternativesAt, if_pos rfl, List.append_assoc,
      alternativesAt_choice depth choice, List.cons_append, alternativesAt, if_neg (by decide),
      if_pos rfl, Nat.add_sub_cancel, alternativesAt_text depth rest r, List.foldr_cons,
      List.foldr_append, List.foldr_cons]
    · simp
    · simp

theorem alternativesAt_choice (depth : Nat) (choice : Choice) (r : List Char) :
    alternativesAt (depth + 1) (choice.text ++ r) =
      choice.text.foldr Text.consFirst (alternativesAt (depth + 1) r) := by
  match choice with
  | .last alternative => exact alternativesAt_text (depth + 1) alternative r
  | .more alternative others =>
    -- below the outermost group a comma is a character like others
    rw [Choice.text, List.append_assoc, List.cons_append, alternativesAt_text, alternativesAt,
      if_neg (by decide), if_neg (by decide), alternativesAt_choice depth others r,
      List.foldr_append, List.foldr_cons]
    simp

end

/-- Cutting the content of a group at its own commas gives the alternatives. -/
theorem alternatives_text (choice : Choice) :
    alternatives choice.text = choice.alternatives.map Pattern.text := by
  match choice with
  | .last alternative =>
    have h := alternativesAt_text 0 alternative []
    rw [List.append_nil, alternativesAt, foldr_consFirst, List.append_nil] at h
    exact h
  | .more alternative others =>
    have h := alternatives_text others
    rw [alternatives] at h ⊢
    rw [Choice.text, alternativesAt_text, alternativesAt, h, foldr_consFirst, List.append_nil,
      Choice.alternatives, List.map_cons]

end TreeSelect.Glob
