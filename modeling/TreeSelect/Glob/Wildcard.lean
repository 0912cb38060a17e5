namespace TreeSelect.Glob

inductive Member where
  | char (c : Char)
  | range (low high : Char)
  deriving DecidableEq

inductive Item where
  | char (c : Char)
  | one
  | run
  | set (negated : Bool) (members : List Member)
  deriving DecidableEq

/-- A character of a set, or the hyphen between the ends of a range. -/
inductive Atom where
  | char (c : Char)
  | hyphen
  deriving DecidableEq

/-- The content of a bracket and what follows the bracket that closes it. The closing bracket is the
first after an exclamation mark and another bracket that may stand in front. -/
def splitSet (cs : List Char) : Option (List Char × List Char) :=
  let mark := if cs.head? = some '!' then 1 else 0
  let front := if (cs.drop mark).head? = some ']' then mark + 1 else mark
  match (cs.drop front).dropWhile (· ≠ ']') with
  | [] => none
  | _ :: r => some (cs.take front ++ (cs.drop front).takeWhile (· ≠ ']'), r)

/-- Cuts the content of a set at the hyphens of its ranges. The first `skip` characters hold no such
hyphen, as each range needs a character in front, and one that ends the content is a character. -/
def cutRanges : Nat → List Char → List (List Char)
  | _, [] => [[]]
  | 0, '-' :: r =>
    match r with
    | [] => [['-']]
    | _ => [] :: cutRanges 2 r
  | skip, c :: r =>
    match cutRanges (skip - 1) r with
    | [] => [[c]]
    | chunk :: chunks => (c :: chunk) :: chunks

/-- Puts chunks together again where the range between them is empty, without its two ends. -/
def joinEmptyRanges : List (List Char) → List (List Char)
  | [] => []
  | chunk :: chunks =>
    match joinEmptyRanges chunks with
    | [] => [chunk]
    | next :: later =>
      match chunk.getLast?, next.head? with
      | some low, some high =>
        if high < low then (chunk.dropLast ++ next.drop 1) :: later else chunk :: next :: later
      | _, _ => chunk :: next :: later

def atomsOf : List (List Char) → List Atom
  | [] => []
  | [chunk] => chunk.map .char
  | chunk :: chunks => chunk.map .char ++ .hyphen :: atomsOf chunks

def membersOf : List Atom → List Member
  | [] => []
  | .char low :: .hyphen :: .char high :: r => .range low high :: membersOf r
  | .char c :: r => .char c :: membersOf r
  | .hyphen :: r => .char '-' :: membersOf r

def setOf (content : List Char) : Item :=
  let skip := if content.head? = some '!' then 2 else 1
  match atomsOf (joinEmptyRanges (cutRanges skip content)) with
  | .char '!' :: atoms => .set true (membersOf atoms)
  | atoms => .set false (membersOf atoms)

theorem length_lt_of_splitSet {cs content r : List Char} (h : splitSet cs = some (content, r)) :
    r.length < cs.length := by
  simp only [splitSet] at h
  split at h
  · simp at h
  · next d r' hd =>
    simp only [Option.some.injEq, Prod.mk.injEq] at h
    obtain ⟨_, rfl⟩ := h
    have hle := (List.dropWhile_suffix (· ≠ ']') (l := cs.drop
      (if (cs.drop (if cs.head? = some '!' then 1 else 0)).head? = some ']' then
        (if cs.head? = some '!' then 1 else 0) + 1 else if cs.head? = some '!' then 1 else 0))).length_le
    rw [hd] at hle
    simp only [List.length_cons, List.length_drop] at hle
    omega

/-- The items of a pattern; a bracket that is not closed stands for itself. -/
def itemsOf (pattern : List Char) : List Item :=
  match pattern with
  | [] => []
  | '*' :: r => .run :: itemsOf r
  | '?' :: r => .one :: itemsOf r
  | '[' :: r =>
    match _h : splitSet r with
    | some (content, r') => setOf content :: itemsOf r'
    | none => .char '[' :: itemsOf r
  | c :: r => .char c :: itemsOf r
termination_by pattern.length
decreasing_by
  all_goals simp_wf
  have := length_lt_of_splitSet _h
  omega

def Member.holds (c : Char) : Member → Bool
  | .char d => c == d
  | .range low high => low ≤ c && c ≤ high

/-- Whether an item other than a run takes a character. -/
def Item.takes (c : Char) : Item → Bool
  | .char d => c == d
  | .one => true
  | .run => false
  | .set negated members => members.any (·.holds c) != negated

/-- Every end of a list, the longest first. -/
def suffixes {α : Type} : List α → List (List α)
  | [] => [[]]
  | x :: xs => (x :: xs) :: suffixes xs

theorem head?_map_suffixes {α β : Type} (f : List α → β) (xs : List α) :
    ((suffixes xs).map f).head? = some (f xs) := by
  cases xs <;> rfl

/-- Whether items match the whole of a text. -/
def matchesItems : List Item → List Char → Bool
  | [], cs => cs.isEmpty
  | .run :: items, cs => (suffixes cs).any (matchesItems items)
  | _ :: _, [] => false
  | item :: items, c :: cs => item.takes c && matchesItems items cs

theorem matchesItems_run (items : List Item) (cs : List Char) :
    matchesItems (.run :: items) cs = (suffixes cs).any (matchesItems items) := by
  simp only [matchesItems]

theorem matchesItems_cons_nil {item : Item} (h : item ≠ .run) (items : List Item) :
    matchesItems (item :: items) [] = false := by
  cases item <;> simp_all [matchesItems]

theorem matchesItems_cons_cons {item : Item} (h : item ≠ .run) (items : List Item) (c : Char)
    (cs : List Char) :
    matchesItems (item :: items) (c :: cs) = (item.takes c && matchesItems items cs) := by
  cases item <;> simp_all [matchesItems]

/-- For each place of a list, whether it or a later one holds. -/
def orLater : List Bool → List Bool
  | [] => []
  | b :: r =>
    let later := orLater r
    (b || later.head?.getD false) :: later

theorem orLater_map_suffixes {α : Type} (p : List α → Bool) (xs : List α) :
    orLater ((suffixes xs).map p) = (suffixes xs).map fun r => (suffixes r).any p := by
  induction xs with
  | nil => simp [suffixes, orLater]
  | cons x xs ih =>
    simp only [suffixes, List.map_cons, orLater, ih, head?_map_suffixes, Option.getD_some,
      List.any_cons]

/-- Which ends of a text the items match, the longest first. Each item costs one pass over the text,
however many runs there are. -/
def matchedSuffixes : List Item → List Char → List Bool
  | [], cs => cs.map (fun _ => false) ++ [true]
  | item :: items, cs =>
    let rest := matchedSuffixes items cs
    if item = .run then orLater rest
    else List.zipWith (fun c b => item.takes c && b) cs rest.tail ++ [false]

theorem zipWith_suffixes {item : Item} (h : item ≠ .run) (items : List Item) (cs : List Char) :
    List.zipWith (fun c b => item.takes c && b) cs ((suffixes cs).map (matchesItems items)).tail
      ++ [false] = (suffixes cs).map (matchesItems (item :: items)) := by
  induction cs with
  | nil => simp [suffixes, matchesItems_cons_nil h]
  | cons c cs ih =>
    rw [suffixes, List.map_cons, List.tail_cons, List.map_cons, matchesItems_cons_cons h, ← ih]
    cases cs <;> simp [suffixes]

theorem matchedSuffixes_eq (items : List Item) (cs : List Char) :
    matchedSuffixes items cs = (suffixes cs).map (matchesItems items) := by
  induction items with
  | nil =>
    induction cs with
    | nil => rfl
    | cons c cs ih =>
      simp only [matchedSuffixes, List.map_cons, List.cons_append, suffixes, matchesItems,
        List.isEmpty_cons] at ih ⊢
      rw [ih]
  | cons item items ih =>
    rw [matchedSuffixes, ih]
    split
    · next h =>
      subst h
      rw [orLater_map_suffixes, funext (matchesItems_run items)]
    · next h => exact zipWith_suffixes h items cs

/-- Whether a pattern matches the whole of a name: a star takes any run of characters, a question mark
any one, and a set in brackets one of its members or, after an exclamation mark, one that is none. -/
def wildcard (pattern name : String) : Bool :=
  (matchedSuffixes (itemsOf pattern.toList) name.toList).head?.getD false

theorem wildcard_eq (pattern name : String) :
    wildcard pattern name = matchesItems (itemsOf pattern.toList) name.toList := by
  rw [wildcard, matchedSuffixes_eq, head?_map_suffixes, Option.getD_some]

end TreeSelect.Glob
