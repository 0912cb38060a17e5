import TreeSelect.Proofs.PathText
import TreeSelect.Settings.Store

namespace TreeSelect.Settings
open Text

variable {α : Type}

/-- The value that the text of a variable tells of a setting; a list of names stands for the set of
them. -/
def Known.Tells (k : Known) (text : String) (v : Value α) : Prop :=
  match k with
  | .ignoreFilename | .defaultGlob => v = .text text
  | .linesAbove | .linesBelow => ∃ n : Nat, readInt text.toList = .ok n ∧ v = .count n
  | .dialects => ∃ names, v = .names names ∧ ∀ n, n ∈ names ↔
      ∃ part ∈ text.toList.splitOn ',', trim part ≠ [] ∧ n = small (String.ofList (trim part))
  | .logLevel => ∃ l : Log.Level, capital (String.ofList (trim text.toList)) = l.name ∧
      v = .text l.name

theorem readCount_eq_ok_iff (text : String) (n : Nat) :
    readCount text = .ok n ↔ readInt text.toList = .ok n := by
  rw [readCount]
  cases hread : readInt text.toList with
  | error e => cases e <;> simp
  | ok m =>
    simp only [Except.ok.injEq]
    -- a negative number is refused, and no count is negative
    split
    · constructor
      · exact nofun
      · rintro rfl
        omega
    · rw [Except.ok.injEq]
      omega

theorem mem_readNames (text n : String) :
    n ∈ readNames text ↔
      ∃ part ∈ text.toList.splitOn ',', trim part ≠ [] ∧ n = small (String.ofList (trim part)) := by
  simp only [readNames, List.mem_eraseDups, split_eq_splitOn, List.mem_map, List.mem_filter,
    decide_eq_true_eq]
  constructor
  · rintro ⟨_, ⟨⟨part, hp, rfl⟩, hne⟩, rfl⟩
    exact ⟨part, hp, hne, rfl⟩
  · rintro ⟨part, hp, hne, rfl⟩
    exact ⟨_, ⟨⟨part, hp, rfl⟩, hne⟩, rfl⟩

theorem levelNamed?_eq_some_iff (name : String) (l : Log.Level) :
    Log.Level.named? name = some l ↔ name = l.name := by
  constructor
  · intro h
    have hl := List.find?_some h
    exact (of_decide_eq_true hl).symm
  · rintro rfl
    cases l <;> rfl

theorem readLevel_eq_ok_iff (text name : String) :
    readLevel text = .ok name ↔
      ∃ l : Log.Level, capital (String.ofList (trim text.toList)) = l.name ∧ name = l.name := by
  rw [readLevel]
  cases hl : Log.Level.named? (capital (String.ofList (trim text.toList))) with
  | none =>
    constructor
    · exact nofun
    · rintro ⟨l, h, _⟩
      rw [(levelNamed?_eq_some_iff _ l).mpr h] at hl
      exact absurd hl nofun
  | some l =>
    have hname := (levelNamed?_eq_some_iff _ l).mp hl
    constructor
    · intro h
      exact ⟨l, hname, (Except.ok.inj h).symm⟩
    · rintro ⟨m, hm, rfl⟩
      exact congrArg Except.ok (hname.symm.trans hm)

theorem map_eq_ok_iff {ε β γ : Type} (x : Except ε β) (f : β → γ) (c : γ) :
    x.map f = .ok c ↔ ∃ b, x = .ok b ∧ c = f b := by
  cases x with
  | error e => simp [Except.map]
  | ok b => simp [Except.map, eq_comm]

/-- The text of a variable is read as a value that it tells. -/
theorem tells_of_read (k : Known) (text : String) (v : Value α) (h : k.read text = .ok v) :
    k.Tells text v := by
  cases k with
  | ignoreFilename => exact (Except.ok.inj h).symm
  | defaultGlob => exact (Except.ok.inj h).symm
  | linesAbove | linesBelow =>
    rw [Known.read, map_eq_ok_iff] at h
    simp only [readCount_eq_ok_iff] at h
    exact h
  | dialects =>
    have hv : Value.names (readNames text) = v := Except.ok.inj h
    exact ⟨readNames text, hv.symm, mem_readNames text⟩
  | logLevel =>
    rw [Known.read, map_eq_ok_iff] at h
    obtain ⟨name, hname, hv⟩ := h
    obtain ⟨l, hl, rfl⟩ := (readLevel_eq_ok_iff text name).mp hname
    exact ⟨l, hl, hv⟩

/-- A text that tells a value is read. -/
theorem exists_read_of_tells (k : Known) (text : String) (v : Value α) (h : k.Tells text v) :
    ∃ w : Value α, k.read text = .ok w := by
  cases k with
  | ignoreFilename | defaultGlob => exact ⟨.text text, rfl⟩
  | linesAbove | linesBelow =>
    refine ⟨v, ?_⟩
    rw [Known.read, map_eq_ok_iff]
    simp only [readCount_eq_ok_iff]
    exact h
  | dialects => exact ⟨.names (readNames text), rfl⟩
  | logLevel =>
    obtain ⟨l, hl, hv⟩ := h
    refine ⟨v, ?_⟩
    rw [Known.read, map_eq_ok_iff]
    exact ⟨l.name, (readLevel_eq_ok_iff text l.name).mpr ⟨l, hl, rfl⟩, hv⟩

/-- The value of a setting as the texts of the variables tell it. -/
def toldBy? (texts : String → Option String) (k : Known) : Option (Value α) :=
  (texts k.envVar).bind fun text => (k.read text).toOption

theorem named?_name (k : Known) : Known.named? k.name = some k := by
  cases k <;> rfl

theorem lookup_set (s : Store α) (name m : String) (v : Value α) :
    (s.set m v).values.lookup name = if m = name then some v else s.values.lookup name := by
  rw [Store.set, List.lookup_cons]
  by_cases h : m = name
  · rw [if_pos h, h, beq_self_eq_true]
  · rw [if_neg h, beq_eq_false_iff_ne.mpr (Ne.symm h)]

theorem lookup_readFrom (env : Environment) (s : Store α) (k : Known) (name : String) :
    (s.readFrom env k).1.values.lookup name =
      if k.name = name then (toldBy? (fun v => env.lookup v) k).or (s.values.lookup name)
      else s.values.lookup name := by
  rw [Store.readFrom, toldBy?]
  cases env.lookup k.envVar with
  | none => exact (ite_self _).symm
  | some text =>
    simp only [Option.bind_some]
    cases (k.read text : Except Refusal (Value α)) with
    | error refusal => exact (ite_self _).symm
    | ok v => exact lookup_set s name k.name v

/-- Reading settings of different names gives each of them what its variable tells. -/
theorem lookup_readAll (env : Environment) (s : Store α) (ks : List Known) (name : String)
    (h : (ks.map Known.name).Nodup) :
    (s.readAll env ks).1.values.lookup name =
      ((ks.find? fun k => k.name = name).bind (toldBy? fun v => env.lookup v)).or
        (s.values.lookup name) := by
  induction ks generalizing s with
  | nil => rfl
  | cons k ks ih =>
    rw [List.map_cons, List.nodup_cons] at h
    rw [Store.readAll, List.find?_cons]
    have hrest := ih (s.readFrom env k).1 h.2
    rw [lookup_readFrom] at hrest
    by_cases hk : k.name = name
    -- no later setting has this name, so none replaces what is read here
    · have hnone : (ks.find? fun k => k.name = name) = none := by
        rw [List.find?_eq_none]
        intro m hm he
        rw [← of_decide_eq_true he] at hk
        exact h.1 (List.mem_map.mpr ⟨m, hm, hk.symm⟩)
      rw [hnone, if_pos hk] at hrest
      rw [decide_eq_true hk]
      exact hrest
    · rw [if_neg hk] at hrest
      rw [decide_eq_false hk]
      exact hrest

/-- A store that is made holds what the variables tell of the known settings. -/
theorem lookup_load (env : Environment) (name : String) :
    ((Store.load env).1 : Store α).values.lookup name =
      (Known.named? name).bind (toldBy? fun v => env.lookup v) := by
  rw [Store.load, lookup_readAll env _ _ name (by decide +kernel)]
  exact Option.or_none

/-- The values that some overrides have for a name, in order. -/
def givenIn (name : String) (values : List (String × Option (Value α))) : List (Value α) :=
  values.filterMap fun (n, v) => if n = name then v else none

theorem givenIn_cons (name n : String) (v : Option (Value α))
    (values : List (String × Option (Value α))) :
    givenIn name ((n, v) :: values) =
      if n = name then v.toList ++ givenIn name values else givenIn name values := by
  simp only [givenIn, List.filterMap_cons]
  by_cases hn : n = name
  · rw [if_pos hn, if_pos hn]
    cases v <;> rfl
  · rw [if_neg hn, if_neg hn]

/-- The last value for a name overrides the others. -/
theorem lookup_override (s : Store α) (values : List (String × Option (Value α))) (name : String) :
    (s.override values).values.lookup name =
      (givenIn name values).getLast?.or (s.values.lookup name) := by
  induction values generalizing s with
  | nil => rfl
  | cons nv values ih =>
    obtain ⟨n, v⟩ := nv
    rw [Store.override, List.foldl_cons, givenIn_cons]
    cases v with
    | none =>
      rw [Option.toList_none, List.nil_append, ite_self]
      exact ih s
    | some v =>
      have hset := ih (s.set n v)
      rw [lookup_set] at hset
      refine hset.trans ?_
      by_cases hn : n = name
      · rw [if_pos hn, if_pos hn, Option.toList_some, List.singleton_append, List.getLast?_cons]
        cases (givenIn name values).getLast? <;> rfl
      · rw [if_neg hn, if_neg hn]

/-- Taking a variable away takes its text away, and no other. -/
theorem lookup_filter_ne (env : Environment) (v w : String) :
    (env.filter fun e => e.1 ≠ v).lookup w = if v = w then none else env.lookup w := by
  induction env with
  | nil => simp
  | cons e env ih =>
    obtain ⟨x, t⟩ := e
    rw [List.filter_cons, List.lookup_cons]
    by_cases hx : x = v
    · subst hx
      simp only [ne_eq, not_true_eq_false, decide_false, Bool.false_eq_true, if_false, ih]
      by_cases hw : x = w
      · rw [if_pos hw, if_pos hw]
      · rw [if_neg hw, if_neg hw, beq_eq_false_iff_ne.mpr (Ne.symm hw)]
    · simp only [ne_eq, hx, not_false_eq_true, decide_true, if_true, List.lookup_cons, ih]
      by_cases hw : w = x
      -- the entry is found, and it is not one of those that are taken away
      · have hv : v ≠ x := fun h => hx h.symm
        simp only [hw, beq_self_eq_true, if_neg hv]
      · rw [beq_eq_false_iff_ne.mpr hw]

theorem lookup_assign (env : Environment) (v w : String) (text : Option String) :
    (assign env v text).lookup w = if v = w then text else env.lookup w := by
  cases text with
  | none => exact lookup_filter_ne env v w
  | some t =>
    simp only [assign, List.lookup_cons, lookup_filter_ne]
    by_cases hw : v = w
    · simp only [hw, beq_self_eq_true, if_true]
    · rw [if_neg hw, if_neg hw, beq_eq_false_iff_ne.mpr (Ne.symm hw)]

end TreeSelect.Settings
