import TreeSelect.Proofs.SettingValues
import TreeSelect.Settings.Session

namespace TreeSelect.Settings
open Text

variable {α : Type}

/-- The session after some operations, one after the other. -/
def Session.after (s : Session α) (history : List (Operation α)) : Session α :=
  history.foldl (fun s op => (s.perform op).1) s

/-- What is answered when a name is asked for. -/
def Session.ask (s : Session α) (name : String) (fallback : Option (Value α)) : Answer α :=
  (s.perform (.get name fallback)).2.1

def Operation.given (name : String) : Operation α → List (Value α)
  | .override values => givenIn name values
  | _ => []

/-- The value that a history gave to a name last. -/
def lastGiven? (name : String) (history : List (Operation α)) : Option (Value α) :=
  (history.flatMap (Operation.given name)).getLast?

/-- The text that an operation leaves in a variable, or that it takes the variable away, if it is about
that variable. -/
def Operation.assigned? (envVar : String) : Operation α → Option (Option String)
  | .assign v text => if v = envVar then some text else none
  | _ => none

/-- The text of a variable after a history. -/
def textAfter? (env : Environment) (history : List (Operation α)) (envVar : String) :
    Option String :=
  (history.filterMap (Operation.assigned? envVar)).getLast?.getD (env.lookup envVar)

/-- An operation that makes the store where there is none yet. -/
def Operation.makes : Operation α → Bool
  | .assign _ _ => false
  | .forget => false
  | .make => true
  | .override _ => true
  | .get _ _ => true

/-- The text that a variable had when the store was made: before the first operation that makes it. If
no operation does, the store is made after all of them. -/
def textAtMaking? (env : Environment) (history : List (Operation α)) (envVar : String) :
    Option String :=
  textAfter? env (history.takeWhile fun op => !op.makes) envVar

theorem after_append (s : Session α) (history later : List (Operation α)) :
    s.after (history ++ later) = (s.after history).after later :=
  List.foldl_append

/-- An operation that makes the store leaves one in which only what it gives is new. -/
theorem perform_of_makes (s : Session α) (op : Operation α) (h : op.makes = true) :
    ∃ store, (s.perform op).1.store = some store ∧ ∀ name,
      store.values.lookup name = (op.given name).getLast?.or (s.made.1.values.lookup name) := by
  cases op with
  | assign v text => exact absurd h Bool.false_ne_true
  | forget => exact absurd h Bool.false_ne_true
  | make => exact ⟨s.made.1, rfl, fun name => rfl⟩
  | override values => exact ⟨s.made.1.override values, rfl, lookup_override s.made.1 values⟩
  | get name fallback => exact ⟨s.made.1, rfl, fun name => rfl⟩

/-- Any other operation only assigns a variable. -/
theorem exists_assign_of_not_makes (op : Operation α) (h : op.makes = false) (hf : op ≠ .forget) :
    ∃ v text, op = .assign v text := by
  cases op with
  | assign v text => exact ⟨v, text, rfl⟩
  | forget => exact absurd rfl hf
  | make => exact absurd h.symm Bool.false_ne_true
  | override values => exact absurd h.symm Bool.false_ne_true
  | get name fallback => exact absurd h.symm Bool.false_ne_true

theorem textAfter?_assign (env : Environment) (v w : String) (text : Option String)
    (later : List (Operation α)) :
    textAfter? env (.assign v text :: later) w = textAfter? (assign env v text) later w := by
  rw [textAfter?, textAfter?, List.filterMap_cons, Operation.assigned?, lookup_assign]
  by_cases h : v = w
  · simp only [if_pos h, List.getLast?_cons, Option.getD_some]
  · simp only [if_neg h]

/-- Until the store is made, only the environment changes. -/
theorem after_of_not_makes (env : Environment) (history : List (Operation α))
    (h : ∀ op ∈ history, op.makes = false) (hf : .forget ∉ history) :
    ∃ env', (⟨env, none⟩ : Session α).after history = ⟨env', none⟩ ∧
      ∀ v, env'.lookup v = textAfter? env history v := by
  induction history generalizing env with
  | nil => exact ⟨env, rfl, fun v => rfl⟩
  | cons op later ih =>
    rw [List.mem_cons, not_or] at hf
    obtain ⟨v, text, rfl⟩ :=
      exists_assign_of_not_makes op (h op List.mem_cons_self) (Ne.symm hf.1)
    have hlater := ih (assign env v text) (fun op hop => h op (List.mem_cons_of_mem _ hop)) hf.2
    obtain ⟨env', hsession, htexts⟩ := hlater
    refine ⟨env', hsession, ?_⟩
    intro w
    rw [htexts, textAfter?_assign]

theorem lastGiven?_cons (name : String) (op : Operation α) (later : List (Operation α)) :
    lastGiven? name (op :: later) = (lastGiven? name later).or (op.given name).getLast? := by
  rw [lastGiven?, List.flatMap_cons, List.getLast?_append, lastGiven?]

/-- Once the store is made, or if the first operation makes it, only what is given to a name counts. -/
theorem lookup_made_after (s : Session α) (history : List (Operation α)) (name : String)
    (hf : .forget ∉ history)
    (h : s.store.isSome = true ∨ ∀ op ∈ history.head?, op.makes = true) :
    (s.after history).made.1.values.lookup name =
      (lastGiven? name history).or (s.made.1.values.lookup name) := by
  induction history generalizing s with
  | nil => rfl
  | cons op later ih =>
    rw [List.mem_cons, not_or] at hf
    have hafter : s.after (op :: later) = (s.perform op).1.after later := rfl
    rw [hafter, lastGiven?_cons, Option.or_assoc]
    cases hm : op.makes with
    | true =>
      -- a store that is there is kept, so from here on the variables are not read again
      obtain ⟨store, hstore, hlookup⟩ := perform_of_makes s op hm
      have hmade : (s.perform op).1.made.1 = store := by rw [Session.made, hstore]
      rw [ih _ hf.2 (.inl (by rw [hstore]; rfl)), hmade, hlookup]
    | false =>
      obtain ⟨v, text, rfl⟩ := exists_assign_of_not_makes op hm (Ne.symm hf.1)
      -- the assignment does not make the store, so it comes to one that is made
      have hsome : s.store.isSome = true := by
        rcases h with h | h
        · exact h
        · rw [h _ rfl] at hm
          exact absurd hm.symm Bool.false_ne_true
      obtain ⟨store, hstore⟩ := Option.isSome_iff_exists.mp hsome
      have hmade : (s.perform (.assign v text)).1.made.1 = s.made.1 := by
        simp only [Session.made, Session.perform, hstore]
      rw [ih (s.perform (.assign v text)).1 hf.2 (.inl hsome), hmade]
      rfl

/-- What is set for a name after a history: what it was given last, else what its variable told when
the store was made. -/
theorem lookup_after (env : Environment) (history : List (Operation α)) (name : String)
    (hf : .forget ∉ history) :
    ((⟨env, none⟩ : Session α).after history).made.1.values.lookup name =
      (lastGiven? name history).or
        ((Known.named? name).bind (toldBy? (textAtMaking? env history))) := by
  -- the history is cut where the store is made: before, only variables change, and after, none counts
  let quiet (op : Operation α) : Bool := !op.makes
  have hcut : history.takeWhile quiet ++ history.dropWhile quiet = history :=
    List.takeWhile_append_dropWhile
  have hquiet : ∀ op ∈ history.takeWhile quiet, op.makes = false := by
    intro op hop
    have hq : (!op.makes) = true := List.all_eq_true.mp List.all_takeWhile op hop
    rwa [Bool.not_eq_true'] at hq
  have hmaker : ∀ op ∈ (history.dropWhile quiet).head?, op.makes = true := by
    intro op hop
    have hq := List.head?_dropWhile_not quiet history
    rw [hop] at hq
    have hnot : (!op.makes) = false := hq
    rwa [Bool.not_eq_false'] at hnot
  have hgiven : ∀ op ∈ history.takeWhile quiet, op.given name = [] := by
    intro op hop
    have hne : op ≠ .forget := fun he => hf ((List.takeWhile_subset _) (he ▸ hop))
    obtain ⟨v, text, rfl⟩ := exists_assign_of_not_makes op (hquiet op hop) hne
    rfl
  obtain ⟨env', hsession, htexts⟩ := after_of_not_makes env _ hquiet fun h =>
    hf ((List.takeWhile_subset _) h)
  have hlast : lastGiven? name history = lastGiven? name (history.dropWhile quiet) := by
    rw [lastGiven?, lastGiven?, ← hcut, List.flatMap_append, List.flatMap_eq_nil_iff.mpr hgiven,
      List.nil_append, hcut]
  have hdrop : .forget ∉ history.dropWhile quiet := fun h =>
    hf ((List.dropWhile_sublist _).subset h)
  have htold : toldBy? (fun v => env'.lookup v) = toldBy? (α := α) (textAtMaking? env history) :=
    congrArg toldBy? (funext htexts)
  calc ((⟨env, none⟩ : Session α).after history).made.1.values.lookup name
      = ((⟨env', none⟩ : Session α).after (history.dropWhile quiet)).made.1.values.lookup name := by
        rw [← hsession, ← after_append, hcut]
    _ = (lastGiven? name history).or ((Store.load env').1.values.lookup name) := by
        rw [lookup_made_after _ _ name hdrop (.inr hmaker), hlast]
        simp only [Session.made]
    _ = _ := by rw [lookup_load, htold]

/-- A known setting always has a value, whatever the caller has ready. -/
theorem ask_known (env : Environment) (history : List (Operation α)) (k : Known)
    (fallback : Option (Value α)) (hf : .forget ∉ history) :
    ((⟨env, none⟩ : Session α).after history).ask k.name fallback =
      .value (((lastGiven? k.name history).or (toldBy? (textAtMaking? env history) k)).getD
        k.default) := by
  have hset := lookup_after env history k.name hf
  rw [named?_name, Option.bind_some] at hset
  simp only [Session.ask, Session.perform, Store.get?, hset, named?_name, Option.map_some,
    Option.some_or]
  cases (lastGiven? k.name history).or (toldBy? (textAtMaking? env history) k) <;> rfl

theorem ask_unknown (env : Environment) (history : List (Operation α)) (name : String)
    (fallback : Option (Value α)) (hf : .forget ∉ history) (hn : Known.named? name = none) :
    ((⟨env, none⟩ : Session α).after history).ask name fallback =
      (((lastGiven? name history).or fallback).map .value).getD (.missing name) := by
  have hset := lookup_after env history name hf
  rw [hn, Option.bind_none, Option.or_none] at hset
  simp only [Session.ask, Session.perform, Store.get?, hset, hn, Option.map_none, Option.none_or]

/-- What was given to a name, and what the variables told, decide every answer about it. -/
theorem ask_congr (env : Environment) (history history' : List (Operation α)) (name : String)
    (fallback : Option (Value α)) (hf : .forget ∉ history) (hf' : .forget ∉ history')
    (hgiven : lastGiven? name history = lastGiven? name history')
    (htold : ∀ k, toldBy? (α := α) (textAtMaking? env history) k =
      toldBy? (textAtMaking? env history') k) :
    ((⟨env, none⟩ : Session α).after history).ask name fallback =
      ((⟨env, none⟩ : Session α).after history').ask name fallback := by
  cases hn : Known.named? name with
  | none => rw [ask_unknown env _ _ _ hf hn, ask_unknown env _ _ _ hf' hn, hgiven]
  | some k =>
    have hfound := List.find?_some hn
    have hname : k.name = name := of_decide_eq_true hfound
    rw [← hname] at hgiven ⊢
    rw [ask_known env _ k _ hf, ask_known env _ k _ hf', hgiven, htold]

theorem lastGiven?_append (name : String) (history later : List (Operation α)) :
    lastGiven? name (history ++ later) = (lastGiven? name later).or (lastGiven? name history) := by
  rw [lastGiven?, List.flatMap_append, List.getLast?_append, lastGiven?, lastGiven?]

theorem textAfter?_append (env : Environment) (history later : List (Operation α)) (v : String) :
    textAfter? env (history ++ later) v =
      (later.filterMap (Operation.assigned? v)).getLast?.getD (textAfter? env history v) := by
  rw [textAfter?, textAfter?, List.filterMap_append, List.getLast?_append]
  cases (later.filterMap (Operation.assigned? v)).getLast? <;> rfl

/-- A text that tells nothing of its setting is as good as none. -/
theorem toldBy?_refused (env : Environment) (history later : List (Operation α)) (k m : Known)
    (text : String) (h : ∀ v : Value α, ¬ k.Tells text v) :
    toldBy? (α := α) (textAfter? env (history ++ .assign k.envVar (some text) :: later)) m =
      toldBy? (textAfter? env (history ++ .assign k.envVar none :: later)) m := by
  simp only [toldBy?, textAfter?_append, List.filterMap_cons, Operation.assigned?]
  by_cases hv : k.envVar = m.envVar
  -- no two settings share a variable, and the text counts unless a later one replaces it
  · have hk : k = m := by
      revert hv
      cases k <;> cases m <;> decide
    subst hk
    simp only [if_true, List.getLast?_cons, Option.getD_some]
    cases (later.filterMap (Operation.assigned? k.envVar)).getLast? with
    | some last => rfl
    | none =>
      cases hread : (k.read text : Except Refusal (Value α)) with
      | error refusal => simp [Except.toOption, hread]
      | ok v => exact absurd (tells_of_read k text v hread) (h v)
  · simp only [if_neg hv]

/-- Up to where the store is made, an operation stands in the history or it does not. -/
theorem takeWhile_quiet_append (before later : List (Operation α)) (op : Operation α) :
    (before ++ op :: later).takeWhile (fun op => !op.makes) =
      if before.all (fun op => !op.makes) then
        before ++ if op.makes then [] else op :: later.takeWhile fun op => !op.makes
      else before.takeWhile fun op => !op.makes := by
  by_cases hb : before.all (fun op => !op.makes) = true
  · rw [if_pos hb, List.takeWhile_append_of_pos (List.all_eq_true.mp hb), List.takeWhile_cons]
    cases op.makes <;> rfl
  · rw [if_neg hb, List.takeWhile_append, if_neg]
    intro hlength
    -- nothing is dropped of what comes before, so no operation in it makes the store
    have hall := (List.takeWhile_prefix (fun op : Operation α => !op.makes)).eq_of_length hlength
    rw [← hall] at hb
    exact hb List.all_takeWhile

theorem forget_not_mem_replaced (before later : List (Operation α)) (op op' : Operation α)
    (hf : .forget ∉ before ++ op :: later) (hop : op' ≠ .forget) :
    .forget ∉ before ++ op' :: later := by
  rw [List.mem_append, List.mem_cons, not_or, not_or] at hf ⊢
  exact ⟨hf.1, Ne.symm hop, hf.2.2⟩

/-- An override that has no value for a name is to it as if the store were only made. -/
theorem ask_of_not_given (env : Environment) (before later : List (Operation α))
    (values : List (String × Option (Value α))) (name : String) (fallback : Option (Value α))
    (hf : .forget ∉ before ++ .override values :: later) (h : ∀ v, (name, some v) ∉ values) :
    ((⟨env, none⟩ : Session α).after (before ++ .override values :: later)).ask name fallback =
      ((⟨env, none⟩ : Session α).after (before ++ .make :: later)).ask name fallback := by
  have hnothing : (Operation.override values).given name = [] := by
    rw [Operation.given, givenIn, List.filterMap_eq_nil_iff]
    rintro ⟨n, v⟩ hnv
    cases v with
    | none => exact ite_self _
    | some v =>
      have hn : n ≠ name := fun he => h v (he ▸ hnv)
      exact if_neg hn
  have hf' := forget_not_mem_replaced before later _ .make hf (by simp)
  apply ask_congr env _ _ name fallback hf hf'
  · rw [lastGiven?_append, lastGiven?_append, lastGiven?_cons, lastGiven?_cons, hnothing]
    rfl
  · intro k
    have hmaking : textAtMaking? env (before ++ .override values :: later) =
        textAtMaking? env (before ++ .make :: later) := by
      funext v
      rw [textAtMaking?, textAtMaking?, takeWhile_quiet_append, takeWhile_quiet_append]
      rfl
    rw [hmaking]

/-- A variable with a text that tells nothing is to every name as if it were not set. -/
theorem ask_of_refused (env : Environment) (before later : List (Operation α)) (k : Known)
    (text name : String) (fallback : Option (Value α))
    (hf : .forget ∉ before ++ .assign k.envVar (some text) :: later)
    (h : ∀ v : Value α, ¬ k.Tells text v) :
    ((⟨env, none⟩ : Session α).after
        (before ++ .assign k.envVar (some text) :: later)).ask name fallback =
      ((⟨env, none⟩ : Session α).after
        (before ++ .assign k.envVar none :: later)).ask name fallback := by
  have hf' := forget_not_mem_replaced before later _ (.assign k.envVar none) hf (by simp)
  apply ask_congr env _ _ name fallback hf hf'
  · rw [lastGiven?_append, lastGiven?_append, lastGiven?_cons, lastGiven?_cons]
    rfl
  · intro m
    have hmaking (t : Option String) :
        textAtMaking? env (before ++ .assign k.envVar t :: later) =
          textAfter? env ((before ++ .assign k.envVar t :: later).takeWhile
            fun op => !op.makes) := rfl
    rw [hmaking, hmaking, takeWhile_quiet_append, takeWhile_quiet_append]
    split
    · exact toldBy?_refused env before _ k m text h
    · rfl

/-- Which answer a name has after any history in which the store is not forgotten. A known setting has
the value that it was given last, else the one that its variable told when the store was made, else its
default, and is never missing; another name has the value that it was given last, else what the caller
has ready. Neither an override without a value nor a variable with a text of no value touches
anything. -/
theorem ask_after (env : Environment) (history : List (Operation α)) (hf : .forget ∉ history) :
    (∀ k : Known, ∃ v,
      (∀ fallback, ((⟨env, none⟩ : Session α).after history).ask k.name fallback = .value v) ∧
      (∀ w, lastGiven? k.name history = some w → v = w) ∧
      (lastGiven? k.name history = none → ∀ text,
        textAtMaking? env history k.envVar = some text → (∃ w : Value α, k.Tells text w) →
          k.Tells text v) ∧
      (lastGiven? k.name history = none →
        (∀ text, textAtMaking? env history k.envVar = some text → ¬ ∃ w : Value α, k.Tells text w) →
          v = k.default)) ∧
    (∀ name, Known.named? name = none → ∀ fallback,
      ((⟨env, none⟩ : Session α).after history).ask name fallback =
        (((lastGiven? name history).or fallback).map .value).getD (.missing name)) ∧
    (∀ before values later name fallback, history = before ++ .override values :: later →
      (∀ v, (name, some v) ∉ values) →
        ((⟨env, none⟩ : Session α).after history).ask name fallback =
          ((⟨env, none⟩ : Session α).after (before ++ .make :: later)).ask name fallback) ∧
    (∀ before k text later name fallback,
      history = before ++ .assign (Known.envVar k) (some text) :: later →
      (∀ v : Value α, ¬ k.Tells text v) →
        ((⟨env, none⟩ : Session α).after history).ask name fallback =
          ((⟨env, none⟩ : Session α).after
            (before ++ .assign k.envVar none :: later)).ask name fallback) := by
  refine ⟨?_, ?_, ?_, ?_⟩
  · intro k
    refine ⟨_, fun fallback => ask_known env history k fallback hf, ?_, ?_, ?_⟩
    · intro w hw
      rw [hw, Option.some_or, Option.getD_some]
    · intro hnone text htext hw
      obtain ⟨w, hw⟩ := hw
      obtain ⟨v, hread⟩ := exists_read_of_tells k text w hw
      have htold : toldBy? (textAtMaking? env history) k = some v := by
        rw [toldBy?, htext, Option.bind_some, hread, Except.toOption]
      rw [hnone, Option.none_or, htold, Option.getD_some]
      exact tells_of_read k text v hread
    · intro hnone hrefused
      have htold : toldBy? (α := α) (textAtMaking? env history) k = none := by
        rw [toldBy?, Option.bind_eq_none_iff]
        intro text htext
        cases hread : (k.read text : Except Refusal (Value α)) with
        | error refusal => rfl
        | ok v => exact absurd ⟨v, tells_of_read k text v hread⟩ (hrefused text htext)
      rw [hnone, Option.none_or, htold, Option.getD_none]
  · intro name hn fallback
    exact ask_unknown env history name fallback hf hn
  · rintro before values later name fallback rfl h
    exact ask_of_not_given env before later values name fallback hf h
  · rintro before k text later name fallback rfl h
    exact ask_of_refused env before later k text name fallback hf h

/-- The store is made by the first override; one variable is bad, and one is changed too late. -/
def mixedHistory : List (Operation Empty) := [
  .assign "CODE_QUERY_LINES_ABOVE" (some "two"), .assign "CODE_QUERY_LOG_LEVEL" (some " error "),
  .override [("lines_below", some (.count 7)), ("log_level", none)],
  .assign "CODE_QUERY_LOG_LEVEL" (some "debug"), .get "lines_below" none,
  .override [("color", some (.text "red")), ("lines_below", some (.count 9))]]

theorem ask_mixedHistory :
    .forget ∉ mixedHistory ∧
      (∀ fallback, (Session.initial.after mixedHistory).ask "lines_below" fallback =
        .value (.count 9)) ∧
      (∀ fallback, (Session.initial.after mixedHistory).ask "log_level" fallback =
        .value (.text "ERROR")) ∧
      (∀ fallback, (Session.initial.after mixedHistory).ask "lines_above" fallback =
        .value (.count 2)) ∧
      (Session.initial.after mixedHistory).ask "color" (some (.text "blue")) =
        .value (.text "red") ∧
      (Session.initial.after mixedHistory).ask "colour" none = .missing "colour" := by
  have hf : .forget ∉ mixedHistory := by
    simp [mixedHistory]
  obtain ⟨hknown, hunknown, -, -⟩ := ask_after [] mixedHistory hf
  refine ⟨hf, ?_, ?_, ?_, ?_, ?_⟩
  · obtain ⟨v, hv, hgiven, -, -⟩ := hknown .linesBelow
    rw [hgiven (.count 9) (by decide +kernel)] at hv
    exact hv
  · obtain ⟨v, hv, -, htold, -⟩ := hknown .logLevel
    have hcapital : capital (String.ofList (trim " error ".toList)) = Log.Level.error.name := by
      decide +kernel
    obtain ⟨l, hl, hvl⟩ := htold (by decide +kernel) " error " (by decide +kernel)
      ⟨.text "ERROR", .error, hcapital, rfl⟩
    rw [hvl, ← hl, hcapital] at hv
    exact hv
  · obtain ⟨v, hv, -, -, hdefault⟩ := hknown .linesAbove
    have htext : textAtMaking? [] mixedHistory "CODE_QUERY_LINES_ABOVE" = some "two" := by
      decide +kernel
    rw [hdefault (by decide +kernel) ?_] at hv
    · exact hv
    · rintro text ht ⟨w, n, hn, -⟩
      rw [← Option.some.inj (htext.symm.trans ht)] at hn
      have hread : readInt "two".toList = .error .malformed := by
        rfl
      rw [hread] at hn
      exact absurd hn nofun
  · exact hunknown "color" (by decide +kernel) (some (.text "blue"))
  · exact hunknown "colour" (by decide +kernel) none

end TreeSelect.Settings
