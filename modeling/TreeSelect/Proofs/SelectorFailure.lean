import TreeSelect.CommandLine.Execute
import TreeSelect.Failure
import TreeSelect.Proofs.SelectorIntake
import TreeSelect.Proofs.SelectorMeaning

namespace TreeSelect.Selector
open Written
open CommandLine (Surroundings Request demandOf execute misuse storeFor refuse selectorMessage)

/-- The error of a computation that ends with one. -/
def error? {ε α : Type} : Except ε α → Option ε
  | .error e => some e
  | .ok _ => none

theorem error?_eq_some_iff {ε α : Type} (x : Except ε α) (e : ε) :
    error? x = some e ↔ x = .error e := by
  cases x <;> simp [error?]

theorem error?_bind {ε α β : Type} (x : Except ε α) (f : α → Except ε β) (o : Option ε)
    (h : ∀ a, error? (f a) = o) : error? (x >>= f) = (error? x).or o := by
  cases x with
  | error e => rfl
  | ok a => exact h a

theorem error?_map {ε α β : Type} (x : Except ε α) (f : α → β) :
    error? (x.map f) = error? x := by
  cases x <;> rfl

/-- Of a list that is gone through from the left, the first error ends the way. -/
theorem error?_mapM {ε α β : Type} (f : α → Except ε β) (xs : List α) :
    error? (xs.mapM f) = xs.findSome? fun x => error? (f x) := by
  induction xs with
  | nil => rfl
  | cons x xs ih =>
    rw [List.mapM_cons, List.findSome?_cons]
    cases hx : f x with
    | error e => rfl
    | ok y =>
      have hrest : error? (do let ys ← xs.mapM f; return y :: ys) = error? (xs.mapM f) := by
        rw [error?_bind _ _ none fun _ => rfl, Option.or_none]
      exact hrest.trans ih

theorem error?_mapM_ne {ε α β : Type} (f : α → Except ε β) (xs : List α) (e : ε)
    (h : ∀ x, f x ≠ .error e) : error? (xs.mapM f) ≠ some e := by
  intro he
  rw [error?_mapM] at he
  obtain ⟨x, -, hx⟩ := List.exists_of_findSome?_eq_some he
  exact h x ((error?_eq_some_iff (f x) e).mp hx)

theorem findSome?_flatMap {α β γ : Type} (f : α → List β) (g : β → Option γ) (xs : List α) :
    (xs.flatMap f).findSome? g = xs.findSome? fun x => (f x).findSome? g := by
  induction xs with
  | nil => rfl
  | cons x xs ih =>
    rw [List.flatMap_cons, List.findSome?_append, ih, List.findSome?_cons]
    cases (f x).findSome? g <;> rfl

def Written.Query.steps (q : Written.Query) : List Written.Step := q.first :: q.rest.map (·.2)

theorem error?_query (q : Written.Query) :
    error? q.meaning = q.steps.findSome? fun s => error? s.meaning := by
  have htied : ∀ v : Combinator × Written.Step,
      error? (do return (v.1, ← v.2.meaning) : Except Error (Combinator × Step)) =
        error? v.2.meaning := by
    intro v
    rw [error?_bind _ _ none fun _ => rfl, Option.or_none]
  rw [Written.Query.meaning, Written.Query.steps, List.findSome?_cons, List.findSome?_map]
  rw [error?_bind _ _ (q.rest.findSome? fun v => error? v.2.meaning)]
  · cases error? q.first.meaning <;> rfl
  · intro first
    rw [error?_bind _ _ none fun _ => rfl, Option.or_none, error?_mapM]
    exact congrArg (List.findSome? · q.rest) (funext htied)

/-- A selector of the right form fails with the fault of its first step that has one. -/
theorem parse_eq_error_iff (text : List Char) (e : Error) :
    parse text = .error e ↔ (∃ m, written text = .error m ∧ e = .malformed m) ∨
      ∃ qs, written text = .ok qs ∧
        (qs.flatMap Query.steps).findSome? (fun s => error? s.meaning) = some e := by
  rw [← error?_eq_some_iff, parse]
  cases written text with
  | error m => simp [error?, eq_comm]
  | ok qs => simp [error?_map, error?_mapM, findSome?_flatMap, error?_query]

/-- The number of digits, if they are too many. -/
def Written.Pseudo.tooLong? (p : Written.Pseudo) : Option Nat :=
  p.index.bind fun digits => if Text.digitLimit < digits.length then some digits.length else none

/-- How long the first number of a step is that is too long. -/
def Written.Step.tooLong? (s : Written.Step) : Option Nat := s.pseudos.findSome? Pseudo.tooLong?

theorem error?_index (p : Written.Pseudo) :
    error? (p.index.mapM readIndex) = p.tooLong?.map Error.tooManyDigits := by
  obtain ⟨name, index⟩ := p
  cases index with
  | none => rfl
  | some digits =>
    rw [Option.mapM_some, Written.Pseudo.tooLong?, Option.bind_some, readIndex]
    split <;> rfl

theorem pseudoOf_ne_tooManyDigits (name shown : String) (index : Option Nat) (n : Nat) :
    pseudoOf name shown index ≠ .error (.tooManyDigits n) := by
  unfold pseudoOf
  split <;> simp

/-- The numbers of a step are read before its pseudos are looked up, so that the first that is too
long is the fault of the step. -/
theorem step_tooManyDigits_iff (s : Written.Step) (n : Nat) :
    error? s.meaning = some (.tooManyDigits n) ↔ s.tooLong? = some n := by
  have hindexes : error? (s.pseudos.mapM fun p => p.index.mapM readIndex) =
      s.tooLong?.map Error.tooManyDigits := by
    rw [error?_mapM, Written.Step.tooLong?, List.map_findSome?]
    exact congrArg (List.findSome? · s.pseudos) (funext error?_index)
  rw [Written.Step.meaning]
  cases hi : s.pseudos.mapM fun p => p.index.mapM readIndex with
  | error e =>
    rw [hi] at hindexes
    obtain ⟨m, hm, rfl⟩ := Option.map_eq_some_iff.mp hindexes.symm
    rw [hm]
    simp [bind, Except.bind, error?]
  | ok indexes =>
    have hnone : s.tooLong? = none := by
      rw [hi] at hindexes
      exact Option.map_eq_none_iff.mp hindexes.symm
    refine iff_of_false ?_ (by simp [hnone])
    change error? ((s.pseudos.zip indexes).mapM _ >>= _) ≠ _
    rw [error?_bind _ _ none fun _ => rfl, Option.or_none]
    apply error?_mapM_ne
    intro w
    exact pseudoOf_ne_tooManyDigits _ _ w.2 n

/-- The text has the form of a selector, all that stands in front of some step has a meaning, and the
first number of that step that is too long has this many digits. -/
def LongNumber (text : List Char) (n : Nat) : Prop :=
  ∃ qs, written text = .ok qs ∧ ∃ before step after,
    qs.flatMap Query.steps = before ++ step :: after ∧ (∀ s ∈ before, ∃ m, s.meaning = .ok m) ∧
      step.tooLong? = some n

theorem parse_tooManyDigits_iff (text : List Char) (n : Nat) :
    parse text = .error (.tooManyDigits n) ↔ LongNumber text n := by
  have hok : ∀ s : Written.Step, error? s.meaning = none ↔ ∃ m, s.meaning = .ok m := by
    intro s
    cases s.meaning <;> simp [error?]
  rw [parse_eq_error_iff, LongNumber]
  simp only [List.findSome?_eq_some_iff, step_tooManyDigits_iff, hok]
  constructor
  · intro h
    rcases h with ⟨m, -, he⟩ | ⟨qs, hw, before, step, after, hsteps, hlong, hbefore⟩
    · contradiction
    · exact ⟨qs, hw, before, step, after, hsteps, hbefore, hlong⟩
  · intro h
    obtain ⟨qs, hw, before, step, after, hsteps, hbefore, hlong⟩ := h
    exact Or.inr ⟨qs, hw, before, step, after, hsteps, hlong, hbefore⟩

theorem written_eq_ok_iff (text : List Char) (qs : List Written.Query) :
    written text = .ok qs ↔ (scan text).rest = [] ∧
      .ending ∈ (scan text).draft.cursor.accepts ∧ (scan text).draft.queries = qs := by
  rw [written]
  split
  · next h => simp [h.1, h.2]
  · next h =>
    refine iff_of_false (by simp) ?_
    intro h
    obtain ⟨hrest, hend, -⟩ := h
    exact h ⟨hrest, hend⟩

theorem length_le_of_shown (ts : List Token) (text : List Char) (h : Shown ts text) :
    ∀ t ∈ ts, t.text.length ≤ text.length := by
  induction h with
  | done gap hg => simp
  | next gap r t ts _ _ _ _ _ ih =>
    intro u hu
    rw [List.length_append, List.length_append]
    rcases List.mem_cons.mp hu with rfl | hu
    · omega
    · have hlen := ih u hu
      omega

theorem mem_tokens_of_step (q : Written.Query) (s : Written.Step) (hs : s ∈ q.steps) (t : Token)
    (ht : t ∈ s.tokens) : t ∈ q.tokens := by
  rcases List.mem_cons.mp hs with rfl | hs
  · exact List.mem_append_left _ ht
  · obtain ⟨v, hv, rfl⟩ := List.mem_map.mp hs
    exact mem_tokens_of_tied q v hv t ht

/-- A number that is too long stands in the text. -/
theorem lt_of_longNumber (text : List Char) (n : Nat) (h : LongNumber text n) :
    Text.digitLimit < n ∧ n ≤ text.length := by
  obtain ⟨qs, hw, before, step, after, hsteps, -, hlong⟩ := h
  obtain ⟨hrest, hend, rfl⟩ := (written_eq_ok_iff text qs).mp hw
  obtain ⟨-, hshown, hts, -⟩ := tokens_of_scan text hrest hend
  obtain ⟨p, hp, hlong⟩ := List.exists_of_findSome?_eq_some hlong
  obtain ⟨digits, hindex, hdigits⟩ := Option.bind_eq_some_iff.mp hlong
  split at hdigits
  · next hlimit =>
    obtain rfl : digits.length = n := Option.some.inj hdigits
    have hmem : step ∈ (scan text).draft.queries.flatMap Query.steps := by simp [hsteps]
    obtain ⟨q, hq, hstep⟩ := List.mem_flatMap.mp hmem
    have hint : Token.int digits ∈ step.tokens :=
      mem_tokens_of_pseudo step p hp _ (by simp [Written.Pseudo.tokens, hindex])
    have htoken : Token.int digits ∈ (scan text).tokens := by
      rw [← hts]
      exact mem_intercalate _ _ _ (List.mem_map_of_mem hq) _ (mem_tokens_of_step q step hstep _ hint)
    exact ⟨hlimit, length_le_of_shown _ text hshown _ htoken⟩
  · contradiction

/-- The program is misused with such a text: it ends with a mistake in its use, whatever files there
are. -/
def EndsAsMisuse (text : String) (e : Error) : Prop :=
  ∀ (w : Surroundings) (args : List String) (r : Request), demandOf args = .ok (.query r) →
    r.selector = text → (execute w args).exitCode = misuse ∧
      (execute w args).lines = (storeFor w.environment r).2.map (fun warning => .err warning.message) ++
        refuse (.badSelector (selectorMessage text e)) ∧
      ∀ w' : Surroundings, w'.environment = w.environment → execute w' args = execute w args

/-- The fault is handed to the caller as a failure about the selector that holds the text. -/
def NamesSelector (text : String) (e : Error) : Prop :=
  ∃ f, Failure.ofSelector? text e = some f ∧ f.kind = .selector ∧ f.message = e.message ∧
    f.attribute? "selector" = some (.text text)

/-- A text is read, or fails in the way that callers and users are told of. -/
def Answered (text : String) : Prop :=
  (∃ l, parse text.toList = .ok l) ∨
    ∃ e, parse text.toList = .error e ∧ NamesSelector text e ∧ EndsAsMisuse text e

theorem namesSelector_iff (text : String) (e : Error) :
    NamesSelector text e ↔ ∀ n, e ≠ .tooManyDigits n := by
  cases e <;> simp [NamesSelector, Failure.ofSelector?, Failure.attribute?]

theorem endsAsMisuse_of_parse (text : String) (e : Error) (hp : parse text.toList = .error e)
    (he : ∀ n, e ≠ .tooManyDigits n) : EndsAsMisuse text e := by
  intro w args r hd hr
  subst hr
  -- the ending is made of the environment and the arguments alone
  have hending : ∀ w : Surroundings, execute w args =
      ⟨misuse, (storeFor w.environment r).2.map (fun warning => .err warning.message) ++
        refuse (.badSelector (selectorMessage r.selector e)),
        (Log.Channel.initial.setup ((storeFor w.environment r).1.text .logLevel)).1⟩ := by
    intro w
    rw [execute, hd]
    change CommandLine.answer w r = _
    rw [CommandLine.answer, hp]
    cases e with
    | tooManyDigits n => exact absurd rfl (he n)
    | _ => rfl
  refine ⟨by rw [hending w], by rw [hending w], ?_⟩
  intro w' henv
  rw [hending w', hending w, henv]

theorem not_answered_of_longNumber (text : String) (n : Nat) (h : LongNumber text.toList n) :
    ¬Answered text := by
  have hp := (parse_tooManyDigits_iff text.toList n).mpr h
  intro h
  rcases h with ⟨l, hl⟩ | ⟨e, he, hnames, -⟩
  · rw [hp] at hl
    contradiction
  · rw [hp] at he
    exact (namesSelector_iff text e).mp hnames n (Except.error.inj he).symm

theorem answered_of_not_longNumber (text : String) (h : ∀ n, ¬LongNumber text.toList n) :
    Answered text := by
  cases hp : parse text.toList with
  | ok l => exact Or.inl ⟨l, hp⟩
  | error e =>
    have he : ∀ n, e ≠ .tooManyDigits n := by
      rintro n rfl
      exact h n ((parse_tooManyDigits_iff text.toList n).mp hp)
    exact Or.inr ⟨e, hp, (namesSelector_iff text e).mpr he, endsAsMisuse_of_parse text e hp he⟩

/-- A selector is read or refused as one that is bad, with its text and before any file is looked at,
exactly if it has no number that is too long where all else in front of it has a meaning. -/
theorem answered_iff (text : String) : Answered text ↔ ¬∃ n, LongNumber text.toList n := by
  constructor
  · rintro h ⟨n, hn⟩
    exact not_answered_of_longNumber text n hn h
  · intro h
    exact answered_of_not_longNumber text fun n hn => h ⟨n, hn⟩

/-- Only a text with more characters than a number may have digits can fail in another way. -/
theorem answered_of_length_le (text : String) (h : text.toList.length ≤ Text.digitLimit) :
    Answered text := by
  apply answered_of_not_longNumber
  intro n hn
  obtain ⟨hlimit, hlen⟩ := lt_of_longNumber text.toList n hn
  omega

theorem written_of_takes (text : List Char) (ts : List Token) (d : Draft)
    (ht : Takes .empty ts d) (hs : Shown ts text) (he : .ending ∈ d.cursor.accepts) :
    written text = .ok d.queries := by
  obtain ⟨hdraft, hrest⟩ := scanFrom_of_shown .empty d ts 0 text ht hs
  have hscan : (scan text).draft = d := hdraft
  rw [written_eq_ok_iff, hscan]
  exact ⟨hrest, he, rfl⟩

theorem Laid.close (t : Token) (ts : List Token) (r : List Char) (hw : t.Whole) (hs : t.Stops r)
    (h : Laid ts r) : Laid (t :: ts) (t.text ++ r) :=
  .next [] r t ts (by simp) hw hs h

def nthText (digits : List Char) : List Char :=
  ['*', ':', 'n', 't', 'h', '('] ++ digits ++ [')']

theorem laid_nthText (digits : List Char) (hne : digits ≠ [])
    (hd : ∀ c ∈ digits, c.isDigit = true) :
    Laid [.star, .colon, .pseudoName ['n', 't', 'h'], .openParen, .int digits, .closeParen]
      (nthText digits) := by
  have hclose : Laid [.closeParen] [')'] :=
    .close .closeParen [] [] trivial (by simp [Token.Stops]) (.done [] (by simp))
  have hint : Laid [.int digits, .closeParen] (digits ++ [')']) :=
    .close (.int digits) _ [')'] ⟨hne, hd⟩ (by simp [Token.Stops, Token.grows]) hclose
  have hopen := Laid.close .openParen _ _ trivial (by simp [Token.Stops, Token.grows]) hint
  have hname := Laid.close (.pseudoName ['n', 't', 'h']) _ _
    ⟨'n', ['t', 'h'], rfl, rfl, by simp [isPseudoChar, isNameChar]⟩
    (by simp [Token.Stops, Token.grows, Token.text, isPseudoChar, isNameChar]) hopen
  have hcolon := Laid.close .colon _ _ trivial (by simp [Token.Stops, Token.grows]) hname
  have hstar := Laid.close .star _ _ trivial (by simp [Token.Stops, Token.grows]) hcolon
  simpa [nthText, Token.text] using hstar

theorem longNumber_nthText (digits : List Char) (hd : ∀ c ∈ digits, c.isDigit = true)
    (hlen : Text.digitLimit < digits.length) : LongNumber (nthText digits) digits.length := by
  have hne : digits ≠ [] := by
    rintro rfl
    exact absurd hlen (by decide)
  let step : Written.Step := ⟨some .star, [], [⟨['n', 't', 'h'], some digits⟩]⟩
  have hexplicit : (⟨step, []⟩ : Written.Query).Explicit :=
    ⟨⟨by simp [step], by simp [step]⟩, by simp⟩
  obtain ⟨d, htakes, hend, hqueries⟩ :=
    takes_queries [] [⟨step, []⟩] (by simp) (by simpa using hexplicit)
  have hshown := (laid_nthText digits hne hd).shown _ _ (by simp [Token.kind])
  have hwritten := written_of_takes (nthText digits) _ d htakes hshown hend
  have hlong : step.tooLong? = some digits.length := by
    simp [step, Written.Step.tooLong?, Written.Pseudo.tooLong?, hlen]
  refine ⟨_, hwritten, [], step, [], ?_, by simp, hlong⟩
  rw [hqueries]
  rfl

theorem long_number_not_answered :
    ¬Answered (String.ofList (nthText (List.replicate 4301 '1'))) := by
  apply not_answered_of_longNumber _ 4301
  rw [String.toList_ofList]
  have hdigits : ∀ c ∈ List.replicate 4301 '1', c.isDigit = true := by
    intro c hc
    rw [List.eq_of_mem_replicate hc]
    decide
  have h := longNumber_nthText (List.replicate 4301 '1') hdigits
    (by rw [List.length_replicate]; decide)
  rwa [List.length_replicate] at h

end TreeSelect.Selector
