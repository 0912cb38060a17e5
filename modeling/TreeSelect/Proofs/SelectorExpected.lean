import TreeSelect.Proofs.OpenMark
import TreeSelect.Proofs.SelectorFailure
import TreeSelect.Proofs.SelectorSentence

namespace TreeSelect.Selector
open Written

/-- The text has the form of a selector, of which it shows the tokens. -/
def Formed (ts : List Token) (text : List Char) : Prop := Sentence ts ∧ Shown ts text

/-- Behind the tokens stands one of this kind in some text that has the form of a selector. -/
def MayFollow (ts : List Token) (k : Kind) : Prop :=
  ∃ t us text, t.kind = k ∧ Formed (ts ++ t :: us) text

/-- A quotation mark with which none of the barewords begins. -/
def MarkFree (ts : List Token) (mark : Char) : Prop :=
  (mark = '"' ∨ mark = '\'') ∧ ∀ t ∈ ts, t.kind = .bareword → t.text.head? ≠ some mark

def spaced (ts : List Token) : List Char := ts.flatMap fun t => ' ' :: t.text

/-- Tokens that are read again from any text with blanks between them. -/
def Token.Settled (t : Token) : Prop :=
  t.Whole ∧ (t.kind = .bareword → ∀ c ∈ t.text.head?, c ≠ '"' ∧ c ≠ '\'')

theorem quoted_none_of_head (cs : List Char) (h : ∀ c ∈ cs.head?, c ≠ '"' ∧ c ≠ '\'') :
    Kind.quoted.read cs = none := by
  cases hr : Kind.quoted.read cs with
  | none => rfl
  | some x =>
    obtain ⟨t, r⟩ := x
    cases cs with
    | nil => simp [Kind.read] at hr
    | cons c cs =>
      have hopen := Kind.opens_of_read .quoted c cs r t hr
      obtain ⟨hd, hs⟩ := h c rfl
      simp [Kind.opens, hd, hs] at hopen

theorem shown_spaced (ts : List Token) (h : ∀ t ∈ ts, t.Settled) : Shown ts (spaced ts) := by
  induction ts with
  | nil => exact .done [] (by simp)
  | cons t ts ih =>
    obtain ⟨⟨hw, hb⟩, hts⟩ := List.forall_mem_cons.mp h
    have hstops : t.Stops (spaced ts) := by
      cases ts with
      | nil => simp [Token.Stops, spaced]
      | cons u us =>
        intro c hc
        obtain rfl : ' ' = c := Option.some.inj hc
        exact grows_blank t
    have hquoted : t.kind = .bareword → Kind.quoted.read (t.text ++ spaced ts) = none := by
      intro hkind
      obtain ⟨c, q, htext, -⟩ := t.text_opens hw
      apply quoted_none_of_head
      have hhead := hb hkind
      rw [htext] at hhead ⊢
      exact hhead
    exact .next [' '] (spaced ts) t ts (by simp [isGap]) hw hstops hquoted (ih hts)

theorem not_mem_spaced (ts : List Token) (mark : Char) (hm : mark = '"' ∨ mark = '\'')
    (h : ∀ t ∈ ts, mark ∉ t.text) : mark ∉ spaced ts := by
  have hblank : mark ≠ ' ' := by
    rcases hm with rfl | rfl <;> decide
  simp only [spaced, List.mem_flatMap, List.mem_cons, not_exists, not_and, not_or]
  exact fun t ht => ⟨hblank, h t ht⟩

/-- A text of some tokens is lengthened to that of a sentence, if the barewords in it stay open. -/
theorem formed_append (ts us : List Token) (front : List Char) (h : Shown ts front)
    (hall : Sentence (ts ++ us)) (hu : ∀ u ∈ us, u.Settled)
    (hm : ∀ u ∈ us, ∀ mark ∈ u.text, mark = '"' ∨ mark = '\'' → MarkFree ts mark) :
    Formed (ts ++ us) (front ++ ' ' :: spaced us) := by
  refine ⟨hall, h.append_blank ts us front _ (shown_spaced us hu) ?_⟩
  intro t ht hb mark hhead hmark
  apply not_mem_spaced us mark hmark
  intro u hu hmem
  exact (hm u hu mark hmem hmark).2 t ht hb hhead

theorem settled_of_mem_finish (c : Cursor) : ∀ t ∈ Cursor.finish c, t.Settled := by
  intro t ht
  refine ⟨whole_of_mem_finish c t ht, ?_⟩
  cases c <;> revert t <;> simp [Cursor.finish, Token.kind, Token.text]

theorem mark_not_mem_finish (c : Cursor) (mark : Char) (hm : mark = '"' ∨ mark = '\'') :
    ∀ t ∈ Cursor.finish c, mark ∉ t.text := by
  rcases hm with rfl | rfl <;> cases c <;> simp [Cursor.finish, Token.text]

/-- A token of each kind; a quoted value stands in the given marks. -/
def Kind.sample (mark : Char) : Kind → Token
  | .bareword => .bareword ['a']
  | .colon => .colon
  | .combinator => .combinator .child
  | .comma => .comma
  | .dot => .dot
  | .ending => .star
  | .int => .int ['0']
  | .openParen => .openParen
  | .openBracket => .openBracket
  | .name => .name ['a']
  | .comparison => .comparison .equal
  | .pseudoName => .pseudoName ['a']
  | .closeParen => .closeParen
  | .closeBracket => .closeBracket
  | .star => .star
  | .quoted => .quoted mark []

theorem kind_sample (k : Kind) (mark : Char) (hk : k ≠ .ending) : (k.sample mark).kind = k := by
  cases k with
  | ending => exact absurd rfl hk
  | _ => rfl

theorem settled_sample (k : Kind) (mark : Char) (hm : mark = '"' ∨ mark = '\'') :
    (k.sample mark).Settled := by
  have hname : IsWord isNameStart isNameChar ['a'] := ⟨'a', [], rfl, by decide, by simp⟩
  have hpseudo : IsWord isNameStart isPseudoChar ['a'] := ⟨'a', [], rfl, by decide, by simp⟩
  have hbare : isBare 'a' = true := by decide
  have hempty : ∃ value, Unescapes mark [] value := ⟨[], .done⟩
  cases k <;> simp [Kind.sample, Token.Settled, Token.Whole, Token.kind, Token.text, hname, hpseudo,
    hbare, hempty, hm]

theorem mark_mem_sample (k : Kind) (mark m : Char) (hm : m = '"' ∨ m = '\'')
    (h : m ∈ (k.sample mark).text) : k = .quoted ∧ m = mark := by
  rcases hm with rfl | rfl <;> cases k <;>
    simp [Kind.sample, Token.text, Combinator.sign, Comparison.sign] at h ⊢ <;> exact h

/-- A draft takes next the kinds that may follow. Of these a quoted value is left out if its mark, be it
the one or the other, would close a bareword. -/
theorem mayFollow_iff (ts : List Token) (d : Draft) (front : List Char) (ht : Takes .empty ts d)
    (hs : Shown ts front) (k : Kind) (hk : k ≠ .ending) :
    MayFollow ts k ↔ k ∈ d.cursor.accepts ∧ (k = .quoted → ∃ mark, MarkFree ts mark) := by
  have hwhole := hs.laid.whole
  constructor
  · rintro ⟨t, us, text, rfl, hall, hshown⟩
    have htw : t.Whole := hshown.laid.whole _ _ t (by simp)
    refine ⟨(kind_mem_accepts_iff ts d ht hwhole t htw).mpr ⟨us, hall⟩, fun hquoted => ?_⟩
    obtain ⟨mark, body, rfl⟩ := exists_quoted t hquoted
    exact ⟨mark, htw.1, head?_ne_of_quoted_later mark htw.1 body ts us text hshown⟩
  · intro h
    obtain ⟨hkind, hfree⟩ := h
    obtain ⟨mark, hmark, hsample⟩ : ∃ mark, (mark = '"' ∨ mark = '\'') ∧
        (k = .quoted → MarkFree ts mark) := by
      by_cases hquoted : k = .quoted
      · obtain ⟨mark, hmark⟩ := hfree hquoted
        exact ⟨mark, hmark.1, fun _ => hmark⟩
      · exact ⟨'"', .inl rfl, fun h => absurd h hquoted⟩
    have hsettled := settled_sample k mark hmark
    have hnext := kind_sample k mark hk
    -- the sample is taken, and then what is being written comes to an end
    have htakes := ht.append (Takes.single d (k.sample mark) (by rwa [hnext]))
    have hall := sentence_finish _ _ htakes
      (List.forall_mem_append.mpr ⟨hwhole, by simpa using hsettled.1⟩)
    rw [List.append_assoc] at hall
    refine ⟨_, _, _, hnext, formed_append ts _ front hs hall ?_ ?_⟩
    · exact List.forall_mem_cons.mpr ⟨hsettled, settled_of_mem_finish _⟩
    · refine List.forall_mem_cons.mpr ⟨fun m hm hmem => ?_, fun u hu m hm hmem => ?_⟩
      · obtain ⟨hquoted, rfl⟩ := mark_mem_sample k mark m hmem hm
        exact hsample hquoted
      · exact absurd hm (mark_not_mem_finish _ m hmem u hu)

/-- By the tokens alone, a draft takes next the kinds that go on with a sentence. -/
theorem mem_accepts_iff (ts : List Token) (d : Draft) (ht : Takes .empty ts d)
    (hw : ∀ t ∈ ts, t.Whole) (k : Kind) (hk : k ≠ .ending) :
    k ∈ d.cursor.accepts ↔ ∃ t us, t.kind = k ∧ t.Whole ∧ Sentence (ts ++ t :: us) := by
  constructor
  · intro haccepts
    have hnext := kind_sample k '"' hk
    have hsettled := settled_sample k '"' (.inl rfl)
    obtain ⟨us, hus⟩ := (kind_mem_accepts_iff ts d ht hw (k.sample '"') hsettled.1).mp
      (by rwa [hnext])
    exact ⟨_, us, hnext, hsettled.1, hus⟩
  · rintro ⟨t, us, rfl, htw, hus⟩
    exact (kind_mem_accepts_iff ts d ht hw t htw).mpr ⟨us, hus⟩

/-- Quoted values and barewords are values both, and taken in the same places. -/
theorem quoted_mem_accepts_iff (c : Cursor) : .quoted ∈ c.accepts ↔ .bareword ∈ c.accepts := by
  cases c <;> simp [Cursor.accepts]

theorem exists_formed (ts : List Token) (d : Draft) (front : List Char) (ht : Takes .empty ts d)
    (hs : Shown ts front) : ∃ us text, Formed (ts ++ us) text := by
  refine ⟨_, _, formed_append ts _ front hs (sentence_finish ts d ht hs.laid.whole)
    (settled_of_mem_finish d.cursor) ?_⟩
  intro u hu mark hm hmark
  exact absurd hm (mark_not_mem_finish d.cursor mark hmark u hu)

/-- The form of a text is read where it has one. -/
theorem written_eq_ok_iff_formed (text : List Char) :
    (∃ qs, written text = .ok qs) ↔ ∃ ts, Formed ts text := by
  constructor
  · rintro ⟨qs, hqs⟩
    obtain ⟨hrest, hend, -⟩ := (written_eq_ok_iff text qs).mp hqs
    obtain ⟨htakes, hshown, -⟩ := tokens_of_scan text hrest hend
    exact ⟨_, sentence_of_takes _ _ htakes hshown.laid.whole hend, hshown⟩
  · rintro ⟨ts, hts, hshown⟩
    obtain ⟨d, htakes, hend⟩ := takes_of_sentence ts hts
    exact ⟨_, written_of_takes text ts d htakes hshown hend⟩

theorem isBlank_of_isBare (c : Char) (h : isBare c = true) : Text.isBlank c = false := by
  simp only [isBare, Bool.not_eq_true', Bool.or_eq_false_iff] at h
  exact h.2

/-- Some token can be told at the front of a text, unless it begins with a blank. -/
theorem readFirst_offender_none_iff (c : Char) (r : List Char) :
    readFirst offenderKinds (c :: r) = none ↔ Text.isBlank c = true := by
  rw [readFirst, List.findSome?_eq_none_iff]
  constructor
  · intro h
    by_contra hblank
    have hbare := h .bareword (by simp [offenderKinds])
    by_cases hclose : c = ']' ∨ c = ')'
    · rcases hclose with rfl | rfl
      · exact absurd (h .closeBracket (by simp [offenderKinds])) (by simp [Kind.read, readSign])
      · exact absurd (h .closeParen (by simp [offenderKinds])) (by simp [Kind.read, readSign])
    · obtain ⟨h₁, h₂⟩ := not_or.mp hclose
      have hc : isBare c = true := by simpa [isBare, h₁, h₂] using hblank
      simp [Kind.read, readRun, hc] at hbare
  · intro hblank k hk
    cases hr : k.read (c :: r) with
    | none => rfl
    | some x =>
      have hopens := Kind.opens_of_read k c r x.2 x.1 hr
      by_cases hsign : k = .closeParen ∨ k = .closeBracket
      · rcases hsign with rfl | rfl
        · obtain rfl := beq_iff_eq.mp hopens
          exact absurd hblank (by decide)
        · obtain rfl := beq_iff_eq.mp hopens
          exact absurd hblank (by decide)
      · obtain ⟨h₁, h₂⟩ := not_or.mp hsign
        rw [isBlank_of_isBare c (isBare_of_opens k c hopens h₁ h₂)] at hblank
        contradiction

theorem offender_eq_ending_iff (cs : List Char) : offender cs = .ending ↔ cs = [] := by
  cases cs with
  | nil => exact iff_of_true rfl rfl
  | cons c r =>
    refine iff_of_false ?_ (List.cons_ne_nil c r)
    rw [offender]
    split <;> simp

theorem offender_eq_character_iff (cs : List Char) :
    (∃ c, offender cs = .character c) ↔ ∃ c ∈ cs.head?, Text.isBlank c = true := by
  cases cs with
  | nil =>
    have hending : offender [] = .ending := (offender_eq_ending_iff []).mpr rfl
    simp [hending]
  | cons c r =>
    rw [offender]
    have hnone := readFirst_offender_none_iff c r
    cases hr : readFirst offenderKinds (c :: r) with
    | none => simpa using hnone.mp hr
    | some x =>
      have hblank : Text.isBlank c = false := by
        rw [hr] at hnone
        simpa using hnone
      obtain ⟨t, q⟩ := x
      simp only [List.head?_cons, Option.mem_def, Option.some.injEq, exists_eq_left', hblank,
        Bool.false_eq_true, iff_false, not_exists]
      intro d
      split <;> simp_all

theorem found_fault (s : Scan) (text : List Char) : (s.fault text).found = offender s.rest := by
  rw [Scan.fault]
  split <;> simp_all

theorem place_fault (s : Scan) (text : List Char) (h : s.rest ≠ []) :
    ((s.fault text).line, (s.fault text).column) =
      lineColumn text (text.length - s.rest.length) := by
  rw [Scan.fault]
  split
  · next hending => exact absurd ((offender_eq_ending_iff s.rest).mp hending) h
  · rfl
  · rfl

theorem mem_expected_iff (s : Scan) (text : List Char) (k : Kind) :
    k ∈ (s.fault text).expected ↔ k ∈ s.draft.cursor.accepts ∧
      (k = .ending → ¬∃ c ∈ s.rest.head?, Text.isBlank c = true) := by
  rw [← offender_eq_character_iff, Scan.fault]
  split
  · next h => simp [h]
  · next c h => simp [h]
  · next h₁ h₂ => exact ⟨fun hk => ⟨hk, fun _ ⟨c, hc⟩ => h₂ c hc⟩, And.left⟩

theorem pseudoOf_ne_malformed (name shown : String) (index : Option Nat) (m : SyntaxError) :
    pseudoOf name shown index ≠ .error (.malformed m) := by
  unfold pseudoOf
  split <;> simp

theorem step_meaning_ne_malformed (s : Written.Step) (m : SyntaxError) :
    error? s.meaning ≠ some (.malformed m) := by
  rw [Written.Step.meaning]
  cases hi : s.pseudos.mapM fun p => p.index.mapM readIndex with
  | error e =>
    intro h
    obtain rfl : e = .malformed m := Option.some.inj h
    have hfirst := (error?_eq_some_iff _ _).mpr hi
    rw [error?_mapM] at hfirst
    obtain ⟨p, -, hp⟩ := List.exists_of_findSome?_eq_some hfirst
    rw [error?_index] at hp
    obtain ⟨n, -, hn⟩ := Option.map_eq_some_iff.mp hp
    contradiction
  | ok indexes =>
    change error? ((s.pseudos.zip indexes).mapM _ >>= _) ≠ _
    rw [error?_bind _ _ none fun _ => rfl, Option.or_none]
    apply error?_mapM_ne
    intro w
    exact pseudoOf_ne_malformed _ _ w.2 m

theorem parse_malformed_iff (text : List Char) (m : SyntaxError) :
    parse text = .error (.malformed m) ↔ written text = .error m := by
  rw [parse_eq_error_iff]
  constructor
  · rintro (⟨m', hm, he⟩ | ⟨qs, -, hfault⟩)
    · rw [hm, Error.malformed.inj he]
    · obtain ⟨s, -, hs⟩ := List.exists_of_findSome?_eq_some hfault
      exact absurd hs (step_meaning_ne_malformed s m)
  · exact fun h => .inl ⟨m, h, rfl⟩

/-- What the fault of a text tells of it. -/
structure SyntaxError.Tells (e : SyntaxError) (text : List Char) : Prop where
  /-- The tokens that were read stand in front of the place that is told; behind it is no gap, and no
  token that is expected. The end is found where nothing is left. -/
  place : ∃ front, text = front ++ (scan text).rest ∧ Shown (scan text).tokens front ∧
    ((scan text).rest ≠ [] → (e.line, e.column) = lineColumn text front.length)
  stuck : (∀ c ∈ (scan text).rest.head?, isGap c = false) ∧
    ∀ k ∈ e.expected, k.read (scan text).rest = none
  found_ending : e.found = .ending ↔ (scan text).rest = []
  /-- The tokens begin some selector. -/
  viable : ∃ us whole, Formed ((scan text).tokens ++ us) whole
  /-- The kinds that are expected are those that may follow, and quoted values besides them where
  they could follow but for the barewords that begin with the one and with the other mark. -/
  expected : ∀ k, k ≠ .ending → (k ∈ e.expected ↔ MayFollow (scan text).tokens k ∨
    (k = .quoted ∧ .bareword ∈ e.expected ∧ ¬∃ mark, MarkFree (scan text).tokens mark))
  /-- So all kinds are expected that go on with the tokens of a selector. -/
  by_tokens : ∀ k, k ≠ .ending → (k ∈ e.expected ↔
    ∃ t us, t.kind = k ∧ t.Whole ∧ Sentence ((scan text).tokens ++ t :: us))
  /-- The end is expected where the tokens are those of a selector, but not in front of a blank. -/
  ending : .ending ∈ e.expected ↔
    Sentence (scan text).tokens ∧ ¬∃ c ∈ (scan text).rest.head?, Text.isBlank c = true

theorem tells_of_written (text : List Char) (e : SyntaxError) (h : written text = .error e) :
    e.Tells text := by
  obtain rfl : e = (scan text).fault text := by
    rw [written] at h
    split at h
    · contradiction
    · exact (Except.error.inj h).symm
  obtain ⟨front, hfront, htakes, hshown, hstuck, hgap⟩ := exists_front_of_scanFrom .empty 0 text
  change text = front ++ (scan text).rest at hfront
  change Takes .empty (scan text).tokens (scan text).draft at htakes
  change Shown (scan text).tokens front at hshown
  change readFirst (scan text).draft.cursor.accepts (scan text).rest = none at hstuck
  have hwhole := hshown.laid.whole
  have hmem (k : Kind) := mem_expected_iff (scan text) text k
  have hother (k : Kind) (hk : k ≠ .ending) :
      k ∈ ((scan text).fault text).expected ↔ k ∈ (scan text).draft.cursor.accepts := by
    rw [hmem]
    exact and_iff_left fun he => absurd he hk
  constructor
  case place =>
    refine ⟨front, hfront, hshown, fun hne => ?_⟩
    have hlen := congrArg List.length hfront
    rw [List.length_append] at hlen
    rw [place_fault _ _ hne, hlen, Nat.add_sub_cancel]
  case stuck =>
    refine ⟨hgap, fun k hk => ?_⟩
    exact List.findSome?_eq_none_iff.mp hstuck k ((hmem k).mp hk).1
  case found_ending =>
    rw [found_fault]
    exact offender_eq_ending_iff _
  case viable =>
    exact exists_formed _ _ front htakes hshown
  case expected =>
    intro k hk
    have hfollow := mayFollow_iff _ _ front htakes hshown k hk
    rw [hother k hk, hother .bareword (by decide), hfollow]
    by_cases hquoted : k = .quoted
    · subst hquoted
      rw [quoted_mem_accepts_iff]
      tauto
    · simp [hquoted]
  case by_tokens =>
    intro k hk
    rw [hother k hk]
    exact mem_accepts_iff _ _ htakes hwhole k hk
  case ending =>
    rw [hmem, ending_mem_accepts_iff _ _ htakes hwhole]
    simp

/-- Why a text is not read. A fault in its form is told exactly if it does not have the form of a
selector, whatever else is wrong with it, and tells of the place in it up to which it has. -/
theorem malformed_tells (text : List Char) (e : Error) (h : parse text = .error e) :
    (∀ m, e = .malformed m → m.Tells text) ∧
      ((∃ m, e = .malformed m) ↔ ¬∃ ts, Formed ts text) := by
  constructor
  · rintro m rfl
    exact tells_of_written text m ((parse_malformed_iff text m).mp h)
  · rw [← written_eq_ok_iff_formed]
    constructor
    · rintro ⟨m, rfl⟩ ⟨qs, hqs⟩
      rw [(parse_malformed_iff text m).mp h] at hqs
      contradiction
    · intro hnone
      cases hw : written text with
      | ok qs => exact absurd ⟨qs, hw⟩ hnone
      | error m =>
        have hp := (parse_malformed_iff text m).mpr hw
        rw [h] at hp
        exact ⟨m, Except.error.inj hp⟩

def brokenSelector : List Char := "stmt:unknown(0) > [a >".toList

/-- The fault in the form is told, and not the pseudo in front of it that there is not. -/
theorem malformed_brokenSelector :
    parse brokenSelector =
        .error (.malformed ⟨.token .bareword ['>'], 1, 22, [.dot, .comparison, .closeBracket]⟩) ∧
      SyntaxError.Tells ⟨.token .bareword ['>'], 1, 22, [.dot, .comparison, .closeBracket]⟩
        brokenSelector ∧
      ¬∃ ts, Formed ts brokenSelector := by
  have hparse : parse brokenSelector =
      .error (.malformed ⟨.token .bareword ['>'], 1, 22, [.dot, .comparison, .closeBracket]⟩) := by
    decide +kernel
  obtain ⟨htells, hformed⟩ := malformed_tells brokenSelector _ hparse
  exact ⟨hparse, htells _ rfl, hformed.mp ⟨_, rfl⟩⟩

def openMarks : List Char := "[a=\"x][b='y][c=]".toList

/-- Behind barewords that begin with the one mark and with the other, a quoted value is expected and
cannot come. -/
theorem quoted_expected_in_vain :
    ∃ m, parse openMarks = .error (.malformed m) ∧ .quoted ∈ m.expected ∧
      ¬MayFollow (scan openMarks).tokens .quoted := by
  have hparse : parse openMarks =
      .error (.malformed ⟨.token .closeBracket [']'], 1, 16, [.quoted, .bareword]⟩) := by
    decide +kernel
  have htokens : (scan openMarks).tokens =
      [.openBracket, .name ['a'], .comparison .equal, .bareword ['"', 'x'], .closeBracket,
        .openBracket, .name ['b'], .comparison .equal, .bareword ['\'', 'y'], .closeBracket,
        .openBracket, .name ['c'], .comparison .equal] := by
    decide +kernel
  refine ⟨_, hparse, by decide, ?_⟩
  rintro ⟨t, us, text, hkind, -, hshown⟩
  obtain ⟨mark, body, rfl⟩ := exists_quoted t hkind
  have hmark : mark = '"' ∨ mark = '\'' := (hshown.laid.whole _ _ (.quoted mark body) (by simp)).1
  have hfree := head?_ne_of_quoted_later mark hmark body _ us text hshown
  rw [htokens] at hfree
  rcases hmark with rfl | rfl
  · exact hfree (.bareword ['"', 'x']) (by simp) rfl rfl
  · exact hfree (.bareword ['\'', 'y']) (by simp) rfl rfl

end TreeSelect.Selector
