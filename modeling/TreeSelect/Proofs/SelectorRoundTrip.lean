import Mathlib.Algebra.Ring.Nat
import TreeSelect.Proofs.SelectorIntake
import TreeSelect.Proofs.SelectorPrint

namespace TreeSelect.Selector

structure Predicate.WellFormed (p : Predicate) : Prop where
  ne_nil : p.path ≠ []
  names : ∀ n ∈ p.path, IsWord isNameStart isNameChar n.toList

/-- Numbers have at most as many digits as are read. -/
structure Pseudo.WellFormed (p : Pseudo) : Prop where
  counted : p.Counted
  digits : ∀ i ∈ p.index, (Nat.toDigits 10 i).length ≤ Text.digitLimit

structure Step.WellFormed (s : Step) : Prop where
  type : ∀ n ∈ s.type, IsWord isNameStart isNameChar n.toList
  predicates : ∀ p ∈ s.predicates, p.WellFormed
  pseudos : ∀ p ∈ s.pseudos, p.WellFormed

structure Query.WellFormed (q : Query) : Prop where
  first : q.first.WellFormed
  rest : ∀ t ∈ q.rest, t.2.WellFormed

/-- Selectors that can be written: there is an alternative, and names and numbers are such as can be
read. Values may be any texts. -/
structure SelectorList.WellFormed (l : SelectorList) : Prop where
  ne_nil : l.queries ≠ []
  queries : ∀ q ∈ l.queries, q.WellFormed

theorem unescapes_escape (value : List Char) : Unescapes '"' (escape value) value := by
  induction value with
  | nil => exact .done
  | cons c value ih =>
    rw [escape, List.flatMap_cons]
    split
    next h =>
      refine .escaped c _ value ?_ ih
      rcases h with rfl | rfl <;> decide
    next h =>
      obtain ⟨hquote, hslash⟩ := not_or.mp h
      exact .plain c _ value hquote hslash ih

theorem Predicate.meaning_printed (p : Predicate) : p.printed.meaning = p := by
  obtain ⟨path, test⟩ := p
  have hpath : (path.map String.toList).map String.ofList = path := by
    simp [Function.comp_def]
  cases test with
  | none => simp [Predicate.printed, Written.Predicate.meaning, hpath]
  | some test =>
    obtain ⟨c, v⟩ := test
    have hvalue := unescape_of_unescapes '"' _ v.toList (unescapes_escape v.toList)
    simp [Predicate.printed, Written.Predicate.meaning, Written.Value.meaning, hvalue]

theorem Pseudo.means_printed (p : Pseudo) (h : p.WellFormed) : PseudoMeans p.printed p where
  index := by
    cases hi : p.index with
    | none => simp [Pseudo.printed, hi]; rfl
    | some i =>
      simp only [Pseudo.printed, hi, Option.map_some]
      refine (index_eq_ok_iff _ _).mpr ⟨h.digits i hi, ?_⟩
      rw [Nat.ofDigitChars_ten_toDigits]
  name := by
    rcases p with (_ | _ | i) | (_ | _ | i | i) <;> simp [Pseudo.printed, Pseudo.name]
  counted := h.counted

theorem Step.meaning_printed (s : Step) (h : s.WellFormed) : s.printed.meaning = .ok s := by
  refine (step_meaning_eq_ok_iff s.printed s).mpr ⟨?_, ?_, ?_⟩
  · cases htype : s.type <;> simp [Step.printed, htype, Written.NodeType.meaning]
  · simp [Step.printed, Function.comp_def, Predicate.meaning_printed]
  · rw [Step.printed, List.forall₂_map_left_iff, List.forall₂_same]
    exact fun p hp => p.means_printed (h.pseudos p hp)

theorem Query.meaning_printed (q : Query) (h : q.WellFormed) : q.printed.meaning = .ok q := by
  refine (query_meaning_eq_ok_iff q.printed q).mpr ⟨q.first.meaning_printed h.first, ?_⟩
  rw [Query.printed, List.forall₂_map_left_iff, List.forall₂_same]
  exact fun t ht => ⟨rfl, t.2.meaning_printed (h.rest t ht)⟩

theorem dotted_cons (n : List Char) (more : List (List Char)) :
    Written.dotted (n :: more) = .name n :: more.flatMap fun m => [.dot, .name m] := by
  induction more generalizing n with
  | nil => simp [Written.dotted]
  | cons m more ih =>
    rw [List.flatMap_cons, List.cons_append, List.singleton_append, ← ih m]
    simp [Written.dotted]

theorem firm_sign (t : Token) (ps : List Piece) (hw : t.Whole) (hb : t.kind ≠ .bareword)
    (ht : (Piece.token t).isWord = false) (h : Apart ps) : Firm (.token t :: ps) :=
  Firm.cons _ _ ht (by simpa [Piece.tokens] using ⟨hw, hb⟩) h

theorem apart_dotted (names : List (List Char)) (hne : names ≠ [])
    (h : ∀ n ∈ names, IsWord isNameStart isNameChar n) :
    Apart ((Written.dotted names).map .token) := by
  obtain ⟨n, more, rfl⟩ := List.exists_cons_of_ne_nil hne
  rw [dotted_cons, List.map_cons, List.map_flatMap]
  have hn : Apart [.token (.name n)] := Apart.single (.name n) (h n (by simp)) (by simp [Token.kind])
  refine hn.append (Firm.flatMap _ more fun m hm => ?_)
  refine firm_sign .dot _ trivial (by simp [Token.kind]) rfl ?_
  exact Apart.single (.name m) (h m (List.mem_cons_of_mem n hm)) (by simp [Token.kind])

theorem firm_predicate (p : Predicate) (h : p.WellFormed) :
    Firm (p.printed.tokens.map .token) := by
  obtain ⟨path, test⟩ := p
  have hpath : Apart ((Written.dotted (path.map String.toList)).map .token) := by
    refine apart_dotted _ (by simpa using h.ne_nil) ?_
    simpa using h.names
  have hclose : Firm [.token .closeBracket] :=
    firm_sign .closeBracket [] trivial (by simp [Token.kind]) rfl firm_nil.toApart
  cases test with
  | none =>
    have hfirm := firm_sign .openBracket _ trivial (by simp [Token.kind]) rfl (hpath.append hclose)
    simpa [Predicate.printed, Written.Predicate.tokens] using hfirm
  | some test =>
    obtain ⟨c, v⟩ := test
    have hquoted : Firm [.token (.quoted '"' (escape v.toList)), .token .closeBracket] :=
      firm_sign _ _ ⟨.inl rfl, _, unescapes_escape v.toList⟩ (by simp [Token.kind]) rfl
        hclose.toApart
    have htest := firm_sign (.comparison c) _ trivial (by simp [Token.kind]) rfl hquoted.toApart
    have hfirm := firm_sign .openBracket _ trivial (by simp [Token.kind]) rfl (hpath.append htest)
    simpa [Predicate.printed, Written.Predicate.tokens, Written.Value.token] using hfirm

theorem isWord_name (p : Pseudo) : IsWord isNameStart isPseudoChar p.name.toList := by
  have hread : readWord isNameStart isPseudoChar p.name.toList = some (p.name.toList, []) := by
    rcases p with (_ | _ | i) | (_ | _ | i | i) <;> simp only [Pseudo.name] <;> decide
  exact ((readWord_eq_some_iff _ _ _ _ []).mp hread).1

theorem firm_pseudo (p : Pseudo) : Firm (p.printed.tokens.map .token) := by
  have hname : Apart [.token (.pseudoName p.name.toList)] :=
    Apart.single _ (isWord_name p) (by simp [Token.kind])
  cases hi : p.index with
  | none =>
    have hfirm := firm_sign .colon _ trivial (by simp [Token.kind]) rfl hname
    simpa [Pseudo.printed, Written.Pseudo.tokens, hi] using hfirm
  | some i =>
    have hdigits : (Token.int (Nat.toDigits 10 i)).Whole :=
      ⟨Nat.toDigits_ne_nil, fun c hc => Nat.isDigit_of_mem_toDigits (by decide) (by decide) hc⟩
    have hclose : Firm [.token .closeParen] :=
      firm_sign .closeParen [] trivial (by simp [Token.kind]) rfl firm_nil.toApart
    have hint := (Apart.single _ hdigits (by simp [Token.kind])).append hclose
    have hopen := firm_sign .openParen _ trivial (by simp [Token.kind]) rfl hint
    have hfirm := firm_sign .colon _ trivial (by simp [Token.kind]) rfl (hname.append hopen)
    simpa [Pseudo.printed, Written.Pseudo.tokens, hi] using hfirm

theorem apart_step (s : Step) (h : s.WellFormed) : Apart (s.printed.tokens.map .token) := by
  have hpredicates : Firm ((s.predicates.map Predicate.printed).flatMap fun p =>
      p.tokens.map .token) := by
    rw [List.flatMap_map]
    exact Firm.flatMap _ _ fun p hp => firm_predicate p (h.predicates p hp)
  have hpseudos : Firm ((s.pseudos.map Pseudo.printed).flatMap fun p => p.tokens.map .token) := by
    rw [List.flatMap_map]
    exact Firm.flatMap _ _ fun p _ => firm_pseudo p
  have htype : Apart [.token (s.type.elim Written.NodeType.star fun n => .name n.toList).token] := by
    cases htype : s.type with
    | none => exact Apart.single .star trivial (by simp [Token.kind])
    | some n => exact Apart.single (.name n.toList) (h.type n htype) (by simp [Token.kind])
  -- only the type is a word at the beginning; all behind it begins with a bracket or a colon
  have hall := htype.append (hpredicates.append hpseudos)
  simpa [Step.printed, Written.Step.tokens, List.map_flatMap] using hall

theorem firm_tied (c : Combinator) (s : Step) (h : s.WellFormed) :
    Firm (tiePieces c ++ s.printed.tokens.map .token) := by
  have hstep := apart_step s h
  by_cases hc : c = .descendant
  · rw [hc]
    exact Firm.cons .space _ rfl (by simp [Piece.tokens]) hstep
  · have htie : tiePieces c = [.token (.combinator c)] := by cases c <;> simp_all [tiePieces]
    rw [htie]
    exact firm_sign (.combinator c) _ hc (by simp [Token.kind]) rfl hstep

theorem apart_query (q : Query) (h : q.WellFormed) : Apart q.pieces :=
  (apart_step q.first h.first).append
    (Firm.flatMap _ q.rest fun t ht => firm_tied t.1 t.2 (h.rest t ht))

theorem apart_queries (qs : List Query) (h : ∀ q ∈ qs, q.WellFormed) :
    Apart (List.intercalate [.token .comma] (qs.map Query.pieces)) := by
  induction qs with
  | nil => exact firm_nil.toApart
  | cons q qs ih =>
    have hq := apart_query q (h q (by simp))
    by_cases hqs : qs = []
    · simpa [hqs] using hq
    · have hrest := ih fun p hp => h p (List.mem_cons_of_mem q hp)
      rw [List.map_cons, List.intercalate_cons_of_ne_nil (by simpa using hqs), List.append_assoc]
      exact hq.append (firm_sign .comma _ trivial (by simp [Token.kind]) rfl hrest)

theorem tokens_query (q : Query) : q.pieces.flatMap Piece.tokens = q.printed.tokens := by
  have htie (c : Combinator) : (tiePieces c).flatMap Piece.tokens = Written.tieTokens c := by
    cases c <;> rfl
  have htokens (ts : List Token) : (ts.flatMap fun t => (Piece.token t).tokens) = ts :=
    List.flatMap_singleton' ts
  simp [Query.pieces, Query.printed, Written.Query.tokens, List.flatMap_append, List.flatMap_assoc,
    List.flatMap_map, htie, htokens]

/-- The tokens that are printed are those of the written parts. -/
theorem tokens_pieces (l : SelectorList) :
    l.pieces.flatMap Piece.tokens = Written.queriesTokens (l.queries.map Query.printed) := by
  have hqueries : (l.queries.map Query.pieces).map (List.flatMap Piece.tokens) =
      (l.queries.map Query.printed).map Written.Query.tokens := by
    simp [tokens_query]
  rw [SelectorList.pieces, Written.queriesTokens, ← hqueries]
  exact Written.apply_intercalate _ rfl (fun _ _ => List.flatMap_append) _ _

theorem explicit_printed (q : Query) (h : q.WellFormed) : q.printed.Explicit := by
  have hstep (s : Step) (hs : s.WellFormed) : s.printed.Explicit := by
    refine ⟨by simp [Step.printed], ?_⟩
    intro p hp
    obtain ⟨p', hp', rfl⟩ := List.mem_map.mp hp
    simpa [Predicate.printed] using (hs.predicates p' hp').ne_nil
  refine ⟨hstep q.first h.first, ?_⟩
  intro t ht
  obtain ⟨t', ht', rfl⟩ := List.mem_map.mp ht
  exact hstep t'.2 (h.rest t' ht')

/-- A well formed selector is read back from its print. -/
theorem parse_of_prints (l : SelectorList) (h : l.WellFormed) (text : List Char)
    (hp : Prints l.pieces text) : parse text = .ok l := by
  have hlaid := laid_of_prints l.pieces text (apart_queries l.queries h.queries) hp
  rw [tokens_pieces] at hlaid
  obtain ⟨d, htakes, hend, hqueries⟩ := Written.takes_queries [] (l.queries.map Query.printed)
    (by simpa using h.ne_nil) (by simpa using fun q hq => explicit_printed q (h.queries q hq))
  have hb : ∀ t ∈ Written.queriesTokens (l.queries.map Query.printed), t.kind ≠ .bareword := by
    rw [← tokens_pieces]
    exact fun t ht => ((apart_queries l.queries h.queries).whole t ht).2
  -- the draft takes the tokens, and the text shows just these, so the scan reads them all
  obtain ⟨hdraft, hrest⟩ := scanFrom_of_takes .empty d _ 0 text htakes hlaid hb
  refine (parse_eq_ok_iff text l).mpr ⟨hrest, ?_, ?_⟩
  · rw [scan, hdraft]
    exact hend
  · rw [scan, hdraft, hqueries, List.nil_append, List.forall₂_map_left_iff, List.forall₂_same]
    exact fun q hq => q.meaning_printed (h.queries q hq)

theorem ofDigitChars_lt (digits : List Char) (n : Nat) (h : ∀ c ∈ digits, c.isDigit = true) :
    Nat.ofDigitChars 10 digits n < 10 ^ digits.length * (n + 1) := by
  induction digits generalizing n with
  | nil => simp
  | cons c digits ih =>
    have hc : c.toNat - '0'.toNat ≤ 9 :=
      Nat.sub_le_of_le_add (Char.isDigit_iff_toNat.mp (h c (by simp))).2
    have hrest := ih (10 * n + (c.toNat - '0'.toNat)) fun d hd => h d (List.mem_cons_of_mem c hd)
    have hstep : 10 * n + (c.toNat - '0'.toNat) + 1 ≤ 10 * (n + 1) := by omega
    rw [Nat.ofDigitChars_cons, List.length_cons]
    calc
      _ < 10 ^ digits.length * (10 * n + (c.toNat - '0'.toNat) + 1) := hrest
      _ ≤ 10 ^ digits.length * (10 * (n + 1)) := Nat.mul_le_mul_left _ hstep
      _ = 10 ^ (digits.length + 1) * (n + 1) := by rw [Nat.pow_succ, Nat.mul_assoc]

theorem exists_mem_left {α β : Type} (R : α → β → Prop) (xs : List α) (ys : List β)
    (h : List.Forall₂ R xs ys) (y : β) (hy : y ∈ ys) : ∃ x ∈ xs, R x y := by
  induction h with
  | nil => contradiction
  | cons hxy _ ih =>
    rcases List.mem_cons.mp hy with rfl | hy
    · exact ⟨_, by simp, hxy⟩
    · obtain ⟨x, hx, hr⟩ := ih hy
      exact ⟨x, List.mem_cons_of_mem _ hx, hr⟩

theorem predicate_wellFormed (w : Written.Predicate) (hp : w.path ≠ [])
    (hw : ∀ t ∈ w.tokens, t.Whole) : w.meaning.WellFormed := by
  refine ⟨by simpa [Written.Predicate.meaning] using hp, ?_⟩
  intro n hn
  obtain ⟨name, hname, rfl⟩ := List.mem_map.mp hn
  have hmem := Written.mem_dotted w.path name hname
  rw [String.toList_ofList]
  exact hw (.name name) (by simp [Written.Predicate.tokens, hmem])

theorem pseudo_wellFormed (w : Written.Pseudo) (p : Pseudo) (h : PseudoMeans w p)
    (hw : ∀ t ∈ w.tokens, t.Whole) : p.WellFormed := by
  refine ⟨h.counted, ?_⟩
  intro i hi
  obtain ⟨name, index⟩ := w
  have hindex := h.index
  cases index with
  | none =>
    have hnone : p.index = none := (Except.ok.inj hindex).symm
    rw [hnone] at hi
    contradiction
  | some digits =>
    have hint : (Token.int digits).Whole := hw _ (by simp [Written.Pseudo.tokens])
    obtain ⟨hlen, hvalue⟩ := (index_eq_ok_iff digits p.index).mp hindex
    obtain rfl : Nat.ofDigitChars 10 digits 0 = i := Option.some.inj (hvalue.symm.trans hi)
    have hlt : Nat.ofDigitChars 10 digits 0 < 10 ^ digits.length := by
      simpa using ofDigitChars_lt digits 0 hint.2
    -- zeros in front may be gone, so the print is never longer than what was read
    have hpos : 0 < digits.length := List.length_pos_iff.mpr hint.1
    exact ((Nat.length_toDigits_le_iff (by decide) hpos).mpr hlt).trans hlen

theorem step_wellFormed (w : Written.Step) (s : Step) (h : w.meaning = .ok s) (hs : w.Sound)
    (hw : ∀ t ∈ w.tokens, t.Whole) : s.WellFormed := by
  obtain ⟨htype, hpredicates, hpseudos⟩ := (step_meaning_eq_ok_iff w s).mp h
  refine ⟨?_, ?_, ?_⟩
  · intro n hn
    rw [htype] at hn
    obtain ⟨type, hwritten, hname⟩ := Option.bind_eq_some_iff.mp hn
    cases type with
    | star => contradiction
    | name text =>
      obtain rfl : String.ofList text = n := Option.some.inj hname
      rw [String.toList_ofList]
      exact hw (.name text) (by simp [Written.Step.tokens, hwritten, Written.NodeType.token])
  · intro p hp
    rw [hpredicates] at hp
    obtain ⟨v, hv, rfl⟩ := List.mem_map.mp hp
    apply predicate_wellFormed v (hs.paths v hv)
    exact fun t ht => hw t (Written.mem_tokens_of_predicate w v hv t ht)
  · intro p hp
    obtain ⟨v, hv, hmeans⟩ := exists_mem_left _ _ _ hpseudos p hp
    apply pseudo_wellFormed v p hmeans
    exact fun t ht => hw t (Written.mem_tokens_of_pseudo w v hv t ht)

theorem query_wellFormed (w : Written.Query) (q : Query) (h : w.meaning = .ok q) (hs : w.Sound)
    (hw : ∀ t ∈ w.tokens, t.Whole) : q.WellFormed := by
  obtain ⟨hfirst, hrest⟩ := (query_meaning_eq_ok_iff w q).mp h
  refine ⟨step_wellFormed w.first q.first hfirst hs.first fun t ht =>
    hw t (List.mem_append_left _ ht), ?_⟩
  intro t ht
  obtain ⟨v, hv, -, hmeaning⟩ := exists_mem_left _ _ _ hrest t ht
  apply step_wellFormed v.2 t.2 hmeaning (hs.rest v hv)
  exact fun u hu => hw u (Written.mem_tokens_of_tied w v hv u hu)

/-- What is read from a text is well formed. -/
theorem wellFormed_of_parse (text : List Char) (l : SelectorList) (h : parse text = .ok l) :
    l.WellFormed := by
  obtain ⟨ws, d, -, -, hne, hws, hmeaning⟩ := exists_written_of_parse text l h
  refine ⟨?_, ?_⟩
  · intro hnil
    rw [hnil, List.forall₂_nil_right_iff] at hmeaning
    exact hne hmeaning
  · intro q hq
    obtain ⟨w, hw, hread⟩ := exists_mem_left _ _ _ hmeaning q hq
    obtain ⟨hsound, hwhole⟩ := hws w hw
    exact query_wellFormed w q hread hsound hwhole

/-- A selector printed with no more gaps than there must be. -/
def SelectorList.print (l : SelectorList) : List Char :=
  l.pieces.flatMap fun
    | .token t => t.text
    | .space => [' ']

theorem prints_print (l : SelectorList) : Prints l.pieces l.print := by
  rw [SelectorList.print]
  induction l.pieces with
  | nil => exact .done [] (by simp)
  | cons p ps ih =>
    cases p with
    | token t => exact .token [] _ t ps (by simp) ih
    | space => exact .space [' '] _ ps (by simp [isGap]) (by simp) ih

/-- Printing and reading go round: every print of a well formed selector is read as that selector,
there is such a print, and whatever is read from a text is well formed, so that it can be printed and
read again. -/
theorem parse_print_round_trip :
    (∀ l : SelectorList, l.WellFormed → ∀ text, Prints l.pieces text → parse text = .ok l) ∧
      (∀ l : SelectorList, Prints l.pieces l.print) ∧
      ∀ text l, parse text = .ok l → l.WellFormed ∧ parse l.print = .ok l := by
  refine ⟨parse_of_prints, prints_print, ?_⟩
  intro text l h
  have hl := wellFormed_of_parse text l h
  exact ⟨hl, parse_of_prints l hl l.print (prints_print l)⟩

/-- A value with a quote, a bracket, a backslash, a comma and a line feed in it. -/
def quotedSample : SelectorList :=
  ⟨[⟨⟨some "a", [⟨["b", "c"], some (.contains, "x\"]\\,\n")⟩], [.pick (.nth 0)]⟩,
      [(.descendant, ⟨none, [], [.place .lastChild]⟩)]⟩,
    ⟨⟨none, [], []⟩, [(.child, ⟨some "d", [⟨["e"], none⟩], []⟩)]⟩]⟩

def quotedText : List Char :=
  " a[ b.c ~='x\"]\\\\,\n' ]:NTH( 00 )\t*:Last-Child , *>d[e]".toList

theorem round_trip_quotedSample :
    parse quotedText = .ok quotedSample ∧ quotedSample.WellFormed ∧
      quotedSample.print = "a[b.c~=\"x\\\"]\\\\,\n\"]:nth(0) *:last-child,*>d[e]".toList ∧
      parse quotedSample.print = .ok quotedSample := by
  have hparse : parse quotedText = .ok quotedSample := by decide +kernel
  obtain ⟨hprint, hprints, hread⟩ := parse_print_round_trip
  obtain ⟨hwell, -⟩ := hread quotedText quotedSample hparse
  refine ⟨hparse, hwell, by decide +kernel, ?_⟩
  exact hprint quotedSample hwell quotedSample.print (hprints quotedSample)

end TreeSelect.Selector
