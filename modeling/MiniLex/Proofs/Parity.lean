import Mathlib.Algebra.Ring.Parity
import Mathlib.Data.List.Induction
import MiniLex.Proofs.Denoted
import MiniLex.Proofs.Resumed

/-!
# Where a string literal ends

To say what is escaped one may look back: a character is escaped by an odd run of backslashes in front of it, and a line feed
also by an escaped carriage return in front of it (`Quoted.Escaped`). A literal goes on to the first quote or line break that
is not escaped, or to the end of the text (`Quoted.Delimits`). A scanner looks forward and takes units one by one, which comes
to the same (`Quoted.delimits_iff`): behind whole units the run of backslashes is even, and inside a unit it is odd. So every
string literal of every source is found, and its value, by looking back (`string_by_parity`).
-/

namespace MiniLex

open Grammar

namespace Quoted

/-! ## Backslashes -/

/-- The number of backslashes that a text ends in. -/
def backslashes (front : List Char) : Nat := (front.reverse.takeWhile (· = '\\')).length

/-- A character of a literal is escaped, by what stands in front of it in the literal: by a run of backslashes of odd length,
or, if it is a line feed, by a carriage return that is itself escaped. -/
def Escaped (front : List Char) (c : Char) : Prop :=
  Odd (backslashes front) ∨ (c = '\n' ∧ ∃ before, front = before ++ ['\r'] ∧ Odd (backslashes before))

/-- One more backslash makes the run longer, and any other character ends it. -/
theorem backslashes_snoc (front : List Char) (c : Char) :
    backslashes (front ++ [c]) = if c = '\\' then backslashes front + 1 else 0 := by
  unfold backslashes
  rw [List.reverse_append, List.reverse_singleton, List.singleton_append, List.takeWhile_cons]
  by_cases hc : c = '\\' <;> simp [hc]

/-- A text that ends in an even run of backslashes does not change what is odd behind it. -/
theorem odd_backslashes_append {pre : List Char} (h : Even (backslashes pre)) (front : List Char) :
    Odd (backslashes (pre ++ front)) ↔ Odd (backslashes front) := by
  -- from the end, since that is where the run is
  induction front using List.reverseRecOn with
  | nil =>
    have hnil : ¬Odd (backslashes []) := by decide
    rw [List.append_nil, iff_false_right hnil, Nat.not_odd_iff_even]
    exact h
  | append_singleton front c ih =>
    rw [← List.append_assoc, backslashes_snoc, backslashes_snoc]
    by_cases hc : c = '\\'
    · rw [if_pos hc, if_pos hc, Nat.odd_add_one, Nat.odd_add_one, ih]
    · rw [if_neg hc, if_neg hc]

theorem Escaped.append {pre front : List Char} {c : Char} (h : Escaped front c) (hp : Even (backslashes pre)) :
    Escaped (pre ++ front) c := by
  rcases h with h | ⟨rfl, before, rfl, h⟩
  · exact Or.inl ((odd_backslashes_append hp front).mpr h)
  · exact Or.inr ⟨rfl, pre ++ before, (List.append_assoc _ _ _).symm, (odd_backslashes_append hp before).mpr h⟩

/-- Of two even runs, one behind the other, comes an even one. -/
theorem even_backslashes_append {pre front : List Char} (hp : Even (backslashes pre)) (hf : Even (backslashes front)) :
    Even (backslashes (pre ++ front)) := by
  rw [← Nat.not_odd_iff_even, odd_backslashes_append hp, Nat.not_odd_iff_even]
  exact hf

/-- An escape ends in no backslash or in two. -/
theorem even_backslashes_escape (c : Char) : Even (backslashes ['\\', c]) := by
  have h := backslashes_snoc ['\\'] c
  have hone : backslashes ['\\'] = 1 := by decide
  rw [List.singleton_append, hone] at h
  rw [h]
  by_cases hc : c = '\\'
  · rw [if_pos hc]
    decide
  · rw [if_neg hc]
    decide

theorem even_backslashes_plain {c : Char} (hc : c ≠ '\\') : Even (backslashes [c]) := by
  have h := backslashes_snoc [] c
  rw [List.nil_append, if_neg hc] at h
  rw [h]
  decide

/-- Units end in an even run of backslashes. -/
theorem even_backslashes_units {body : List Char} (h : Units body) : Even (backslashes body) := by
  induction h with
  | nil => decide
  | plain _ hc _ _ _ ih => exact even_backslashes_append (even_backslashes_plain hc) ih
  | @escapedBreak cs _ ih => exact @even_backslashes_append ['\\', '\r', '\n'] cs (by decide) ih
  | @escaped c cs _ ih => exact even_backslashes_append (even_backslashes_escape c) ih

/-! ## Where a literal can go on -/

/-- All quotes and line breaks of a text are escaped. -/
def Kept (body : List Char) : Prop :=
  ∀ front c more, body = front ++ c :: more → c = '"' ∨ c = '\r' ∨ c = '\n' → Escaped front c

theorem kept_of_forall {body : List Char} (h : ∀ c ∈ body, ¬(c = '"' ∨ c = '\r' ∨ c = '\n')) : Kept body := by
  rintro front c more rfl hc
  exact absurd hc (h c (by simp))

/-- Two texts, one behind the other, keep their quotes and line breaks if each of them does and the first ends in an even run
of backslashes. -/
theorem Kept.append {pre cs : List Char} (hp : Kept pre) (he : Even (backslashes pre)) (hc : Kept cs) : Kept (pre ++ cs) := by
  intro front c more h hstop
  rcases List.append_eq_append_iff.mp h with ⟨between, rfl, hm⟩ | ⟨between, rfl, hm⟩
  · exact (hc between c more hm hstop).append he
  · cases between with
    | nil =>
      rw [List.append_nil] at he
      have hescaped := (hc [] c more hm.symm hstop).append he
      rwa [List.append_nil] at hescaped
    | cons d between =>
      obtain ⟨rfl, -⟩ := List.cons.inj hm
      exact hp front c between rfl hstop

theorem kept_escape (c : Char) : Kept ['\\', c] := by
  intro front d more h hd
  cases front with
  | nil =>
    obtain ⟨rfl, -⟩ := List.cons.inj h
    exact absurd hd (by decide)
  | cons e front =>
    obtain ⟨rfl, h⟩ := List.cons.inj h
    cases front with
    | nil => exact Or.inl (by decide)
    | cons f front => simp at h

theorem kept_escapedBreak : Kept ['\\', '\r', '\n'] := by
  intro front d more h hd
  have h' : ['\\', '\r'] ++ ['\n'] = front ++ d :: more := h
  rcases List.append_eq_append_iff.mp h' with ⟨between, rfl, hm⟩ | ⟨between, hf, hm⟩
  · cases between with
    | nil =>
      obtain ⟨rfl, -⟩ := List.cons.inj hm
      exact Or.inr ⟨rfl, ['\\'], rfl, by decide⟩
    | cons e between => simp at hm
  · cases between with
    | nil =>
      obtain ⟨rfl, -⟩ := List.cons.inj hm
      rw [List.append_nil] at hf
      exact Or.inr ⟨rfl, ['\\'], hf.symm, by decide⟩
    | cons e between =>
      obtain ⟨rfl, -⟩ := List.cons.inj hm
      exact kept_escape '\r' front d between hf hd

/-- All quotes and line breaks of units are escaped. -/
theorem kept_units {body : List Char} (h : Units body) : Kept body := by
  induction h with
  | nil => exact kept_of_forall (by simp)
  | @plain c cs hq hb hr hn _ ih =>
    have hkept : Kept [c] := kept_of_forall (fun d hd => by
      obtain rfl := List.mem_singleton.mp hd
      exact not_or.mpr ⟨hq, not_or.mpr ⟨hr, hn⟩⟩)
    exact hkept.append (even_backslashes_plain hb) ih
  | @escapedBreak cs _ ih => exact @Kept.append ['\\', '\r', '\n'] cs kept_escapedBreak (by decide) ih
  | @escaped c cs _ ih => exact (kept_escape c).append (even_backslashes_escape c) ih

/-! ## Where a literal ends -/

/-- How the text behind an opening quote is split by looking back: the body goes on to the first quote or line break that is
not escaped, or to the end of the text. -/
inductive Delimits : List Char → Split → Prop where
  | quote {body rest : List Char} : Kept body → ¬Escaped body '"' → Delimits (body ++ '"' :: rest) ⟨body, .quote, rest⟩
  | lineBreak {body rest : List Char} {c : Char} : Kept body → c = '\r' ∨ c = '\n' → ¬Escaped body c →
      Delimits (body ++ c :: rest) ⟨body, .lineBreak, c :: rest⟩
  | endOfText {body : List Char} : Kept body → Delimits body ⟨body, .endOfText, []⟩

/-- How a body ends in front of a text, and what is behind it. -/
def endingBefore : List Char → Ending × List Char
  | [] => (.endOfText, [])
  | '"' :: rest => (.quote, rest)
  | c :: rest => (.lineBreak, c :: rest)

namespace Delimits

variable {cs : List Char} {s s' : Split}

theorem kept (h : Delimits cs s) : Kept s.body := by
  cases h <;> assumption

theorem text_eq (h : Delimits cs s) : s.body ++ (s.ending.text ++ s.rest) = cs := by
  cases h with
  | quote => rfl
  | lineBreak => rfl
  | endOfText => exact List.append_nil _

/-- What the body ends in front of would be a stop, and is not escaped. -/
theorem stop (h : Delimits cs s) {c : Char} {tail : List Char} (hc : s.ending.text ++ s.rest = c :: tail) :
    (c = '"' ∨ c = '\r' ∨ c = '\n') ∧ ¬Escaped s.body c := by
  cases h with
  | quote _ hn =>
    obtain ⟨rfl, -⟩ := List.cons.inj hc
    exact ⟨Or.inl rfl, hn⟩
  | lineBreak _ hb hn =>
    obtain ⟨rfl, -⟩ := List.cons.inj hc
    exact ⟨Or.inr hb, hn⟩
  | endOfText => cases hc

/-- What the body ends in front of decides how the literal ends. -/
theorem ending_eq (h : Delimits cs s) : (s.ending, s.rest) = endingBefore (s.ending.text ++ s.rest) := by
  cases h with
  | quote => rfl
  | lineBreak _ hb _ => rcases hb with rfl | rfl <;> rfl
  | endOfText => rfl

/-- No other body is longer: what the first ends in front of would be kept in it. -/
theorem length_le (h : Delimits cs s) (h' : Delimits cs s') : s'.body.length ≤ s.body.length := by
  rcases List.append_eq_append_iff.mp (h.text_eq.trans h'.text_eq.symm) with ⟨between, hb, ht⟩ | ⟨between, hb, -⟩
  · cases between with
    | nil => rw [hb, List.append_nil]
    | cons c between =>
      obtain ⟨hstop, hn⟩ := h.stop ht
      exact absurd (h'.kept s.body c between hb hstop) hn
  · rw [hb, List.length_append]
    exact Nat.le_add_right _ _

/-- A text is split in one way. -/
theorem unique (h : Delimits cs s) (h' : Delimits cs s') : s = s' := by
  have hlength := Nat.le_antisymm (h'.length_le h) (h.length_le h')
  obtain ⟨hbody, htail⟩ := List.append_inj (h.text_eq.trans h'.text_eq.symm) hlength
  have hending := (h.ending_eq.trans (congrArg endingBefore htail)).trans h'.ending_eq.symm
  obtain ⟨body, ending, rest⟩ := s
  obtain ⟨body', ending', rest'⟩ := s'
  obtain rfl : body = body' := hbody
  obtain ⟨rfl, rfl⟩ := Prod.mk.inj hending
  rfl

end Delimits

/-- Behind units no quote is escaped. -/
theorem not_escaped_quote {body : List Char} (h : Units body) : ¬Escaped body '"' := by
  rintro (ho | ⟨hc, -⟩)
  · exact Nat.not_odd_iff_even.mpr (even_backslashes_units h) ho
  · exact absurd hc (by decide)

/-- Behind units no line break is escaped, unless it is the rest of one. -/
theorem not_escaped_break {body rest : List Char} {c : Char} (h : Units body) (hu : Uncut body (c :: rest)) :
    ¬Escaped body c := by
  rintro (ho | ⟨rfl, before, rfl, -⟩)
  · exact Nat.not_odd_iff_even.mpr (even_backslashes_units h) ho
  · exact hu ⟨List.getLast?_concat, rfl⟩

/-- Looking forward, unit by unit, a text is split in the same way. -/
theorem delimits_split (cs : List Char) : Delimits cs (split cs) := by
  obtain ⟨units, dangling, hb, hu, hd⟩ := units_split cs
  have hcs := body_append_split cs
  have hbreak := rest_of_lineBreak cs
  have hend := rest_of_endOfText cs
  have hcut := uncut_split cs
  generalize split cs = s at *
  obtain ⟨body, ending, rest⟩ := s
  obtain rfl : body = units ++ dangling := hb
  cases ending with
  | quote =>
    obtain rfl : dangling = [] := by simpa using hd
    rw [List.append_nil] at hcs ⊢
    rw [← hcs, List.append_assoc]
    exact Delimits.quote (kept_units hu) (not_escaped_quote hu)
  | lineBreak =>
    obtain rfl : dangling = [] := by simpa using hd
    obtain ⟨c, tail, rfl, hc⟩ : ∃ c tail, rest = c :: tail ∧ (c = '\r' ∨ c = '\n') := hbreak rfl
    have hcut : Uncut (units ++ []) (c :: tail) := hcut rfl
    rw [List.append_nil] at hcs hcut ⊢
    rw [← hcs, List.append_assoc]
    exact Delimits.lineBreak (kept_units hu) hc (not_escaped_break hu hcut)
  | endOfText =>
    obtain rfl : rest = [] := hend rfl
    have hdangling : Kept dangling := by
      rcases hd with rfl | ⟨rfl, -⟩
      · exact kept_of_forall (by simp)
      · exact kept_of_forall (by simp)
    obtain rfl : units ++ dangling = cs := by simpa [Ending.text] using hcs
    exact Delimits.endOfText ((kept_units hu).append (even_backslashes_units hu) hdangling)

/-- Looking back and looking forward come to the same. -/
theorem delimits_iff {cs : List Char} {s : Split} : Delimits cs s ↔ s = split cs := by
  refine ⟨fun h => h.unique (delimits_split cs), ?_⟩
  rintro rfl
  exact delimits_split cs

/-! ## What it denotes -/

/-- The kind and the value of a literal that is split off: what is closed falls into units, in this one way even if a backslash
might be left over behind them, and its value is what they mean. -/
inductive Denotes : Split → Kind → Option Value → Prop where
  | closed {body rest : List Char} {units : List (List Char)} : Parted units body →
      (∀ others dangling, (∀ u ∈ others, OneUnit u) → dangling = [] ∨ dangling = ['\\'] →
        others.flatten ++ dangling = body → others = units ∧ dangling = []) →
      Denotes ⟨body, .quote, rest⟩ (.literal .string) (some (.string (String.ofList (units.flatMap meaning))))
  | broken {body rest : List Char} : Denotes ⟨body, .lineBreak, rest⟩ (.error .brokenString) none
  | endless {body rest : List Char} : Denotes ⟨body, .endOfText, rest⟩ (.error .endlessString) none

/-- A literal that is read has the kind and the value that it should. -/
theorem denotes_ofQuoted (cs : List Char) :
    Denotes (split cs) (Lexeme.ofQuoted (split cs)).kind (Lexeme.ofQuoted (split cs)).value := by
  obtain ⟨units, dangling, hb, hu, hd⟩ := units_split cs
  generalize split cs = s at *
  obtain ⟨body, ending, rest⟩ := s
  cases ending with
  | quote =>
    obtain rfl : dangling = [] := by simpa using hd
    obtain rfl : body = units := hb.trans (List.append_nil _)
    obtain ⟨parts, hparts, rfl⟩ := exists_parted hu
    simp only [Lexeme.ofQuoted, decode_flatten hparts]
    exact Denotes.closed ⟨hparts, rfl⟩ (fun others dangling ho hdangling he =>
      units_unique ho hparts hdangling (Or.inl rfl) (he.trans (List.append_nil _).symm))
  | lineBreak => exact Denotes.broken
  | endOfText => exact Denotes.endless

end Quoted

/-! ## String literals of a source -/

/-- A token is the string literal that looking back finds behind an opening quote, with the text that is left behind it. -/
def TakenByParity (cs : List Char) (t : Token) (rest : List Char) : Prop :=
  ∃ s : Quoted.Split, (∀ s', Quoted.Delimits cs s' ↔ s' = s) ∧ t.lexeme.toList = '"' :: (s.body ++ s.ending.text) ∧
    rest = s.rest ∧ Quoted.Denotes s t.kind t.value

/-- Behind an opening quote a string literal is read. -/
theorem Lexeme.read?_quote (cs : List Char) :
    read? ('"' :: cs) = some (ofQuoted (Quoted.split cs), (Quoted.split cs).rest) := by
  rw [read?, if_pos rfl]

namespace Scanner

/-- The string literal that a step reads is the one that looking back finds. -/
theorem takenByParity_stepOver (s : Scanner) (cs : List Char) :
    TakenByParity cs (s.stepOver (Lexeme.ofQuoted (Quoted.split cs)) (Quoted.split cs).rest).token (Quoted.split cs).rest := by
  refine ⟨Quoted.split cs, fun s' => Quoted.delimits_iff, ?_, rfl, Quoted.denotes_ofQuoted cs⟩
  rw [stepOver, Lexeme.toToken, String.toList_ofList, Lexeme.text_ofQuoted]

/-- A scanner takes the string literal that looking back finds wherever it starts one. -/
theorem takenByParity_next {s : Scanner} {cs : List Char} (h : s.skip.rest = '"' :: cs) :
    TakenByParity cs s.next.token s.next.scanner.rest := by
  rw [s.next_step _ _ (h ▸ Lexeme.read?_quote cs)]
  exact s.skip.takenByParity_stepOver cs

/-- Every token of a scan but the last was read where a scanner of the same source stood. -/
theorem read_of_mem_scan (s : Scanner) : ∀ read, s.Stands read → ∀ t ∈ s.scan.tokens, t.isEof = false →
    ∃ (s' : Scanner) (read' : List Char) (l : Lexeme) (rest : List Char), s'.source = s.source ∧ s'.Stands read' ∧
      Lexeme.read? s'.rest = some (l, rest) ∧ t = (s'.stepOver l rest).token := by
  intro read h t ht he
  obtain ⟨before, after, htokens⟩ := List.append_of_mem ht
  obtain ⟨here, l, rest, hmeets⟩ := s.scan_meets read h before t after htokens he
  obtain ⟨read', hstands⟩ := hmeets.stands
  exact ⟨here, read', l, rest, hmeets.source_eq, hstands, hmeets.read_eq, hmeets.token_eq⟩

end Scanner

/-- A lexeme begins with a quote exactly if it is a string literal, closed or not. -/
theorem Lexeme.head?_iff_quoted {cs rest : List Char} {l : Lexeme} (h : Lexeme.read? cs = some (l, rest)) :
    l.text.head? = some '"' ↔ l.kind ∈ [.literal .string, .error .brokenString, .error .endlessString] := by
  have hends := Lexeme.endsBefore_of_read? h
  simp only [List.mem_cons, List.not_mem_nil, or_false]
  constructor
  · intro hq
    rcases hends.plain_or_quoted with ⟨⟨hn, -⟩, -⟩ | ⟨body, -, rfl⟩ | ⟨body, _, _, -, rfl, -⟩ | ⟨body, -, rfl, -⟩
    · exact absurd (List.mem_of_head? hq) hn
    · exact Or.inl rfl
    · exact Or.inr (Or.inl rfl)
    · exact Or.inr (Or.inr rfl)
  · rintro (hk | hk | hk)
    · obtain ⟨body, -, ht, -⟩ := hends.of_string hk
      rw [ht]
      rfl
    · obtain ⟨body, c, tail, ht, -⟩ := hends.of_broken hk
      rw [ht]
      rfl
    · obtain ⟨⟨body, ht⟩, -⟩ := hends.of_endless hk
      rw [ht]
      rfl

/-- The text from an opening quote on is read as the string literal that looking back finds there. -/
theorem takenByParity_of_read {s : Scanner} {read rest : List Char} {l : Lexeme} (h : s.Stands read)
    (hl : Lexeme.read? s.rest = some (l, rest)) (hq : l.text.head? = some '"') :
    ∃ front cs, s.source.toList = front ++ '"' :: cs ∧
      (s.stepOver l rest).token.span.Parts s.source front (s.stepOver l rest).token.lexeme.toList rest ∧
      TakenByParity cs (s.stepOver l rest).token rest := by
  have htext := Lexeme.text_append_of_read? _ _ _ hl
  have hparts := h.parts htext
  have hlexeme := s.lexeme_stepOver l rest
  obtain ⟨cs, hcs⟩ : ∃ cs, s.rest = '"' :: cs := by
    obtain ⟨body, hbody⟩ := List.head?_eq_some_iff.mp hq
    exact ⟨body ++ rest, by rw [← htext, hbody, List.cons_append]⟩
  rw [hcs, Lexeme.read?_quote] at hl
  obtain ⟨rfl, rfl⟩ := Prod.mk.inj (Option.some.inj hl)
  refine ⟨markOf s.source ++ read, cs, ?_, by rw [hlexeme]; exact hparts, s.takenByParity_stepOver cs⟩
  rw [hparts.1, htext, hcs]

/-- Wherever a scanner starts a string, it takes the one that looking back finds there. These are the tokens of a source that
begin with a quote, and they are its string literals, closed or not. -/
theorem string_by_parity :
    (∀ (s : Scanner) (cs : List Char), s.skip.rest = '"' :: cs → TakenByParity cs s.next.token s.next.scanner.rest) ∧
    ∀ source, ∀ t ∈ (tokenize source).tokens,
      (t.lexeme.toList.head? = some '"' ↔ t.kind ∈ [.literal .string, .error .brokenString, .error .endlessString]) ∧
      (t.lexeme.toList.head? = some '"' → ∃ front cs rest, source.toList = front ++ '"' :: cs ∧
        t.span.Parts source front t.lexeme.toList rest ∧ TakenByParity cs t rest) := by
  refine ⟨fun s cs => Scanner.takenByParity_next, fun source t ht => ?_⟩
  cases he : t.isEof with
  | true =>
    obtain ⟨body, htokens, hbody⟩ := (Scanner.ofSource source).tokens_scan
    rw [tokenize, htokens] at ht
    rcases List.mem_append.mp ht with ht | ht
    · exact absurd (hbody t ht) (by simp [he])
    · obtain rfl := List.mem_singleton.mp ht
      have hempty : (Token.eof (Scanner.ofSource source).scan.scanner.position).lexeme.toList.head? ≠ some '"' := by
        simp [Token.eof]
      exact ⟨iff_of_false hempty (by simp [Token.eof]), fun hq => absurd hq hempty⟩
  | false =>
    obtain ⟨s, read, l, rest, hsource, hstands, hl, rfl⟩ :=
      (Scanner.ofSource source).read_of_mem_scan [] (Scanner.stands_ofSource source) t ht he
    rw [Scanner.source_ofSource] at hsource
    subst hsource
    have hlexeme : (s.stepOver l rest).token.lexeme.toList = l.text := String.toList_ofList
    refine ⟨by rw [hlexeme]; exact Lexeme.head?_iff_quoted hl, fun hq => ?_⟩
    rw [hlexeme] at hq
    obtain ⟨front, cs, hfront, hparts, htaken⟩ := takenByParity_of_read hstands hl hq
    exact ⟨front, cs, rest, hfront, hparts, htaken⟩

/-- The quote behind three backslashes is escaped, and the one behind two closes the literal. -/
theorem string_by_parity_runs :
    let source := "\"\\\\\\\"\\\\\"x"
    let t : Token := ⟨.literal .string, "\"\\\\\\\"\\\\\"", 1, 1, ⟨0, 8⟩, some (.string "\\\"\\")⟩
    t ∈ (tokenize source).tokens ∧ ∃ front cs rest, source.toList = front ++ '"' :: cs ∧
      t.span.Parts source front t.lexeme.toList rest ∧ TakenByParity cs t rest := by
  intro source t
  have ht : t ∈ (tokenize source).tokens := by decide +kernel
  exact ⟨ht, (string_by_parity.2 source t ht).2 (by decide)⟩

end MiniLex
