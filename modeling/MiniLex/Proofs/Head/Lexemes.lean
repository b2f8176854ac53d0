import MiniLex.Proofs.Head.Moves
import MiniLex.Proofs.Transfer

/-!
# Lexemes by moves

A head that has taken the first character of a lexeme goes behind it, and gives the token and the diagnostic that a scanner gives
when it steps over the lexeme (`Head.leads_string`, `Head.leads_word`, `Head.leads_number`, `Head.leads_symbol`).
-/

namespace MiniLex

/-- The token of a step and its diagnostic. -/
def Step.given (step : Step) : Token × Option Diagnostic := (step.token, step.diagnostic)

/-- What breaks a string literal off, if no quote ends it. -/
def Quoted.Ending.error? : Quoted.Ending → Option LexError
  | .quote => none
  | .lineBreak => some .brokenString
  | .endOfText => some .endlessString

/-! ## Characters that break no line -/

theorem isBlank_of_isBreak {c : Char} (h : isBreak c = true) : isBlank c = true :=
  (isBlank_iff c).mpr (Or.inr (Or.inr ((isBreak_iff c).mp h)))

theorem isWordPart_of_isBreak (c : Char) (h : isBreak c = true) : isWordPart c = false :=
  isWordPart_of_isBlank c (isBlank_of_isBreak h)

theorem isDigit_of_isBreak (c : Char) (h : isBreak c = true) : c.isDigit = false := isDigit_of_isBlank c (isBlank_of_isBreak h)

namespace Head

variable {s : Scanner} {l : Lexeme} {source : String} {c : Char} {cs text rest : List Char} {p : Position}

/-! ## What is given -/

/-- The token of a lexeme is what stands between the mark and the cursor. -/
theorem leads_makeToken (hs : s.Placed) (hr : s.rest = text ++ rest) (kind : Kind) (value : Option Value) :
    Leads (makeToken kind s.position value) (s.past text rest)
      ((⟨kind, value, text⟩ : Lexeme).toToken s.position (s.past text rest).position) (s.past text rest) := by
  refine (leads_textFrom hs hr).bind (Leads.get (fun h hh => ?_))
  rw [hh.cursor_eq]
  exact Leads.pure _ _

/-- A lexeme that is no error is given without a diagnostic. -/
theorem leads_plain (hs : s.Placed) (hr : s.rest = l.text ++ rest) (he : l.kind.error? = none) :
    Leads (plain l.kind s.position l.value) (s.behind l rest) (s.stepOver l rest).given (s.behind l rest) := by
  have hgiven : (s.stepOver l rest).given = (l.toToken s.position (s.behind l rest).position, none) := by
    rw [Step.given, Scanner.stepOver, he]
    rfl
  rw [hgiven]
  exact (leads_makeToken hs hr l.kind l.value).bind (Leads.pure _ _)

/-- An error that is reported where the token begins ends at the cursor. -/
theorem leads_endOfError_start (p : Position) : Leads (endOfError p p) s s.position.offset s := by
  unfold endOfError
  rw [if_pos rfl]
  refine Leads.get (fun h hh => ?_)
  rw [hh.cursor_eq]
  exact Leads.pure _ _

/-- An error that is reported at the cursor ends behind the next character. -/
theorem leads_endOfError {start : Position} (h : s.position ≠ start) :
    Leads (endOfError start s.position) s (s.position.offset + byteLength (s.rest.take 1)) s := by
  have hstop : s.rest.head?.elim s.position.offset (fun c => s.position.offset + c.utf8Size) =
      s.position.offset + byteLength (s.rest.take 1) := by
    cases s.rest <;> rfl
  unfold endOfError
  rw [if_neg h, ← hstop]
  exact leads_peek.bind (Leads.pure _ _)

/-- A lexeme that is an error is given with a diagnostic, reported at the cursor or where the token begins. -/
theorem leads_error {e : LexError} (hs : s.Placed) (hr : s.rest = l.text ++ rest) (hk : l.kind = .error e)
    (hv : l.value = none) (hne : l.text ≠ []) :
    Leads (error e s.position (if e.showsAtEnd then (s.behind l rest).position else s.position)) (s.behind l rest)
      (s.stepOver l rest).given (s.behind l rest) := by
  have htoken := leads_makeToken hs hr (.error e) none
  have hgiven : (s.stepOver l rest).given = (l.toToken s.position (s.behind l rest).position,
      some (e.diagnose s.position (s.behind l rest).position rest)) := by
    rw [Step.given, Scanner.stepOver, hk]
    rfl
  have hlexeme : l = ⟨.error e, none, l.text⟩ := by
    rw [← hk, ← hv]
  rw [hgiven, LexError.diagnose]
  rw [← hlexeme] at htoken
  cases he : e.showsAtEnd with
  | false => exact (leads_endOfError_start s.position).bind (htoken.bind (Leads.pure _ _))
  | true =>
    have hlater : (s.behind l rest).position ≠ s.position := by
      intro h
      have ho := s.offset_behind l rest
      have hpos := byteLength_pos hne
      rw [h] at ho
      omega
    exact (leads_endOfError (s := s.behind l rest) hlater).bind (htoken.bind (Leads.pure _ _))

/-- A lexeme is given as it is, if it is no error that shows only where the token ends. -/
theorem leads_give (hs : s.Placed) (hr : s.rest = l.text ++ rest) (hne : l.text ≠ [])
    (he : ∀ e, l.kind = .error e → l.value = none ∧ e.showsAtEnd = false) :
    Leads (give l.kind s.position l.value) (s.behind l rest) (s.stepOver l rest).given (s.behind l rest) := by
  cases hk : l.kind with
  | error e =>
    obtain ⟨hv, hshows⟩ := he e hk
    have h := leads_error hs hr hk hv hne
    rw [hshows] at h
    exact h
  | _ =>
    rw [← hk]
    have hnone : l.kind.error? = none := by
      rw [hk]
      rfl
    rw [give, hnone]
    exact leads_plain hs hr hnone

/-! ## String literals -/

/-- A head goes from inside a string literal to its end, and says where and how it is broken off. -/
def Finishes (source : String) (cs : List Char) (p : Position) (q : Quoted.Split) : Prop :=
  Leads quoted ⟨source, cs, p⟩ (q.ending.error?.map (fun e => (e, p.advance q.body)))
    ⟨source, q.rest, p.advance (q.body ++ q.ending.text)⟩

/-- A head that goes to the end of a literal from behind a unit does so from in front of it. -/
theorem Finishes.cons {unit : List Char} (hne : unit ≠ []) (hu : Uncut unit cs)
    (hround : Leads quotedRound ⟨source, unit ++ cs, p⟩ (.inl ()) ⟨source, cs, p.advance unit⟩)
    (h : Finishes source cs (p.advance unit) (Quoted.split cs)) :
    Finishes source (unit ++ cs) p ((Quoted.split cs).cons unit) := by
  have hcs := Quoted.body_append_split cs
  rw [← hcs] at hu
  unfold Finishes at h ⊢
  rw [← hu.of_append_right.advance_append, ← hu.of_append_right.of_append_right.advance_append, ← List.append_assoc] at h
  exact Leads.loop_step hround (byteLength_lt_append hne cs) h

/-- A round takes an escaped line break of two characters. -/
theorem leads_quotedRound_pair :
    Leads quotedRound ⟨source, '\\' :: '\r' :: '\n' :: cs, p⟩ (.inl ()) ⟨source, cs, p.advance ['\\', '\r', '\n']⟩ :=
  leads_mark.bind (leads_peek.bind (leads_bump.bind (leads_bump.bind (leads_newline_pair.bind (Leads.pure _ _)))))

/-- A round takes any other escaped character. -/
theorem leads_quotedRound_escaped (hu : Uncut [c] cs) :
    Leads quotedRound ⟨source, '\\' :: c :: cs, p⟩ (.inl ()) ⟨source, cs, p.advance ['\\', c]⟩ := by
  refine leads_mark.bind (leads_peek.bind (leads_bump.bind (leads_bump.bind ?_)))
  cases hb : isBreak c with
  | true =>
    simp only [hb]
    exact (leads_newline hb hu).bind (Leads.pure _ _)
  | false =>
    rw [show p.advance ['\\', c] = (p.right '\\').right c from advance_cons_of_not_isBreak _ hb []]
    simp only [hb]
    exact Leads.pure _ _

/-- A backslash behind which nothing is left escapes nothing. -/
theorem leads_quotedRound_last : Leads quotedRound ⟨source, ['\\'], p⟩ (.inl ()) ⟨source, [], p.advance ['\\']⟩ :=
  leads_mark.bind (leads_peek.bind (leads_bump.bind (leads_bump_nil.bind (Leads.pure _ _))))

/-- A round takes a character that stands for itself. -/
theorem leads_quotedRound_plain (hq : c ≠ '"') (he : c ≠ '\\') (hb : isBreak c = false) :
    Leads quotedRound ⟨source, c :: cs, p⟩ (.inl ()) ⟨source, cs, p.advance [c]⟩ := by
  rw [advance_cons_of_not_isBreak p hb]
  refine leads_mark.bind (leads_peek.bind ?_)
  simp only [List.head?_cons, hb, Bool.false_eq_true, if_false, if_neg hq, if_neg he]
  exact leads_bump.bind (Leads.pure _ _)

/-- Behind an opening quote a head goes to the end of the literal. -/
theorem finishes_split (source : String) (cs : List Char) (p : Position) : Finishes source cs p (Quoted.split cs) := by
  fun_induction Quoted.split cs generalizing p with
  | case1 => exact Leads.loop_stop (leads_mark.bind (leads_peek.bind (Leads.pure _ _)))
  | case2 cs => exact Leads.loop_stop (leads_mark.bind (leads_peek.bind (leads_bump.bind (Leads.pure _ _))))
  | case3 cs ih =>
    have hu : Uncut ['\\', '\r', '\n'] cs := fun h => absurd h.1 (by decide)
    exact Finishes.cons (List.cons_ne_nil _ _) hu leads_quotedRound_pair (ih _)
  | case4 c cs hn ih =>
    have hu : Uncut [c] cs := by
      by_contra h
      obtain ⟨tail, hc, htail⟩ := not_uncut h
      exact hn tail hc htail
    have hpair : Uncut ['\\', c] cs := fun h => hu ⟨by simpa using h.1, h.2⟩
    exact Finishes.cons (List.cons_ne_nil _ _) hpair (leads_quotedRound_escaped hu) (ih _)
  | case5 c cs h1 h2 h3 hb =>
    refine Leads.loop_stop (leads_mark.bind (leads_peek.bind ?_))
    simp only [List.head?_cons, hb]
    exact Leads.pure _ _
  | case6 c cs h1 h2 h3 hb ih =>
    rw [Bool.not_eq_true] at hb
    refine Finishes.cons (List.cons_ne_nil _ _) (Uncut.of_not_isBreak hb cs) ?_ (ih _)
    by_cases hc : c = '\\'
    · subst hc
      obtain rfl : cs = [] := by
        cases cs with
        | nil => rfl
        | cons d cs => exact absurd rfl (h3 d cs rfl)
      exact leads_quotedRound_last
    · exact leads_quotedRound_plain h1 hc hb

/-- A string literal that is broken off is an error, and what is wrong shows at its end. -/
theorem ofQuoted_of_error {q : Quoted.Split} {e : LexError} (h : q.ending.error? = some e) :
    Lexeme.ofQuoted q = ⟨.error e, none, '"' :: q.body⟩ ∧ e.showsAtEnd = true := by
  obtain ⟨body, ending, rest⟩ := q
  cases ending with
  | quote => cases h
  | lineBreak =>
    obtain rfl := Option.some.inj h
    exact ⟨by simp [Lexeme.ofQuoted, Quoted.Ending.text], rfl⟩
  | endOfText =>
    obtain rfl := Option.some.inj h
    exact ⟨by simp [Lexeme.ofQuoted, Quoted.Ending.text], rfl⟩

/-- A string literal that is closed has a quote at each end, and the value that stands between the two. -/
theorem ofQuoted_of_quote {q : Quoted.Split} (h : q.ending.error? = none) :
    Lexeme.ofQuoted q =
      ⟨.literal .string, some (.string (String.ofList (Quoted.decode q.body))), '"' :: (q.body ++ ['"'])⟩ := by
  obtain ⟨body, ending, rest⟩ := q
  cases ending with
  | quote => rfl
  | lineBreak => cases h
  | endOfText => cases h

/-- A string literal is given by what stands behind its opening quote. -/
theorem leads_string (hs : s.Placed) (hr : s.rest = '"' :: cs) :
    Leads (string s.position) (s.past ['"'] cs)
      (s.stepOver (.ofQuoted (Quoted.split cs)) (Quoted.split cs).rest).given
      (s.behind (.ofQuoted (Quoted.split cs)) (Quoted.split cs).rest) := by
  have hcs := Quoted.body_append_split cs
  have hfinish := finishes_split s.source cs (s.position.advance ['"'])
  generalize Quoted.split cs = q at hcs hfinish ⊢
  have htext : s.rest = (Lexeme.ofQuoted q).text ++ q.rest := by rw [hr, Lexeme.text_ofQuoted, List.cons_append, hcs]
  have hquote : ∀ text, (s.position.advance ['"']).advance text = s.position.advance ('"' :: text) :=
    fun text => ((Uncut.of_not_isBreak rfl text).advance_append s.position).symm
  unfold Finishes at hfinish
  simp only [hquote, ← Lexeme.text_ofQuoted] at hfinish
  refine hfinish.bind ?_
  cases he : q.ending.error? with
  | none =>
    have hl := ofQuoted_of_quote he
    rw [hl] at htext ⊢
    refine (leads_textFrom hs htext).bind ((leads_unquote _ q.body).bind ?_)
    rw [String.toList_ofList]
    exact leads_plain hs htext rfl
  | some e =>
    obtain ⟨hl, hshows⟩ := ofQuoted_of_error he
    rw [hl] at htext ⊢
    have herror := leads_error hs htext rfl rfl (List.cons_ne_nil _ _)
    rw [hshows] at herror
    exact herror

/-! ## Words -/

theorem error?_ofWord (text : List Char) : (Lexeme.ofWord text).kind.error? = none := by
  unfold Lexeme.ofWord
  simp only
  split
  · rfl
  · split
    · rfl
    · cases Keyword.ofString? (String.ofList text) <;> rfl

/-- A word is given behind its last character. -/
theorem leads_word (hs : s.Placed) (hr : s.rest = c :: cs) (hc : isWordStart c = true) :
    Leads (word s.position) (s.past [c] cs)
      (s.stepOver (.ofWord (c :: cs.takeWhile isWordPart)) (cs.dropWhile isWordPart)).given
      (s.behind (.ofWord (c :: cs.takeWhile isWordPart)) (cs.dropWhile isWordPart)) := by
  have hb : isBreak c = false := not_isBreak_of_class isWordPart_of_isBreak (isWordPart_of_isWordStart c hc)
  have hword : s.rest = (c :: cs.takeWhile isWordPart) ++ cs.dropWhile isWordPart := by
    rw [hr, List.cons_append, List.takeWhile_append_dropWhile]
  refine (leads_eatWhile_behind isWordPart_of_isBreak hb).bind ((leads_textFrom hs hword).bind ?_)
  generalize c :: cs.takeWhile isWordPart = text at hword ⊢
  have hplain := leads_plain hs (l := .ofWord text) (by rw [Lexeme.text_ofWord, hword]) (error?_ofWord text)
  rw [Scanner.behind, Lexeme.text_ofWord] at hplain ⊢
  rw [String.toList_ofList]
  exact hplain

/-! ## Numbers -/

/-- Whether a text begins with a point and a digit. -/
def beginsFraction (cs : List Char) : Bool := cs.head? = some '.' && cs.tail.head?.any Char.isDigit

/-- A head sees whether a point and a digit are ahead. -/
theorem leads_fractionAhead : Leads fractionAhead s (beginsFraction s.rest) s := by
  refine leads_peek.bind ?_
  unfold beginsFraction
  by_cases h : s.rest.head? = some '.'
  · rw [if_pos h]
    simp only [h, decide_true, Bool.true_and]
    exact leads_peekNext.bind (Leads.pure _ _)
  · rw [if_neg h]
    simp only [h, decide_false, Bool.false_and]
    exact Leads.pure _ _

theorem eq_cons_of_beginsFraction (h : beginsFraction cs = true) : cs = '.' :: cs.tail := by
  have hpoint : cs.head? = some '.' := of_decide_eq_true (Bool.and_eq_true_iff.mp h).1
  obtain ⟨tail, rfl⟩ := List.head?_eq_some_iff.mp hpoint
  rfl

/-- A number goes on with a point and the digits behind it, if there are some, and ends with its digits otherwise. -/
theorem readNumber_eq (cs : List Char) : Lexeme.readNumber cs =
    if beginsFraction (cs.dropWhile Char.isDigit) then
      (.ofDecimal (cs.takeWhile Char.isDigit) ((cs.dropWhile Char.isDigit).tail.takeWhile Char.isDigit),
        (cs.dropWhile Char.isDigit).tail.dropWhile Char.isDigit)
    else (.ofDigits (cs.takeWhile Char.isDigit), cs.dropWhile Char.isDigit) := by
  unfold Lexeme.readNumber
  simp only
  split
  · next behind hb =>
    rw [hb]
    cases behind with
    | nil => rfl
    | cons d behind => cases hd : d.isDigit <;> simp [beginsFraction, hd]
  · next hn =>
    rw [if_neg]
    intro h
    exact hn _ (eq_cons_of_beginsFraction h)

/-- A run of digits that is an error has no value, and is reported where it begins. -/
theorem ofDigits_of_error {digits : List Char} {e : LexError} (h : (Lexeme.ofDigits digits).kind = .error e) :
    (Lexeme.ofDigits digits).value = none ∧ e.showsAtEnd = false := by
  unfold Lexeme.ofDigits at h ⊢
  simp only at h ⊢
  split at h
  · cases h
  · next hlarge =>
    rw [if_neg hlarge]
    cases h
    exact ⟨rfl, rfl⟩

/-- A point and the digits behind it are taken behind the digits of a number. -/
theorem leads_fraction {whole : List Char} (hw : ∀ d ∈ whole, d.isDigit = true) :
    Leads (fraction true) (s.past whole ('.' :: cs)) ()
      (s.past (whole ++ '.' :: cs.takeWhile Char.isDigit) (cs.dropWhile Char.isDigit)) := by
  have hreturn : '\r' ∉ whole := by
    intro hm
    have hd := hw _ hm
    cases hd
  have hpast : (s.past whole ('.' :: cs)).past ('.' :: cs.takeWhile Char.isDigit) (cs.dropWhile Char.isDigit) =
      s.past (whole ++ '.' :: cs.takeWhile Char.isDigit) (cs.dropWhile Char.isDigit) :=
    Scanner.past_past (Uncut.of_notMem hreturn _)
  have hpoint : isBreak '.' = false := rfl
  refine leads_bump.bind ?_
  rw [← hpast]
  exact leads_eatWhile_behind (s := s.past whole ('.' :: cs)) isDigit_of_isBreak hpoint

/-- The value of a number with a point is read on both sides of the point. -/
theorem parseNumber_decimal {whole fraction : List Char} (hw : ∀ d ∈ whole, d.isDigit = true) :
    parseNumber true (whole ++ '.' :: fraction) = .ofDecimal whole fraction := by
  have hpoint : ∀ d, ('.' :: fraction).head? = some d → d.isDigit = false := by
    intro d hd
    obtain rfl := Option.some.inj hd
    rfl
  rw [parseNumber, if_pos rfl, takeWhile_append_of_stop hw hpoint, dropWhile_append_of_stop hw hpoint]
  rfl

/-- A number is given behind its last digit. -/
theorem leads_number (hs : s.Placed) (hr : s.rest = c :: cs) (hc : c.isDigit = true) :
    Leads (number s.position) (s.past [c] cs)
      (s.stepOver (Lexeme.readNumber (c :: cs)).1 (Lexeme.readNumber (c :: cs)).2).given
      (s.behind (Lexeme.readNumber (c :: cs)).1 (Lexeme.readNumber (c :: cs)).2) := by
  have hb : isBreak c = false := not_isBreak_of_class isDigit_of_isBreak hc
  have htext := hr.trans (Lexeme.text_append_readNumber (c :: cs)).symm
  have hne := Lexeme.text_readNumber_ne_nil c cs hc
  have hwhole : ∀ d ∈ c :: cs.takeWhile Char.isDigit, d.isDigit = true := by
    intro d hd
    rcases List.mem_cons.mp hd with rfl | hd
    · exact hc
    · exact of_mem_takeWhile d hd
  rw [readNumber_eq, List.takeWhile_cons_of_pos hc, List.dropWhile_cons_of_pos hc] at htext hne ⊢
  refine (leads_eatWhile_behind isDigit_of_isBreak hb).bind ?_
  generalize c :: cs.takeWhile Char.isDigit = whole at htext hne hwhole ⊢
  generalize cs.dropWhile Char.isDigit = rest at htext hne ⊢
  have hahead : Leads fractionAhead (s.past whole rest) (beginsFraction rest) (s.past whole rest) := leads_fractionAhead
  cases hf : beginsFraction rest with
  | false =>
    simp only [hf, Bool.false_eq_true, if_false] at htext hne hahead ⊢
    have hgive := leads_give hs htext hne (fun e he => ofDigits_of_error he)
    rw [Scanner.behind, Lexeme.text_ofDigits] at hgive ⊢
    rw [Lexeme.text_ofDigits] at htext
    refine hahead.bind ((Leads.pure _ _).bind ((leads_textFrom hs htext).bind ?_))
    rw [String.toList_ofList]
    exact hgive
  | true =>
    simp only [hf, if_true] at htext hne hahead ⊢
    obtain ⟨behind, rfl⟩ : ∃ behind, rest = '.' :: behind := ⟨_, eq_cons_of_beginsFraction hf⟩
    have hgive := leads_give hs htext hne (fun e he => by cases he)
    refine hahead.bind ((leads_fraction hwhole).bind ((leads_textFrom hs htext).bind ?_))
    rw [String.toList_ofList, Lexeme.ofDecimal, parseNumber_decimal hwhole]
    exact hgive

/-! ## Operators and delimiters -/

/-- For an operator or delimiter of one character, only the first character of a text is looked at. -/
theorem ofLength?_one (c : Char) (cs : List Char) : Symbol.ofLength? 1 (c :: cs) = Symbol.ofLength? 1 [c] := by
  unfold Symbol.ofLength?
  congr 1
  funext entry
  obtain ⟨spelling, kind⟩ := entry
  match spelling with
  | [] => rfl
  | [a] => rfl
  | a :: b :: spelling => rfl

/-- Where no spelling of two characters begins, a symbol is one character. -/
theorem readSymbol_single
    (h : ∀ entry ∈ Symbol.table, entry.1.length = 2 → entry.1.head? = some c → ¬entry.1 <+: c :: cs) :
    Lexeme.readSymbol c cs = (⟨single c, none, [c]⟩, cs) := by
  have htwo : Symbol.ofLength? 2 (c :: cs) = none := by
    refine List.find?_eq_none.mpr (fun entry hm => ?_)
    simp only [Bool.and_eq_true, beq_iff_eq, List.isPrefixOf_iff_prefix, not_and]
    intro hl hp
    obtain ⟨a, as, ha, -⟩ := table_first entry hm
    refine h entry hm hl ?_ hp
    rw [ha] at hp ⊢
    rw [(List.cons_prefix_cons.mp hp).1]
    rfl
  unfold Lexeme.readSymbol single
  rw [Symbol.read?, htwo, Option.none_or, ofLength?_one]
  cases hf : Symbol.ofLength? 1 [c] with
  | none => rfl
  | some found =>
    obtain ⟨spelling, kind⟩ := found
    obtain ⟨hl, hp⟩ := Symbol.of_ofLength? 1 [c] spelling kind hf
    obtain ⟨a, rfl⟩ := List.length_eq_one_iff.mp hl
    obtain rfl : a = c := (List.cons.inj hp).1
    rfl

/-- An operator of two characters is read where its spelling begins. -/
theorem readSymbol_doubled {d : Char} {kind : Kind} (hm : ([c, d], kind) ∈ Symbol.table) :
    Lexeme.readSymbol c (d :: cs) = (⟨kind, none, [c, d]⟩, cs) := by
  have hread : Symbol.read? ([c, d] ++ cs) = some ([c, d], kind) := by
    refine Lexeme.symbol_of_longest hm (fun entry hentry _ => ?_)
    rcases table_length entry hentry with hl | hl <;> simp [hl]
  unfold Lexeme.readSymbol
  rw [show c :: d :: cs = [c, d] ++ cs from rfl, hread]
  rfl

/-- A head that takes the second character of an operator, if it comes, reads a symbol. -/
theorem leads_composite {d : Char} {kind : Kind} (hm : ([c, d], kind) ∈ Symbol.table)
    (hc : ∀ entry ∈ Symbol.table, entry.1.length = 2 → entry.1.head? = some c → entry.1 = [c, d]) :
    Leads (composite d kind (single c)) (s.past [c] cs) (Lexeme.readSymbol c cs).1.kind
      (s.behind (Lexeme.readSymbol c cs).1 (Lexeme.readSymbol c cs).2) := by
  by_cases h : cs.head? = some d
  · obtain ⟨tail, rfl⟩ := List.head?_eq_some_iff.mp h
    have hcb := not_isBreak_of_not_isBlank (table_not_blank _ hm c (by simp))
    have hdb := not_isBreak_of_not_isBlank (table_not_blank _ hm d (by simp))
    rw [readSymbol_doubled hm, Scanner.behind, Scanner.past, advance_cons_of_not_isBreak _ hcb,
      advance_cons_of_not_isBreak _ hcb, advance_cons_of_not_isBreak _ hdb]
    exact leads_eat.bind (Leads.pure _ _)
  · rw [readSymbol_single]
    · exact (leads_eat_of_ne h).bind (Leads.pure _ _)
    · rintro entry hentry hl hfirst ⟨more, hp⟩
      rw [hc entry hentry hl hfirst] at hp
      obtain rfl := (List.cons.inj hp).2
      exact h rfl

/-- An operator of two characters begins with one of six. -/
theorem first_of_doubled : ∀ entry ∈ Symbol.table, entry.1.length = 2 →
    entry.1.head? ∈ [some '=', some '!', some '<', some '>', some '&', some '|'] := by decide

/-- A character that begins no operator of two characters is a symbol alone. -/
theorem readSymbol_of_notMem (hc : c ∉ ['=', '!', '<', '>', '&', '|']) (cs : List Char) :
    Lexeme.readSymbol c cs = (⟨single c, none, [c]⟩, cs) := by
  refine readSymbol_single (fun entry hentry hl hfirst _ => ?_)
  have hm := first_of_doubled entry hentry hl
  rw [hfirst] at hm
  exact hc (by simpa using hm)

/-- A head that has taken the first character of a symbol takes the rest of it. -/
theorem leads_symbol (c : Char) (cs : List Char) :
    Leads (symbol c) (s.past [c] cs) (Lexeme.readSymbol c cs).1.kind
      (s.behind (Lexeme.readSymbol c cs).1 (Lexeme.readSymbol c cs).2) := by
  by_cases hc : c ∈ ['=', '!', '<', '>', '&', '|']
  · simp only [List.mem_cons, List.not_mem_nil, or_false] at hc
    rcases hc with rfl | rfl | rfl | rfl | rfl | rfl
    all_goals exact leads_composite (by decide) (by decide)
  · rw [readSymbol_of_notMem hc]
    simp only [List.mem_cons, List.not_mem_nil, or_false, not_or] at hc
    simp only [symbol, hc, if_false]
    exact Leads.pure _ _

/-- A symbol that is an error is reported where it begins. -/
theorem readSymbol_of_error {e : LexError} (h : (Lexeme.readSymbol c cs).1.kind = .error e) : e.showsAtEnd = false := by
  have htable : ∀ entry ∈ Symbol.table, entry.2.error? = none := by decide
  unfold Lexeme.readSymbol at h
  split at h
  · next spelling kind hread =>
    have hn := htable _ (Lexeme.longestPrefix_symbol hread).1
    rw [show kind = .error e from h] at hn
    cases hn
  · obtain rfl : LexError.ofStray c = e := by simpa using h
    unfold LexError.ofStray
    split
    · rfl
    · split <;> rfl

theorem value_readSymbol (c : Char) (cs : List Char) : (Lexeme.readSymbol c cs).1.value = none := by
  unfold Lexeme.readSymbol
  split <;> rfl

/-- A symbol is given behind its last character. -/
theorem leads_give_symbol (hs : s.Placed) (hr : s.rest = c :: cs) :
    Leads (give (Lexeme.readSymbol c cs).1.kind s.position none)
      (s.behind (Lexeme.readSymbol c cs).1 (Lexeme.readSymbol c cs).2)
      (s.stepOver (Lexeme.readSymbol c cs).1 (Lexeme.readSymbol c cs).2).given
      (s.behind (Lexeme.readSymbol c cs).1 (Lexeme.readSymbol c cs).2) := by
  have hv := value_readSymbol c cs
  have htext := hr.trans (Lexeme.text_append_readSymbol c cs).symm
  have hgive := leads_give hs htext (Lexeme.text_readSymbol_ne_nil c cs) (fun e he => ⟨hv, readSymbol_of_error he⟩)
  rwa [hv] at hgive

end Head

end MiniLex
