import MiniLex.Proofs.Head.Lexemes
import MiniLex.Proofs.Session

/-!
# Calls by moves

A head goes past what stands between tokens piece by piece, and behind each piece it is to give the same token as before
(`Head.exists_piece`). So it gives the token that a scanner gives (`Head.leads_next`), all tokens up to the end
(`Head.leads_scan`), and the answers of a session (`Head.leads_session`): no move fails, and none goes on for ever.
-/

namespace MiniLex

open Grammar

/-! ## Block comments -/

/-- What belongs to a block comment behind its opening mark, and the text behind it. -/
def splitComment (cs : List Char) : List Char × List Char :=
  (splitAtClosing? cs).elim (cs, []) (fun found => (found.1 ++ ['*', '/'], found.2))

/-- A block comment goes on behind a character that does not begin its closing mark. -/
theorem splitComment_cons {c : Char} {cs : List Char} (h : ¬(c = '*' ∧ cs.head? = some '/')) :
    splitComment (c :: cs) = (c :: (splitComment cs).1, (splitComment cs).2) := by
  have hn : ∀ tail, c = '*' → cs = '/' :: tail → False := by
    rintro tail hc rfl
    exact h ⟨hc, rfl⟩
  unfold splitComment
  rw [splitAtClosing?.eq_3 _ _ hn]
  cases splitAtClosing? cs <;> rfl

theorem append_splitComment (cs : List Char) : (splitComment cs).1 ++ (splitComment cs).2 = cs := by
  unfold splitComment
  cases h : splitAtClosing? cs with
  | none => exact List.append_nil cs
  | some found =>
    rw [eq_of_splitAtClosing? cs found.1 found.2 h]
    simp

theorem read?_blockComment (cs : List Char) : ∃ t : Trivia, t.text = '/' :: '*' :: (splitComment cs).1 ∧
    Trivia.read? ('/' :: '*' :: cs) = some (t, (splitComment cs).2) := by
  unfold splitComment
  cases h : splitAtClosing? cs with
  | none => exact ⟨.openComment cs, rfl, by simp [Trivia.read?, h]⟩
  | some found => exact ⟨.blockComment found.1, rfl, by simp [Trivia.read?, h]⟩

/-- Nothing is cut behind a block comment. -/
theorem uncut_splitComment (cs : List Char) : Uncut ('/' :: '*' :: (splitComment cs).1) (splitComment cs).2 := by
  unfold splitComment
  cases h : splitAtClosing? cs with
  | none => exact Uncut.of_head? (by simp) _
  | some found =>
    rintro ⟨hc, -⟩
    simp [List.getLast?_cons] at hc

theorem uncut_lineComment (cs : List Char) :
    Uncut ('/' :: '/' :: cs.takeWhile (fun c => !isBreak c)) (cs.dropWhile (fun c => !isBreak c)) := by
  refine Uncut.of_notMem ?_ _
  intro hm
  have hbody : '\r' ∈ cs.takeWhile (fun c => !isBreak c) := by simpa using hm
  have hb := of_mem_takeWhile _ hbody
  cases hb

theorem read?_blank {c : Char} (h : isBlank c = true) (cs : List Char) : Trivia.read? (c :: cs) = some (.blank c, cs) := by
  rcases (isBlank_iff c).mp h with rfl | rfl | rfl | rfl <;> rfl

namespace Scanner

/-- A scanner goes past a piece of what stands between tokens as if it stood behind it. -/
theorem skip_past_of_read? {s : Scanner} {t : Trivia} {rest : List Char} (h : Trivia.read? s.rest = some (t, rest))
    (hu : Uncut t.text rest) : (s.past t.text rest).skip = s.skip := by
  have hsplit := Trivia.split_of_read? h
  refine (skip_of_split ?_ ?_ hu).symm
  · rw [hsplit]
    rfl
  · rw [hsplit]

/-- A scanner goes past the two characters of a line break as if it stood behind them. -/
theorem skip_past_pair {s : Scanner} {rest : List Char} (hs : s.rest = '\r' :: '\n' :: rest) :
    (s.past ['\r', '\n'] rest).skip = s.skip := by
  have hreturn : Trivia.read? ('\r' :: '\n' :: rest) = some (.blank '\r', '\n' :: rest) := rfl
  have hfeed : Trivia.read? ('\n' :: rest) = some (.blank '\n', rest) := rfl
  have hsplit := Trivia.split_of_read? hreturn
  rw [Trivia.split_of_read? hfeed] at hsplit
  refine (skip_of_split ?_ ?_ (fun h => absurd h.1 (by decide))).symm
  · rw [hs, hsplit]
    rfl
  · rw [hs, hsplit]

/-- A token that is not the end of the text takes a scanner on by some text. -/
theorem exists_next {s : Scanner} (h : s.next.token.isEof = false) : ∃ text, s.rest = text ++ s.next.scanner.rest ∧
    text ≠ [] ∧ s.next.scanner.position.offset = s.position.offset + byteLength text := by
  cases hl : Lexeme.read? s.skip.rest with
  | none =>
    rw [s.next_stop ((Lexeme.read?_eq_none_iff _).mp hl)] at h
    cases h
  | some found =>
    obtain ⟨l, rest⟩ := found
    have hne := Lexeme.text_ne_nil_of_read? _ rest l hl
    have hoffset := s.skip.offset_behind l rest
    rw [offset_skip, Nat.add_assoc, ← byteLength_append] at hoffset
    rw [s.next_step l rest hl]
    refine ⟨s.gap ++ l.text, ?_, by simp [hne], hoffset⟩
    rw [List.append_assoc]
    exact (gap_append_text hl).symm

/-- Where a token begins there is nothing to go past. -/
theorem skip_of_not_startsBetween {s : Scanner} (h : ¬StartsBetween s.rest) : s.skip = s := by
  rw [skip, Trivia.split_of_not_startsBetween h]
  rfl

end Scanner

namespace Head

variable {s s' : Scanner} {source : String} {c : Char} {cs text rest : List Char} {p : Position}

/-- Behind some of a block comment that is not its end, a head goes on to the end from there. -/
theorem exists_unit (hn : ¬(c = '*' ∧ cs.head? = some '/')) (source : String) (p : Position) :
    ∃ unit rest, c :: cs = unit ++ rest ∧ unit ≠ [] ∧ Uncut unit rest ∧
      splitComment (c :: cs) = (unit ++ (splitComment rest).1, (splitComment rest).2) ∧
      Leads commentRound ⟨source, c :: cs, p⟩ (.inl ()) ⟨source, rest, p.advance unit⟩ := by
  have hsplit := splitComment_cons hn
  have hcloses : Leads (closes c) ⟨source, cs, p.right c⟩ false ⟨source, cs, p.right c⟩ := by
    unfold closes
    split
    · next hc => exact leads_eat_of_ne (fun hd => hn ⟨hc, hd⟩)
    · exact Leads.pure _ _
  cases hb : isBreak c with
  | false =>
    refine ⟨[c], cs, rfl, List.cons_ne_nil _ _, Uncut.of_not_isBreak hb cs, hsplit, ?_⟩
    rw [advance_cons_of_not_isBreak p hb]
    refine leads_bump.bind (hcloses.bind ?_)
    simp only [hb]
    exact Leads.pure _ _
  | true =>
    by_cases hu : Uncut [c] cs
    · refine ⟨[c], cs, rfl, List.cons_ne_nil _ _, hu, hsplit, leads_bump.bind (hcloses.bind ?_)⟩
      simp only [hb]
      exact (leads_newline hb hu).bind (Leads.pure _ _)
    · obtain ⟨tail, rfl, rfl⟩ := not_uncut hu
      have hfeed : splitComment ('\n' :: tail) = ('\n' :: (splitComment tail).1, (splitComment tail).2) :=
        splitComment_cons (by simp)
      rw [hfeed] at hsplit
      exact ⟨['\r', '\n'], tail, rfl, List.cons_ne_nil _ _, fun h => absurd h.1 (by decide), hsplit,
        leads_bump.bind (hcloses.bind (leads_newline_pair.bind (Leads.pure _ _)))⟩

/-- A head goes behind a block comment. -/
theorem leads_blockComment (source : String) (cs : List Char) (p : Position) :
    Leads blockComment ⟨source, cs, p⟩ () ⟨source, (splitComment cs).2, p.advance (splitComment cs).1⟩ := by
  -- on the bytes left: a round may take two characters, so the tail of the text is not enough
  induction hn : byteLength cs using Nat.strongRecOn generalizing cs p with
  | ind n ih =>
    cases cs with
    | nil => exact Leads.loop_stop (leads_bump_nil.bind (Leads.pure _ _))
    | cons c cs =>
      by_cases hclose : c = '*' ∧ cs.head? = some '/'
      · obtain ⟨rfl, hd⟩ := hclose
        obtain ⟨tail, rfl⟩ := List.head?_eq_some_iff.mp hd
        exact Leads.loop_stop (leads_bump.bind (leads_eat.bind (Leads.pure _ _)))
      · obtain ⟨unit, rest, htext, hne, hu, hsplit, hround⟩ := exists_unit hclose source p
        have hlt : byteLength rest < byteLength (c :: cs) := htext ▸ byteLength_lt_append hne rest
        have hi := ih (byteLength rest) (hn ▸ hlt) rest (p.advance unit) rfl
        -- the unit cuts no line break off the text, so none off the part of it that is still comment
        rw [← append_splitComment rest] at hu
        rw [← hu.of_append_right.advance_append p] at hi
        rw [hsplit]
        exact Leads.loop_step hround hlt hi

/-! ## Between tokens -/

theorem leads_nextRound_break (hb : isBreak c = true) (hu : Uncut [c] cs) :
    Leads nextRound ⟨source, c :: cs, p⟩ (.inl ()) ⟨source, cs, p.advance [c]⟩ := by
  refine leads_mark.bind (leads_bump.bind ?_)
  simp only [hb, if_true]
  exact (leads_newline hb hu).bind (Leads.pure _ _)

theorem leads_nextRound_pair :
    Leads nextRound ⟨source, '\r' :: '\n' :: cs, p⟩ (.inl ()) ⟨source, cs, p.advance ['\r', '\n']⟩ :=
  leads_mark.bind (leads_bump.bind (leads_newline_pair.bind (Leads.pure _ _)))

theorem leads_nextRound_blank (hb : isBreak c = false) (hc : isBlank c = true) :
    Leads nextRound ⟨source, c :: cs, p⟩ (.inl ()) ⟨source, cs, p.advance [c]⟩ := by
  rw [advance_cons_of_not_isBreak p hb]
  refine leads_mark.bind (leads_bump.bind ?_)
  simp only [hb, hc, Bool.false_eq_true, if_false, if_true]
  exact Leads.pure _ _

theorem leads_nextRound_lineComment : Leads nextRound ⟨source, '/' :: '/' :: cs, p⟩ (.inl ())
    ⟨source, cs.dropWhile (fun c => !isBreak c), p.advance ('/' :: '/' :: cs.takeWhile (fun c => !isBreak c))⟩ := by
  have hbody : Leads lineComment ⟨source, cs, (p.right '/').right '/'⟩ () _ :=
    leads_eatWhile (fun d hd => by rw [hd]; rfl)
  exact leads_mark.bind (leads_bump.bind (leads_eat.bind (hbody.bind (Leads.pure _ _))))

theorem leads_nextRound_blockComment : Leads nextRound ⟨source, '/' :: '*' :: cs, p⟩ (.inl ())
    ⟨source, (splitComment cs).2, p.advance ('/' :: '*' :: (splitComment cs).1)⟩ := by
  have hslash : Leads (eat '/') ⟨source, '*' :: cs, p.right '/'⟩ false ⟨source, '*' :: cs, p.right '/'⟩ :=
    leads_eat_of_ne (by simp)
  have hbody := leads_blockComment source cs ((p.right '/').right '*')
  exact leads_mark.bind (leads_bump.bind (hslash.bind (leads_eat.bind (hbody.bind (Leads.pure _ _)))))

/-- Where something stands between tokens, a head goes past some of it, and a scanner goes past the rest as before. -/
theorem exists_piece (h : StartsBetween s.rest) : ∃ text rest, s.rest = text ++ rest ∧ text ≠ [] ∧
    (s.past text rest).skip = s.skip ∧ Leads nextRound s (.inl ()) (s.past text rest) := by
  obtain ⟨source, cs, p⟩ := s
  rcases (startsBetween_iff cs).mp h with ⟨c, hc, hblank⟩ | ⟨c, cs, rfl, rfl | rfl⟩
  · obtain ⟨cs, rfl⟩ := List.head?_eq_some_iff.mp hc
    have hread := read?_blank hblank cs
    cases hb : isBreak c with
    | false =>
      exact ⟨[c], cs, rfl, List.cons_ne_nil _ _, Scanner.skip_past_of_read? (t := .blank c) hread (Uncut.of_not_isBreak hb cs),
        leads_nextRound_blank hb hblank⟩
    | true =>
      by_cases hu : Uncut [c] cs
      · exact ⟨[c], cs, rfl, List.cons_ne_nil _ _, Scanner.skip_past_of_read? (t := .blank c) hread hu,
          leads_nextRound_break hb hu⟩
      · obtain ⟨tail, rfl, rfl⟩ := not_uncut hu
        exact ⟨['\r', '\n'], tail, rfl, List.cons_ne_nil _ _, Scanner.skip_past_pair rfl, leads_nextRound_pair⟩
  · have hread : Trivia.read? ('/' :: '/' :: cs) = some (.lineComment (cs.takeWhile (fun c => !isBreak c)), _) := rfl
    exact ⟨_, _, Trivia.text_append_of_read? _ _ _ hread, Trivia.text_ne_nil _,
      Scanner.skip_past_of_read? hread (uncut_lineComment cs), leads_nextRound_lineComment⟩
  · obtain ⟨t, ht, hread⟩ := read?_blockComment cs
    have hu := uncut_splitComment cs
    have hround : Leads nextRound ⟨source, '/' :: '*' :: cs, p⟩ (.inl ()) _ := leads_nextRound_blockComment
    rw [← ht] at hu hround
    exact ⟨t.text, _, Trivia.text_append_of_read? _ _ _ hread, t.text_ne_nil, Scanner.skip_past_of_read? hread hu, hround⟩

/-! ## One token -/

theorem leads_nextRound_nil : Leads nextRound ⟨source, [], p⟩ (.inr (.eof p, none)) ⟨source, [], p⟩ := by
  refine leads_mark.bind (leads_bump_nil.bind (Leads.get (fun h hh => ?_)))
  rw [hh.cursor_eq]
  exact Leads.pure _ _

/-- A slash that begins no comment is given alone. -/
theorem leads_nextRound_slash (hs : s.Placed) (hr : s.rest = '/' :: cs) (hline : cs.head? ≠ some '/')
    (hblock : cs.head? ≠ some '*') :
    Leads nextRound s (.inr (s.stepOver (Lexeme.readSymbol '/' cs).1 (Lexeme.readSymbol '/' cs).2).given)
      (s.behind (Lexeme.readSymbol '/' cs).1 (Lexeme.readSymbol '/' cs).2) := by
  have hgive := leads_give_symbol hs hr
  rw [readSymbol_of_notMem (by decide)] at hgive ⊢
  obtain ⟨source, rest, p⟩ := s
  obtain rfl : rest = '/' :: cs := hr
  have hslash : Leads (eat '/') ⟨source, cs, p.right '/'⟩ false ⟨source, cs, p.right '/'⟩ := leads_eat_of_ne hline
  have hstar : Leads (eat '*') ⟨source, cs, p.right '/'⟩ false ⟨source, cs, p.right '/'⟩ := leads_eat_of_ne hblock
  exact leads_mark.bind (leads_bump.bind (hslash.bind (hstar.bind hgive.inr)))

/-- A token is given behind its first character as it is read in front of it. -/
theorem leads_token {l : Lexeme} (hs : s.Placed) (hr : s.rest = c :: cs) (hl : Lexeme.read? (c :: cs) = some (l, rest)) :
    Leads (token c s.position) (s.past [c] cs) (s.stepOver l rest).given (s.behind l rest) := by
  unfold token
  by_cases hq : c = '"'
  · subst hq
    obtain ⟨rfl, rfl⟩ := Prod.ext_iff.mp (Option.some.inj hl)
    exact leads_string hs hr
  · rw [if_neg hq]
    cases hw : isWordStart c with
    | true =>
      rw [Lexeme.read?, if_neg hq, if_pos hw] at hl
      obtain ⟨rfl, rfl⟩ := Prod.ext_iff.mp (Option.some.inj hl)
      exact leads_word hs hr hw
    | false =>
      cases hd : c.isDigit with
      | true =>
        rw [← List.append_nil (c :: cs), Lexeme.read?_number hd, List.append_nil] at hl
        have hnumber := leads_number hs hr hd
        rw [Option.some.inj hl] at hnumber
        exact hnumber
      | false =>
        rw [Lexeme.read?_other hq hw hd] at hl
        have hsymbol := leads_symbol (s := s) c cs
        have hgive := leads_give_symbol hs hr
        rw [Option.some.inj hl] at hsymbol hgive
        exact hsymbol.bind hgive

/-- Where a token begins, what is read there is given. -/
theorem leads_nextRound_lexeme {l : Lexeme} (hn : ¬StartsBetween s.rest) (hl : Lexeme.read? s.rest = some (l, rest)) :
    Leads nextRound s (.inr (s.stepOver l rest).given) (s.behind l rest) := by
  refine Leads.of_placed (fun hs => ?_)
  obtain ⟨source, text, p⟩ := s
  cases text with
  | nil => cases hl
  | cons c cs =>
    rw [startsBetween_iff, not_or] at hn
    obtain ⟨hblank, hcomment⟩ := hn
    replace hblank : isBlank c = false := by
      rw [Bool.eq_false_iff]
      exact fun hc => hblank ⟨c, rfl, hc⟩
    have hb := not_isBreak_of_not_isBlank hblank
    by_cases hslash : c = '/'
    · subst hslash
      have hfree : ∀ d, d = '/' ∨ d = '*' → cs.head? ≠ some d := by
        intro d hd hhead
        obtain ⟨tail, rfl⟩ := List.head?_eq_some_iff.mp hhead
        exact hcomment ⟨d, tail, rfl, hd⟩
      have hround := leads_nextRound_slash hs rfl (hfree '/' (Or.inl rfl)) (hfree '*' (Or.inr rfl))
      rw [Lexeme.read?_other (by decide) (by decide) (by decide)] at hl
      rw [Option.some.inj hl] at hround
      exact hround
    · have htoken := leads_token hs rfl hl
      rw [Scanner.past, advance_cons_of_not_isBreak p hb] at htoken
      refine leads_mark.bind (leads_bump.bind ?_)
      simp only [hb, hblank, hslash, Bool.false_eq_true, if_false]
      exact htoken.inr

/-- A head gives the next token. -/
theorem leads_next (s : Scanner) : Leads next s s.next.given s.next.scanner := by
  -- on the bytes left: each round takes a piece, behind which the same token is next
  induction hn : byteLength s.rest using Nat.strongRecOn generalizing s with
  | ind n ih =>
    by_cases hb : StartsBetween s.rest
    · obtain ⟨text, rest, htext, hne, hskip, hround⟩ := exists_piece hb
      have hlt : byteLength rest < byteLength s.rest := htext ▸ byteLength_lt_append hne rest
      have hi := ih (byteLength rest) (hn ▸ hlt) (s.past text rest) rfl
      rw [Scanner.next, hskip] at hi
      exact Leads.loop_step hround hlt hi
    · have hskip := Scanner.skip_of_not_startsBetween hb
      cases hl : Lexeme.read? s.rest with
      | none =>
        have hrest := (Lexeme.read?_eq_none_iff _).mp hl
        rw [s.next_stop (by rw [hskip, hrest]), hskip]
        obtain ⟨source, cs, p⟩ := s
        obtain rfl : cs = [] := hrest
        exact Leads.loop_stop leads_nextRound_nil
      | some found =>
        obtain ⟨l, rest⟩ := found
        rw [s.next_step l rest (by rw [hskip, hl]), hskip]
        exact Leads.loop_stop (leads_nextRound_lexeme hb hl)

/-! ## Calls -/

/-- A head gives all tokens up to the end, behind those already taken. -/
theorem leads_scanRounds (s : Scanner) (tokens : List Token) (diagnostics : List Diagnostic) :
    Leads (loop scanRound (tokens, diagnostics)) s (tokens ++ s.scan.tokens, diagnostics ++ s.scan.diagnostics)
      s.scan.scanner := by
  induction hn : byteLength s.rest using Nat.strongRecOn generalizing s tokens diagnostics with
  | ind n ih =>
    have hround : Leads (scanRound (tokens, diagnostics)) s _ s.next.scanner := (leads_next s).bind (Leads.pure _ _)
    rcases s.next_cases with ⟨hnext, -, hscan⟩ | ⟨heof, -, hscan⟩
    · rw [hnext] at hround
      rw [hscan]
      exact Leads.loop_stop hround
    · obtain ⟨text, hrest, hne, -⟩ := Scanner.exists_next heof
      have hlt : byteLength s.next.scanner.rest < byteLength s.rest := by
        rw [hrest]
        exact byteLength_lt_append hne _
      have hi := ih _ (hn ▸ hlt) s.next.scanner (tokens ++ [s.next.token]) (diagnostics ++ s.next.diagnostic.toList) rfl
      simp only [heof, Bool.false_eq_true, if_false] at hround
      rw [List.append_assoc, List.append_assoc] at hi
      rw [hscan]
      exact Leads.loop_step hround hlt hi

/-- A head gives all tokens up to the end. -/
theorem leads_scan (s : Scanner) : Leads scan s (s.scan.tokens, s.scan.diagnostics) s.scan.scanner :=
  leads_scanRounds s [] []

theorem isAtEnd_iff (hs : s.Placed) : s.source.utf8ByteSize ≤ s.position.offset ↔ s.rest = [] := by
  obtain ⟨front, hsource, ho⟩ := hs
  rw [← byteLength_toList, hsource, byteLength_append, ho]
  constructor
  · intro h
    by_contra hne
    have hpos := byteLength_pos hne
    omega
  · intro h
    rw [h]
    exact Nat.le_refl _

/-- A head answers a call. -/
theorem leads_call (s : Scanner) (c : Call) : Leads (call c) s (s.call c).1 (s.call c).2 := by
  cases c with
  | next => exact (leads_next s).bind (Leads.pure _ _)
  | scan => exact (leads_scan s).bind (Leads.pure _ _)
  | isAtEnd =>
    refine Leads.get (fun h hh => ?_)
    rw [hh.source_eq, hh.cursor_eq]
    have hend : decide (s.source.utf8ByteSize ≤ s.position.offset) = s.isAtEnd := by
      rw [Scanner.isAtEnd, Bool.eq_iff_iff, decide_eq_true_iff, List.isEmpty_iff]
      exact isAtEnd_iff hh.placed
    rw [hend]
    exact Leads.pure _ _
  | source =>
    refine Leads.get (fun h hh => ?_)
    rw [hh.source_eq]
    exact Leads.pure _ _

/-- A head answers the calls of a session. -/
theorem leads_session (s : Scanner) (calls : List Call) : Leads (session calls) s (s.session calls) (s.after calls) := by
  induction calls generalizing s with
  | nil => exact Leads.pure _ _
  | cons c calls ih => exact (leads_call s c).bind ((ih (s.call c).2).bind (Leads.pure _ _))

/-- A head begins where a scanner does. -/
theorem shows_ofSource (source : String) : (ofSource source).Shows (Scanner.ofSource source) := by
  have hplaced : (Scanner.ofSource source).Placed := by
    rw [ofSource_eq]
    exact ⟨markOf source, (markOf_append_textOf source).symm, rfl⟩
  have hcursor : (ofSource source).cursor = (Scanner.ofSource source).position := by
    unfold ofSource Scanner.ofSource
    simp only
    split <;> rfl
  have hsource : (Scanner.ofSource source).source = source := Scanner.source_ofSource source
  have hsafe := hplaced.cursor_safe
  rw [hsource, ← hcursor] at hsafe
  refine ⟨hsource.symm, hcursor, hplaced, ?_, hsafe, List.pairwise_singleton _ _, ?_⟩
  · intro touch ht
    obtain rfl := List.mem_singleton.mp ht
    exact hsafe
  · intro offset ho
    obtain rfl := List.mem_singleton.mp ho
    exact Nat.le_refl _

end Head

end MiniLex
