import MiniLex.Proofs.Locus
import MiniLex.Proofs.Resumed
import MiniLex.Proofs.Walk

/-!
# The end that is put behind tokens

A cursor over tokens that do not end in an end of the text puts one behind them, at the place that it makes out from the last
of them: in the same line, as many columns on as the lexeme has characters. The offset is always right. The line and the column
are those of the offset exactly if the lexeme holds no line break (`eof_behind`); with each line break of it the line falls
further short. Only string literals hold any, whether they are closed or not. Lines are counted in 32 bits, and a lexeme with
so many line breaks that the count comes round is left out.
-/

namespace MiniLex

open Grammar

/-! ## The last token -/

namespace Scanner.Meets

variable {s here : Scanner} {before after : List Token} {t : Token} {l : Lexeme} {rest : List Char}

theorem countedPlaceOf_stop (h : s.Meets before t after here l rest) : countedPlaceOf s.source t.span.stop =
    ((t.place.advance t.lexeme.toList).line, (t.place.advance t.lexeme.toList).column) := by
  obtain ⟨read, hstands⟩ := h.stands
  have hreached := (hstands.behind h.begins h.read_eq).reached
  have hsource : (here.behind l rest).source = s.source := h.source_eq
  rw [hsource] at hreached
  rw [h.token_eq, here.lexeme_stepOver]
  exact hreached.line_column.symm

/-- A token whose lexeme holds a line break is a string literal, closed or not. -/
theorem quoted_of_break (h : s.Meets before t after here l rest) {c : Char} (hc : c ∈ t.lexeme.toList)
    (hb : isBreak c = true) : t.kind ∈ [.literal .string, .error .brokenString, .error .endlessString] := by
  rw [h.token_eq, here.lexeme_stepOver] at hc
  rw [h.token_eq]
  rcases (Lexeme.endsBefore_of_read? h.read_eq).plain_or_quoted with
    ⟨⟨-, hplain⟩, -⟩ | ⟨body, -, rfl⟩ | ⟨body, _, _, -, rfl, -⟩ | ⟨body, -, rfl, -⟩
  · -- a line break by itself is a gap, and no token begins there
    have htext := Lexeme.text_append_of_read? _ _ _ h.read_eq
    rw [hplain c hc hb] at htext
    have hblank := (isBreak_iff c).mp hb
    exact absurd (Or.inl ⟨[c], rest, htext.symm, Piece.blank (Or.inr (Or.inr hblank))⟩) h.begins
  · exact List.mem_cons_self
  · exact List.mem_cons_of_mem _ List.mem_cons_self
  · exact List.mem_cons_of_mem _ (List.mem_cons_of_mem _ List.mem_cons_self)

end Scanner.Meets

/-! ## The end of the text -/

/-- Tokens none of which is an end of the text are given one behind the last of them. -/
theorem Cursor.tokens_ofTokens_concat {front : List Token} {last : Token} (h : last.isEof = false) :
    (ofTokens (front ++ [last])).tokens = front ++ [last] ++ [eofBehind (some last)] := by
  rw [(marks_ofTokens _).1.tokens, terminated, List.getLast?_concat, Option.any_some, h]
  rfl

/-- Tokens of a source that stand side by side in it, none of which is the end of the text, are given one by a cursor, at the
offset where the last of them ends. If the last lexeme holds no line break, the line and the column are those of the offset.
Otherwise the token is a string literal, closed or not, and the line falls short by the line feeds of the lexeme and its
carriage returns without one, so it is another line unless these are as many as all numbers of 32 bits. -/
theorem eof_behind (source : String) (before run after : List Token)
    (htokens : (tokenize source).tokens = before ++ run ++ after) (hrun : run ≠ []) (heof : ∀ t ∈ run, t.isEof = false) :
    ∃ last e, run.getLast? = some last ∧ (Cursor.ofTokens run).tokens = run ++ [e] ∧
      e = .eof ⟨last.span.stop, e.line, e.column⟩ ∧
      ((∀ c ∈ last.lexeme.toList, isBreak c = false) → (e.line, e.column) = countedPlaceOf source last.span.stop) ∧
      (lineBreaks last.lexeme.toList < UInt32.size →
        ((e.line, e.column) = countedPlaceOf source last.span.stop ↔ ∀ c ∈ last.lexeme.toList, isBreak c = false)) ∧
      (countedPlaceOf source last.span.stop).1 =
        e.line + .ofNat (last.lexeme.toList.count '\n' + loneReturns last.lexeme.toList) ∧
      ((∃ c ∈ last.lexeme.toList, isBreak c = true) →
        last.kind ∈ [.literal .string, .error .brokenString, .error .endlessString]) := by
  obtain ⟨front, last, rfl⟩ := (List.eq_nil_or_concat' run).resolve_left hrun
  have hlast : last.isEof = false := heof last (by simp)
  have htokens' : (tokenize source).tokens = before ++ front ++ last :: after := by simpa using htokens
  obtain ⟨here, l, rest, hmeets⟩ := Scanner.tokenize_meets htokens' hlast
  have hplace := hmeets.countedPlaceOf_stop
  rw [Scanner.source_ofSource] at hplace
  have hline := line_advance last.place last.lexeme.toList
  have hunbroken : (∀ c ∈ last.lexeme.toList, isBreak c = false) →
      ((Cursor.eofBehind (some last)).line, (Cursor.eofBehind (some last)).column) =
        countedPlaceOf source last.span.stop := by
    intro hb
    obtain ⟨hline, hcolumn⟩ := advance_of_unbroken last.place hb
    rw [hplace, hline, hcolumn, String.length_toList]
    rfl
  refine ⟨last, Cursor.eofBehind (some last), List.getLast?_concat, Cursor.tokens_ofTokens_concat hlast, rfl, hunbroken,
    fun hfew => ⟨fun he c hc => ?_, hunbroken⟩, ?_, fun ⟨c, hc, hb⟩ => hmeets.quoted_of_break hc hb⟩
  · by_contra hb
    rw [hplace, hline] at he
    exact add_ofNat_ne (lineBreaks_pos hc (by simpa using hb)) hfew (congrArg Prod.fst he).symm
  · rw [hplace, hline, lineBreaks_eq]
    rfl

/-- Behind an identifier of two bytes and one column, in the second line, the end of the text has the place of its offset. -/
theorem eof_behind_secondLine :
    let source := "x\r\né+"
    let x : Token := ⟨.identifier, "x", 1, 1, ⟨0, 1⟩, none⟩
    let é : Token := ⟨.identifier, "é", 2, 1, ⟨3, 5⟩, none⟩
    let plus : Token := ⟨.operator .plus, "+", 2, 2, ⟨5, 6⟩, none⟩
    (tokenize source).tokens = [x] ++ [é] ++ [plus, .eof ⟨6, 2, 3⟩] ∧ lineBreaks é.lexeme.toList < UInt32.size ∧
    ∃ last e, [é].getLast? = some last ∧ (Cursor.ofTokens [é]).tokens = [é] ++ [e] ∧
      e = .eof ⟨last.span.stop, e.line, e.column⟩ ∧
      ((∀ c ∈ last.lexeme.toList, isBreak c = false) → (e.line, e.column) = countedPlaceOf source last.span.stop) ∧
      (lineBreaks last.lexeme.toList < UInt32.size →
        ((e.line, e.column) = countedPlaceOf source last.span.stop ↔ ∀ c ∈ last.lexeme.toList, isBreak c = false)) ∧
      (countedPlaceOf source last.span.stop).1 =
        e.line + .ofNat (last.lexeme.toList.count '\n' + loneReturns last.lexeme.toList) ∧
      ((∃ c ∈ last.lexeme.toList, isBreak c = true) →
        last.kind ∈ [.literal .string, .error .brokenString, .error .endlessString]) := by
  intro source x é plus
  have htokens : (tokenize source).tokens = [x] ++ [é] ++ [plus, .eof ⟨6, 2, 3⟩] := by decide +kernel
  exact ⟨htokens, by decide, eof_behind source [x] [é] _ htokens (List.cons_ne_nil _ _) (by decide)⟩

/-- Behind a string literal that goes on in the second line the end of the text is given a place in the first. -/
theorem eof_misplaced :
    let source := "\"\\\n\""
    let literal : Token := ⟨.literal .string, source, 1, 1, ⟨0, 4⟩, some (.string "\\\n")⟩
    (tokenize source).tokens = [] ++ [literal] ++ [.eof ⟨4, 2, 2⟩] ∧ countedPlaceOf source literal.span.stop = (2, 2) ∧
      ∃ e, (Cursor.ofTokens [literal]).tokens = [literal] ++ [e] ∧ e = .eof ⟨literal.span.stop, 1, 5⟩ ∧
        (e.line, e.column) ≠ countedPlaceOf source literal.span.stop := by
  intro source literal
  have hplace : countedPlaceOf source literal.span.stop = (2, 2) := by decide +kernel
  refine ⟨by decide +kernel, hplace, _, @Cursor.tokens_ofTokens_concat [] literal rfl, by decide +kernel, ?_⟩
  rw [hplace]
  decide

end MiniLex
