import MiniLex.Proofs.Grammar.Lexeme
import MiniLex.Proofs.Scan

/-!
# Maximal munch

The grammar leaves no choice: where a token begins, it determines its kind and its text (`Grammar.Reads.unique`), so that what
it says is what is read (`Lexeme.read?_of_reads`). Hence a text has one derivation, and a scan gives its tokens
(`maximal_munch`).
-/

namespace MiniLex

open Grammar

/-! ## No choice -/

namespace Grammar

/-- A text has one pattern. -/
theorem Matches.unique {kind kind' : Kind} {text : List Char} (h : Matches kind text) (h' : Matches kind' text) :
    kind = kind' := by
  cases text with
  | nil => exact absurd rfl h.ne_nil
  | cons c cs =>
    rcases h.cons_cases with ⟨hc, -, hk⟩ | ⟨hc, hn⟩ | ⟨rfl, rfl, -⟩ | hm
    · exact (kind_ofWord_of_wordKind hk).symm.trans (kind_ofWord_of_wordKind (h'.of_wordStart hc).2)
    · -- a run of digits holds no point
      have hp : ∀ whole fraction, Digits (c :: cs) → c :: cs ≠ whole ++ '.' :: fraction := by
        intro whole fraction hd he
        exact absurd (hd.2 '.' (by simp [he])) (by decide)
      rcases hn with ⟨rfl, hd⟩ | ⟨rfl, whole, fraction, -, -, he⟩
      · rcases h'.of_digit hc with ⟨rfl, -⟩ | ⟨-, whole, fraction, -, -, he⟩
        · rfl
        · exact absurd he (hp whole fraction hd)
      · rcases h'.of_digit hc with ⟨-, hd⟩ | ⟨rfl, -⟩
        · exact absurd he (hp whole fraction hd)
        · rfl
    · exact h'.of_quote.1.symm
    · obtain ⟨_, _, he, hw, hd, hq⟩ := table_first _ hm
      obtain ⟨rfl, rfl⟩ := List.cons.inj he
      exact table_unique _ hm _ (h'.of_other hq hw hd) rfl

/-- A literal that breaks off in front of a line break does not go on to the end of the text. -/
theorem LongestPrefix.ne_append_dangling {body units after dangling : List Char} {c : Char}
    (hl : LongestPrefix Units body (body ++ c :: after)) (hc : c = '\r' ∨ c = '\n') (hu : Units units)
    (hd : dangling = [] ∨ dangling = ['\\']) : body ++ c :: after ≠ units ++ dangling := by
  intro he
  have hlen := hl.2.2 units hu ⟨dangling, he.symm⟩
  have hsum := congrArg List.length he
  simp only [List.length_append, List.length_cons] at hsum
  rcases hd with rfl | rfl
  · simp only [List.length_nil] at hsum
    omega
  · simp only [List.length_cons, List.length_nil] at hsum
    obtain rfl := (List.cons.inj (List.append_inj he (by omega)).2).1
    revert hc
    decide

/-- What is malformed, and how much of it, is settled by the text. -/
theorem Malformed.unique {e e' : LexError} {text text' rest rest' : List Char} (h : Malformed e text rest)
    (h' : Malformed e' text' rest') (ht : text ++ rest = text' ++ rest') : e = e' ∧ text = text' := by
  cases h with
  | brokenString hl hc =>
    cases h' with
    | brokenString hl' hc' =>
      simp only [List.cons_append, List.cons.injEq, true_and] at ht
      rw [ht] at hl
      exact ⟨rfl, congrArg _ (hl.unique hl')⟩
    | endlessString hu hd =>
      rw [List.append_nil] at ht
      exact absurd (List.cons.inj ht).2 (hl.ne_append_dangling hc hu hd)
    | loneAmpersand => simp at ht
    | lonePipe => simp at ht
    | unexpected hq => exact absurd (List.cons.inj ht).1.symm hq
  | endlessString hu hd =>
    cases h' with
    | brokenString hl' hc' =>
      rw [List.append_nil] at ht
      exact absurd (List.cons.inj ht).2.symm (hl'.ne_append_dangling hc' hu hd)
    | endlessString hu' hd' => exact ⟨rfl, by simpa using ht⟩
    | loneAmpersand => simp at ht
    | lonePipe => simp at ht
    | unexpected hq => exact absurd (List.cons.inj ht).1.symm hq
  | loneAmpersand =>
    cases h' with
    | loneAmpersand => exact ⟨rfl, rfl⟩
    | unexpected _ ha => exact absurd (List.cons.inj ht).1.symm ha
    | _ => simp at ht
  | lonePipe =>
    cases h' with
    | lonePipe => exact ⟨rfl, rfl⟩
    | unexpected _ _ hp => exact absurd (List.cons.inj ht).1.symm hp
    | _ => simp at ht
  | unexpected hq ha hp =>
    cases h' with
    | loneAmpersand => exact absurd (List.cons.inj ht).1 ha
    | lonePipe => exact absurd (List.cons.inj ht).1 hp
    | unexpected =>
      obtain rfl := (List.cons.inj ht).1
      exact ⟨rfl, rfl⟩
    | _ => exact absurd (List.cons.inj ht).1 hq

/-- The kind and the text of a token are settled by the text that it begins. -/
theorem Reads.unique {kind kind' : Kind} {text text' rest rest' : List Char} (h : Reads kind text rest)
    (h' : Reads kind' text' rest') (ht : text ++ rest = text' ++ rest') : kind = kind' ∧ text = text' := by
  cases h with
  | token hm hl hi =>
    cases h' with
    | token hm' hl' _ =>
      rw [← ht] at hl'
      obtain rfl := hl.unique hl'
      exact ⟨hm.unique hm', rfl⟩
    | outOfRange hm' hl' ho =>
      rw [← ht] at hl'
      obtain rfl := hl.unique hl'
      exact absurd (hi (hm.unique hm')) (Nat.not_lt.mpr ho)
    | malformed hn _ => exact absurd (ht ▸ hl.2.1) (hn text hl.1)
  | outOfRange hm hl ho =>
    cases h' with
    | token hm' hl' hi =>
      rw [← ht] at hl'
      obtain rfl := hl.unique hl'
      exact absurd (hi (hm'.unique hm)) (Nat.not_lt.mpr ho)
    | outOfRange _ hl' _ =>
      rw [← ht] at hl'
      exact ⟨rfl, hl.unique hl'⟩
    | malformed hn _ => exact absurd (ht ▸ hl.2.1) (hn text hl.1)
  | malformed hn hm =>
    cases h' with
    | token _ hl' _ => exact absurd (ht ▸ hl'.2.1) (hn text' hl'.1)
    | outOfRange _ hl' _ => exact absurd (ht ▸ hl'.2.1) (hn text' hl'.1)
    | malformed _ hm' =>
      obtain ⟨rfl, rfl⟩ := hm.unique hm' ht
      exact ⟨rfl, rfl⟩

theorem Reads.ne_nil {kind : Kind} {text rest : List Char} (h : Reads kind text rest) : text ≠ [] := by
  cases h with
  | token hm => exact hm.ne_nil
  | outOfRange hm => exact hm.ne_nil
  | malformed _ hm => cases hm <;> simp

end Grammar

/-- What the grammar says is read. -/
theorem Lexeme.read?_of_reads {kind : Kind} {text rest : List Char} (h : Reads kind text rest) :
    ∃ l : Lexeme, Lexeme.read? (text ++ rest) = some (l, rest) ∧ l.kind = kind ∧ l.text = text := by
  cases hr : Lexeme.read? (text ++ rest) with
  | none =>
    rw [Lexeme.read?_eq_none_iff, List.append_eq_nil_iff] at hr
    exact absurd hr.1 h.ne_nil
  | some found =>
    obtain ⟨l, rest'⟩ := found
    have ht := text_append_of_read? _ rest' l hr
    obtain ⟨hk, he⟩ := (reads_of_read? _ rest' l hr).unique h ht
    rw [he] at ht
    exact ⟨l, by rw [List.append_cancel_left ht], hk, he⟩

/-! ## All lexemes of a text -/

/-- The lexemes of a text, in order, without what stands between them. -/
def lexemes (cs : List Char) : List Lexeme :=
  match _h : Lexeme.read? (Trivia.split cs).2 with
  | none => []
  | some (l, rest) => l :: lexemes rest
termination_by cs.length
decreasing_by
  have hl := Lexeme.length_lt_of_read? _ rest l ‹_›
  have hs := congrArg List.length (Trivia.concat_append_split cs)
  rw [List.length_append] at hs
  omega

theorem lexemes_stop {cs : List Char} (h : (Trivia.split cs).2 = []) : lexemes cs = [] := by
  rw [lexemes]
  split
  · rfl
  · next hs => simp [h, Lexeme.read?] at hs

theorem lexemes_step {cs rest : List Char} {l : Lexeme} (h : Lexeme.read? (Trivia.split cs).2 = some (l, rest)) :
    lexemes cs = l :: lexemes rest := by
  rw [lexemes]
  split
  · next hs => simp [h] at hs
  · next hs =>
    obtain ⟨rfl, rfl⟩ : l = _ ∧ rest = _ := by simpa [h] using hs
    rfl

/-- The lexemes of a text depend only on what stands behind its gap. -/
theorem lexemes_congr {cs ds : List Char} (h : (Trivia.split cs).2 = (Trivia.split ds).2) : lexemes cs = lexemes ds := by
  cases hr : Lexeme.read? (Trivia.split cs).2 with
  | none =>
    have he := (Lexeme.read?_eq_none_iff _).mp hr
    rw [lexemes_stop he, lexemes_stop (h ▸ he)]
  | some found =>
    obtain ⟨l, rest⟩ := found
    have hd : Lexeme.read? (Trivia.split ds).2 = some (l, rest) := h ▸ hr
    rw [lexemes_step hr, lexemes_step hd]

/-- The lexeme of a token. -/
def Token.toLexeme (t : Token) : Lexeme := ⟨t.kind, t.value, t.lexeme.toList⟩

theorem toLexeme_toToken (l : Lexeme) (start stop : Position) : (l.toToken start stop).toLexeme = l := by
  simp [Token.toLexeme, Lexeme.toToken]

/-- A scan gives a token for every lexeme, and the end of the text. -/
theorem toLexeme_scan (s : Scanner) : s.scan.tokens.map Token.toLexeme = lexemes s.rest ++ [⟨.eof, none, []⟩] := by
  induction s using Scanner.scan_induction with
  | stop s h =>
    rw [lexemes_stop h]
    rfl
  | step s l rest h ih =>
    have hr : (s.skip.behind l rest).rest = rest := rfl
    rw [hr] at ih
    rw [lexemes_step h, List.cons_append, ← ih]
    simp [Scan.cons, Scanner.stepOver, toLexeme_toToken]

/-! ## Derivations -/

/-- What is derived behind the gap is derived of the whole text. -/
theorem derives_of_split {cs : List Char} {tokens : List (Kind × List Char)} (h : Derives (Trivia.split cs).2 tokens)
    (he : (Trivia.split cs).2 = [] → tokens = []) : Derives cs tokens := by
  fun_induction Trivia.split cs with
  | case1 cs _ => exact h
  | case2 cs t rest hr pieces rest' hs ih =>
    rw [Trivia.text_append_of_read? cs rest t hr]
    simp only [hs] at ih
    rcases Trivia.piece_of_read? cs rest t hr with hp | ⟨ho, rfl⟩
    · exact Derives.piece hp (ih h he)
    · rw [← Trivia.text_append_of_read? cs [] t hr]
      obtain ⟨-, rfl⟩ : [] = pieces ∧ [] = rest' := by simpa [Trivia.split_nil] using hs
      rw [he rfl]
      exact Derives.openComment ho

/-- The grammar derives the lexemes of a text. -/
theorem derives_lexemes (cs : List Char) : Derives cs ((lexemes cs).map (fun l => (l.kind, l.text))) := by
  fun_induction lexemes cs with
  | case1 cs h =>
    have he := (Lexeme.read?_eq_none_iff _).mp h
    exact derives_of_split (he ▸ Derives.done) (fun _ => rfl)
  | case2 cs l rest h ih =>
    have ht := Lexeme.text_append_of_read? _ rest l h
    have hb := Trivia.not_startsBetween_split cs
    refine derives_of_split ?_ (fun he => by simp [he, Lexeme.read?] at h)
    rw [← ht] at hb ⊢
    exact Derives.token hb (Lexeme.reads_of_read? _ rest l h) ih

/-- The grammar derives nothing but the lexemes of a text. -/
theorem eq_of_derives {cs : List Char} {tokens : List (Kind × List Char)} (h : Derives cs tokens) :
    tokens = (lexemes cs).map (fun l => (l.kind, l.text)) := by
  induction h with
  | done =>
    rw [lexemes_stop (by rw [Trivia.split_nil])]
    rfl
  | @piece piece rest tokens hp _ ih =>
    obtain ⟨t, -, ht⟩ := Trivia.read?_of_piece hp
    have hs : (Trivia.split (piece ++ rest)).2 = (Trivia.split rest).2 := by rw [Trivia.split_of_read? ht]
    rw [lexemes_congr hs, ih]
  | @openComment cs ho =>
    obtain ⟨t, ht⟩ := Trivia.read?_of_openComment ho
    rw [lexemes_stop (by rw [Trivia.split_of_read? ht, Trivia.split_nil])]
    rfl
  | @token kind text rest tokens hb hr _ ih =>
    obtain ⟨l, hl, rfl, rfl⟩ := Lexeme.read?_of_reads hr
    rw [lexemes_step (by rw [Trivia.split_of_not_startsBetween hb]; exact hl), List.map_cons, ih]

/-- The text of a source has one derivation, and its tokens are those of the source, in front of the end of the text: outside
of blanks and comments, every token is the longest text with a pattern that the rest begins with, or it is malformed. -/
theorem maximal_munch (source : String) : ∃ tokens : List (Kind × List Char),
    (tokenize source).tokens.map (fun t => (t.kind, t.lexeme.toList)) = tokens ++ [(.eof, [])] ∧
      ∀ derived, Derives (textOf source) derived ↔ derived = tokens := by
  refine ⟨(lexemes (textOf source)).map (fun l => (l.kind, l.text)), ?_, fun derived => ⟨eq_of_derives, ?_⟩⟩
  · have h := congrArg (List.map (fun l : Lexeme => (l.kind, l.text))) (toLexeme_scan (Scanner.ofSource source))
    rw [ofSource_eq] at h
    rw [tokenize, ofSource_eq]
    simpa [Token.toLexeme, Function.comp_def] using h
  · rintro rfl
    exact derives_lexemes (textOf source)

end MiniLex
