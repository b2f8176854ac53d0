import MiniLex.Proofs.Grammar.Derivation
import MiniLex.Proofs.Session
import MiniLex.Proofs.Transfer

/-!
# Tokens out of context

A token that is not malformed does not depend on where it was found. Written down again, with anything between it and the
next one that begins with a blank, it is the same token (`tokenize_separated`). What may be written between tokens is a
`Separator`; it is a gap of the grammar in front of every text. The lexeme of such a token is `Lexeme.Sound`: it is read
somewhere, and so it is read in front of every blank.
-/

namespace MiniLex

open Grammar

/-! ## Separators -/

/-- What may be written between tokens: blanks, block comments that go on to the first closing mark, and line comments with a
line break behind them. -/
inductive Separator : List Char → Prop where
  | nil : Separator []
  | blank {c : Char} {cs : List Char} : c = ' ' ∨ c = '\t' ∨ c = '\r' ∨ c = '\n' → Separator cs → Separator (c :: cs)
  | blockComment {body cs : List Char} : ¬closing <:+: body ++ ['*'] → Separator cs →
      Separator ('/' :: '*' :: (body ++ closing ++ cs))
  | lineComment {body cs : List Char} {c : Char} : (∀ d ∈ body, d ≠ '\r' ∧ d ≠ '\n') → c = '\r' ∨ c = '\n' →
      Separator (c :: cs) → Separator ('/' :: '/' :: (body ++ c :: cs))

def BeginsBlank (cs : List Char) : Prop := ∃ c, cs.head? = some c ∧ (c = ' ' ∨ c = '\t' ∨ c = '\r' ∨ c = '\n')

/-- A separator is a gap, whatever follows. -/
theorem Separator.gap {cs : List Char} (h : Separator cs) (rest : List Char) : Gap cs rest := by
  induction h with
  | nil => exact Gap.nil
  | blank hc _ ih => exact Gap.cons (Piece.blank hc) ih
  | blockComment hb _ ih => exact Gap.cons (Piece.blockComment hb) ih
  | @lineComment body cs c hb hc _ ih =>
    refine Gap.cons (Piece.lineComment hb (fun d hd => ?_)) ih
    obtain rfl : c = d := by simpa using hd
    exact hc

theorem Separator.head?_ne_mark {cs : List Char} (h : Separator cs) : cs.head? ≠ some Scanner.byteOrderMark := by
  intro hm
  cases h with
  | nil => cases hm
  | blank hc _ =>
    obtain rfl := Option.some.inj hm
    exact absurd hc (by decide)
  | blockComment _ _ => exact absurd (Option.some.inj hm) (by decide)
  | lineComment _ _ _ => exact absurd (Option.some.inj hm) (by decide)

/-! ## Lexemes -/

/-- A lexeme that is read somewhere and is not malformed. -/
def Lexeme.Sound (l : Lexeme) : Prop :=
  l.kind.isError = false ∧ l.text ≠ [] ∧ ∃ rest, l.EndsBefore rest ∧ ¬StartsBetween (l.text ++ rest)

theorem isWordStart_mark : isWordStart Scanner.byteOrderMark = false := by decide +kernel

namespace Lexeme.Sound

variable {l : Lexeme}

/-- A sound lexeme does not begin with the mark that a source may begin with. -/
theorem head?_ne_mark (h : l.Sound) : l.text.head? ≠ some Scanner.byteOrderMark := by
  obtain ⟨hk, -, rest, hends, -⟩ := h
  have hdigits : ∀ {digits : List Char}, Digits digits → digits.head? ≠ some Scanner.byteOrderMark := by
    intro digits hd hm
    obtain ⟨tail, rfl⟩ := List.head?_eq_some_iff.mp hm
    exact absurd (hd.2 Scanner.byteOrderMark (by simp)) (by decide)
  intro hm
  cases hends with
  | @word c cs _ hc _ _ =>
    rw [text_ofWord] at hm
    obtain rfl := Option.some.inj hm
    rw [isWordStart_mark] at hc
    cases hc
  | digits hd _ _ =>
    rw [text_ofDigits] at hm
    exact hdigits hd hm
  | @decimal whole fraction _ hw _ _ =>
    rw [ofDecimal, List.head?_append_of_ne_nil _ hw.1] at hm
    exact hdigits hw hm
  | quoted _ => exact absurd (Option.some.inj hm) (by decide)
  | broken _ _ _ => cases hk
  | endless _ => cases hk
  | @symbol spelling _ kind hmem _ =>
    have hn : ∀ entry ∈ Symbol.table, entry.1.head? ≠ some Scanner.byteOrderMark := by decide
    exact hn _ hmem hm
  | stray _ _ _ _ => cases hk

theorem ne_nil (h : l.Sound) : l.text ≠ [] := h.2.1

/-- A sound lexeme is read again in front of nothing and in front of a blank. -/
theorem ends_before (h : l.Sound) {rest : List Char} (hr : ∀ c, rest.head? = some c → isBlank c = true) :
    l.EndsBefore rest ∧ ¬StartsBetween (l.text ++ rest) := by
  obtain ⟨hk, hne, rest', hends, hb⟩ := h
  have hg : glimpse rest <+: rest' := by
    rw [glimpse_eq_nil hr]
    exact List.nil_prefix
  refine ⟨hends.of_glimpse hg (fun he => ?_) (fun he => ?_), not_startsBetween_of_glimpse hg hne hb⟩
  · rw [he] at hk
    cases hk
  · rw [he] at hk
    cases hk

end Lexeme.Sound

/-- A lexeme of a text is sound unless it is malformed. -/
theorem sound_of_mem_lexemes {cs : List Char} {l : Lexeme} (h : l ∈ lexemes cs) (hk : l.kind.isError = false) : l.Sound := by
  fun_induction lexemes cs with
  | case1 => cases h
  | case2 cs l' rest hr ih =>
    rcases List.mem_cons.mp h with rfl | h
    · have ht := Lexeme.text_append_of_read? _ rest l hr
      have hb := Trivia.not_startsBetween_split cs
      rw [← ht] at hb
      exact ⟨hk, Lexeme.text_ne_nil_of_read? _ rest l hr, rest, Lexeme.endsBefore_of_read? hr, hb⟩
    · exact ih h

/-- A token of a source that is neither malformed nor the end of the text is made of a sound lexeme. -/
theorem Token.sound_toLexeme {t : Token} {source : String} (h : t ∈ (tokenize source).tokens) (hk : t.isError = false)
    (he : t.isEof = false) : t.toLexeme.Sound := by
  have hm : t.toLexeme ∈ (tokenize source).tokens.map Token.toLexeme := List.mem_map_of_mem h
  rw [tokenize, toLexeme_scan] at hm
  rcases List.mem_append.mp hm with hm | hm
  · exact sound_of_mem_lexemes hm hk
  · have hkind : t.kind = .eof := congrArg Lexeme.kind (List.mem_singleton.mp hm)
    rw [Token.isEof, hkind] at he
    cases he

/-- A gap in front of a text does not change its lexemes. -/
theorem lexemes_of_gap {gap rest : List Char} (h : Gap gap rest) : lexemes (gap ++ rest) = lexemes rest :=
  lexemes_congr (Trivia.split_of_gap h).2

/-- A lexeme that ends before a text comes in front of the lexemes of the text. -/
theorem lexemes_of_endsBefore {l : Lexeme} {rest : List Char} (h : l.EndsBefore rest) (hb : ¬StartsBetween (l.text ++ rest)) :
    lexemes (l.text ++ rest) = l :: lexemes rest := by
  refine lexemes_step ?_
  rw [Trivia.split_of_not_startsBetween hb]
  exact Lexeme.read?_of_endsBefore h

/-- Sound lexemes, each with a separator behind it that begins with a blank, are the lexemes of the text that they make up.
Behind the last of them there may be nothing. -/
theorem lexemes_separated (pairs : List (Lexeme × List Char)) (hsound : ∀ p ∈ pairs, p.1.Sound)
    (hseparator : ∀ p ∈ pairs, Separator p.2) (hinner : ∀ p ∈ pairs.dropLast, BeginsBlank p.2)
    (hlast : ∀ p ∈ pairs.getLast?, p.2 = [] ∨ BeginsBlank p.2) :
    lexemes (pairs.flatMap (fun p => p.1.text ++ p.2)) = pairs.map Prod.fst := by
  induction pairs with
  | nil => exact lexemes_stop (by rw [List.flatMap_nil, Trivia.split_nil])
  | cons p pairs ih =>
    obtain ⟨l, separator⟩ := p
    have hinner' : ∀ q ∈ pairs.dropLast, BeginsBlank q.2 := by
      intro q hq
      cases pairs with
      | nil => cases hq
      | cons r pairs => exact hinner q (List.mem_cons_of_mem _ hq)
    have hlast' : ∀ q ∈ pairs.getLast?, q.2 = [] ∨ BeginsBlank q.2 := by
      intro q hq
      cases pairs with
      | nil => cases hq
      | cons r pairs =>
        refine hlast q ?_
        rwa [List.getLast?_cons_cons]
    have hrest := ih (fun q hq => hsound q (List.mem_cons_of_mem _ hq))
      (fun q hq => hseparator q (List.mem_cons_of_mem _ hq)) hinner' hlast'
    have hblank : ∀ c, (separator ++ pairs.flatMap (fun p => p.1.text ++ p.2)).head? = some c → isBlank c = true := by
      intro c hc
      have hbegins : separator = [] ∧ pairs = [] ∨ BeginsBlank separator := by
        cases pairs with
        | nil => exact (hlast (l, separator) rfl).imp_left (fun h => ⟨h, rfl⟩)
        | cons q pairs => exact Or.inr (hinner (l, separator) (by simp))
      rcases hbegins with ⟨rfl, rfl⟩ | ⟨d, hd, hb⟩
      · cases hc
      · obtain ⟨tail, rfl⟩ := List.head?_eq_some_iff.mp hd
        obtain rfl := Option.some.inj hc
        exact (isBlank_iff d).mpr hb
    obtain ⟨hends, hbetween⟩ := (hsound (l, separator) (by simp)).ends_before hblank
    rw [List.flatMap_cons, List.append_assoc, lexemes_of_endsBefore hends hbetween,
      lexemes_of_gap ((hseparator (l, separator) (by simp)).gap _), hrest, List.map_cons]

/-! ## Sources -/

/-- A source that does not begin with the mark has the lexemes of its text, and the end of the text behind them. -/
theorem toLexeme_tokenize {source : String} (h : source.toList.head? ≠ some Scanner.byteOrderMark) :
    (tokenize source).tokens.map Token.toLexeme = lexemes source.toList ++ [⟨.eof, none, []⟩] := by
  rw [tokenize, toLexeme_scan, Scanner.rest_ofSource, (markOf_of_head? h).2]

/-- A source without an error token has no diagnostic. -/
theorem diagnostics_of_not_error {source : String} (h : ∀ t ∈ (tokenize source).tokens, t.isError = false) :
    (tokenize source).diagnostics = [] := by
  have hreports := reports_tokenize source
  have hnone : (tokenize source).tokens.filter Token.isError = [] := by
    refine List.filter_eq_nil_iff.mpr (fun t ht => ?_)
    rw [h t ht]
    exact Bool.false_ne_true
  rw [hnone] at hreports
  exact List.forall₂_nil_right_iff.mp hreports

/-- A source that is one sound lexeme is scanned as the token of the lexeme, and nothing is wrong with it. -/
theorem Lexeme.Sound.tokenize_text {l : Lexeme} (h : l.Sound) :
    (tokenize (String.ofList l.text)).tokens =
        [l.toToken .first (Position.first.advance l.text), .eof (Position.first.advance l.text)] ∧
      (tokenize (String.ofList l.text)).diagnostics = [] := by
  have hnothing : ∀ c, ([] : List Char).head? = some c → isBlank c = true := fun c hc => by cases hc
  obtain ⟨hends, hbetween⟩ := h.ends_before hnothing
  have hread := Lexeme.read?_of_endsBefore hends
  rw [List.append_nil] at hbetween hread
  have hmark := markOf_of_head? (s := String.ofList l.text) (by rw [String.toList_ofList]; exact h.head?_ne_mark)
  rw [String.toList_ofList] at hmark
  have hstart : Scanner.ofSource (String.ofList l.text) = ⟨String.ofList l.text, l.text, .first⟩ := by
    rw [ofSource_eq, hmark.1, hmark.2]
    rfl
  have hskip : (⟨String.ofList l.text, l.text, .first⟩ : Scanner).skip = ⟨String.ofList l.text, l.text, .first⟩ := by
    rw [Scanner.skip, Trivia.split_of_not_startsBetween hbetween]
    rfl
  have hkind : l.kind.error? = none := (Kind.error?_eq_none_iff _).mpr h.1
  rw [tokenize, hstart, Scanner.scan_step _ l [] (by rw [hskip]; exact hread), hskip, Scanner.scan_of_nil rfl,
    Scanner.diagnostics_of_none hkind]
  exact ⟨rfl, rfl⟩

/-- Tokens written down with a separator behind each. -/
def written (pairs : List (Token × String)) : String := String.join (pairs.map (fun p => p.1.lexeme ++ p.2))

theorem toList_written (pairs : List (Token × String)) : (written pairs).toList =
    (pairs.map (fun p => (p.1.toLexeme, p.2.toList))).flatMap (fun p => p.1.text ++ p.2) := by
  rw [written, String.toList_join, List.flatMap_map, List.flatMap_map]
  exact congrArg (fun f => List.flatMap f pairs) (funext fun p => String.toList_append)

/-- Tokens that are written with separators between them have their lexemes as those of the text, if they are sound and the
separators are as they should be. -/
theorem lexemes_written {pairs : List (Token × String)} (hsound : ∀ p ∈ pairs, p.1.toLexeme.Sound)
    (hseparator : ∀ p ∈ pairs, Separator p.2.toList) (hinner : ∀ p ∈ pairs.dropLast, BeginsBlank p.2.toList)
    (hlast : ∀ p ∈ pairs.getLast?, p.2 = "" ∨ BeginsBlank p.2.toList) :
    lexemes (written pairs).toList = pairs.map (fun p => p.1.toLexeme) := by
  rw [toList_written, lexemes_separated, List.map_map]
  · rfl
  · exact List.forall_mem_map.mpr hsound
  · exact List.forall_mem_map.mpr hseparator
  · rw [← List.map_dropLast]
    exact List.forall_mem_map.mpr hinner
  · intro q hq
    rw [List.getLast?_map] at hq
    obtain ⟨p, hp, rfl⟩ := Option.map_eq_some_iff.mp hq
    exact (hlast p hp).imp_left (congrArg String.toList)

theorem head?_written {pairs : List (Token × String)} (h : ∀ p ∈ pairs, p.1.toLexeme.Sound) :
    (written pairs).toList.head? ≠ some Scanner.byteOrderMark := by
  rw [toList_written]
  cases pairs with
  | nil =>
    intro hm
    cases hm
  | cons p pairs =>
    have hp := h p List.mem_cons_self
    rw [List.map_cons, List.flatMap_cons, List.append_assoc, List.head?_append_of_ne_nil _ hp.ne_nil]
    exact hp.head?_ne_mark

/-- Tokens that are neither malformed nor the end of the text, wherever they come from, are scanned as they are, in any order
and with any separators between them that begin with a blank. In front of the first of them may stand any separator, and
behind the last of them nothing or one that begins with a blank. No diagnostic is sent. -/
theorem tokenize_separated (first : String) (pairs : List (Token × String))
    (hfound : ∀ p ∈ pairs, ∃ source, p.1 ∈ (tokenize source).tokens)
    (hkind : ∀ p ∈ pairs, p.1.isError = false ∧ p.1.isEof = false)
    (hfirst : Separator first.toList) (hseparator : ∀ p ∈ pairs, Separator p.2.toList)
    (hinner : ∀ p ∈ pairs.dropLast, BeginsBlank p.2.toList)
    (hlast : ∀ p ∈ pairs.getLast?, p.2 = "" ∨ BeginsBlank p.2.toList) :
    (tokenize (first ++ written pairs)).diagnostics = [] ∧
      (tokenize (first ++ written pairs)).tokens.map (fun t => (t.kind, t.lexeme, t.value)) =
        pairs.map (fun p => (p.1.kind, p.1.lexeme, p.1.value)) ++ [(.eof, "", none)] := by
  have hsound : ∀ p ∈ pairs, p.1.toLexeme.Sound := by
    intro p hp
    obtain ⟨source, hm⟩ := hfound p hp
    exact Token.sound_toLexeme hm (hkind p hp).1 (hkind p hp).2
  have hmark : (first ++ written pairs).toList.head? ≠ some Scanner.byteOrderMark := by
    rw [String.toList_append]
    by_cases hn : first.toList = []
    · rw [hn]
      exact head?_written hsound
    · rw [List.head?_append_of_ne_nil _ hn]
      exact hfirst.head?_ne_mark
  have htokens : (tokenize (first ++ written pairs)).tokens.map Token.toLexeme =
      pairs.map (fun p => p.1.toLexeme) ++ [⟨.eof, none, []⟩] := by
    rw [toLexeme_tokenize hmark, String.toList_append, lexemes_of_gap (hfirst.gap _),
      lexemes_written hsound hseparator hinner hlast]
  constructor
  · refine diagnostics_of_not_error (fun t ht => ?_)
    have hm : t.toLexeme ∈ pairs.map (fun p => p.1.toLexeme) ++ [⟨.eof, none, []⟩] :=
      htokens ▸ List.mem_map_of_mem ht
    rcases List.mem_append.mp hm with hm | hm
    · obtain ⟨p, hp, hpt⟩ := List.mem_map.mp hm
      have hk : p.1.kind = t.kind := congrArg Lexeme.kind hpt
      rw [Token.isError, ← hk]
      exact (hkind p hp).1
    · have hk : t.kind = .eof := congrArg Lexeme.kind (List.mem_singleton.mp hm)
      rw [Token.isError, hk]
      rfl
  · have hread : ∀ t : Token, (t.kind, t.lexeme, t.value) =
        (t.toLexeme.kind, String.ofList t.toLexeme.text, t.toLexeme.value) := by
      intro t
      rw [Token.toLexeme, String.ofList_toList]
    have hmap := congrArg (List.map (fun l : Lexeme => (l.kind, String.ofList l.text, l.value))) htokens
    rw [List.map_append, List.map_map, List.map_map] at hmap
    simp only [hread]
    exact hmap

/-- A slash and a string literal, from two sources, with a block comment in front of both, another one between them that goes
on to its first closing mark, and a line comment behind them. -/
theorem tokenize_separated_slash :
    let slash : Token := ⟨.operator .slash, "/", 1, 2, ⟨1, 2⟩, none⟩
    let tab : Token := ⟨.literal .string, "\"\\t\"", 1, 3, ⟨2, 6⟩, some (.string "\t")⟩
    let pairs := [(slash, " /*/**/"), (tab, "\r// \"\n")]
    (slash ∈ (tokenize "6/2").tokens ∧ tab ∈ (tokenize "x=\"\\t\"").tokens) ∧
      (Separator "/**/".toList ∧ ∀ p ∈ pairs, Separator p.2.toList ∧ BeginsBlank p.2.toList) ∧
      (tokenize ("/**/" ++ written pairs)).diagnostics = [] ∧
      (tokenize ("/**/" ++ written pairs)).tokens.map (fun t => (t.kind, t.lexeme, t.value)) =
        pairs.map (fun p => (p.1.kind, p.1.lexeme, p.1.value)) ++ [(.eof, "", none)] := by
  intro slash tab pairs
  have hslash : slash ∈ (tokenize "6/2").tokens := by decide +kernel
  have htab : tab ∈ (tokenize "x=\"\\t\"").tokens := by decide +kernel
  have hfirst : Separator "/**/".toList := @Separator.blockComment [] [] (by decide) Separator.nil
  have hblock : Separator " /*/**/".toList ∧ BeginsBlank " /*/**/".toList :=
    ⟨Separator.blank (by decide) (@Separator.blockComment ['/', '*'] [] (by decide) Separator.nil), ' ', by decide⟩
  have hline : Separator "\r// \"\n".toList ∧ BeginsBlank "\r// \"\n".toList := by
    have hfeed : Separator ['\n'] := Separator.blank (by decide) Separator.nil
    have hcomment := @Separator.lineComment [' ', '"'] [] '\n' (by simp) (by decide) hfeed
    exact ⟨Separator.blank (by decide) hcomment, '\r', by decide⟩
  have hseparator : ∀ p ∈ pairs, Separator p.2.toList ∧ BeginsBlank p.2.toList :=
    List.forall_mem_cons.mpr ⟨hblock, List.forall_mem_cons.mpr ⟨hline, List.forall_mem_nil _⟩⟩
  refine ⟨⟨hslash, htab⟩, ⟨hfirst, hseparator⟩, tokenize_separated "/**/" pairs ?_ ?_ hfirst ?_ ?_ ?_⟩
  · exact List.forall_mem_cons.mpr ⟨⟨_, hslash⟩, List.forall_mem_cons.mpr ⟨⟨_, htab⟩, List.forall_mem_nil _⟩⟩
  · exact List.forall_mem_cons.mpr ⟨⟨rfl, rfl⟩, List.forall_mem_cons.mpr ⟨⟨rfl, rfl⟩, List.forall_mem_nil _⟩⟩
  · exact fun p hp => (hseparator p hp).1
  · exact fun p hp => (hseparator p (List.dropLast_subset _ hp)).2
  · exact fun p hp => Or.inr (hseparator p (List.mem_of_getLast? hp)).2

end MiniLex
