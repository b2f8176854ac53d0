import Mathlib.Data.List.Basic
import MiniLex.Proofs.Counted
import MiniLex.Proofs.Lookahead
import MiniLex.Proofs.Session

/-!
# Listings are unambiguous

Nothing in a listing is escaped, neither lexemes nor the values of strings, and still two sources with the same listing have
the same tokens in the same lines and columns (`listing_eq_iff`). An entry can be told from what comes behind it: the numbers
and the name of the kind hold no blank, and the lexeme is delimited by its own shape (`Lexeme.text_eq_of_entry`). A lexeme
settles its value and its kind, except that a string literal which breaks off looks like one that goes on to the end of the
text (`Lexeme.kind_value_of_text`). Those two are told apart by the line of the entry behind them
(`Scanner.line_behind_ne`), as long as the count of lines has not come round to the same number between the two.
-/

namespace MiniLex

open Grammar

/-! ## The text of a listing -/

/-- Texts that agree are cut alike at the first of a character that neither has in front of it. -/
theorem append_cons_inj {c : Char} {as bs xs ys : List Char} (ha : c ∉ as) (hb : c ∉ bs)
    (h : as ++ c :: xs = bs ++ c :: ys) : as = bs ∧ xs = ys := by
  have hstop : ∀ zs d, (c :: zs).head? = some d → (d != c) = false := by
    intro zs d hd
    obtain rfl : c = d := by simpa using hd
    simp
  have htake : ∀ {es : List Char}, c ∉ es → ∀ d ∈ es, (d != c) = true := by
    intro es he d hd
    rw [bne_iff_ne]
    rintro rfl
    exact he hd
  refine ⟨?_, ?_⟩
  · rw [← takeWhile_append_of_stop (htake ha) (hstop xs), h, takeWhile_append_of_stop (htake hb) (hstop ys)]
  · have hdrop := dropWhile_append_of_stop (htake ha) (hstop xs)
    rw [h, dropWhile_append_of_stop (htake hb) (hstop ys)] at hdrop
    exact (List.cons.inj hdrop).2.symm

/-- A number is written in digits. -/
theorem isDigit_of_mem_toString {n : Nat} {c : Char} (h : c ∈ (toString n).toList) : c.isDigit = true := by
  rw [Nat.toString_eq_repr, Nat.toList_repr] at h
  exact Nat.isDigit_of_mem_toDigits (by decide) (by decide) h

theorem notMem_toString {c : Char} (h : c.isDigit = false) (n : Nat) : c ∉ (toString n).toList := by
  intro hm
  rw [isDigit_of_mem_toString hm] at h
  cases h

/-- A number can be read back. -/
theorem eq_of_toList_toString {n m : Nat} (h : (toString n).toList = (toString m).toList) : n = m := by
  rw [Nat.toString_eq_repr, Nat.toString_eq_repr, Nat.toList_repr, Nat.toList_repr] at h
  have hn := congrArg (fun digits => Nat.ofDigitChars 10 digits 0) h
  rwa [Nat.ofDigitChars_ten_toDigits, Nat.ofDigitChars_ten_toDigits] at hn

theorem blank_notMem_name (k : Kind) : ' ' ∉ k.name.toList := by
  cases k with
  | literal l => cases l <;> decide
  | keyword k => cases k <;> decide
  | operator o => cases o <;> decide
  | delimiter d => cases d <;> decide
  | identifier => decide
  | eof => decide
  | error e => exact (by decide : ' ' ∉ "ERROR".toList)

/-- The end of the text has a name of its own. -/
theorem eq_eof_of_name {k : Kind} (h : k.name = "EOF") : k = .eof := by
  cases k with
  | literal l => cases l <;> exact absurd h (by decide)
  | keyword k => cases k <;> exact absurd h (by decide)
  | operator o => cases o <;> exact absurd h (by decide)
  | delimiter d => cases d <;> exact absurd h (by decide)
  | identifier => exact absurd h (by decide)
  | eof => rfl
  | error e => exact absurd h (by decide : "ERROR" ≠ "EOF")

/-- What an entry says of a value, behind the lexeme. -/
def valueText : Option Value → List Char
  | none => []
  | some v => ' ' :: v.render.toList

theorem toList_render (t : Token) : t.render.toList = (toString t.line.toNat).toList ++ ':' ::
    ((toString t.column.toNat).toList ++ ' ' :: (t.kind.name.toList ++
      ' ' :: '"' :: (t.lexeme.toList ++ '"' :: valueText t.value))) := by
  unfold Token.render
  cases t.value with
  | none => simp [valueText]
  | some v => simp [valueText]

/-- Entries, each behind a line feed. -/
def entries (ts : List Token) : List Char := ts.flatMap (fun t => '\n' :: t.render.toList)

theorem entries_cons (t : Token) (ts : List Token) : entries (t :: ts) = '\n' :: (t.render.toList ++ entries ts) := by
  rw [entries, List.flatMap_cons]
  rfl

/-- A listing of tokens is their entries without the first line feed. -/
theorem entries_eq {ts : List Token} (h : ts ≠ []) : entries ts = '\n' :: (Listing.ofTokens ts).render.toList := by
  obtain ⟨t, ts, rfl⟩ := List.exists_cons_of_ne_nil h
  rw [Listing.render, String.toList_intercalate, Listing.ofTokens, List.map_map]
  clear h
  induction ts generalizing t with
  | nil => simp [entries]
  | cons u ts ih =>
    rw [entries_cons, ih u]
    simp

/-- Where two entries agree together with what comes behind them, they agree in line, column and name, and in what they say
behind the name. -/
theorem eq_of_render_append {t t' : Token} {xs ys : List Char} (h : t.render.toList ++ xs = t'.render.toList ++ ys) :
    t.line = t'.line ∧ t.column = t'.column ∧ t.kind.name = t'.kind.name ∧
      t.lexeme.toList ++ '"' :: (valueText t.value ++ xs) = t'.lexeme.toList ++ '"' :: (valueText t'.value ++ ys) := by
  simp only [toList_render, List.append_assoc, List.cons_append] at h
  obtain ⟨hline, h⟩ := append_cons_inj (notMem_toString rfl _) (notMem_toString rfl _) h
  obtain ⟨hcolumn, h⟩ := append_cons_inj (notMem_toString rfl _) (notMem_toString rfl _) h
  obtain ⟨hname, h⟩ := append_cons_inj (blank_notMem_name _) (blank_notMem_name _) h
  exact ⟨UInt32.toNat_inj.mp (eq_of_toList_toString hline), UInt32.toNat_inj.mp (eq_of_toList_toString hcolumn),
    String.toList_inj.mp hname, (List.cons.inj h).2⟩

/-! ## The lexeme of an entry -/

theorem Grammar.Units.append {cs ds : List Char} (h : Units cs) (hd : Units ds) : Units (cs ++ ds) := by
  induction h with
  | nil => exact hd
  | plain h1 h2 h3 h4 _ ih => exact Units.plain h1 h2 h3 h4 ih
  | escapedBreak _ ih => exact Units.escapedBreak ih
  | escaped _ ih => exact Units.escaped ih

/-- A literal that is not closed is closed by the quote behind it in an entry, or that quote is escaped and the end of the entry
breaks the literal off. -/
theorem Quoted.split_entry {body : List Char} (h : Units body ∨ Units (body ++ ['"'])) (xs : List Char) :
    split (body ++ '"' :: '\n' :: xs) = ⟨body, .quote, '\n' :: xs⟩ ∨
      split (body ++ '"' :: '\n' :: xs) = ⟨body ++ ['"'], .lineBreak, '\n' :: xs⟩ := by
  rcases h with hu | hu
  · exact Or.inl (split_units _ hu)
  · have hcut : Uncut (body ++ ['"']) ('\n' :: xs) := by simp [Uncut]
    have hs := split_units_break hu (Or.inr rfl) hcut
    rw [List.append_assoc, List.singleton_append] at hs
    exact Or.inr hs

namespace Lexeme

variable {l l' : Lexeme} {rest rest' : List Char}

/-- A lexeme holds no quote, or it is a string literal, or one that is not closed. With the quote behind it in an entry the
last of these looks closed, unless it ends in a backslash that is left over. -/
theorem EndsBefore.quote_cases (h : l.EndsBefore rest) : '"' ∉ l.text ∨
    (l.kind = .literal .string ∧ ∃ body, l.text = '"' :: (body ++ ['"']) ∧ Units body) ∨
    (l.kind.name = "ERROR" ∧ l.value = none ∧ ∃ body, l.text = '"' :: body ∧ (Units body ∨ Units (body ++ ['"']))) := by
  rcases h.plain_or_quoted with ⟨hplain, -⟩ | ⟨body, hu, rfl⟩ | ⟨body, _, _, hu, rfl, -⟩ | ⟨body, hs, rfl, -⟩
  · exact Or.inl hplain.1
  · exact Or.inr (Or.inl ⟨rfl, body, rfl, hu⟩)
  · exact Or.inr (Or.inr ⟨rfl, rfl, body, rfl, Or.inl hu⟩)
  · refine Or.inr (Or.inr ⟨rfl, rfl, body, rfl, ?_⟩)
    obtain ⟨units, dangling, hb, hu, hd⟩ := Quoted.units_split body
    rw [hs] at hb
    obtain rfl : body = units ++ dangling := hb
    rcases hd with rfl | ⟨rfl, -⟩
    · rw [List.append_nil]
      exact Or.inl hu
    · rw [List.append_assoc]
      exact Or.inr (hu.append (Units.escaped Units.nil))

theorem EndsBefore.text_append_ne (h : l.EndsBefore rest) (hq : '"' ∉ l.text) (xs ys : List Char) :
    l.text ++ xs ≠ '"' :: ys := by
  intro he
  obtain ⟨c, cs, ht⟩ := List.exists_cons_of_ne_nil (text_ne_nil_of_read? _ _ _ (read?_of_endsBefore h))
  rw [ht] at he hq
  obtain rfl := (List.cons.inj he).1
  exact hq List.mem_cons_self

/-- Where two lexemes agree together with the quote behind them and what an entry says after it, they have the same text. -/
theorem text_eq_of_entry (h : l.EndsBefore rest) (h' : l'.EndsBefore rest') (hname : l.kind.name = l'.kind.name)
    {xs ys : List Char} (ht : l.text ++ '"' :: (valueText l.value ++ '\n' :: xs) =
      l'.text ++ '"' :: (valueText l'.value ++ '\n' :: ys)) : l.text = l'.text := by
  rcases h.quote_cases with hq | ⟨hk, body, hb, hu⟩ | ⟨hk, hv, body, hb, hu⟩ <;>
    rcases h'.quote_cases with hq' | ⟨hk', body', hb', hu'⟩ | ⟨hk', hv', body', hb', hu'⟩
  · exact (append_cons_inj hq hq' ht).1
  · rw [hb'] at ht
    exact absurd ht (h.text_append_ne hq _ _)
  · rw [hb'] at ht
    exact absurd ht (h.text_append_ne hq _ _)
  · rw [hb] at ht
    exact absurd ht.symm (h'.text_append_ne hq' _ _)
  · rw [hb, hb'] at ht ⊢
    simp only [List.cons_append, List.append_assoc, List.nil_append, List.cons.injEq, true_and] at ht
    have hs := congrArg Quoted.split ht
    rw [Quoted.split_units _ hu, Quoted.split_units _ hu'] at hs
    rw [(Quoted.Split.mk.inj hs).1]
  · rw [hk, hk'] at hname
    exact absurd hname (by decide)
  · rw [hb] at ht
    exact absurd ht.symm (h'.text_append_ne hq' _ _)
  · rw [hk, hk'] at hname
    exact absurd hname (by decide)
  · rw [hb, hb', hv, hv'] at ht
    rw [hb, hb']
    simp only [List.cons_append, valueText, List.nil_append, List.cons.injEq, true_and] at ht
    have hs := congrArg Quoted.split ht
    rcases Quoted.split_entry hu xs with ho | ho <;> rcases Quoted.split_entry hu' ys with ho' | ho' <;> rw [ho, ho'] at hs
    · rw [(Quoted.Split.mk.inj hs).1]
    · cases (Quoted.Split.mk.inj hs).2.1
    · cases (Quoted.Split.mk.inj hs).2.1
    · rw [List.append_cancel_right (Quoted.Split.mk.inj hs).1]

/-- A lexeme as it is read with nothing behind it: a string literal that breaks off goes on to the end of the text then. -/
def alone (l : Lexeme) : Lexeme :=
  if l.kind = .error .brokenString then ⟨.error .endlessString, l.value, l.text⟩ else l

theorem value_alone (l : Lexeme) : l.alone.value = l.value := by
  unfold alone
  split <;> rfl

/-- The text of a lexeme is read as the lexeme where nothing comes behind it. -/
theorem EndsBefore.read?_alone (h : l.EndsBefore rest) : read? l.text = some (l.alone, []) := by
  unfold alone
  split
  · next hk =>
    obtain ⟨body, -, -, hb, hv, hu, -⟩ := h.of_broken hk
    have he : EndsBefore ⟨.error .endlessString, none, '"' :: body⟩ [] := by
      refine EndsBefore.endless ?_
      have hs := Quoted.split_units_end hu (Or.inl rfl)
      rwa [List.append_nil] at hs
    have hread := read?_of_endsBefore he
    rw [List.append_nil] at hread
    rw [hb, hv]
    exact hread
  · next hk =>
    have he : l.EndsBefore [] := by
      by_cases hend : l.kind = .error .endlessString
      · rwa [h.eq_nil_of_endless hend] at h
      · exact h.of_glimpse (List.nil_prefix) (fun hb => absurd hb hk) hend
    have hread := read?_of_endsBefore he
    rwa [List.append_nil] at hread

/-- The text of a lexeme settles its value, and its kind but for how a string literal that is not closed ends. -/
theorem kind_value_of_text (h : l.EndsBefore rest) (h' : l'.EndsBefore rest') (ht : l.text = l'.text) :
    l.value = l'.value ∧ (l.kind = l'.kind ∨
      (l.kind = .error .brokenString ∧ l'.kind = .error .endlessString) ∨
      (l.kind = .error .endlessString ∧ l'.kind = .error .brokenString)) := by
  have ha : l.alone = l'.alone := by
    have hread := h.read?_alone
    rw [ht, h'.read?_alone] at hread
    exact (congrArg Prod.fst (Option.some.inj hread)).symm
  refine ⟨by rw [← l.value_alone, ha, l'.value_alone], ?_⟩
  have hkind := congrArg kind ha
  unfold alone at hkind
  by_cases hk : l.kind = .error .brokenString
  · by_cases hk' : l'.kind = .error .brokenString
    · exact Or.inl (hk.trans hk'.symm)
    · rw [if_pos hk, if_neg hk'] at hkind
      exact Or.inr (Or.inl ⟨hk, hkind.symm⟩)
  · by_cases hk' : l'.kind = .error .brokenString
    · rw [if_neg hk, if_pos hk'] at hkind
      exact Or.inr (Or.inr ⟨hkind, hk'⟩)
    · rw [if_neg hk, if_neg hk'] at hkind
      exact Or.inl hkind

end Lexeme

/-! ## Two scans with the same entries -/

/-- Kinds that have one lexeme: they are the same, or the one is a string literal that breaks off and the other one that goes on
to the end of the text. -/
def Kind.Alike (k k' : Kind) : Prop :=
  k = k' ∨ (k = .error .brokenString ∧ k' = .error .endlessString) ∨ (k = .error .endlessString ∧ k' = .error .brokenString)

/-- Two tokens agree in everything that an entry shows. -/
structure Token.SameEntry (t t' : Token) : Prop where
  kind : t.kind.Alike t'.kind
  lexeme : t.lexeme = t'.lexeme
  line : t.line = t'.line
  column : t.column = t'.column
  value : t.value = t'.value

/-- Two tokens agree in everything but the bytes that they cover. -/
structure Token.SameContent (t t' : Token) : Prop where
  kind : t.kind = t'.kind
  lexeme : t.lexeme = t'.lexeme
  line : t.line = t'.line
  column : t.column = t'.column
  value : t.value = t'.value

/-- All errors have one name. -/
theorem Kind.Alike.name {k k' : Kind} (h : k.Alike k') : k.name = k'.name := by
  rcases h with rfl | ⟨rfl, rfl⟩ | ⟨rfl, rfl⟩ <;> rfl

theorem Token.SameEntry.render {t t' : Token} (h : t.SameEntry t') : t.render = t'.render := by
  unfold Token.render
  rw [h.kind.name, h.lexeme, h.line, h.column, h.value]

theorem Token.SameContent.sameEntry {t t' : Token} (h : t.SameContent t') : t.SameEntry t' :=
  ⟨Or.inl h.kind, h.lexeme, h.line, h.column, h.value⟩

namespace Scanner

variable {s s' : Scanner} {l l' : Lexeme} {rest rest' : List Char}

theorem tokens_scan_cons (s : Scanner) : ∃ t ts, s.scan.tokens = t :: ts := by
  cases hl : Lexeme.read? s.skip.rest with
  | none =>
    rw [scan_stop s ((Lexeme.read?_eq_none_iff _).mp hl)]
    exact ⟨_, [], rfl⟩
  | some found =>
    obtain ⟨l, rest⟩ := found
    rw [scan_step s l rest hl]
    exact ⟨_, _, rfl⟩

/-- Behind a string literal that breaks off the gap has a line break. -/
theorem lineBreaks_gap_behind_pos (hl : Lexeme.read? s.rest = some (l, rest)) (hk : l.kind = .error .brokenString) :
    0 < lineBreaks (s.behind l rest).gap := by
  obtain ⟨-, c, tail, -, -, -, rfl, hc⟩ := (Lexeme.endsBefore_of_read? hl).of_broken hk
  have hgap := (s.behind l (c :: tail)).gap_append_skip
  cases hg : (s.behind l (c :: tail)).gap with
  | nil =>
    rw [hg, List.nil_append] at hgap
    refine absurd (Or.inl ⟨[c], tail, hgap, Piece.blank ?_⟩) (s.behind l (c :: tail)).not_startsBetween_skip
    exact Or.inr (Or.inr hc)
  | cons d gap =>
    rw [hg] at hgap
    obtain rfl : d = c := (List.cons.inj hgap).1
    exact lineBreaks_pos List.mem_cons_self ((isBreak_iff d).mpr hc)

/-- Behind a string literal that goes on to the end of the text the scanner stays in its line. -/
theorem skip_behind_of_endless (hl : Lexeme.read? s.rest = some (l, rest)) (hk : l.kind = .error .endlessString) :
    (s.behind l rest).skip = s.behind l rest :=
  skip_of_nil ((Lexeme.endsBefore_of_read? hl).eq_nil_of_endless hk)

/-- A text has the line breaks of its gap and those behind it. -/
theorem lineBreaks_gap_add (s : Scanner) : lineBreaks s.gap + lineBreaks s.skip.rest = lineBreaks s.rest := by
  rw [← s.seam_gap.uncut.lineBreaks_append, gap_append_skip]

/-- Behind a lexeme there are no more line breaks than in front of its gap. -/
theorem lineBreaks_behind_le (hl : Lexeme.read? s.skip.rest = some (l, rest)) : lineBreaks rest ≤ lineBreaks s.rest := by
  rw [← gap_append_text hl, ← List.append_assoc]
  exact lineBreaks_le_append _ _

/-- The two ways in which a string literal is not closed are told apart by the line of the token behind it, if there are not
too many lines. -/
theorem line_behind_ne (hl : Lexeme.read? s.rest = some (l, rest)) (hl' : Lexeme.read? s'.rest = some (l', rest'))
    (hp : (s.behind l rest).position.line = (s'.behind l' rest').position.line) (hk : l.kind = .error .brokenString)
    (hk' : l'.kind = .error .endlessString) (hcount : lineBreaks rest < UInt32.size) :
    (s.behind l rest).skip.position.line ≠ (s'.behind l' rest').skip.position.line := by
  have hpos := lineBreaks_gap_behind_pos hl hk
  have hgap : lineBreaks (s.behind l rest).gap + _ = lineBreaks rest := (s.behind l rest).lineBreaks_gap_add
  have hskip : (s.behind l rest).skip.position.line =
      (s.behind l rest).position.line + .ofNat (lineBreaks (s.behind l rest).gap) := line_advance _ _
  rw [skip_behind_of_endless hl' hk', hskip, ← hp]
  exact add_ofNat_ne hpos (by omega)

/-- The entry of the end of the text is not that of a lexeme. -/
theorem render_eof_ne (hl : Lexeme.read? s.rest = some (l, rest)) (p : Position) (xs ys : List Char) :
    (Token.eof p).render.toList ++ xs ≠ (s.stepOver l rest).token.render.toList ++ ys := by
  intro h
  obtain ⟨-, -, hname, -⟩ := eq_of_render_append h
  have heof : l.kind = .eof := eq_eof_of_name hname.symm
  have hn := Lexeme.isEof_of_read? _ _ _ hl
  rw [heof] at hn
  cases hn

/-- Two scanners go alongside: they stop together, or read lexemes with one text, in the same places. -/
inductive Alongside : Scanner → Scanner → Prop where
  | stop {s s' : Scanner} : s.skip.rest = [] → s'.skip.rest = [] → s.skip.position.line = s'.skip.position.line →
      s.skip.position.column = s'.skip.position.column → Alongside s s'
  | step {s s' : Scanner} {l l' : Lexeme} {rest rest' : List Char} : Lexeme.read? s.skip.rest = some (l, rest) →
      Lexeme.read? s'.skip.rest = some (l', rest') → s.skip.position.line = s'.skip.position.line →
      s.skip.position.column = s'.skip.position.column → l.text = l'.text →
      Alongside (s.skip.behind l rest) (s'.skip.behind l' rest') → Alongside s s'

/-- Scanners whose scans have the same entries go alongside. -/
theorem alongside_of_entries (s : Scanner) : ∀ s' : Scanner, entries s.scan.tokens = entries s'.scan.tokens →
    Alongside s s' := by
  induction s using scan_induction with
  | stop s hs =>
    intro s' h
    cases hl' : Lexeme.read? s'.skip.rest with
    | none =>
      have hs' := (Lexeme.read?_eq_none_iff _).mp hl'
      rw [scan_stop s' hs', entries_cons, entries_cons] at h
      obtain ⟨hline, hcolumn, -⟩ := eq_of_render_append (List.cons.inj h).2
      exact Alongside.stop hs hs' hline hcolumn
    | some found =>
      obtain ⟨l', rest'⟩ := found
      rw [scan_step s' l' rest' hl', Scan.cons, entries_cons, entries_cons] at h
      exact absurd (List.cons.inj h).2 (render_eof_ne hl' _ _ _)
  | step s l rest hl ih =>
    intro s' h
    cases hl' : Lexeme.read? s'.skip.rest with
    | none =>
      rw [scan_stop s' ((Lexeme.read?_eq_none_iff _).mp hl'), Scan.cons, entries_cons, entries_cons] at h
      exact absurd (List.cons.inj h).2.symm (render_eof_ne hl _ _ _)
    | some found =>
      obtain ⟨l', rest'⟩ := found
      rw [scan_step s' l' rest' hl', Scan.cons, Scan.cons, entries_cons, entries_cons] at h
      obtain ⟨hline, hcolumn, hname, hbehind⟩ := eq_of_render_append (List.cons.inj h).2
      have hends := Lexeme.endsBefore_of_read? hl
      have hends' := Lexeme.endsBefore_of_read? hl'
      -- the lexemes agree, and with them the values and what comes behind the entries
      have htext : l.text = l'.text := by
        obtain ⟨t, ts, hts⟩ := tokens_scan_cons (s.skip.behind l rest)
        obtain ⟨t', ts', hts'⟩ := tokens_scan_cons (s'.skip.behind l' rest')
        rw [hts, hts', entries_cons, entries_cons] at hbehind
        simp only [stepOver, Lexeme.toToken, String.toList_ofList] at hbehind
        exact Lexeme.text_eq_of_entry hends hends' hname hbehind
      obtain ⟨hvalue, -⟩ := Lexeme.kind_value_of_text hends hends' htext
      have htail : entries (s.skip.behind l rest).scan.tokens = entries (s'.skip.behind l' rest').scan.tokens := by
        simp only [stepOver, Lexeme.toToken, String.toList_ofList, htext, hvalue] at hbehind
        exact List.append_cancel_left (List.cons.inj (List.append_cancel_left hbehind)).2
      exact Alongside.step hl hl' hline hcolumn htext (ih _ htail)

namespace Alongside

/-- Scanners that go alongside have their next tokens in one line. -/
theorem line_skip (h : Alongside s s') : s.skip.position.line = s'.skip.position.line := by
  cases h with
  | stop _ _ hline _ => exact hline
  | step _ _ hline _ _ _ => exact hline

/-- Scanners that go alongside have tokens with the same entries. -/
theorem sameEntry (h : Alongside s s') : List.Forall₂ Token.SameEntry s.scan.tokens s'.scan.tokens := by
  induction h with
  | stop hs hs' hline hcolumn =>
    rw [scan_stop _ hs, scan_stop _ hs']
    exact List.Forall₂.cons ⟨Or.inl rfl, rfl, hline, hcolumn, rfl⟩ List.Forall₂.nil
  | step hl hl' hline hcolumn htext _ ih =>
    obtain ⟨hvalue, hkind⟩ :=
      Lexeme.kind_value_of_text (Lexeme.endsBefore_of_read? hl) (Lexeme.endsBefore_of_read? hl') htext
    rw [scan_step _ _ _ hl, scan_step _ _ _ hl']
    exact List.Forall₂.cons ⟨hkind, congrArg String.ofList htext, hline, hcolumn, hvalue⟩ ih

/-- Scanners that go alongside have tokens that agree in everything but the bytes that they cover, if neither text has too
many lines. -/
theorem sameContent (h : Alongside s s') (hcount : lineBreaks s.rest < UInt32.size)
    (hcount' : lineBreaks s'.rest < UInt32.size) : List.Forall₂ Token.SameContent s.scan.tokens s'.scan.tokens := by
  induction h with
  | stop hs hs' hline hcolumn =>
    rw [scan_stop _ hs, scan_stop _ hs']
    exact List.Forall₂.cons ⟨rfl, rfl, hline, hcolumn, rfl⟩ List.Forall₂.nil
  | @step s s' l l' rest rest' hl hl' hline hcolumn htext hbehind ih =>
    have hrest := lineBreaks_behind_le hl
    have hrest' := lineBreaks_behind_le hl'
    have htail := ih (Nat.lt_of_le_of_lt hrest hcount) (Nat.lt_of_le_of_lt hrest' hcount')
    obtain ⟨hvalue, hkinds⟩ :=
      Lexeme.kind_value_of_text (Lexeme.endsBefore_of_read? hl) (Lexeme.endsBefore_of_read? hl') htext
    -- a string literal that breaks off is not one that goes on to the end of the text: the next tokens are in one line
    have hposition : (s.skip.behind l rest).position.line = (s'.skip.behind l' rest').position.line := by
      rw [behind, behind, htext]
      exact (line_column_advance hline hcolumn l'.text).1
    have hkind : l.kind = l'.kind := by
      rcases hkinds with hk | ⟨hk, hk'⟩ | ⟨hk, hk'⟩
      · exact hk
      · exact absurd hbehind.line_skip (line_behind_ne hl hl' hposition hk hk' (Nat.lt_of_le_of_lt hrest hcount))
      · exact absurd hbehind.line_skip.symm
          (line_behind_ne hl' hl hposition.symm hk' hk (Nat.lt_of_le_of_lt hrest' hcount'))
    rw [scan_step _ _ _ hl, scan_step _ _ _ hl']
    exact List.Forall₂.cons ⟨hkind, congrArg String.ofList htext, hline, hcolumn, hvalue⟩ htail

end Alongside

end Scanner

/-! ## Listings -/

/-- Tokens that agree in what an entry shows have the same listing. -/
theorem Listing.render_congr {ts ts' : List Token} (h : List.Forall₂ Token.SameEntry ts ts') :
    (Listing.ofTokens ts).render = (Listing.ofTokens ts').render := by
  have hmap : ts.map Token.render = ts'.map Token.render := by
    induction h with
    | nil => rfl
    | cons ht _ ih => rw [List.map_cons, List.map_cons, ht.render, ih]
  rw [render, render, ofTokens, ofTokens, hmap]

/-- A scan that comes to an end where counts are checked has the listing of any scan. -/
theorem Listing.ofSource?_eq_some {σ : Type} {sink : Sink σ} {state : σ} {source : String} {made : Listing × σ} :
    ofSource? sink state source = some made ↔ tokenize? source = some (tokenize source) ∧ made = ofSource sink state source := by
  rw [ofSource?, Option.map_eq_some_iff]
  constructor
  · rintro ⟨scan, hscan, rfl⟩
    obtain ⟨rfl, -⟩ := eq_of_tokenize? hscan
    exact ⟨hscan, rfl⟩
  · rintro ⟨hscan, rfl⟩
    exact ⟨_, hscan, rfl⟩

/-- Scanners of two sources with one listing go alongside. -/
theorem alongside_of_render {source source' : String}
    (h : (Listing.ofTokens (tokenize source).tokens).render = (Listing.ofTokens (tokenize source').tokens).render) :
    Scanner.Alongside (.ofSource source) (.ofSource source') := by
  have hne : ∀ s : Scanner, s.scan.tokens ≠ [] := by
    intro s
    obtain ⟨t, ts, hts⟩ := s.tokens_scan_cons
    rw [hts]
    exact List.cons_ne_nil t ts
  refine Scanner.alongside_of_entries _ _ ?_
  rw [entries_eq (hne _), entries_eq (hne _)]
  exact congrArg (fun listing => '\n' :: listing.toList) h

/-- Two sources that have fewer line breaks than there are numbers have one listing exactly if their tokens agree. -/
theorem render_eq_iff_of_lineBreaks {source source' : String} (hcount : lineBreaks source.toList < UInt32.size)
    (hcount' : lineBreaks source'.toList < UInt32.size) :
    (Listing.ofTokens (tokenize source).tokens).render = (Listing.ofTokens (tokenize source').tokens).render ↔
      List.Forall₂ Token.SameContent (tokenize source).tokens (tokenize source').tokens := by
  constructor
  · intro h
    refine (alongside_of_render h).sameContent ?_ ?_
    · rwa [Scanner.rest_ofSource, ← lineBreaks_toList]
    · rwa [Scanner.rest_ofSource, ← lineBreaks_toList]
  · intro h
    exact Listing.render_congr (h.imp (fun _ _ => Token.SameContent.sameEntry))

end MiniLex
