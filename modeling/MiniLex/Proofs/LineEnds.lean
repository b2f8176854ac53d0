import Mathlib.Data.List.Basic
import MiniLex.Proofs.Transfer

/-!
# Line ends and the byte-order mark

How the lines of a source end makes no difference to what it is read as: with every line break written as a line feed, and
without the mark it may begin with, a source has the same tokens and the same diagnostics in the same lines and columns
(`tokenize_normalized`). What stands between tokens stays what it is (`Grammar.Gap.respelled`), every lexeme is read
again with its own line breaks written so (`Lexeme.EndsBefore.respelled`), and a stretch of text leads as many lines and
columns on (`advance_withLineFeeds`). So the two scans go side by side.
-/

namespace MiniLex

open Grammar

/-! ## Texts with line feeds only -/

/-- A text with every line break written as a line feed, be it a carriage return, with a line feed behind it or without. -/
def withLineFeeds : List Char → List Char
  | [] => []
  | '\r' :: '\n' :: cs => '\n' :: withLineFeeds cs
  | c :: cs => (if c = '\r' then '\n' else c) :: withLineFeeds cs

theorem withLineFeeds_return_lineFeed (cs : List Char) : withLineFeeds ('\r' :: '\n' :: cs) = withLineFeeds ('\n' :: cs) := by
  rw [withLineFeeds, withLineFeeds.eq_3 _ _ (by simp), if_neg (by decide)]

theorem withLineFeeds_return {cs : List Char} (h : cs.head? ≠ some '\n') :
    withLineFeeds ('\r' :: cs) = '\n' :: withLineFeeds cs := by
  rw [withLineFeeds.eq_3, if_pos rfl]
  rintro tail - rfl
  exact h rfl

theorem withLineFeeds_cons {c : Char} (h : c ≠ '\r') (cs : List Char) : withLineFeeds (c :: cs) = c :: withLineFeeds cs := by
  rw [withLineFeeds.eq_3, if_neg h]
  rintro tail rfl
  exact absurd rfl h

/-- The ways in which a text can begin: it is empty, or it begins with a carriage return in front of its line feed, with one
that has none, or with another character. -/
theorem withLineFeeds_induction {motive : List Char → Prop} (nil : motive [])
    (both : ∀ cs, motive ('\n' :: cs) → motive ('\r' :: '\n' :: cs))
    (lone : ∀ cs, cs.head? ≠ some '\n' → motive cs → motive ('\r' :: cs))
    (other : ∀ c cs, c ≠ '\r' → motive cs → motive (c :: cs)) (cs : List Char) : motive cs := by
  induction cs with
  | nil => exact nil
  | cons c cs ih =>
    by_cases hc : c = '\r'
    · subst hc
      by_cases hn : cs.head? = some '\n'
      · obtain ⟨tail, rfl⟩ := List.head?_eq_some_iff.mp hn
        exact both tail ih
      · exact lone cs hn ih
    · exact other c cs hc ih

/-- The first character becomes a line feed if it is a carriage return. -/
theorem head?_withLineFeeds (cs : List Char) :
    (withLineFeeds cs).head? = cs.head?.map (fun c => if c = '\r' then '\n' else c) := by
  induction cs using withLineFeeds_induction with
  | nil => rfl
  | both cs ih => rw [withLineFeeds_return_lineFeed, ih]; rfl
  | lone cs hn _ => rw [withLineFeeds_return hn]; rfl
  | other c cs hc _ => rw [withLineFeeds_cons hc, List.head?_cons, List.head?_cons, Option.map_some, if_neg hc]

/-- A line break becomes a line feed. -/
theorem exists_lineFeed {c : Char} (hc : c = '\r' ∨ c = '\n') (cs : List Char) :
    ∃ tail, withLineFeeds (c :: cs) = '\n' :: tail := by
  refine List.head?_eq_some_iff.mp ?_
  rw [head?_withLineFeeds]
  rcases hc with rfl | rfl <;> rfl

/-- A character other than a line feed that comes first in a text with line feeds comes first in the text itself. -/
theorem head?_of_withLineFeeds {cs : List Char} {c : Char} (hc : c ≠ '\n') (h : (withLineFeeds cs).head? = some c) :
    cs.head? = some c := by
  rw [head?_withLineFeeds] at h
  obtain ⟨d, hd, he⟩ := Option.map_eq_some_iff.mp h
  split at he
  · exact absurd he.symm hc
  · rw [hd, he]

theorem return_notMem_withLineFeeds (cs : List Char) : '\r' ∉ withLineFeeds cs := by
  induction cs using withLineFeeds_induction with
  | nil => exact List.not_mem_nil
  | both cs ih => rwa [withLineFeeds_return_lineFeed]
  | lone cs hn ih =>
    rw [withLineFeeds_return hn, List.mem_cons, not_or]
    exact ⟨by decide, ih⟩
  | other c cs hc ih =>
    rw [withLineFeeds_cons hc, List.mem_cons, not_or]
    exact ⟨Ne.symm hc, ih⟩

theorem withLineFeeds_of_notMem {cs : List Char} (h : '\r' ∉ cs) : withLineFeeds cs = cs := by
  induction cs with
  | nil => rfl
  | cons c cs ih =>
    rw [List.mem_cons, not_or] at h
    rw [withLineFeeds_cons (Ne.symm h.1), ih h.2]

/-- Two texts that cut no line break in two are written with line feeds one behind the other. -/
theorem Uncut.withLineFeeds_append {cs ds : List Char} (h : Uncut cs ds) :
    withLineFeeds (cs ++ ds) = withLineFeeds cs ++ withLineFeeds ds := by
  induction cs using withLineFeeds_induction with
  | nil => rfl
  | both cs ih =>
    rw [List.cons_append, List.cons_append, withLineFeeds_return_lineFeed, withLineFeeds_return_lineFeed]
    exact ih h.tail
  | lone cs hn ih =>
    have happend : (cs ++ ds).head? ≠ some '\n' := by
      cases cs with
      | nil => exact fun hd => h ⟨rfl, hd⟩
      | cons c cs => exact hn
    rw [List.cons_append, withLineFeeds_return happend, withLineFeeds_return hn, ih h.tail]
    rfl
  | other c cs hc ih =>
    rw [List.cons_append, withLineFeeds_cons hc, withLineFeeds_cons hc, ih h.tail]
    rfl

/-- Of two texts that cut nothing in front of a third, the second cuts nothing there. -/
theorem Uncut.of_append {cs ds es : List Char} (h : Uncut (cs ++ ds) es) : Uncut ds es := by
  rintro ⟨hc, hd⟩
  refine h ⟨?_, hd⟩
  rw [List.getLast?_append, hc]
  rfl

theorem Uncut.of_notMem {cs : List Char} (h : '\r' ∉ cs) (ds : List Char) : Uncut cs ds :=
  fun hu => h (List.mem_of_getLast? hu.1)

theorem Uncut.of_head? {ds : List Char} (h : ds.head? ≠ some '\n') (cs : List Char) : Uncut cs ds :=
  fun hu => h hu.2

/-! ## Places -/

/-- A text leads as many lines and columns on, whichever way its lines end. -/
theorem advance_withLineFeeds {p q : Position} (hl : p.line = q.line) (hc : p.column = q.column) (cs : List Char) :
    (p.advance cs).line = (q.advance (withLineFeeds cs)).line ∧
      (p.advance cs).column = (q.advance (withLineFeeds cs)).column := by
  have hfeed : ∀ (q : Position) (ds : List Char), q.advance ('\n' :: ds) = (q.nextLine 1).advance ds := by
    intro q ds
    rw [Position.advance.eq_3 _ _ _ (by simp), if_pos (by decide)]
  fun_induction Position.advance p cs generalizing q with
  | case1 => exact ⟨hl, hc⟩
  | case2 p cs ih =>
    rw [withLineFeeds, hfeed]
    exact ih (congrArg (· + 1) hl) rfl
  | case3 p c cs hn hb ih =>
    have hwritten : withLineFeeds (c :: cs) = '\n' :: withLineFeeds cs := by
      rcases (isBreak_iff c).mp hb with rfl | rfl
      · refine withLineFeeds_return (fun hd => ?_)
        obtain ⟨tail, rfl⟩ := List.head?_eq_some_iff.mp hd
        exact hn tail rfl rfl
      · exact withLineFeeds_cons (by decide) cs
    rw [hwritten, hfeed]
    exact ih (congrArg (· + 1) hl) rfl
  | case4 p c cs hn hb ih =>
    have hr : c ≠ '\r' := by
      rintro rfl
      exact hb rfl
    have hn' : ∀ tail, c = '\r' → withLineFeeds cs = '\n' :: tail → False := fun _ h _ => hr h
    rw [withLineFeeds_cons hr, Position.advance.eq_3 _ _ _ hn', if_neg hb]
    exact ih hl (congrArg (· + 1) hc)

/-! ## Between tokens -/

/-- A closing mark has no line break in it. -/
theorem closing_infix_withLineFeeds (cs : List Char) : closing <:+: withLineFeeds cs ↔ closing <:+: cs := by
  have hfeed : ∀ ds : List Char, closing <:+: '\n' :: ds ↔ closing <:+: ds := by
    intro ds
    simp [closing_infix_cons]
  have hreturn : ∀ ds : List Char, closing <:+: '\r' :: ds ↔ closing <:+: ds := by
    intro ds
    simp [closing_infix_cons]
  induction cs using withLineFeeds_induction with
  | nil => rfl
  | both cs ih =>
    rw [withLineFeeds_return_lineFeed]
    exact ih.trans (hreturn _).symm
  | lone cs hn ih =>
    rw [withLineFeeds_return hn]
    exact (hfeed _).trans (ih.trans (hreturn _).symm)
  | other c cs hc ih =>
    rw [withLineFeeds_cons hc, closing_infix_cons, closing_infix_cons]
    refine or_congr (and_congr_right (fun _ => ?_)) ih
    rw [head?_withLineFeeds, Option.map_eq_some_iff]
    constructor
    · rintro ⟨d, hd, he⟩
      split at he
      · exact absurd he (by decide)
      · rwa [← he]
    · intro hd
      exact ⟨'/', hd, by decide⟩

/-- A gap is still one when its line breaks are written as line feeds. -/
theorem Grammar.Gap.respelled {gap rest : List Char} (h : Gap gap rest) (hu : Uncut gap rest) :
    Gap (withLineFeeds gap) (withLineFeeds rest) := by
  induction h with
  | nil => exact Gap.nil
  | @cons piece gap rest hp _ ih =>
    cases hp with
    | @blank c _ hc =>
      have hi := ih hu.tail
      by_cases hr : c = '\r'
      · subst hr
        by_cases hn : gap.head? = some '\n'
        · obtain ⟨tail, rfl⟩ := List.head?_eq_some_iff.mp hn
          rw [List.singleton_append, withLineFeeds_return_lineFeed]
          exact hi
        · rw [List.singleton_append, withLineFeeds_return hn]
          exact Gap.cons (Piece.blank (Or.inr (Or.inr (Or.inr rfl)))) hi
      · rw [List.singleton_append, withLineFeeds_cons hr]
        exact Gap.cons (Piece.blank hc) hi
    | @lineComment body _ hb hn =>
      have hr : '\r' ∉ '/' :: '/' :: body := by
        simp only [List.mem_cons, not_or]
        exact ⟨by decide, by decide, fun hm => (hb _ hm).1 rfl⟩
      rw [(Uncut.of_notMem hr gap).withLineFeeds_append, withLineFeeds_of_notMem hr]
      refine Gap.cons (Piece.lineComment hb (fun c hc => ?_)) (ih hu.of_append)
      rw [← hu.of_append.withLineFeeds_append] at hc
      by_cases hf : c = '\n'
      · exact Or.inr hf
      · exact hn c (head?_of_withLineFeeds hf hc)
    | @blockComment body _ hb =>
      have hbody : Uncut body ['*'] := Uncut.of_head? (by decide) body
      have hmark : Uncut body (closing ++ gap) := Uncut.of_head? (by simp [closing]) body
      have hwritten : withLineFeeds ('/' :: '*' :: (body ++ closing) ++ gap) =
          '/' :: '*' :: (withLineFeeds body ++ closing) ++ withLineFeeds gap := by
        have hclosing := (Uncut.of_notMem (by decide : '\r' ∉ closing) gap).withLineFeeds_append
        rw [List.cons_append, List.cons_append, withLineFeeds_cons (by decide), withLineFeeds_cons (by decide),
          List.append_assoc, hmark.withLineFeeds_append, hclosing, withLineFeeds_of_notMem (by decide : '\r' ∉ closing)]
        simp
      rw [hwritten]
      refine Gap.cons (Piece.blockComment ?_) (ih hu.of_append)
      rw [← closing_infix_withLineFeeds, hbody.withLineFeeds_append] at hb
      exact hb

theorem Grammar.OpenComment.respelled {cs : List Char} (h : OpenComment cs) : OpenComment (withLineFeeds cs) := by
  obtain ⟨body, rfl, hb⟩ := h
  refine ⟨withLineFeeds body, ?_, ?_⟩
  · rw [withLineFeeds_cons (by decide), withLineFeeds_cons (by decide)]
  · rwa [closing_infix_withLineFeeds]

theorem Grammar.LastGap.respelled {cs : List Char} (h : LastGap cs) : LastGap (withLineFeeds cs) := by
  cases h with
  | closed hg => exact LastGap.closed (hg.respelled (Uncut.of_head? (by simp) cs))
  | @opened gap comment hg ho =>
    have hu : Uncut gap comment := by
      obtain ⟨body, rfl, -⟩ := ho
      exact Uncut.of_head? (by simp) gap
    rw [hu.withLineFeeds_append]
    exact LastGap.opened (hg.respelled hu) ho.respelled

/-- What stands behind the last token is put aside whole. -/
theorem Trivia.split_of_lastGap {cs : List Char} (h : LastGap cs) : (split cs).2 = [] := by
  cases h with
  | closed hg =>
    have hs := (split_of_gap hg).2
    rw [List.append_nil] at hs
    rw [hs, split_nil]
  | @opened gap comment hg ho =>
    obtain ⟨t, ht⟩ := read?_of_openComment ho
    rw [(split_of_gap hg).2, split_of_read? ht, split_nil]

/-- Where nothing stands between tokens, nothing does when line breaks are written as line feeds. -/
theorem not_startsBetween_withLineFeeds {cs : List Char} (h : ¬StartsBetween cs) : ¬StartsBetween (withLineFeeds cs) := by
  rw [startsBetween_iff, not_or] at h ⊢
  refine ⟨?_, ?_⟩
  · rintro ⟨c, hc, hb⟩
    rw [head?_withLineFeeds] at hc
    obtain ⟨d, hd, he⟩ := Option.map_eq_some_iff.mp hc
    refine h.1 ⟨d, hd, ?_⟩
    by_cases hr : d = '\r'
    · rw [hr]
      rfl
    · rw [if_neg hr] at he
      rwa [he]
  · rintro ⟨c, tail, he, hc⟩
    have hf : c ≠ '\n' := by
      rintro rfl
      revert hc
      decide
    obtain ⟨ds, rfl⟩ := List.head?_eq_some_iff.mp (@head?_of_withLineFeeds cs '/' (by decide) (by rw [he]; rfl))
    rw [withLineFeeds_cons (by decide)] at he
    obtain ⟨more, rfl⟩ := List.head?_eq_some_iff.mp (head?_of_withLineFeeds hf (by rw [(List.cons.inj he).2]; rfl))
    exact h.2 ⟨c, more, rfl, hc⟩

/-! ## Lexemes -/

/-- Writing the line breaks behind a lexeme as line feeds lets nothing new show there. -/
theorem glimpse_withLineFeeds (rest : List Char) : glimpse (withLineFeeds rest) <+: rest := by
  have hreturn : ∀ cs : List Char, ∃ tail, withLineFeeds ('\r' :: cs) = '\n' :: tail :=
    fun cs => exists_lineFeed (Or.inl rfl) cs
  cases rest with
  | nil => exact List.nil_prefix
  | cons c rest =>
    by_cases hc : c = '\r'
    · obtain ⟨tail, ht⟩ := hreturn rest
      rw [hc, ht]
      exact List.nil_prefix
    · rw [withLineFeeds_cons hc]
      cases rest with
      | nil => exact (List.takeWhile_prefix _).trans (List.take_prefix _ _)
      | cons d cs =>
        by_cases hd : d = '\r'
        · obtain ⟨tail, ht⟩ := hreturn cs
          rw [hd, ht]
          exact (glimpse_append_blank [c] tail rfl).trans (List.prefix_append [c] _)
        · rw [withLineFeeds_cons hd]
          exact @glimpse_append [c, d] (Nat.le_refl 2) _ cs

theorem Grammar.Units.respelled {cs : List Char} (h : Units cs) : Units (withLineFeeds cs) := by
  induction h with
  | nil => exact Units.nil
  | plain h1 h2 h3 h4 _ ih =>
    rw [withLineFeeds_cons h3]
    exact Units.plain h1 h2 h3 h4 ih
  | @escapedBreak cs _ ih =>
    rw [withLineFeeds_cons (by decide), withLineFeeds]
    exact Units.escaped ih
  | @escaped c cs hu ih =>
    rw [withLineFeeds_cons (by decide)]
    by_cases hc : c = '\r'
    · have hn : cs.head? ≠ some '\n' := by
        intro hd
        obtain ⟨tail, rfl⟩ := List.head?_eq_some_iff.mp hd
        exact (Quoted.not_units_cons hu).2.2.1 rfl
      rw [hc, withLineFeeds_return hn]
      exact Units.escaped ih
    · rw [withLineFeeds_cons hc]
      exact Units.escaped ih

/-- A string literal that goes on to the end of the text does so with line feeds as well. -/
theorem Quoted.split_withLineFeeds_end {body : List Char} (h : split body = ⟨body, .endOfText, []⟩) :
    split (withLineFeeds body) = ⟨withLineFeeds body, .endOfText, []⟩ := by
  obtain ⟨units, dangling, hb, hu, hd⟩ := units_split body
  rw [h] at hb
  obtain rfl : body = units ++ dangling := hb
  have hd' : dangling = [] ∨ dangling = ['\\'] := hd.imp_right (fun hd => hd.1)
  have hcut : Uncut units dangling := by
    rcases hd' with rfl | rfl
    · exact Uncut.of_head? (by simp) units
    · exact Uncut.of_head? (by simp) units
  have hsame : withLineFeeds dangling = dangling := by rcases hd' with rfl | rfl <;> rfl
  rw [hcut.withLineFeeds_append, hsame]
  exact split_units_end hu.respelled hd'

namespace Lexeme

variable {l l' : Lexeme} {rest : List Char}

/-- A lexeme is another with its line breaks written as line feeds. If it has no carriage return the two are the same. -/
structure Respelled (l l' : Lexeme) : Prop where
  kind : l.kind = l'.kind
  text : l'.text = withLineFeeds l.text
  value : '\r' ∉ l.text → l.value = l'.value

/-- A lexeme before a text is one with the line breaks of both written as line feeds. -/
theorem EndsBefore.respelled (h : l.EndsBefore rest) (hb : ¬StartsBetween (l.text ++ rest)) :
    ∃ l', l.Respelled l' ∧ l'.EndsBefore (withLineFeeds rest) := by
  rcases h.plain_or_quoted with ⟨hplain, he⟩ | ⟨body, hu, rfl⟩ | ⟨body, c, tail, hu, rfl, rfl, hc, -⟩ | ⟨body, hs, rfl, rfl⟩
  · have hr : '\r' ∉ l.text := by
      intro hm
      rw [hplain.2 _ hm rfl] at hb
      exact hb ((startsBetween_iff _).mpr (Or.inl ⟨'\r', rfl, rfl⟩))
    refine ⟨l, ⟨rfl, (withLineFeeds_of_notMem hr).symm, fun _ => rfl⟩, ?_⟩
    refine h.of_glimpse (glimpse_withLineFeeds rest) (fun hk => ?_) (fun hk => ?_)
    · exact absurd (he _ hk) (by decide)
    · exact absurd (he _ hk) (by decide)
  · refine ⟨⟨.literal .string, some (.string (String.ofList (Quoted.decode (withLineFeeds body)))),
      '"' :: (withLineFeeds body ++ ['"'])⟩, ⟨rfl, ?_, fun hr => ?_⟩, EndsBefore.quoted hu.respelled⟩
    · have hcut : Uncut body ['"'] := Uncut.of_head? (by simp) body
      rw [withLineFeeds_cons (by decide), hcut.withLineFeeds_append]
      rfl
    · have hbody : '\r' ∉ body := fun hm => hr (by simp [hm])
      rw [withLineFeeds_of_notMem hbody]
  · obtain ⟨more, hmore⟩ := exists_lineFeed hc tail
    refine ⟨⟨.error .brokenString, none, '"' :: withLineFeeds body⟩, ⟨rfl, ?_, fun _ => rfl⟩, ?_⟩
    · rw [withLineFeeds_cons (by decide)]
    · rw [hmore]
      exact EndsBefore.broken hu.respelled (Or.inr rfl) (Uncut.of_notMem (return_notMem_withLineFeeds body) _)
  · refine ⟨⟨.error .endlessString, none, '"' :: withLineFeeds body⟩, ⟨rfl, ?_, fun _ => rfl⟩, ?_⟩
    · rw [withLineFeeds_cons (by decide)]
    · exact EndsBefore.endless (Quoted.split_withLineFeeds_end hs)

end Lexeme

/-! ## Two scans side by side -/

/-- A token is another with the line breaks of its lexeme written as line feeds. If it has no carriage return the two agree in
everything but the bytes that they cover. -/
structure Token.Respelled (t t' : Token) : Prop where
  kind : t.kind = t'.kind
  line : t.line = t'.line
  column : t.column = t'.column
  lexeme : t'.lexeme.toList = withLineFeeds t.lexeme.toList
  same : '\r' ∉ t.lexeme.toList → t.lexeme = t'.lexeme ∧ t.value = t'.value

/-- Two diagnostics say the same of the same line and column. -/
structure Diagnostic.SamePlace (d d' : Diagnostic) : Prop where
  error : d.error = d'.error
  line : d.line = d'.line
  column : d.column = d'.column

/-- What is wrong between two places is said in the same way between two others in the same lines and columns. -/
theorem LexError.samePlace_diagnose (e : LexError) {start stop start' stop' : Position} (rest rest' : List Char)
    (hl : start.line = start'.line) (hc : start.column = start'.column) (hl' : stop.line = stop'.line)
    (hc' : stop.column = stop'.column) : (e.diagnose start stop rest).SamePlace (e.diagnose start' stop' rest') := by
  unfold diagnose
  split
  · exact ⟨rfl, hl', hc'⟩
  · exact ⟨rfl, hl, hc⟩

namespace Scanner

/-- A scanner has the text of another to read, with its line breaks written as line feeds, from the same line and column
on. -/
structure Respelled (s s' : Scanner) : Prop where
  rest : s'.rest = withLineFeeds s.rest
  line : s.position.line = s'.position.line
  column : s.position.column = s'.position.column

namespace Respelled

variable {s s' : Scanner} {l l' : Lexeme} {rest : List Char}

/-- Two scanners that have a text to read, one of them with line feeds, do so behind the gap. -/
theorem skip_of_gap (h : s.Respelled s') (hgap : s'.gap = withLineFeeds s.gap)
    (hrest : s'.skip.rest = withLineFeeds s.skip.rest) : s.skip.Respelled s'.skip := by
  have hplace := advance_withLineFeeds h.line h.column s.gap
  rw [← hgap] at hplace
  exact ⟨hrest, hplace.1, hplace.2⟩

/-- Where nothing but a gap is left to a scanner, nothing else is left to the one that has the text with line feeds. -/
theorem stop (h : s.Respelled s') (hs : s.skip.rest = []) : s.skip.Respelled s'.skip := by
  obtain ⟨hgap, hlast⟩ := lastGap_skip hs
  have hrest : s'.skip.rest = [] := by
    refine Trivia.split_of_lastGap ?_
    rw [h.rest]
    exact hlast.respelled
  refine h.skip_of_gap ?_ ?_
  · rw [(lastGap_skip hrest).1, hgap, h.rest]
  · rw [hs, hrest]
    rfl

/-- Where a scanner reads a lexeme, the one that has the text with line feeds reads it with line feeds. -/
theorem step (h : s.Respelled s') (hl : Lexeme.read? s.skip.rest = some (l, rest)) : ∃ l', l.Respelled l' ∧
    Lexeme.read? s'.skip.rest = some (l', withLineFeeds rest) ∧ s.skip.Respelled s'.skip := by
  obtain ⟨hgap, hbetween⟩ := gap_skip hl
  have htext := Lexeme.text_append_of_read? _ _ _ hl
  have hcut : Uncut l.text rest := ((Lexeme.reads_of_read? _ _ _ hl).seam hbetween).uncut
  have hcut' : Uncut s.gap (l.text ++ rest) := by
    rw [htext]
    exact s.seam_gap.uncut
  obtain ⟨l', hl', hends⟩ := (Lexeme.endsBefore_of_read? hl).respelled hbetween
  have hread : l'.text ++ withLineFeeds rest = withLineFeeds (l.text ++ rest) := by
    rw [hl'.text, hcut.withLineFeeds_append]
  have hsplit : s'.rest = withLineFeeds s.gap ++ withLineFeeds (l.text ++ rest) := by
    rw [h.rest, ← gap_append_text hl, hcut'.withLineFeeds_append]
  obtain ⟨hgap', hrest'⟩ := gap_of_gap hsplit (hgap.respelled hcut') (not_startsBetween_withLineFeeds hbetween)
  refine ⟨l', hl', ?_, h.skip_of_gap hgap' ?_⟩
  · rw [hrest', ← hread]
    exact Lexeme.read?_of_endsBefore hends
  · rw [hrest', htext]

/-- Behind the two lexemes the scanners have a text to read, one of them with line feeds, from the same line and column on. -/
theorem behind (h : s.Respelled s') (hl : l.Respelled l') :
    (s.behind l rest).Respelled (s'.behind l' (withLineFeeds rest)) := by
  have hplace := advance_withLineFeeds h.line h.column l.text
  rw [← hl.text] at hplace
  exact ⟨rfl, hplace.1, hplace.2⟩

/-- The token of the second lexeme is that of the first with its line breaks written as line feeds. -/
theorem token (h : s.Respelled s') (hl : l.Respelled l') (rest' : List Char) :
    (s.stepOver l rest).token.Respelled (s'.stepOver l' rest').token := by
  refine ⟨hl.kind, h.line, h.column, ?_, fun hr => ?_⟩
  · rw [lexeme_stepOver, lexeme_stepOver, hl.text]
  · rw [lexeme_stepOver] at hr
    refine ⟨?_, hl.value hr⟩
    rw [← String.toList_inj, lexeme_stepOver, lexeme_stepOver, hl.text, withLineFeeds_of_notMem hr]

/-- What is wrong with one of the two lexemes is said of both. -/
theorem diagnostics (h : s.Respelled s') (hl : l.Respelled l') {ds ds' : List Diagnostic}
    (hd : List.Forall₂ Diagnostic.SamePlace ds ds') : List.Forall₂ Diagnostic.SamePlace
      ((s.stepOver l rest).diagnostic.toList ++ ds) ((s'.stepOver l' (withLineFeeds rest)).diagnostic.toList ++ ds') := by
  have hbehind : (s.behind l rest).Respelled (s'.behind l' (withLineFeeds rest)) := h.behind hl
  simp only [stepOver, ← hl.kind]
  cases l.kind.error? with
  | none => exact hd
  | some e => exact List.Forall₂.cons (e.samePlace_diagnose _ _ h.line h.column hbehind.line hbehind.column) hd

end Respelled

/-- Two scanners that have a text to read, one of them with line feeds, scan all of it alike. -/
theorem respelled_scan (s : Scanner) : ∀ s' : Scanner, s.Respelled s' →
    List.Forall₂ Token.Respelled s.scan.tokens s'.scan.tokens ∧
      List.Forall₂ Diagnostic.SamePlace s.scan.diagnostics s'.scan.diagnostics := by
  induction s using scan_induction with
  | stop s hs =>
    intro s' h
    have hskip := h.stop hs
    have hs' : s'.skip.rest = [] := by
      rw [hskip.rest, hs]
      rfl
    rw [scan_stop s' hs']
    exact ⟨List.Forall₂.cons ⟨rfl, hskip.line, hskip.column, rfl, fun _ => ⟨rfl, rfl⟩⟩ List.Forall₂.nil, List.Forall₂.nil⟩
  | step s l rest hl ih =>
    intro s' h
    obtain ⟨l', hl', hread, hskip⟩ := h.step hl
    obtain ⟨htokens, hdiagnostics⟩ := ih (s'.skip.behind l' (withLineFeeds rest)) (hskip.behind hl')
    rw [scan_step s' l' (withLineFeeds rest) hread]
    exact ⟨List.Forall₂.cons (hskip.token hl' _) htokens, hskip.diagnostics hl' hdiagnostics⟩

end Scanner

/-! ## Sources -/

/-- A source without the mark that it may begin with, and with every line break written as a line feed. -/
def normalized (source : String) : String := String.ofList (withLineFeeds (textOf source))

/-- Neither the way in which the lines of a source end nor the mark that it begins with makes a difference: with line feeds
and without the mark it has as many tokens, one by one of the same kind in the same line and column, with their line breaks
written as line feeds, and as many diagnostics, one by one of the same error in the same line and column. A second mark must
not come to stand in front, for it would be taken for the first. -/
theorem tokenize_normalized (source : String) (h : (normalized source).toList.head? ≠ some Scanner.byteOrderMark) :
    List.Forall₂ Token.Respelled (tokenize source).tokens (tokenize (normalized source)).tokens ∧
      List.Forall₂ Diagnostic.SamePlace (tokenize source).diagnostics (tokenize (normalized source)).diagnostics := by
  refine Scanner.respelled_scan _ _ ⟨?_, ?_, ?_⟩
  · rw [Scanner.rest_ofSource, Scanner.rest_ofSource, (markOf_of_head? h).2, normalized, String.toList_ofList]
  · rw [Scanner.position_ofSource, Scanner.position_ofSource]
  · rw [Scanner.position_ofSource, Scanner.position_ofSource]

/-- A source with its mark, with lines that end in all three ways, and with both a string literal that holds an escaped line
break and one that breaks off. -/
theorem tokenize_normalized_mixed :
    let source := "\uFEFFx\r\n\"a\\\r\nb\" /*\r*/ @ //\r\"c\rd\n"
    (normalized source).toList.head? ≠ some Scanner.byteOrderMark ∧
      List.Forall₂ Token.Respelled (tokenize source).tokens (tokenize (normalized source)).tokens ∧
      List.Forall₂ Diagnostic.SamePlace (tokenize source).diagnostics (tokenize (normalized source)).diagnostics := by
  have h : (normalized "\uFEFFx\r\n\"a\\\r\nb\" /*\r*/ @ //\r\"c\rd\n").toList.head? ≠ some Scanner.byteOrderMark := by
    decide +kernel
  exact ⟨h, tokenize_normalized _ h⟩

end MiniLex
