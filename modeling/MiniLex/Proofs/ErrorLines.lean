import Mathlib.Data.List.Forall2
import MiniLex.Proofs.Effects
import MiniLex.Proofs.Unambiguous

/-!
# Diagnostics as lines

A channel receives one line for each diagnostic of a source. A diagnostic repeats a character of the source only if no token
begins with it, and such a character is no blank (`Scanner.not_blank_of_unexpected`), so no line holds a line break. The lines
can be read back: what is wrong, and the line and the column where it is wrong (`error_channel_faithful`).
-/

namespace MiniLex

open Grammar

/-! ## What is in a line -/

theorem not_isBreak_of_all {text : List Char} (h : text.all (fun c => !isBreak c) = true) : ∀ c ∈ text, isBreak c = false := by
  intro c hc
  simpa using List.all_eq_true.mp h c hc

namespace LexError

/-- The wording for a character that begins no token holds it between quotes. -/
theorem toList_message_unexpected (c : Char) :
    (unexpectedCharacter c).message.toList = "unexpected character '".toList ++ [c, '\''] := by
  have hwording : (unexpectedCharacter c).message = "unexpected character '" ++ c.toString ++ "'" := rfl
  have hquote : "'".toList = ['\''] := by decide
  rw [hwording, String.toList_append, String.toList_append, List.append_assoc, Char.toString_eq_singleton,
    String.toList_singleton, hquote, List.singleton_append]

/-- The wording for a character that begins no token begins like no other wording. -/
theorem take_message_unexpected (c : Char) : (unexpectedCharacter c).message.toList.take 3 = ['u', 'n', 'e'] := by
  rw [toList_message_unexpected, List.take_append_of_le_length (by decide)]
  decide

/-- An error is known by its wording. -/
theorem message_injective : Function.Injective message := by
  intro e e' h
  have htake := congrArg (fun text : String => text.toList.take 3) h
  cases e with
  | unexpectedCharacter c =>
    cases e' with
    | unexpectedCharacter d =>
      have hlist := congrArg String.toList h
      rw [toList_message_unexpected, toList_message_unexpected] at hlist
      rw [(List.cons.inj (List.append_cancel_left hlist)).1]
    | _ =>
      simp only [take_message_unexpected] at htake
      exact absurd htake (by decide)
  | _ =>
    cases e' with
    | unexpectedCharacter d =>
      simp only [take_message_unexpected] at htake
      exact absurd htake (by decide)
    | _ => first | rfl | exact absurd h (by decide)

/-- The wording of an error holds no line break unless it is about one. -/
theorem not_isBreak_of_mem_message {e : LexError} (he : ∀ c, e = .unexpectedCharacter c → isBreak c = false) :
    ∀ c ∈ e.message.toList, isBreak c = false := by
  cases e with
  | unexpectedCharacter d =>
    intro c hc
    rw [toList_message_unexpected] at hc
    rcases List.mem_append.mp hc with hc | hc
    · have hwords : ∀ c ∈ "unexpected character '".toList, isBreak c = false :=
        not_isBreak_of_all (by decide)
      exact hwords c hc
    · simp only [List.mem_cons, List.not_mem_nil, or_false] at hc
      rcases hc with rfl | rfl
      · exact he c rfl
      · decide
  | _ => exact not_isBreak_of_all (by decide)

end LexError

namespace Diagnostic

/-- What a diagnostic says without the stretch that it covers: what is wrong, in which line and in which column. -/
def content (d : Diagnostic) : LexError × UInt32 × UInt32 := (d.error, d.line, d.column)

/-- The two numbers of a line stand in front of its comma and its colon. -/
theorem toList_render (d : Diagnostic) : d.render.toList =
    "Error at line ".toList ++ ((toString d.line.toNat).toList ++ ',' ::
      (" column ".toList ++ ((toString d.column.toNat).toList ++ ':' :: ' ' :: d.error.message.toList))) := by
  have hcomma : ", column ".toList = ',' :: " column ".toList := by decide
  have hcolon : ": ".toList = [':', ' '] := by decide
  unfold render
  simp only [String.toList_append, List.append_assoc, hcomma, hcolon, List.cons_append, List.nil_append]

/-- Diagnostics have the same line exactly if they say the same. -/
theorem render_eq_iff (d d' : Diagnostic) : d.render = d'.render ↔ d.content = d'.content := by
  constructor
  · intro h
    have htext := congrArg String.toList h
    rw [toList_render, toList_render] at htext
    have hcomma := notMem_toString (c := ',') rfl
    have hcolon := notMem_toString (c := ':') rfl
    obtain ⟨hline, hbehind⟩ := append_cons_inj (hcomma _) (hcomma _) (List.append_cancel_left htext)
    obtain ⟨hcolumn, hmessage⟩ := append_cons_inj (hcolon _) (hcolon _) (List.append_cancel_left hbehind)
    have herror := LexError.message_injective (String.toList_inj.mp (List.cons.inj hmessage).2)
    rw [content, content, herror, UInt32.toNat_inj.mp (eq_of_toList_toString hline),
      UInt32.toNat_inj.mp (eq_of_toList_toString hcolumn)]
  · intro h
    obtain ⟨herror, hplace⟩ := Prod.mk.inj h
    obtain ⟨hline, hcolumn⟩ := Prod.mk.inj hplace
    unfold render
    rw [herror, hline, hcolumn]

/-- The line of a diagnostic holds no line break unless the diagnostic is about one. -/
theorem not_isBreak_of_mem_render {d : Diagnostic} (h : ∀ c, d.error = .unexpectedCharacter c → isBreak c = false) :
    ∀ c ∈ d.render.toList, isBreak c = false := by
  have hnumber : ∀ n : Nat, ∀ c ∈ (toString n).toList, isBreak c = false := by
    intro n c hc
    exact not_isBreak_of_not_isBlank (not_isBlank_of_isDigit (isDigit_of_mem_toString hc))
  have hfront : ∀ c ∈ "Error at line ".toList, isBreak c = false := not_isBreak_of_all (by decide)
  have hmiddle : ∀ c ∈ " column ".toList, isBreak c = false := not_isBreak_of_all (by decide)
  intro c hc
  simp only [toList_render, List.mem_append, List.mem_cons] at hc
  rcases hc with hc | hc | rfl | hc | hc | rfl | rfl | hc
  · exact hfront c hc
  · exact hnumber d.line.toNat c hc
  · decide
  · exact hmiddle c hc
  · exact hnumber d.column.toNat c hc
  · decide
  · decide
  · exact LexError.not_isBreak_of_mem_message h c hc

end Diagnostic

/-! ## What no diagnostic is about -/

namespace Scanner

/-- A character that begins no token is no blank. -/
theorem not_blank_of_read? {cs rest : List Char} {l : Lexeme} (hb : ¬StartsBetween cs)
    (hl : Lexeme.read? cs = some (l, rest)) {c : Char} (he : l.kind = .error (.unexpectedCharacter c)) :
    isBlank c = false := by
  have htext := Lexeme.text_append_of_read? _ _ _ hl
  have hreads := Lexeme.reads_of_read? _ _ _ hl
  rw [he] at hreads
  rcases hreads.of_error with ⟨hrange, -⟩ | ⟨-, hmalformed⟩
  · cases hrange
  · by_contra hblank
    refine hb ((startsBetween_iff cs).mpr (Or.inl ⟨c, ?_, by simpa using hblank⟩))
    rw [← htext]
    generalize l.text = text at hmalformed
    cases hmalformed
    rfl

/-- Wherever a scan starts, no character that it reports as unexpected is a blank. -/
theorem not_blank_of_unexpected (s : Scanner) : ∀ d ∈ s.scan.diagnostics, ∀ c, d.error = .unexpectedCharacter c →
    isBlank c = false := by
  induction s using scan_induction with
  | stop s _ =>
    intro d hd
    cases hd
  | step s l rest hl ih =>
    intro d hd c hc
    cases he : l.kind.error? with
    | none =>
      rw [diagnostics_of_none he] at hd
      exact ih d hd c hc
    | some e =>
      rw [diagnostics_of_some he] at hd
      rcases List.mem_cons.mp hd with rfl | hd
      · rw [LexError.error_diagnose] at hc
        have hkind := (Kind.error?_eq_some_iff _ _).mp he
        rw [hc] at hkind
        exact not_blank_of_read? s.not_startsBetween_skip hl hkind
      · exact ih d hd c hc

end Scanner

/-- No line of a source holds a line break. -/
theorem not_isBreak_of_mem_line {source : String} {d : Diagnostic} (hd : d ∈ (tokenize source).diagnostics) :
    ∀ c ∈ d.render.toList, isBreak c = false := by
  refine Diagnostic.not_isBreak_of_mem_render ?_
  intro c hc
  exact not_isBreak_of_not_isBlank ((Scanner.ofSource source).not_blank_of_unexpected d hd c hc)

/-! ## All lines of a source -/

/-- Texts without a character can be read back where it stands behind each of them. -/
theorem terminated_inj {c : Char} {texts texts' : List (List Char)} (h : ∀ text ∈ texts, c ∉ text)
    (h' : ∀ text ∈ texts', c ∉ text) (heq : texts.flatMap (· ++ [c]) = texts'.flatMap (· ++ [c])) : texts = texts' := by
  induction texts generalizing texts' with
  | nil =>
    cases texts' with
    | nil => rfl
    | cons text' texts' => simp at heq
  | cons text texts ih =>
    cases texts' with
    | nil => simp at heq
    | cons text' texts' =>
      obtain ⟨htext, htexts⟩ := List.forall_mem_cons.mp h
      obtain ⟨htext', htexts'⟩ := List.forall_mem_cons.mp h'
      simp only [List.flatMap_cons, List.append_assoc, List.singleton_append] at heq
      obtain ⟨rfl, hrest⟩ := append_cons_inj htext htext' heq
      rw [ih htexts htexts' hrest]

/-- A channel that works receives the lines of the diagnostics, with a line feed behind each, and the listing counts them. -/
theorem Listing.ofSource_lines (source received pending : String) :
    let lines := (tokenize source).diagnostics.map Diagnostic.render
    (ofSource Sink.lines ⟨none, received, pending⟩ source).2 =
        ⟨none, received ++ (pending ++ String.join (lines.map (· ++ "\n"))), ""⟩ ∧
      (ofSource Sink.lines ⟨none, received, pending⟩ source).1.errorCount = lines.length := by
  intro lines
  constructor
  · have hfeed := Sink.feed_lines (tokenize source).diagnostics received pending
    rw [List.map_map]
    exact hfeed
  · rw [List.length_map]
    exact errorCount_ofText source

/-- What a channel receives of a source through which nothing has gone before. -/
def errorLines (source : String) : String := (Listing.ofSource Sink.lines (Channel.fresh none) source).2.received

/-- What a channel receives of a source is its lines, each with a line feed behind it. -/
theorem toList_errorLines (source : String) : (errorLines source).toList =
    ((tokenize source).diagnostics.map (fun d => d.render.toList)).flatMap (· ++ ['\n']) := by
  have hreceived := congrArg Channel.received (Listing.ofSource_lines source "" "").1
  simp only [String.empty_append] at hreceived
  rw [errorLines, Channel.fresh, hreceived, String.toList_join, List.map_map, List.flatMap_map, List.flatMap_map]
  refine congrArg (fun f => List.flatMap f (tokenize source).diagnostics) (funext fun d => ?_)
  exact String.toList_append

theorem lineFeed_notMem_lines (source : String) :
    ∀ text ∈ (tokenize source).diagnostics.map (fun d => d.render.toList), '\n' ∉ text := by
  intro text ht hc
  obtain ⟨d, hd, rfl⟩ := List.mem_map.mp ht
  exact absurd (not_isBreak_of_mem_line hd '\n' hc) (by decide)

/-- Diagnostics have the same lines exactly if they say the same. -/
theorem Diagnostic.map_render_iff (ds ds' : List Diagnostic) :
    ds.map (fun d => d.render.toList) = ds'.map (fun d => d.render.toList) ↔ ds.map content = ds'.map content := by
  have hsame : ∀ d d' : Diagnostic, d.render.toList = d'.render.toList ↔ d.content = d'.content := by
    intro d d'
    rw [String.toList_inj, render_eq_iff]
  have hpairs : ∀ {α : Type} (f : Diagnostic → α), ds.map f = ds'.map f ↔ List.Forall₂ (fun d d' => f d = f d') ds ds' := by
    intro α f
    rw [← List.forall₂_eq_eq_eq, List.forall₂_map_left_iff, List.forall₂_map_right_iff]
  rw [hpairs, hpairs]
  simp only [hsame]

/-- The error channel is faithful. Whatever it held before, it receives one line for each error that the listing counts, the
line of the diagnostic, and no line holds a line break. What it receives of two sources is the same exactly if their
diagnostics are the same in error, line and column. -/
theorem error_channel_faithful :
    (∀ source : String,
      let lines := (tokenize source).diagnostics.map Diagnostic.render
      (∀ received pending : String,
        (Listing.ofSource Sink.lines ⟨none, received, pending⟩ source).2 =
            ⟨none, received ++ (pending ++ String.join (lines.map (· ++ "\n"))), ""⟩ ∧
          (Listing.ofSource Sink.lines ⟨none, received, pending⟩ source).1.errorCount = lines.length) ∧
      ∀ line ∈ lines, '\n' ∉ line.toList ∧ '\r' ∉ line.toList) ∧
    ∀ source source' : String, errorLines source = errorLines source' ↔
      (tokenize source).diagnostics.map (fun d => (d.error, d.line, d.column)) =
        (tokenize source').diagnostics.map (fun d => (d.error, d.line, d.column)) := by
  constructor
  · intro source lines
    refine ⟨Listing.ofSource_lines source, ?_⟩
    intro line hline
    obtain ⟨d, hd, rfl⟩ := List.mem_map.mp hline
    have hunbroken := not_isBreak_of_mem_line hd
    refine ⟨?_, ?_⟩
    · intro hc
      exact absurd (hunbroken '\n' hc) (by decide)
    · intro hc
      exact absurd (hunbroken '\r' hc) (by decide)
  · intro source source'
    calc errorLines source = errorLines source'
        ↔ (errorLines source).toList = (errorLines source').toList := String.toList_inj.symm
      _ ↔ (tokenize source).diagnostics.map (fun d => d.render.toList) =
            (tokenize source').diagnostics.map (fun d => d.render.toList) := by
        rw [toList_errorLines, toList_errorLines]
        exact ⟨terminated_inj (lineFeed_notMem_lines source) (lineFeed_notMem_lines source'), congrArg _⟩
      _ ↔ _ := Diagnostic.map_render_iff _ _

/-- Two sources with other line ends and other tokens, and with the same errors in the same places. -/
theorem error_channel_faithful_lineEnds :
    (tokenize "@\n&").diagnostics.map (fun d => (d.error, d.line, d.column)) =
        [(.unexpectedCharacter '@', 1, 1), (.loneAmpersand, 2, 1)] ∧
      (tokenize "@\r\n& x").diagnostics ≠ (tokenize "@\n&").diagnostics ∧ errorLines "@\n&" = errorLines "@\r\n& x" := by
  have h : (tokenize "@\n&").diagnostics.map (fun d => (d.error, d.line, d.column)) =
      [(.unexpectedCharacter '@', 1, 1), (.loneAmpersand, 2, 1)] := by decide +kernel
  have h' : (tokenize "@\r\n& x").diagnostics.map (fun d => (d.error, d.line, d.column)) =
      [(.unexpectedCharacter '@', 1, 1), (.loneAmpersand, 2, 1)] := by decide +kernel
  exact ⟨h, by decide +kernel, (error_channel_faithful.2 _ _).mpr (h.trans h'.symm)⟩

end MiniLex
