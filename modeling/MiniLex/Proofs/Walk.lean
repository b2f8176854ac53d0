import Mathlib.Data.List.Basic
import MiniLex.Proofs.Errors

/-!
# What a cursor answers

A cursor over any tokens is an index into a sequence that does not change: the tokens themselves, with an end of the text
behind them if they do not end in one (`cursor_walks`). What each question is answered, and where it leaves the index, is said
in terms of that sequence alone (`Cursor.Answered`). The index goes on one by one and never past the first end of the text,
since whatever the cursor has taken is none (`Cursor.Marks`). Where there is no end of the text but the last token, looking
ahead shows what taking tokens one by one comes to (`Cursor.getLast?_converse_next`).
-/

namespace MiniLex

/-! ## Questions and answers -/

/-- Two kinds are the same, or both are errors, whatever is wrong. -/
def Kind.SameShape (k l : Kind) : Prop := k = l ∨ (k.isError = true ∧ l.isError = true)

theorem Kind.agrees_iff (k l : Kind) : k.agrees l = true ↔ k.SameShape l := by
  unfold agrees SameShape
  split
  · exact ⟨fun _ => Or.inr ⟨rfl, rfl⟩, fun _ => rfl⟩
  · next hn =>
    rw [beq_iff_eq]
    refine ⟨Or.inl, fun h => ?_⟩
    rcases h with h | ⟨hk, hl⟩
    · exact h
    · cases k with
      | error e =>
        cases l with
        | error e' => exact absurd rfl (fun he => hn e e' rfl he)
        | _ => cases hl
      | _ => cases hk

/-- The index of the first end of the text in a sequence. -/
structure FirstEof (tokens : List Token) (stop : Nat) : Prop where
  isEof : ∃ t, tokens[stop]? = some t ∧ t.isEof = true
  before : ∀ i t, i < stop → tokens[i]? = some t → t.isEof = false

namespace Cursor

/-- Where taking a token leads: to the next one, unless it is an end of the text. -/
def behind (i : Nat) (t : Token) : Nat := if t.isEof then i else i + 1

/-- What is answered at an index of a sequence of tokens, and the index behind it. The first tokens are the ones that were
given, `tokens` those with an end of the text behind them, and `stop` is the index of the first one that is an end of the
text. -/
inductive Answered (given tokens : List Token) (stop : Nat) : Nat → Query → Reply → Nat → Prop where
  | peek {i : Nat} {t : Token} : tokens[i]? = some t → Answered given tokens stop i .peek (.token t) i
  /-- Further on than the last token there is the last token. -/
  | peekAt {i n : Nat} {t : Token} : tokens[min (i + n) (tokens.length - 1)]? = some t →
      Answered given tokens stop i (.peekAt n) (.token t) i
  | next {i : Nat} {t : Token} : tokens[i]? = some t → Answered given tokens stop i .next (.token t) (behind i t)
  | check {i : Nat} {t : Token} {kind : Kind} {b : Bool} : tokens[i]? = some t → (b = true ↔ t.kind.SameShape kind) →
      Answered given tokens stop i (.check kind) (.answer b) i
  /-- What has the shape that is asked for is taken. -/
  | accepted {i : Nat} {t : Token} {kind : Kind} : tokens[i]? = some t → t.kind.SameShape kind →
      Answered given tokens stop i (.accept kind) (.answer true) (behind i t)
  | expected {i : Nat} {t : Token} {kind : Kind} : tokens[i]? = some t → t.kind.SameShape kind →
      Answered given tokens stop i (.expect kind) (.token t) (behind i t)
  /-- What has another shape is not taken. -/
  | refused {i : Nat} {t : Token} {kind : Kind} : tokens[i]? = some t → ¬t.kind.SameShape kind →
      Answered given tokens stop i (.accept kind) (.answer false) i
  | mismatched {i : Nat} {t : Token} {kind : Kind} : tokens[i]? = some t → ¬t.kind.SameShape kind →
      Answered given tokens stop i (.expect kind) (.mismatch ⟨kind, t.kind, t.line, t.column⟩) i
  | isAtEnd {i : Nat} {b : Bool} : (b = true ↔ i = stop) → Answered given tokens stop i .isAtEnd (.answer b) i
  | hasErrors {i : Nat} {b : Bool} : (b = true ↔ ∃ t ∈ given, t.isError = true) →
      Answered given tokens stop i .hasErrors (.answer b) i
  | tokens {i : Nat} : Answered given tokens stop i .tokens (.tokens tokens) i

/-- What several questions are answered from an index on, one after the other, and the index behind them. -/
inductive Walked (given tokens : List Token) (stop : Nat) : Nat → List Query → List Reply → Nat → Prop where
  | nil {i : Nat} : Walked given tokens stop i [] [] i
  | cons {i j k : Nat} {q : Query} {r : Reply} {queries : List Query} {replies : List Reply} :
      Answered given tokens stop i q r j → Walked given tokens stop j queries replies k →
      Walked given tokens stop i (q :: queries) (r :: replies) k

variable {given tokens : List Token} {stop : Nat}

/-- Nothing is answered in two ways. -/
theorem Answered.unique {i j j' : Nat} {q : Query} {r r' : Reply} (h : Answered given tokens stop i q r j)
    (h' : Answered given tokens stop i q r' j') : r = r' ∧ j = j' := by
  have hsame : ∀ {k : Nat} {t t' : Token}, tokens[k]? = some t → tokens[k]? = some t' → t = t' := by
    intro k t t' ht ht'
    exact Option.some.inj (ht.symm.trans ht')
  have hanswer : ∀ {b b' : Bool} {p : Prop}, (b = true ↔ p) → (b' = true ↔ p) → b = b' := by
    intro b b' p hb hb'
    exact Bool.eq_iff_iff.mpr (hb.trans hb'.symm)
  cases h with
  | peek ht =>
    cases h' with
    | peek ht' => exact ⟨congrArg Reply.token (hsame ht ht'), rfl⟩
  | peekAt ht =>
    cases h' with
    | peekAt ht' => exact ⟨congrArg Reply.token (hsame ht ht'), rfl⟩
  | next ht =>
    cases h' with
    | next ht' =>
      obtain rfl := hsame ht ht'
      exact ⟨rfl, rfl⟩
  | check ht hb =>
    cases h' with
    | check ht' hb' =>
      obtain rfl := hsame ht ht'
      exact ⟨congrArg Reply.answer (hanswer hb hb'), rfl⟩
  | accepted ht hk =>
    cases h' with
    | accepted ht' _ =>
      obtain rfl := hsame ht ht'
      exact ⟨rfl, rfl⟩
    | refused ht' hn =>
      obtain rfl := hsame ht ht'
      exact absurd hk hn
  | expected ht hk =>
    cases h' with
    | expected ht' _ =>
      obtain rfl := hsame ht ht'
      exact ⟨rfl, rfl⟩
    | mismatched ht' hn =>
      obtain rfl := hsame ht ht'
      exact absurd hk hn
  | refused ht hn =>
    cases h' with
    | accepted ht' hk =>
      obtain rfl := hsame ht ht'
      exact absurd hk hn
    | refused _ _ => exact ⟨rfl, rfl⟩
  | mismatched ht hn =>
    cases h' with
    | expected ht' hk =>
      obtain rfl := hsame ht ht'
      exact absurd hk hn
    | mismatched ht' _ =>
      obtain rfl := hsame ht ht'
      exact ⟨rfl, rfl⟩
  | isAtEnd hb =>
    cases h' with
    | isAtEnd hb' => exact ⟨congrArg Reply.answer (hanswer hb hb'), rfl⟩
  | hasErrors hb =>
    cases h' with
    | hasErrors hb' => exact ⟨congrArg Reply.answer (hanswer hb hb'), rfl⟩
  | tokens =>
    cases h' with
    | tokens => exact ⟨rfl, rfl⟩

/-- A walk is settled by the questions. -/
theorem Walked.unique {i k k' : Nat} {queries : List Query} {replies replies' : List Reply}
    (h : Walked given tokens stop i queries replies k) (h' : Walked given tokens stop i queries replies' k') :
    replies = replies' ∧ k = k' := by
  induction h generalizing replies' with
  | nil =>
    cases h' with
    | nil => exact ⟨rfl, rfl⟩
  | cons hq _ ih =>
    cases h' with
    | cons hq' hrest =>
      obtain ⟨rfl, rfl⟩ := hq.unique hq'
      obtain ⟨rfl, rfl⟩ := ih hrest
      exact ⟨rfl, rfl⟩

/-- The index stays where it is, or goes on by one if its token is no end of the text. -/
theorem Answered.moves {i j : Nat} {q : Query} {r : Reply} (h : Answered given tokens stop i q r j) :
    j = i ∨ ∃ t, tokens[i]? = some t ∧ t.isEof = false ∧ j = i + 1 := by
  have htaken : ∀ {t : Token}, tokens[i]? = some t →
      behind i t = i ∨ ∃ u, tokens[i]? = some u ∧ u.isEof = false ∧ behind i t = i + 1 := by
    intro t ht
    unfold behind
    cases he : t.isEof with
    | true => exact Or.inl rfl
    | false => exact Or.inr ⟨t, ht, he, rfl⟩
  cases h with
  | next ht => exact htaken ht
  | accepted ht _ => exact htaken ht
  | expected ht _ => exact htaken ht
  | _ => exact Or.inl rfl

/-- A walk never goes past the first end of the text, and does not leave it. -/
theorem Walked.stays (hstop : FirstEof tokens stop) {i k : Nat} {queries : List Query} {replies : List Reply}
    (h : Walked given tokens stop i queries replies k) (hi : i ≤ stop) : i ≤ k ∧ k ≤ stop := by
  induction h with
  | nil => exact ⟨Nat.le_refl _, hi⟩
  | @cons i j k _ _ _ _ hq _ ih =>
    rcases hq.moves with rfl | ⟨t, ht, hn, rfl⟩
    · exact ih hi
    · have hne : i ≠ stop := by
        rintro rfl
        obtain ⟨t', ht', he⟩ := hstop.isEof
        rw [ht] at ht'
        rw [Option.some.inj ht', he] at hn
        cases hn
      obtain ⟨hle, hk⟩ := ih (by omega)
      exact ⟨by omega, hk⟩

/-! ## Cursors as indices -/

/-- How many tokens a cursor has taken. -/
def position (c : Cursor) : Nat := c.taken.length

/-- The cursor behind several questions. -/
def after (c : Cursor) (queries : List Query) : Cursor := queries.foldl (fun c q => (c.ask q).2) c

/-- A cursor marks an index of a sequence in front of which there is no end of the text. -/
structure Marks (c : Cursor) (tokens : List Token) : Prop where
  tokens : c.tokens = tokens
  taken : ∀ t ∈ c.taken, t.isEof = false

/-- A sequence ends in an end of the text. -/
def EndsInEof (tokens : List Token) : Prop := ∃ front e, tokens = front ++ [e] ∧ e.isEof = true

namespace Marks

variable {c : Cursor}

theorem getElem?_position (h : c.Marks tokens) : tokens[c.position]? = some c.current := by
  rw [← h.tokens, Cursor.tokens, position, List.getElem?_append_right (by simp)]
  simp

/-- No token in front of the index is an end of the text. -/
theorem isEof_of_lt (h : c.Marks tokens) {i : Nat} {t : Token} (hi : i < c.position) (ht : tokens[i]? = some t) :
    t.isEof = false := by
  rw [← h.tokens, Cursor.tokens, List.getElem?_append_left (by simpa [position] using hi)] at ht
  exact h.taken t (List.mem_reverse.mp (List.mem_of_getElem? ht))

/-- The index is not behind the first end of the text, and it is there exactly if the current token is one. -/
theorem isEof_iff (h : c.Marks tokens) (hstop : FirstEof tokens stop) :
    c.position ≤ stop ∧ (c.current.isEof = true ↔ c.position = stop) := by
  obtain ⟨t, ht, he⟩ := hstop.isEof
  have hle : c.position ≤ stop := by
    by_contra hn
    have hf := h.isEof_of_lt (Nat.lt_of_not_le hn) ht
    rw [he] at hf
    cases hf
  refine ⟨hle, fun hc => ?_, fun hp => ?_⟩
  · by_contra hn
    have hf := hstop.before _ _ (Nat.lt_of_le_of_ne hle hn) h.getElem?_position
    rw [hc] at hf
    cases hf
  · have hcurrent := h.getElem?_position
    rw [hp, ht] at hcurrent
    rw [← Option.some.inj hcurrent]
    exact he

/-- Looking ahead shows the token so many places on, or the last one. -/
theorem getElem?_peekAt (h : c.Marks tokens) (n : Nat) :
    tokens[min (c.position + n) (tokens.length - 1)]? = some (c.peekAt n) := by
  have hlength : tokens.length = c.position + (c.ahead.length + 1) := by
    rw [← h.tokens, Cursor.tokens, List.length_append, List.length_reverse, List.length_cons, position]
  have hahead : ∀ k, tokens[c.position + k]? = (c.current :: c.ahead)[k]? := by
    intro k
    rw [← h.tokens, Cursor.tokens, List.getElem?_append_right (by simp [position])]
    simp [position]
  unfold peekAt
  by_cases hn : n < c.ahead.length + 1
  · have hmin : min (c.position + n) (tokens.length - 1) = c.position + n := by omega
    have hsome := List.getElem?_eq_getElem (l := c.current :: c.ahead) (i := n) hn
    rw [hmin, hahead, hsome, List.headD_eq_head?_getD, List.head?_drop, hsome]
    rfl
  · have hmin : min (c.position + n) (tokens.length - 1) = c.position + c.ahead.length := by omega
    have hdrop : (c.current :: c.ahead).drop n = [] := List.drop_eq_nil_of_le (Nat.le_of_not_lt hn)
    rw [hmin, hahead, hdrop, List.headD_nil]
    have hlast := @List.getLast?_eq_getElem? _ (c.current :: c.ahead)
    rw [List.getLast?_cons, ← List.getLastD_eq_getLast?] at hlast
    exact hlast.symm

theorem advance (h : c.Marks tokens) (hlast : EndsInEof tokens) :
    c.advance.Marks tokens ∧ c.advance.position = behind c.position c.current := by
  unfold Cursor.advance behind
  cases he : c.current.isEof with
  | true => exact ⟨h, rfl⟩
  | false =>
    cases ha : c.ahead with
    | nil =>
      -- the last token is an end of the text
      obtain ⟨front, e, htokens, hlast⟩ := hlast
      have ht := congrArg List.getLast? (h.tokens.trans htokens)
      rw [Cursor.tokens, ha, List.getLast?_concat, List.getLast?_concat] at ht
      rw [Option.some.inj ht, hlast] at he
      cases he
    | cons t ts =>
      refine ⟨⟨?_, fun u hu => ?_⟩, rfl⟩
      · rw [← h.tokens, Cursor.tokens, Cursor.tokens, ha]
        simp
      · rcases List.mem_cons.mp hu with rfl | hu
        · exact he
        · exact h.taken u hu

end Marks

/-! ## Conversations -/

variable {c : Cursor}

/-- Whether what is asked for is found depends on the shape of the current token. -/
theorem check_iff (c : Cursor) (kind : Kind) : c.check kind = true ↔ c.current.kind.SameShape kind :=
  Kind.agrees_iff _ _

/-- Every question is answered at the index of the cursor, and the cursor is at the index behind it afterwards. -/
theorem answered_ask (h : c.Marks tokens) (hlast : EndsInEof tokens) (hstop : FirstEof tokens stop)
    (herrors : c.hasErrors = given.any Token.isError) (q : Query) :
    Answered given tokens stop c.position q (c.ask q).1 (c.ask q).2.position ∧ (c.ask q).2.Marks tokens := by
  have hcurrent := h.getElem?_position
  obtain ⟨hadvance, hposition⟩ := h.advance hlast
  cases q with
  | peek => exact ⟨Answered.peek hcurrent, h⟩
  | peekAt n => exact ⟨Answered.peekAt (h.getElem?_peekAt n), h⟩
  | next =>
    refine ⟨?_, hadvance⟩
    have hnext : Answered given tokens stop c.position .next (.token c.current) (behind c.position c.current) :=
      Answered.next hcurrent
    rwa [← hposition] at hnext
  | check kind => exact ⟨Answered.check hcurrent (c.check_iff kind), h⟩
  | accept kind =>
    simp only [ask, accept]
    split
    · next hk =>
      refine ⟨?_, hadvance⟩
      rw [hposition]
      exact Answered.accepted hcurrent ((c.check_iff kind).mp hk)
    · next hk => exact ⟨Answered.refused hcurrent (fun hs => hk ((c.check_iff kind).mpr hs)), h⟩
  | expect kind =>
    simp only [ask, expect]
    by_cases hk : c.check kind = true
    · rw [if_pos hk]
      refine ⟨?_, hadvance⟩
      simp only
      rw [hposition]
      exact Answered.expected hcurrent ((c.check_iff kind).mp hk)
    · rw [if_neg hk]
      exact ⟨Answered.mismatched hcurrent (fun hs => hk ((c.check_iff kind).mpr hs)), h⟩
  | isAtEnd => exact ⟨Answered.isAtEnd (h.isEof_iff hstop).2, h⟩
  | hasErrors =>
    refine ⟨Answered.hasErrors ?_, h⟩
    rw [herrors]
    exact List.any_eq_true
  | tokens =>
    refine ⟨?_, h⟩
    have ht : c.tokens = tokens := h.tokens
    simp only [ask, ht]
    exact Answered.tokens

theorem converse_append (c : Cursor) (queries queries' : List Query) :
    c.converse (queries ++ queries') = c.converse queries ++ (c.after queries).converse queries' := by
  induction queries generalizing c with
  | nil => rfl
  | cons q queries ih => exact congrArg ((c.ask q).1 :: ·) (ih (c.ask q).2)

/-- A conversation is a walk from the index of the cursor on. -/
theorem walked_converse (h : c.Marks tokens) (hlast : EndsInEof tokens) (hstop : FirstEof tokens stop)
    (herrors : tokens.any Token.isError = given.any Token.isError) (queries : List Query) :
    Walked given tokens stop c.position queries (c.converse queries) (c.after queries).position ∧
      (c.after queries).Marks tokens := by
  induction queries generalizing c with
  | nil => exact ⟨Walked.nil, h⟩
  | cons q queries ih =>
    have hc : c.hasErrors = given.any Token.isError := by
      rw [← herrors, ← h.tokens]
      rfl
    obtain ⟨hanswered, hmarks⟩ := answered_ask h hlast hstop hc q
    obtain ⟨hwalked, hafter⟩ := ih hmarks
    exact ⟨Walked.cons hanswered hwalked, hafter⟩

/-- Taking tokens one by one comes to the token so many places on, or to the first end of the text. -/
theorem getLast?_converse_next (h : c.Marks tokens) (hlast : EndsInEof tokens) (hstop : FirstEof tokens stop) (n : Nat) :
    (c.converse (List.replicate (n + 1) .next)).getLast? = tokens[min (c.position + n) stop]?.map Reply.token := by
  obtain ⟨hle, heof⟩ := h.isEof_iff hstop
  induction n generalizing c with
  | zero =>
    have hmin : min (c.position + 0) stop = c.position := by omega
    rw [hmin, h.getElem?_position]
    rfl
  | succ n ih =>
    obtain ⟨hadvance, hposition⟩ := h.advance hlast
    obtain ⟨hle', heof'⟩ := hadvance.isEof_iff hstop
    have hcons : c.converse (List.replicate (n + 1 + 1) .next) =
        [.token c.current] ++ c.advance.converse (List.replicate (n + 1) .next) := rfl
    have hne : c.advance.converse (List.replicate (n + 1) .next) ≠ [] := List.cons_ne_nil _ _
    have hmin : min (c.advance.position + n) stop = min (c.position + (n + 1)) stop := by
      rw [hposition]
      unfold behind
      cases he : c.current.isEof with
      | true =>
        have hp := heof.mp he
        simp only [if_true]
        omega
      | false =>
        simp only [Bool.false_eq_true, if_false]
        omega
    rw [hcons, List.getLast?_append_of_ne_nil _ hne, ih hadvance hle' heof', hmin]

/-- Where only the last token is an end of the text, looking ahead from anywhere shows what taking tokens comes to. -/
theorem getLast?_converse_peekAt (h : c.Marks tokens) (hlast : EndsInEof tokens) (hstop : FirstEof tokens stop)
    (honly : stop = tokens.length - 1) (n : Nat) :
    (c.converse [.peekAt n]).getLast? = (c.converse (List.replicate (n + 1) .next)).getLast? := by
  rw [getLast?_converse_next h hlast hstop, honly, h.getElem?_peekAt]
  rfl

/-! ## Cursors over tokens -/

/-- A sequence that ends in an end of the text has a first one. -/
theorem firstEof_findIdx (h : EndsInEof tokens) : FirstEof tokens (tokens.findIdx Token.isEof) := by
  obtain ⟨front, e, htokens, he⟩ := h
  have hlt : tokens.findIdx Token.isEof < tokens.length :=
    List.findIdx_lt_length_of_exists ⟨e, by simp [htokens], he⟩
  refine ⟨⟨tokens[tokens.findIdx Token.isEof], List.getElem?_eq_getElem hlt, List.findIdx_getElem⟩, fun i t hi ht => ?_⟩
  obtain ⟨hlength, rfl⟩ := List.getElem?_eq_some_iff.mp ht
  exact List.not_of_lt_findIdx hi

/-- Where no token in front of the last one is an end of the text, the last one is the first. -/
theorem stop_eq_last (hstop : FirstEof tokens stop) (h : ∀ t ∈ tokens.dropLast, t.isEof = false) :
    stop = tokens.length - 1 := by
  obtain ⟨t, ht, he⟩ := hstop.isEof
  have hlt := (List.getElem?_eq_some_iff.mp ht).1
  by_contra hn
  have hf : t.isEof = false := by
    refine h t (List.mem_of_getElem? (i := stop) ?_)
    rw [List.getElem?_dropLast, if_pos (by omega)]
    exact ht
  rw [he] at hf
  cases hf

/-- One end of the text is put behind tokens that do not end in one, and none behind others. -/
theorem terminated_cases (given : List Token) : (EndsInEof given ∧ terminated given = given) ∨
    (¬EndsInEof given ∧ ∃ e, e.isEof = true ∧ terminated given = given ++ [e]) := by
  have hends : given.getLast?.any Token.isEof = true ↔ EndsInEof given := by
    rw [Option.any_eq_true]
    constructor
    · rintro ⟨e, hl, he⟩
      obtain ⟨front, hf⟩ := List.getLast?_eq_some_iff.mp hl
      exact ⟨front, e, hf, he⟩
    · rintro ⟨front, e, rfl, he⟩
      exact ⟨e, List.getLast?_concat, he⟩
  unfold terminated
  by_cases h : given.getLast?.any Token.isEof = true
  · rw [if_pos h]
    exact Or.inl ⟨hends.mp h, rfl⟩
  · rw [if_neg h]
    refine Or.inr ⟨fun he => h (hends.mpr he), eofBehind given.getLast?, ?_, rfl⟩
    cases given.getLast? <;> rfl

theorem endsInEof_terminated (given : List Token) : EndsInEof (terminated given) := by
  rcases terminated_cases given with ⟨h, ht⟩ | ⟨-, e, he, ht⟩
  · rwa [ht]
  · exact ⟨given, e, ht, he⟩

/-- An end of the text behind tokens leaves none in front of the last of them, if there was none before. -/
theorem isEof_of_mem_dropLast {given : List Token} (h : ∀ t ∈ given.dropLast, t.isEof = false) :
    ∀ t ∈ (terminated given).dropLast, t.isEof = false := by
  intro t hm
  rcases terminated_cases given with ⟨-, ht⟩ | ⟨hn, e, -, ht⟩
  · rw [ht] at hm
    exact h t hm
  · rw [ht, List.dropLast_concat] at hm
    rcases List.eq_nil_or_concat' given with rfl | ⟨front, last, rfl⟩
    · exact absurd hm List.not_mem_nil
    · rcases List.mem_append.mp hm with hm | hm
      · exact h t (by rwa [List.dropLast_concat])
      · rw [List.mem_singleton.mp hm]
        by_contra he
        exact hn ⟨front, last, rfl, by simpa using he⟩

theorem marks_ofTokens (given : List Token) : (ofTokens given).Marks (terminated given) ∧ (ofTokens given).position = 0 := by
  obtain ⟨front, e, ht, -⟩ := endsInEof_terminated given
  obtain ⟨t, ts, hcons⟩ := List.exists_cons_of_ne_nil (show terminated given ≠ [] by simp [ht])
  have hcursor : ofTokens given = ⟨[], t, ts⟩ := by
    unfold ofTokens
    rw [hcons]
  rw [hcursor, hcons]
  exact ⟨⟨rfl, fun u hu => absurd hu List.not_mem_nil⟩, rfl⟩

/-- What a cursor over some tokens does: it is an index into `tokens`, and `stop` is the index of the first end of the text
there. -/
structure Walks (given tokens : List Token) (stop : Nat) : Prop where
  /-- One end of the text is put behind tokens that do not end in one. -/
  terminated : (EndsInEof given ∧ tokens = given) ∨ (¬EndsInEof given ∧ ∃ e, e.isEof = true ∧ tokens = given ++ [e])
  first : FirstEof tokens stop
  /-- Whatever is asked is answered as it is at the index, and in no other way. -/
  walked : ∀ queries replies i, Walked given tokens stop 0 queries replies i ↔
    replies = (ofTokens given).converse queries ∧ i = ((ofTokens given).after queries).position
  /-- The index never goes past the first end of the text. -/
  bounded : ∀ queries, ((ofTokens given).after queries).position ≤ stop
  /-- Once at the first end of the text, the index stays there. -/
  stays : ∀ queries more, ((ofTokens given).after queries).position = stop →
    ((ofTokens given).after (queries ++ more)).position = stop
  /-- Without an end of the text in front of the last token, looking ahead shows what taking tokens comes to. -/
  lookahead : (∀ t ∈ given.dropLast, t.isEof = false) → ∀ queries n,
    ((ofTokens given).converse (queries ++ [.peekAt n])).getLast? =
      ((ofTokens given).converse (queries ++ List.replicate (n + 1) .next)).getLast?

/-- A cursor over any tokens is an index into a sequence that does not change, the tokens with an end of the text behind them
if they do not end in one, and goes no further in it than to the first end of the text. -/
theorem cursor_walks (given : List Token) :
    Walks given (ofTokens given).tokens ((ofTokens given).tokens.findIdx Token.isEof) := by
  obtain ⟨hmarks, hposition⟩ := marks_ofTokens given
  have hlast := endsInEof_terminated given
  rw [hmarks.tokens]
  generalize hstop : (Cursor.terminated given).findIdx Token.isEof = stop
  have hfirst : FirstEof (Cursor.terminated given) stop := by
    rw [← hstop]
    exact firstEof_findIdx hlast
  have herrors : (Cursor.terminated given).any Token.isError = given.any Token.isError := by
    rw [← hasErrors_ofTokens given, ← hmarks.tokens]
    rfl
  have hwalked := fun queries => walked_converse hmarks hlast hfirst herrors queries
  rw [hposition] at hwalked
  refine ⟨terminated_cases given, hfirst, fun queries replies i => ⟨fun h => ?_, ?_⟩, fun queries => ?_,
    fun queries more hq => ?_, fun honly queries n => ?_⟩
  · exact h.unique (hwalked queries).1
  · rintro ⟨rfl, rfl⟩
    exact (hwalked queries).1
  · exact ((hwalked queries).1.stays hfirst (Nat.zero_le _)).2
  · have hmore := (walked_converse (hwalked queries).2 hlast hfirst herrors more).1
    have hstays := hmore.stays hfirst (Nat.le_of_eq hq)
    have hafter : (ofTokens given).after (queries ++ more) = ((ofTokens given).after queries).after more :=
      List.foldl_append
    rw [hafter]
    omega
  · have hlookahead := getLast?_converse_peekAt (hwalked queries).2 hlast hfirst
      (stop_eq_last hfirst (isEof_of_mem_dropLast honly)) n
    rw [converse_append, converse_append, List.getLast?_append, List.getLast?_append, hlookahead]

/-- Past an end of the text in the middle a cursor looks, but does not go. -/
example :
    let x : Token := ⟨.identifier, "x", 1, 1, ⟨0, 1⟩, none⟩
    (ofTokens [.eof .first, x]).converse [.next, .next, .peekAt 1, .isAtEnd] =
      [.token (.eof .first), .token (.eof .first), .token x, .answer true] := rfl

end Cursor

end MiniLex
