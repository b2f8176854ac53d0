import MiniLex.Proofs.Errors

/-!
# Lookahead

A lexeme is read off its own text and at most two characters of the text behind it, and of those only what stands in front
of the first blank (`glimpse`). So the text behind it may be exchanged for any other that shows nothing new there
(`Lexeme.EndsBefore.of_glimpse`); only a string literal that is not closed has to know where its line or the text ends. That
a lexeme ends before a text is said shape by shape, in terms of that text (`Lexeme.EndsBefore`), and it is the same as being
read there (`Lexeme.endsBefore_of_read?`, `Lexeme.read?_of_endsBefore`).
-/

namespace MiniLex

open Grammar

/-! ## What is looked at -/

/-- What is looked at of the text behind a lexeme: two characters, or fewer where a blank or the end of the text comes before
them. -/
def glimpse (cs : List Char) : List Char := (cs.take 2).takeWhile (fun c => !isBlank c)

theorem glimpse_eq_nil {cs : List Char} (h : ∀ c, cs.head? = some c → isBlank c = true) : glimpse cs = [] := by
  cases cs with
  | nil => rfl
  | cons c cs => simp [glimpse, h c rfl]

/-- A blank and what stands behind it show nothing new. -/
theorem glimpse_append_blank {c : Char} (cs ds : List Char) (hc : isBlank c = true) : glimpse (cs ++ c :: ds) <+: cs := by
  match cs with
  | [] => simp [glimpse, hc]
  | [d] =>
    cases hd : isBlank d <;> simp [glimpse, hc, hd]
  | d :: e :: cs =>
    refine (List.takeWhile_prefix _).trans ?_
    simp [List.cons_prefix_cons]

/-- Of a text with two characters or more, what stands behind it is not looked at. -/
theorem glimpse_append {cs : List Char} (h : 2 ≤ cs.length) (ds es : List Char) : glimpse (cs ++ ds) <+: cs ++ es := by
  refine (List.takeWhile_prefix _).trans ?_
  rw [List.take_append_of_le_length h]
  exact (List.take_prefix 2 cs).trans (List.prefix_append cs es)

variable {rest rest' : List Char}

theorem head?_of_glimpse (h : glimpse rest' <+: rest) {c : Char} (hc : rest'.head? = some c) (hn : isBlank c = false) :
    rest.head? = some c := by
  obtain ⟨tail, rfl⟩ := List.head?_eq_some_iff.mp hc
  obtain ⟨more, rfl⟩ := h
  simp [glimpse, hn]

theorem eq_cons_cons_of_glimpse (h : glimpse rest' <+: rest) {c d : Char} {tail : List Char} (hc : rest' = c :: d :: tail)
    (hn : isBlank c = false) (hd : isBlank d = false) : ∃ more, rest = c :: d :: more := by
  obtain ⟨more, rfl⟩ := h
  exact ⟨more, by simp [hc, glimpse, hn, hd]⟩

/-- Where a run of characters with a property stops, it stops before any text that shows nothing new, if no blank has the
property. -/
theorem stop_of_glimpse (h : glimpse rest' <+: rest) {p : Char → Bool} (hp : ∀ c, isBlank c = true → p c = false)
    (hs : ∀ c, rest.head? = some c → p c = false) : ∀ c, rest'.head? = some c → p c = false := by
  intro c hc
  cases hb : isBlank c with
  | true => exact hp c hb
  | false => exact hs c (head?_of_glimpse h hc hb)

theorem isWordPart_of_isBlank (c : Char) (h : isBlank c = true) : isWordPart c = false := by
  rcases (isBlank_iff c).mp h with rfl | rfl | rfl | rfl <;> decide

theorem isDigit_of_isBlank (c : Char) (h : isBlank c = true) : c.isDigit = false := by
  rcases (isBlank_iff c).mp h with rfl | rfl | rfl | rfl <;> rfl

theorem table_not_blank : ∀ entry ∈ Symbol.table, ∀ c ∈ entry.1, isBlank c = false := by
  have h : ∀ entry ∈ Symbol.table, entry.1.all (fun c => !isBlank c) = true := by decide
  intro entry hm c hc
  have hall := List.all_eq_true.mp (h entry hm) c hc
  simpa using hall

/-- An operator or delimiter that begins with a character shows whether it goes on. -/
theorem table_prefix_of_glimpse (h : glimpse rest' <+: rest) {c : Char} {entry : List Char × Kind}
    (hm : entry ∈ Symbol.table) (hp : entry.1 <+: c :: rest') : entry.1 <+: c :: rest := by
  obtain ⟨a, as, ha, -⟩ := table_first entry hm
  rw [ha, List.cons_prefix_cons] at hp ⊢
  refine ⟨hp.1, ?_⟩
  match as, ha, hp.2 with
  | [], _, _ => exact List.nil_prefix
  | [d], ha, hd =>
    obtain ⟨tail, rfl⟩ := hd
    have hb := table_not_blank entry hm d (by simp [ha])
    obtain ⟨more, rfl⟩ := List.head?_eq_some_iff.mp (head?_of_glimpse h (c := d) rfl hb)
    exact ⟨more, rfl⟩
  | d :: e :: as, ha, _ =>
    have hl := table_length entry hm
    simp only [ha, List.length_cons] at hl
    omega

/-! ## Where nothing but a token can begin -/

/-- What stands between tokens is known by its first character, or by its first two if it is a comment. -/
theorem startsBetween_iff (cs : List Char) : StartsBetween cs ↔
    (∃ c, cs.head? = some c ∧ isBlank c = true) ∨ ∃ c tail, cs = '/' :: c :: tail ∧ (c = '/' ∨ c = '*') := by
  constructor
  · rintro (⟨piece, rest, rfl, hp⟩ | ⟨body, rfl, -⟩)
    · cases hp with
      | @blank c _ hc => exact Or.inl ⟨c, rfl, (isBlank_iff c).mpr hc⟩
      | lineComment => exact Or.inr ⟨'/', _, rfl, Or.inl rfl⟩
      | blockComment => exact Or.inr ⟨'*', _, rfl, Or.inr rfl⟩
    · exact Or.inr ⟨'*', body, rfl, Or.inr rfl⟩
  · intro h
    by_contra hn
    rw [← Trivia.read?_eq_none_iff] at hn
    rcases h with ⟨c, hc, hb⟩ | ⟨c, tail, rfl, rfl | rfl⟩
    · obtain ⟨tail, rfl⟩ := List.head?_eq_some_iff.mp hc
      rcases (isBlank_iff c).mp hb with rfl | rfl | rfl | rfl <;> cases hn
    · cases hn
    · simp only [Trivia.read?] at hn
      split at hn <;> cases hn

/-- Behind a text that is not empty, nothing new makes no difference to whether it begins with a blank or a comment. -/
theorem not_startsBetween_of_glimpse (h : glimpse rest' <+: rest) {text : List Char} (ht : text ≠ [])
    (hn : ¬StartsBetween (text ++ rest)) : ¬StartsBetween (text ++ rest') := by
  rw [startsBetween_iff, not_or] at hn ⊢
  obtain ⟨c, cs, rfl⟩ := List.exists_cons_of_ne_nil ht
  refine ⟨hn.1, ?_⟩
  rintro ⟨d, tail, he, hd⟩
  obtain ⟨rfl, htail⟩ := List.cons.inj he
  refine hn.2 ?_
  cases cs with
  | nil =>
    obtain rfl : rest' = d :: tail := htail
    have hb : isBlank d = false := by rcases hd with rfl | rfl <;> rfl
    obtain ⟨more, rfl⟩ := List.head?_eq_some_iff.mp (head?_of_glimpse h (c := d) rfl hb)
    exact ⟨d, more, rfl, hd⟩
  | cons e cs =>
    have hed : e = d := (List.cons.inj htail).1
    exact ⟨e, cs ++ rest, rfl, hed ▸ hd⟩

theorem not_startsBetween_quote (cs : List Char) : ¬StartsBetween ('"' :: cs) := by
  rw [startsBetween_iff]
  rintro (⟨c, hc, hb⟩ | ⟨c, tail, he, -⟩)
  · obtain rfl := Option.some.inj hc
    cases hb
  · exact absurd (List.cons.inj he).1 (by decide)

/-! ## String literals -/

namespace Quoted

/-- A literal that breaks off does not do so inside a line break. -/
theorem uncut_split (cs : List Char) (h : (split cs).ending = .lineBreak) : Uncut (split cs).body (split cs).rest := by
  have hr := Lexeme.reads_ofQuoted cs
  have ht : (Lexeme.ofQuoted (split cs)).text = '"' :: (split cs).body := by
    rw [Lexeme.text_ofQuoted, h, Ending.text, List.append_nil]
  rw [ht] at hr
  exact (hr.seam (not_startsBetween_quote _)).uncut.tail

/-- Units in front of a line break are split off there, unless the two cut a line break in two. -/
theorem split_units_break {body rest : List Char} {c : Char} (h : Units body) (hc : c = '\r' ∨ c = '\n')
    (hu : Uncut body (c :: rest)) : split (body ++ c :: rest) = ⟨body, .lineBreak, c :: rest⟩ := by
  induction h with
  | nil => rcases hc with rfl | rfl <;> rfl
  | @plain d cs h1 h2 h3 h4 _ ih =>
    have hb : isBreak d = false := by
      rw [Bool.eq_false_iff, ne_eq, isBreak_iff]
      exact not_or.mpr ⟨h3, h4⟩
    rw [List.cons_append, split.eq_5 d (cs ++ c :: rest) (fun h => h1 h) (fun _ h => absurd h h2)
      (fun _ _ h => absurd h h2), hb, ih hu.tail]
    rfl
  | @escapedBreak cs _ ih =>
    simp only [List.cons_append, split, ih hu.tail.tail.tail]
    rfl
  | @escaped d cs hu' ih =>
    have hn : ∀ tail, d = '\r' → cs ++ c :: rest = '\n' :: tail → False := by
      rintro tail rfl ht
      cases cs with
      | nil => exact hu.tail ⟨rfl, by rw [← (List.cons.inj ht).1]; rfl⟩
      | cons e cs => exact (not_units_cons hu').2.2.1 (List.cons.inj ht).1
    rw [List.cons_append, List.cons_append, split.eq_4 d (cs ++ c :: rest) hn, ih hu.tail.tail]
    rfl

end Quoted

theorem Grammar.WordKind.not_string {word : List Char} {kind : Kind} (h : WordKind word kind) : kind ≠ .literal .string := by
  cases h <;> simp

/-- What has the pattern of a string literal consists of units between quotes. -/
theorem Grammar.Matches.quoted {text : List Char} (h : Matches (.literal .string) text) :
    ∃ body, Units body ∧ text = '"' :: (body ++ ['"']) := by
  generalize hk : Kind.literal .string = kind at h
  cases h with
  | word _ _ hw => exact absurd hk.symm hw.not_string
  | @string body hu => exact ⟨body, hu, rfl⟩
  | _ => simp at hk

/-! ## Lexemes before a text -/

namespace Lexeme

/-- A lexeme ends before a text: it has one of the shapes of lexemes, and the text does not make it go on. -/
inductive EndsBefore : Lexeme → List Char → Prop where
  /-- A word goes on with every character that may be part of one. -/
  | word {c : Char} {cs rest : List Char} : isWordStart c = true → (∀ d ∈ cs, isWordPart d = true) →
      (∀ d, rest.head? = some d → isWordPart d = false) → EndsBefore (ofWord (c :: cs)) rest
  /-- A run of digits goes on with a digit, or with a point and a digit. -/
  | digits {digits rest : List Char} : Digits digits → (∀ d, rest.head? = some d → d.isDigit = false) →
      (∀ d tail, rest = '.' :: d :: tail → d.isDigit = false) → EndsBefore (ofDigits digits) rest
  /-- Behind its point a number goes on with a digit. -/
  | decimal {whole fraction rest : List Char} : Digits whole → Digits fraction →
      (∀ d, rest.head? = some d → d.isDigit = false) → EndsBefore (ofDecimal whole fraction) rest
  /-- A string literal that is closed goes on with nothing. -/
  | quoted {body rest : List Char} : Units body →
      EndsBefore ⟨.literal .string, some (.string (String.ofList (Quoted.decode body))), '"' :: (body ++ ['"'])⟩ rest
  /-- A string literal that is not closed goes on up to a line break, which a backslash may still escape as a whole. -/
  | broken {body rest : List Char} {c : Char} : Units body → c = '\r' ∨ c = '\n' → Uncut body (c :: rest) →
      EndsBefore ⟨.error .brokenString, none, '"' :: body⟩ (c :: rest)
  /-- A string literal that is not closed may go on to the end of the text. -/
  | endless {body : List Char} : Quoted.split body = ⟨body, .endOfText, []⟩ →
      EndsBefore ⟨.error .endlessString, none, '"' :: body⟩ []
  /-- An operator or delimiter goes on to the longest one. -/
  | symbol {spelling rest : List Char} {kind : Kind} : (spelling, kind) ∈ Symbol.table →
      (∀ entry ∈ Symbol.table, entry.1 <+: spelling ++ rest → entry.1.length ≤ spelling.length) →
      EndsBefore ⟨kind, none, spelling⟩ rest
  /-- A stray character goes on to an operator. -/
  | stray {c : Char} {rest : List Char} : c ≠ '"' → isWordStart c = false → c.isDigit = false →
      (∀ entry ∈ Symbol.table, ¬entry.1 <+: c :: rest) → EndsBefore ⟨.error (.ofStray c), none, [c]⟩ rest

/-- A number that is read ends before the text behind it. -/
theorem endsBefore_readNumber {c : Char} (cs : List Char) (hc : c.isDigit = true) :
    EndsBefore (readNumber (c :: cs)).1 (readNumber (c :: cs)).2 := by
  have hw : Digits ((c :: cs).takeWhile Char.isDigit) := digits_takeWhile hc
  unfold readNumber
  simp only
  split
  · next behind hb =>
    split
    · next he =>
      refine EndsBefore.digits hw not_of_head?_dropWhile (fun d tail ht => ?_)
      rw [hb] at ht
      obtain rfl := (List.cons.inj ht).2
      by_contra hd
      rw [Bool.not_eq_false] at hd
      simp [hd] at he
    · next he =>
      have hd : Digits (behind.takeWhile Char.isDigit) := ⟨fun h => he (List.isEmpty_iff.mpr h), of_mem_takeWhile⟩
      exact EndsBefore.decimal hw hd not_of_head?_dropWhile
  · next hn => exact EndsBefore.digits hw not_of_head?_dropWhile (fun d tail ht => absurd ht (hn _))

/-- A string literal that is read ends before the text behind it. -/
theorem endsBefore_ofQuoted (cs : List Char) : EndsBefore (ofQuoted (Quoted.split cs)) (Quoted.split cs).rest := by
  obtain ⟨units, dangling, hb, hu, hd⟩ := Quoted.units_split cs
  have hcs := Quoted.body_append_split cs
  cases he : (Quoted.split cs).ending with
  | quote =>
    obtain rfl : dangling = [] := by simpa [he] using hd
    rw [List.append_nil] at hb
    simp only [ofQuoted, he, hb, Quoted.Ending.text]
    exact EndsBefore.quoted hu
  | lineBreak =>
    obtain rfl : dangling = [] := by simpa [he] using hd
    rw [List.append_nil] at hb
    obtain ⟨c, rest, hr, hc⟩ := Quoted.rest_of_lineBreak cs he
    have hcut := Quoted.uncut_split cs he
    simp only [hb, hr] at hcut
    simp only [ofQuoted, he, hb, hr, Quoted.Ending.text, List.append_nil]
    exact EndsBefore.broken hu hc hcut
  | endOfText =>
    have hr := Quoted.rest_of_endOfText cs he
    simp only [he, hr, Quoted.Ending.text, List.append_nil] at hcs
    have hsplit : Quoted.split cs = ⟨cs, .endOfText, []⟩ := by
      rw [← he, ← hr]
      exact congrArg (fun body => Quoted.Split.mk body _ _) hcs
    simp only [ofQuoted, he, hr, hcs, Quoted.Ending.text, List.append_nil]
    exact EndsBefore.endless hsplit

/-- A symbol that is read ends before the text behind it. -/
theorem endsBefore_readSymbol {c : Char} (cs : List Char) (hq : c ≠ '"') (hw : isWordStart c = false)
    (hd : c.isDigit = false) : EndsBefore (readSymbol c cs).1 (readSymbol c cs).2 := by
  have ht := text_append_readSymbol c cs
  unfold readSymbol at *
  split
  · next spelling kind h =>
    simp only [h] at ht
    obtain ⟨hm, -, hlong⟩ := longestPrefix_symbol h
    refine EndsBefore.symbol hm (fun entry he hp => ?_)
    rw [ht] at hp
    exact hlong entry he hp
  · next h => exact EndsBefore.stray hq hw hd (not_prefix_of_symbol h)

/-- What is read ends before the text behind it. -/
theorem endsBefore_of_read? {cs rest : List Char} {l : Lexeme} (h : read? cs = some (l, rest)) : l.EndsBefore rest := by
  unfold read? at h
  split at h
  · simp at h
  · next c cs =>
    split at h
    · obtain ⟨rfl, rfl⟩ := by simpa using h
      exact endsBefore_ofQuoted cs
    · next hq =>
      split at h
      · next hw =>
        obtain ⟨rfl, rfl⟩ := by simpa using h
        exact EndsBefore.word hw of_mem_takeWhile not_of_head?_dropWhile
      · next hw =>
        rw [Bool.not_eq_true] at hw
        split at h
        · next hd =>
          have hr := endsBefore_readNumber cs hd
          rwa [Option.some.inj h] at hr
        · next hd =>
          rw [Bool.not_eq_true] at hd
          have hr := endsBefore_readSymbol cs hq hw hd
          rwa [Option.some.inj h] at hr

/-- A number is read whole where no text makes it go on. -/
theorem read?_number {c : Char} {cs rest : List Char} (hc : c.isDigit = true) :
    read? (c :: cs ++ rest) = some (readNumber (c :: cs ++ rest)) := by
  have hq : c ≠ '"' := by
    rintro rfl
    cases hc
  simp only [List.cons_append, read?, if_neg hq, isWordStart_of_isDigit c hc, Bool.false_eq_true, if_false, hc, if_true]

/-- A symbol is read where no word, number or string literal begins. -/
theorem read?_other {c : Char} {cs : List Char} (hq : c ≠ '"') (hw : isWordStart c = false) (hd : c.isDigit = false) :
    read? (c :: cs) = some (readSymbol c cs) := by
  simp only [read?, if_neg hq, hw, hd, Bool.false_eq_true, if_false]

/-- A run of digits is read where neither a digit nor a point with a digit follows. -/
theorem readNumber_digits {digits rest : List Char} (hd : Digits digits)
    (hr : ∀ d, rest.head? = some d → d.isDigit = false) (hf : ∀ d tail, rest = '.' :: d :: tail → d.isDigit = false) :
    readNumber (digits ++ rest) = (ofDigits digits, rest) := by
  unfold readNumber
  simp only [takeWhile_append_of_stop hd.2 hr, dropWhile_append_of_stop hd.2 hr]
  split
  · next behind =>
    have hb : behind.takeWhile Char.isDigit = [] := by
      cases behind with
      | nil => rfl
      | cons d tail => simp [hf d tail rfl]
    rw [hb]
    rfl
  · rfl

/-- A number with a point is read where no digit follows. -/
theorem readNumber_decimal {whole fraction rest : List Char} (hw : Digits whole) (hf : Digits fraction)
    (hr : ∀ d, rest.head? = some d → d.isDigit = false) :
    readNumber (whole ++ '.' :: (fraction ++ rest)) = (ofDecimal whole fraction, rest) := by
  have hpoint : ∀ d, ('.' :: (fraction ++ rest)).head? = some d → d.isDigit = false := by
    intro d hd
    obtain rfl : '.' = d := by simpa using hd
    rfl
  unfold readNumber
  simp only [takeWhile_append_of_stop hw.2 hpoint, dropWhile_append_of_stop hw.2 hpoint,
    takeWhile_append_of_stop hf.2 hr, dropWhile_append_of_stop hf.2 hr]
  rw [if_neg (by simpa using hf.1)]

/-- An operator or delimiter is found where it is the longest. -/
theorem symbol_of_longest {spelling rest : List Char} {kind : Kind} (hm : (spelling, kind) ∈ Symbol.table)
    (hlong : ∀ entry ∈ Symbol.table, entry.1 <+: spelling ++ rest → entry.1.length ≤ spelling.length) :
    Symbol.read? (spelling ++ rest) = some (spelling, kind) := by
  cases hr : Symbol.read? (spelling ++ rest) with
  | none => exact absurd (List.prefix_append _ _) (not_prefix_of_symbol hr _ hm)
  | some found =>
    obtain ⟨spelling', kind'⟩ := found
    obtain ⟨hm', hp', hlong'⟩ := longestPrefix_symbol hr
    have hle := hlong' _ hm (List.prefix_append _ _)
    have hge := hlong _ hm' hp'
    have hs : spelling' = spelling :=
      (List.prefix_of_prefix_length_le hp' (List.prefix_append _ _) hge).eq_of_length (Nat.le_antisymm hge hle)
    have hk : kind' = kind := table_unique _ hm' _ hm hs
    rw [hs, hk]

theorem symbol_of_not_prefix {cs : List Char} (hn : ∀ entry ∈ Symbol.table, ¬entry.1 <+: cs) : Symbol.read? cs = none := by
  cases hr : Symbol.read? cs with
  | none => rfl
  | some found =>
    obtain ⟨hm, hp, -⟩ := longestPrefix_symbol hr
    exact absurd hp (hn _ hm)

/-- A lexeme that ends before a text is what is read in front of it. -/
theorem read?_of_endsBefore {l : Lexeme} {rest : List Char} (h : l.EndsBefore rest) :
    read? (l.text ++ rest) = some (l, rest) := by
  cases h with
  | @word c cs _ hc hcs hr =>
    have hq : c ≠ '"' := by
      rintro rfl
      revert hc
      decide
    rw [text_ofWord, List.cons_append, read?, if_neg hq, if_pos hc, takeWhile_append_of_stop hcs hr,
      dropWhile_append_of_stop hcs hr]
  | @digits digits _ hd hr hf =>
    obtain ⟨c, cs, rfl⟩ := List.exists_cons_of_ne_nil hd.1
    rw [text_ofDigits, read?_number (hd.2 c (by simp)), readNumber_digits hd hr hf]
  | @decimal whole fraction _ hw hf hr =>
    obtain ⟨c, cs, rfl⟩ := List.exists_cons_of_ne_nil hw.1
    have ht : (ofDecimal (c :: cs) fraction).text ++ rest = c :: cs ++ '.' :: (fraction ++ rest) := by simp [ofDecimal]
    rw [ht, read?_number (hw.2 c (by simp)), readNumber_decimal hw hf hr]
  | @quoted body _ hu =>
    have ht : ('"' :: (body ++ ['"'])) ++ rest = '"' :: (body ++ '"' :: rest) := by simp
    simp only [ht, read?, if_true, Quoted.split_units rest hu]
    rfl
  | @broken body rest c hu hc hcut =>
    simp only [List.cons_append, read?, if_true, Quoted.split_units_break hu hc hcut, ofQuoted, Quoted.Ending.text,
      List.append_nil]
  | @endless body hs =>
    simp only [List.append_nil, read?, if_true, hs, ofQuoted, Quoted.Ending.text]
  | @symbol spelling rest kind hm hlong =>
    obtain ⟨c, cs, hc, hw, hd, hq⟩ := table_first _ hm
    obtain rfl : spelling = c :: cs := hc
    rw [List.cons_append, read?_other hq hw hd, readSymbol, ← List.cons_append, symbol_of_longest hm hlong]
    simp
  | @stray c rest hq hw hd hn =>
    simp only [List.cons_append, List.nil_append, read?_other hq hw hd, readSymbol, symbol_of_not_prefix hn]

/-! ## Lexemes with a quote -/

/-- No line break in a text unless it is one, and no quote. -/
def Plain (text : List Char) : Prop := '"' ∉ text ∧ ∀ c ∈ text, isBreak c = true → text = [c]

/-- A text of characters with a property is plain if no quote and no line break has the property. -/
theorem Plain.of_forall {p : Char → Bool} {text : List Char} (ht : ∀ c ∈ text, p c = true) (hq : p '"' = false)
    (hr : p '\r' = false) (hn : p '\n' = false) : Plain text := by
  refine ⟨fun hm => ?_, fun c hm hb => ?_⟩
  · simp [ht _ hm] at hq
  · rcases (isBreak_iff c).mp hb with rfl | rfl
    · simp [ht _ hm] at hr
    · simp [ht _ hm] at hn

/-- A lexeme is plain, and then nothing that is wrong with it shows only at its end, or it is a string literal, or one that is
not closed. -/
theorem EndsBefore.plain_or_quoted {l : Lexeme} {rest : List Char} (h : l.EndsBefore rest) :
    (Plain l.text ∧ ∀ e, l.kind = .error e → e.showsAtEnd = false) ∨
    (∃ body, Units body ∧
      l = ⟨.literal .string, some (.string (String.ofList (Quoted.decode body))), '"' :: (body ++ ['"'])⟩) ∨
    (∃ body c tail, Units body ∧ l = ⟨.error .brokenString, none, '"' :: body⟩ ∧ rest = c :: tail ∧
      (c = '\r' ∨ c = '\n') ∧ Uncut body rest) ∨
    ∃ body, Quoted.split body = ⟨body, .endOfText, []⟩ ∧ l = ⟨.error .endlessString, none, '"' :: body⟩ ∧ rest = [] := by
  have hsound : ∀ {kind : Kind}, kind.isError = false → ∀ e, kind = .error e → e.showsAtEnd = false := by
    rintro kind hn e rfl
    cases hn
  cases h with
  | @word c cs _ hc hcs _ =>
    refine Or.inl ⟨?_, hsound (wordKind_ofWord (c :: cs)).not_number.1⟩
    rw [text_ofWord]
    refine Plain.of_forall (p := isWordPart) (fun d hd => ?_) (by decide) (by decide) (by decide)
    rcases List.mem_cons.mp hd with rfl | hd
    · exact isWordPart_of_isWordStart d hc
    · exact hcs d hd
  | @digits digits _ hd _ _ =>
    refine Or.inl ⟨?_, fun e he => ?_⟩
    · rw [text_ofDigits]
      exact Plain.of_forall hd.2 (by decide) (by decide) (by decide)
    · unfold ofDigits at he
      simp only at he
      split at he
      · cases he
      · cases he
        rfl
  | @decimal whole fraction _ hw hf _ =>
    refine Or.inl ⟨?_, fun e he => ?_⟩
    · refine Plain.of_forall (p := fun c => c.isDigit || c == '.') (fun c hc => ?_) (by decide) (by decide) (by decide)
      rcases List.mem_append.mp hc with hc | hc
      · simp [hw.2 c hc]
      · rcases List.mem_cons.mp hc with rfl | hc
        · decide
        · simp [hf.2 c hc]
    · cases he
  | @quoted body _ hu => exact Or.inr (Or.inl ⟨body, hu, rfl⟩)
  | @broken body tail c hu hc hcut => exact Or.inr (Or.inr (Or.inl ⟨body, c, tail, hu, rfl, rfl, hc, hcut⟩))
  | @endless body hs => exact Or.inr (Or.inr (Or.inr ⟨body, hs, rfl, rfl⟩))
  | @symbol spelling _ kind hm _ =>
    refine Or.inl ⟨?_, hsound (matches_of_mem_table hm).not_error⟩
    have hplain : ∀ entry ∈ Symbol.table, entry.1.all (fun c => c != '"' && !isBreak c) = true := by decide
    exact Plain.of_forall (List.all_eq_true.mp (hplain _ hm)) (by decide) (by decide) (by decide)
  | @stray c _ hq _ _ _ =>
    refine Or.inl ⟨⟨by simpa using Ne.symm hq, fun d hd _ => ?_⟩, fun e he => ?_⟩
    · rw [List.mem_singleton.mp hd]
    · obtain rfl := Kind.error.inj he
      unfold LexError.ofStray
      split
      · rfl
      · split <;> rfl

/-! ## Exchanging the text behind -/

namespace EndsBefore

variable {l : Lexeme}

/-- A string literal that is closed consists of units between quotes, and has their value. -/
theorem of_string (h : l.EndsBefore rest) (hk : l.kind = .literal .string) :
    ∃ body, Units body ∧ l.text = '"' :: (body ++ ['"']) ∧ l.value = some (.string (String.ofList (Quoted.decode body))) := by
  have hread := read?_of_endsBefore h
  have hreads := reads_of_read? _ _ _ hread
  generalize htext : l.text = text at hreads
  rw [hk] at hreads
  cases hreads with
  | token hm _ _ =>
    obtain ⟨body, hu, rfl⟩ := hm.quoted
    have hquoted := read?_of_endsBefore (@EndsBefore.quoted body rest hu)
    rw [htext] at hread
    obtain rfl := (Prod.mk.inj (Option.some.inj (hread.symm.trans hquoted))).1
    exact ⟨body, hu, rfl, rfl⟩

/-- A string literal that breaks off consists of units in front of a line break. -/
theorem of_broken (h : l.EndsBefore rest) (hk : l.kind = .error .brokenString) :
    ∃ body c tail, l.text = '"' :: body ∧ l.value = none ∧ Units body ∧ rest = c :: tail ∧ (c = '\r' ∨ c = '\n') := by
  rcases h.plain_or_quoted with ⟨-, he⟩ | ⟨body, -, rfl⟩ | ⟨body, c, tail, hu, rfl, hr, hc, -⟩ | ⟨body, -, rfl, -⟩
  · exact absurd (he _ hk) (by decide)
  · cases hk
  · exact ⟨body, c, tail, rfl, rfl, hu, hr, hc⟩
  · cases hk

theorem ne_nil_of_broken (h : l.EndsBefore rest) (hk : l.kind = .error .brokenString) : rest ≠ [] := by
  obtain ⟨-, c, tail, -, -, -, rfl, -⟩ := h.of_broken hk
  exact List.cons_ne_nil c tail

/-- A string literal that goes on to the end of the text begins with a quote as well, and has nothing behind it. -/
theorem of_endless (h : l.EndsBefore rest) (hk : l.kind = .error .endlessString) :
    (∃ body, l.text = '"' :: body) ∧ rest = [] := by
  rcases h.plain_or_quoted with ⟨-, he⟩ | ⟨body, -, rfl⟩ | ⟨body, _, _, -, rfl, -⟩ | ⟨body, -, rfl, hr⟩
  · exact absurd (he _ hk) (by decide)
  · cases hk
  · cases hk
  · exact ⟨⟨body, rfl⟩, hr⟩

theorem eq_nil_of_endless (h : l.EndsBefore rest) (hk : l.kind = .error .endlessString) : rest = [] := (h.of_endless hk).2

/-- A lexeme ends before any text that shows nothing new, unless it is a string literal that is not closed: one that breaks
off still needs its line break, and one that goes on to the end of the text cannot have anything behind it. -/
theorem of_glimpse (h : l.EndsBefore rest) (hg : glimpse rest' <+: rest)
    (hb : l.kind = .error .brokenString → rest'.head? = rest.head?) (he : l.kind ≠ .error .endlessString) :
    l.EndsBefore rest' := by
  cases h with
  | word hc hcs hr => exact EndsBefore.word hc hcs (stop_of_glimpse hg isWordPart_of_isBlank hr)
  | digits hd hr hf =>
    refine EndsBefore.digits hd (stop_of_glimpse hg isDigit_of_isBlank hr) (fun d tail ht => ?_)
    cases hdb : isBlank d with
    | true => exact isDigit_of_isBlank d hdb
    | false =>
      obtain ⟨more, rfl⟩ := eq_cons_cons_of_glimpse hg ht rfl hdb
      exact hf d more rfl
  | decimal hw hf hr => exact EndsBefore.decimal hw hf (stop_of_glimpse hg isDigit_of_isBlank hr)
  | quoted hu => exact EndsBefore.quoted hu
  | @broken body rest c hu hc hcut =>
    obtain ⟨tail, rfl⟩ := List.head?_eq_some_iff.mp (hb rfl)
    exact EndsBefore.broken hu hc hcut
  | endless => exact absurd rfl he
  | @symbol spelling _ kind hm hlong =>
    refine EndsBefore.symbol hm (fun entry hentry hp => ?_)
    obtain ⟨c, cs, hc, -⟩ := table_first _ hm
    obtain rfl : spelling = c :: cs := hc
    cases cs with
    | nil => exact hlong entry hentry (table_prefix_of_glimpse hg hentry hp)
    | cons d cs =>
      have := table_length entry hentry
      simp only [List.length_cons]
      omega
  | stray hq hw hd hn =>
    exact EndsBefore.stray hq hw hd (fun entry hentry hp => hn entry hentry (table_prefix_of_glimpse hg hentry hp))

end EndsBefore

end Lexeme

end MiniLex
