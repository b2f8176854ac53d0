import MiniLex.Lexeme.Quoted
import MiniLex.Lexeme.Symbol
import MiniLex.Token.Basic

/-!
# Lexemes

Where a token begins, the text is read as the longest token that it begins with: a word, a number, a string literal, or an
operator or delimiter. A word is a keyword, one of the two boolean literals or an identifier. A number is a run of digits,
and a second run behind a point makes it a floating-point one; a point without a digit behind it is no part of it. What is
malformed is read as an error, and reading can go on behind it.
-/

namespace MiniLex

/-- What a text is read as where a token begins. -/
structure Lexeme where
  kind : Kind
  value : Option Value
  text : List Char
  deriving DecidableEq

namespace Lexeme

/-- A word is a boolean literal, a keyword or an identifier. -/
def ofWord (word : List Char) : Lexeme :=
  let name := String.ofList word
  if name = "true" then ⟨.literal .bool, some (.bool true), word⟩
  else if name = "false" then ⟨.literal .bool, some (.bool false), word⟩
  else ⟨((Keyword.ofString? name).map Kind.keyword).getD .identifier, none, word⟩

/-- A run of digits is an integer, unless it is too large for 64 bits. -/
def ofDigits (digits : List Char) : Lexeme :=
  let n := Nat.ofDigitChars 10 digits 0
  if n < UInt64.size then ⟨.literal .int, some (.int (UInt64.ofNat n)), digits⟩
  else ⟨.error .numberOutOfRange, none, digits⟩

/-- Two runs of digits around a point are the floating-point number nearest to the decimal they write. -/
def ofDecimal (whole fraction : List Char) : Lexeme :=
  let x := Binary64.ofRatio (Nat.ofDigitChars 10 (whole ++ fraction) 0) (Nat.pow 10 fraction.length)
  ⟨.literal .float, some (.float x), whole ++ '.' :: fraction⟩

/-- A string literal, by what stands behind its opening quote. -/
def ofQuoted (s : Quoted.Split) : Lexeme :=
  let text := '"' :: (s.body ++ s.ending.text)
  match s.ending with
  | .quote => ⟨.literal .string, some (.string (String.ofList (Quoted.decode s.body))), text⟩
  | .lineBreak => ⟨.error .brokenString, none, text⟩
  | .endOfText => ⟨.error .endlessString, none, text⟩

/-- The number that a text begins with if a digit does, and the text behind it. -/
def readNumber (cs : List Char) : Lexeme × List Char :=
  let whole := cs.takeWhile Char.isDigit
  let rest := cs.dropWhile Char.isDigit
  match rest with
  | '.' :: behind =>
    if (behind.takeWhile Char.isDigit).isEmpty then (ofDigits whole, rest)
    else (ofDecimal whole (behind.takeWhile Char.isDigit), behind.dropWhile Char.isDigit)
  | _ => (ofDigits whole, rest)

/-- The operator, delimiter or stray character that a text begins with, and the text behind it. -/
def readSymbol (c : Char) (cs : List Char) : Lexeme × List Char :=
  match Symbol.read? (c :: cs) with
  | some (spelling, kind) => (⟨kind, none, spelling⟩, (c :: cs).drop spelling.length)
  | none => (⟨.error (.ofStray c), none, [c]⟩, cs)

/-- What a text begins with, and the text behind it; nothing if the text is empty. -/
def read? : List Char → Option (Lexeme × List Char)
  | [] => none
  | c :: cs =>
    if c = '"' then
      let s := Quoted.split cs
      some (ofQuoted s, s.rest)
    else if isWordStart c then
      some (ofWord (c :: cs.takeWhile isWordPart), cs.dropWhile isWordPart)
    else if c.isDigit then some (readNumber (c :: cs))
    else some (readSymbol c cs)

theorem text_ofWord (word : List Char) : (ofWord word).text = word := by
  unfold ofWord
  simp only
  split
  · rfl
  · split <;> rfl

theorem text_ofDigits (digits : List Char) : (ofDigits digits).text = digits := by
  unfold ofDigits
  simp only
  split <;> rfl

theorem text_ofQuoted (s : Quoted.Split) : (ofQuoted s).text = '"' :: (s.body ++ s.ending.text) := by
  unfold ofQuoted
  simp only
  split <;> rfl

theorem text_append_readNumber (cs : List Char) : (readNumber cs).1.text ++ (readNumber cs).2 = cs := by
  have h := List.takeWhile_append_dropWhile (p := Char.isDigit) (l := cs)
  unfold readNumber
  simp only
  split
  · next behind hb =>
    split
    · rw [text_ofDigits, h]
    · have hf := List.takeWhile_append_dropWhile (p := Char.isDigit) (l := behind)
      rw [hb] at h
      simp only [ofDecimal, List.append_assoc, List.cons_append, hf, h]
  · rw [text_ofDigits, h]

theorem text_append_readSymbol (c : Char) (cs : List Char) :
    (readSymbol c cs).1.text ++ (readSymbol c cs).2 = c :: cs := by
  unfold readSymbol
  split
  · next spelling kind h => exact (Symbol.of_read? (c :: cs) spelling kind h).2
  · rfl

/-- What a text begins with and the text behind it make it up. -/
theorem text_append_of_read? (cs rest : List Char) (l : Lexeme) (h : read? cs = some (l, rest)) :
    l.text ++ rest = cs := by
  unfold read? at h
  split at h
  · simp at h
  · next c cs =>
    split at h
    · next hc =>
      obtain ⟨rfl, rfl⟩ := by simpa using h
      simpa [text_ofQuoted, hc] using Quoted.body_append_split cs
    · split at h
      · obtain ⟨rfl, rfl⟩ := by simpa using h
        simp [text_ofWord, List.takeWhile_append_dropWhile]
      · split at h
        · have ht := text_append_readNumber (c :: cs)
          rwa [Option.some.inj h] at ht
        · have ht := text_append_readSymbol c cs
          rwa [Option.some.inj h] at ht

theorem text_readNumber_ne_nil (c : Char) (cs : List Char) (h : c.isDigit = true) :
    (readNumber (c :: cs)).1.text ≠ [] := by
  unfold readNumber
  simp only
  split
  · split
    · simp [text_ofDigits, h]
    · simp [ofDecimal]
  · simp [text_ofDigits, h]

theorem text_readSymbol_ne_nil (c : Char) (cs : List Char) : (readSymbol c cs).1.text ≠ [] := by
  unfold readSymbol
  split
  · next spelling kind h => exact (Symbol.of_read? (c :: cs) spelling kind h).1
  · simp

theorem text_ne_nil_of_read? (cs rest : List Char) (l : Lexeme) (h : read? cs = some (l, rest)) : l.text ≠ [] := by
  unfold read? at h
  split at h
  · simp at h
  · next c cs =>
    split at h
    · obtain ⟨rfl, rfl⟩ := by simpa using h
      simp [text_ofQuoted]
    · split at h
      · obtain ⟨rfl, rfl⟩ := by simpa using h
        simp [text_ofWord]
      · split at h
        · next hd =>
          have ht := text_readNumber_ne_nil c cs hd
          rwa [Option.some.inj h] at ht
        · have ht := text_readSymbol_ne_nil c cs
          rwa [Option.some.inj h] at ht

theorem length_lt_of_read? (cs rest : List Char) (l : Lexeme) (h : read? cs = some (l, rest)) :
    rest.length < cs.length := by
  have ht := List.length_pos_iff.mpr (text_ne_nil_of_read? cs rest l h)
  rw [← text_append_of_read? cs rest l h, List.length_append]
  omega

end Lexeme

end MiniLex
