import MiniLex.Proofs.Separated

/-!
# What string literals denote

The text between the quotes of a string literal falls into units in one way: characters that are no backslash, and
backslashes with the character behind each (`Quoted.units_unique`). The value is what the units mean, one after the other
(`Quoted.decode_flatten`). A carriage return can only be the second half of a unit, and such a unit means itself. So the
values are the texts in which every carriage return stands behind a backslash, and each of them is the value of its encoding
(`denoted_iff`).
-/

namespace MiniLex

open Grammar

namespace Quoted

/-! ## Units -/

/-- A single unit: a character that is no backslash, or a backslash with the character behind it. -/
inductive OneUnit : List Char → Prop where
  | plain {c : Char} : c ≠ '\\' → OneUnit [c]
  | escape (c : Char) : OneUnit ['\\', c]

/-- A text falls into units. -/
def Parted (units : List (List Char)) (body : List Char) : Prop := (∀ u ∈ units, OneUnit u) ∧ units.flatten = body

/-- What a unit means: four of the escapes stand for one character each, and everything else for itself. -/
def meaning : List Char → List Char
  | ['\\', 'n'] => ['\n']
  | ['\\', 't'] => ['\t']
  | ['\\', '"'] => ['"']
  | ['\\', '\\'] => ['\\']
  | unit => unit

/-- An escape means one character that is no carriage return, or it means itself. -/
theorem meaning_escape (c : Char) : (∃ d, d ≠ '\r' ∧ meaning ['\\', c] = [d]) ∨ meaning ['\\', c] = ['\\', c] := by
  unfold meaning
  split
  · exact Or.inl ⟨'\n', by decide, rfl⟩
  · exact Or.inl ⟨'\t', by decide, rfl⟩
  · exact Or.inl ⟨'"', by decide, rfl⟩
  · exact Or.inl ⟨'\\', by decide, rfl⟩
  · exact Or.inr rfl

theorem meaning_plain (c : Char) : meaning [c] = [c] := meaning.eq_5 [c] (by simp) (by simp) (by simp) (by simp)

/-- A unit in front of a text is decoded to what it means. -/
theorem OneUnit.decode_append {u : List Char} (h : OneUnit u) (cs : List Char) : decode (u ++ cs) = meaning u ++ decode cs := by
  have hplain : ∀ {c : Char} (cs : List Char), c ≠ '\\' → decode (c :: cs) = c :: decode cs := fun cs hc =>
    decode.eq_6 _ cs (fun _ h => absurd h hc) (fun _ h => absurd h hc) (fun _ h => absurd h hc) (fun _ h => absurd h hc)
  cases h with
  | @plain c hc =>
    rw [meaning_plain]
    exact hplain cs hc
  | escape c =>
    unfold meaning
    split
    · next h =>
      obtain rfl : c = 'n' := by simpa using h
      rfl
    · next h =>
      obtain rfl : c = 't' := by simpa using h
      rfl
    · next h =>
      obtain rfl : c = '"' := by simpa using h
      rfl
    · next h =>
      obtain rfl : c = '\\' := by simpa using h
      rfl
    · next hn ht hq hb =>
      have hc : c ≠ '\\' := fun h => hb (by rw [h])
      have hkept : decode ('\\' :: c :: cs) = '\\' :: decode (c :: cs) := decode.eq_6 _ _
        (fun _ _ h => hn (by rw [(List.cons.inj h).1])) (fun _ _ h => ht (by rw [(List.cons.inj h).1]))
        (fun _ _ h => hq (by rw [(List.cons.inj h).1])) (fun _ _ h => hb (by rw [(List.cons.inj h).1]))
      exact hkept.trans (congrArg _ (hplain cs hc))

/-- Units are decoded to what they mean, one after the other. -/
theorem decode_flatten {units : List (List Char)} (h : ∀ u ∈ units, OneUnit u) :
    decode units.flatten = units.flatMap meaning := by
  induction units with
  | nil => rfl
  | cons u units ih =>
    rw [List.flatten_cons, (h u List.mem_cons_self).decode_append, ih (fun v hv => h v (List.mem_cons_of_mem _ hv)),
      List.flatMap_cons]

/-- Where two texts begin with a unit each, they begin with the same one. -/
theorem OneUnit.append_inj {u v cs ds : List Char} (hu : OneUnit u) (hv : OneUnit v) (h : u ++ cs = v ++ ds) :
    u = v ∧ cs = ds := by
  cases hu with
  | plain hc =>
    cases hv with
    | plain => simpa using h
    | escape => exact absurd (List.cons.inj h).1 hc
  | escape =>
    cases hv with
    | plain hd => exact absurd (List.cons.inj h).1.symm hd
    | escape => simpa using h

/-- A text falls into units in one way, whether or not a backslash is left over behind them. -/
theorem units_unique {us vs : List (List Char)} (hu : ∀ u ∈ us, OneUnit u) (hv : ∀ v ∈ vs, OneUnit v) {d e : List Char}
    (hd : d = [] ∨ d = ['\\']) (he : e = [] ∨ e = ['\\']) (h : us.flatten ++ d = vs.flatten ++ e) : us = vs ∧ d = e := by
  -- no unit begins what is left over
  have hleft : ∀ {u cs x : List Char}, OneUnit u → x = [] ∨ x = ['\\'] → u ++ cs ≠ x := by
    intro u cs x hu hx h
    cases hu with
    | plain hc => rcases hx with rfl | rfl <;> simp_all
    | escape c => rcases hx with rfl | rfl <;> simp at h
  induction us generalizing vs with
  | nil =>
    cases vs with
    | nil => exact ⟨rfl, h⟩
    | cons v vs =>
      rw [List.flatten_cons, List.append_assoc] at h
      exact absurd h.symm (hleft (hv v List.mem_cons_self) hd)
  | cons u us ih =>
    cases vs with
    | nil =>
      rw [List.flatten_cons, List.append_assoc] at h
      exact absurd h (hleft (hu u List.mem_cons_self) he)
    | cons v vs =>
      have ih := @ih vs (fun u hm => hu u (List.mem_cons_of_mem _ hm)) (fun v hm => hv v (List.mem_cons_of_mem _ hm))
      have hu := hu u List.mem_cons_self
      have hv := hv v List.mem_cons_self
      rw [List.flatten_cons, List.flatten_cons, List.append_assoc, List.append_assoc] at h
      obtain ⟨rfl, hrest⟩ := hu.append_inj hv h
      obtain ⟨rfl, rfl⟩ := ih hrest
      exact ⟨rfl, rfl⟩

/-- The text between quotes falls into units. -/
theorem exists_parted {body : List Char} (h : Units body) : ∃ units, Parted units body := by
  induction h with
  | nil => exact ⟨[], by simp, rfl⟩
  | @plain c cs _ hc _ _ _ ih =>
    obtain ⟨units, hunits, rfl⟩ := ih
    exact ⟨[c] :: units, List.forall_mem_cons.mpr ⟨OneUnit.plain hc, hunits⟩, rfl⟩
  | @escapedBreak cs _ ih =>
    obtain ⟨units, hunits, rfl⟩ := ih
    refine ⟨['\\', '\r'] :: ['\n'] :: units, ?_, rfl⟩
    exact List.forall_mem_cons.mpr ⟨OneUnit.escape _, List.forall_mem_cons.mpr ⟨OneUnit.plain (by decide), hunits⟩⟩
  | @escaped c cs _ ih =>
    obtain ⟨units, hunits, rfl⟩ := ih
    exact ⟨['\\', c] :: units, List.forall_mem_cons.mpr ⟨OneUnit.escape c, hunits⟩, rfl⟩

end Quoted

/-! ## Carriage returns -/

/-- Every carriage return of a text stands right behind a backslash. -/
def ReturnsEscaped (cs : List Char) : Prop := ∀ front rest, cs = front ++ '\r' :: rest → front.getLast? = some '\\'

namespace ReturnsEscaped

theorem of_notMem {cs : List Char} (h : '\r' ∉ cs) : ReturnsEscaped cs := by
  rintro front rest rfl
  exact absurd (by simp) h

theorem escape (c : Char) : ReturnsEscaped ['\\', c] := by
  intro front rest h
  cases front with
  | nil => exact absurd (List.cons.inj h).1 (by decide)
  | cons d front =>
    obtain ⟨rfl, h⟩ := List.cons.inj h
    cases front with
    | nil => rfl
    | cons e front => simp at h

/-- Two texts, one behind the other, have their carriage returns behind backslashes if each of them has. -/
theorem append {cs ds : List Char} (h : ReturnsEscaped cs) (hd : ReturnsEscaped ds) : ReturnsEscaped (cs ++ ds) := by
  intro front rest he
  rcases List.append_eq_append_iff.mp he with ⟨more, rfl, hm⟩ | ⟨more, rfl, hm⟩
  · have hlast := hd more rest hm
    rw [List.getLast?_append, hlast]
    rfl
  · cases more with
    | nil => exact absurd (hd [] rest hm.symm) (by simp)
    | cons c more =>
      obtain ⟨rfl, -⟩ := List.cons.inj hm
      exact h front more rfl

/-- Behind a text that does not end in a backslash no carriage return comes first. -/
theorem head?_ne {cs ds : List Char} (h : ReturnsEscaped (cs ++ ds)) (hc : cs.getLast? ≠ some '\\') :
    ds.head? ≠ some '\r' := by
  intro hd
  obtain ⟨tail, rfl⟩ := List.head?_eq_some_iff.mp hd
  exact hc (h cs tail rfl)

/-- A text that does not begin with a carriage return needs no text in front of it to escape one. -/
theorem of_append (cs : List Char) {ds : List Char} (h : ReturnsEscaped (cs ++ ds)) (hd : ds.head? ≠ some '\r') :
    ReturnsEscaped ds := by
  rintro front rest rfl
  have hlast := h (cs ++ front) rest (List.append_assoc _ _ _).symm
  cases front with
  | nil => exact absurd rfl hd
  | cons c front => rwa [List.getLast?_append_of_ne_nil _ (List.cons_ne_nil c front)] at hlast

/-- A text that does not end in a backslash may be taken off the front. -/
theorem behind (cs : List Char) {ds : List Char} (h : ReturnsEscaped (cs ++ ds)) (hc : cs.getLast? ≠ some '\\') :
    ReturnsEscaped ds :=
  h.of_append cs (h.head?_ne hc)

end ReturnsEscaped

namespace Quoted

/-- In the value of a string literal every carriage return stands behind a backslash. -/
theorem returnsEscaped_decode {body : List Char} (h : Units body) : ReturnsEscaped (decode body) := by
  induction h with
  | nil => exact ReturnsEscaped.of_notMem (by simp [decode])
  | @plain c cs _ hc hr _ _ ih =>
    rw [← List.singleton_append, (OneUnit.plain hc).decode_append, meaning_plain]
    exact (ReturnsEscaped.of_notMem (by simpa using Ne.symm hr)).append ih
  | @escapedBreak cs _ ih =>
    have hkept : decode ('\\' :: '\r' :: '\n' :: cs) = ['\\', '\r'] ++ (['\n'] ++ decode cs) := rfl
    rw [hkept]
    exact (ReturnsEscaped.escape _).append ((ReturnsEscaped.of_notMem (by decide)).append ih)
  | @escaped c cs _ ih =>
    have hunit := (OneUnit.escape c).decode_append cs
    rw [List.cons_append, List.cons_append, List.nil_append] at hunit
    rw [hunit]
    refine ReturnsEscaped.append ?_ ih
    rcases meaning_escape c with ⟨d, hd, hm⟩ | hm
    · rw [hm]
      exact ReturnsEscaped.of_notMem (by simpa using Ne.symm hd)
    · rw [hm]
      exact ReturnsEscaped.escape c

/-! ## Encoding -/

/-- An encoding is decoded to what was encoded. -/
theorem decode_encode (v : List Char) : decode (encode v) = v := by
  fun_induction encode v with
  | case1 => rfl
  | case2 cs ih => exact congrArg (fun v => '\\' :: '\r' :: v) ih
  | case3 cs _ ih => exact congrArg (List.cons '\\') ih
  | case4 cs ih => exact congrArg (List.cons '"') ih
  | case5 cs ih => exact congrArg (List.cons '\n') ih
  | case6 cs ih => exact congrArg (List.cons '\t') ih
  | case7 c cs _ hb _ _ _ ih =>
    rw [← List.singleton_append, (OneUnit.plain hb).decode_append, meaning_plain, ih]
    rfl

/-- The encoding of a text may stand between quotes if every carriage return of the text stands behind a backslash. -/
theorem units_encode {v : List Char} (h : ReturnsEscaped v) : Units (encode v) := by
  fun_induction encode v with
  | case1 => exact Units.nil
  | case2 cs ih => exact Units.escaped (ih (h.behind ['\\', '\r'] (by decide)))
  | case3 cs hn ih =>
    refine Units.escaped (ih (ReturnsEscaped.of_append ['\\'] h (fun hd => ?_)))
    obtain ⟨tail, rfl⟩ := List.head?_eq_some_iff.mp hd
    exact hn tail rfl
  | case4 cs ih => exact Units.escaped (ih (h.behind ['"'] (by decide)))
  | case5 cs ih => exact Units.escaped (ih (h.behind ['\n'] (by decide)))
  | case6 cs ih => exact Units.escaped (ih (h.behind ['\t'] (by decide)))
  | case7 c cs _ hb hq hn _ ih =>
    have hr : c ≠ '\r' := by
      rintro rfl
      exact absurd (h [] cs rfl) (by simp)
    exact Units.plain hq hb hr hn (ih (h.behind [c] (by simpa using hb)))

/-- The source that consists of the encoding of a text between quotes. -/
def literal (v : String) : String := String.ofList ('"' :: (encode v.toList ++ ['"']))

end Quoted

/-! ## Sources -/

/-- The value of a string literal of a source has every carriage return behind a backslash. -/
theorem returnsEscaped_of_mem {source v : String} {t : Token} (h : t ∈ (tokenize source).tokens)
    (hk : t.kind = .literal .string) (hv : t.value = some (.string v)) : ReturnsEscaped v.toList := by
  have hsound := Token.sound_toLexeme h (congrArg Kind.isError hk) (congrArg Kind.isEof hk)
  obtain ⟨-, -, rest, hends, -⟩ := hsound
  obtain ⟨body, hu, -, hvalue⟩ := hends.of_string hk
  have he : Value.string v = .string (String.ofList (Quoted.decode body)) := Option.some.inj (hv.symm.trans hvalue)
  rw [Value.string.inj he, String.toList_ofList]
  exact Quoted.returnsEscaped_decode hu

/-- The encoding of a text in which every carriage return stands behind a backslash is scanned as one string literal, which
goes from its beginning to its end and has the text as its value. -/
theorem tokenize_literal {v : String} (h : ReturnsEscaped v.toList) :
    (tokenize (Quoted.literal v)).tokens =
        [⟨.literal .string, Quoted.literal v, 1, 1, ⟨0, (Quoted.literal v).utf8ByteSize⟩, some (.string v)⟩,
          .eof (Position.first.advance (Quoted.literal v).toList)] ∧
      (tokenize (Quoted.literal v)).diagnostics = [] := by
  let l : Lexeme := ⟨.literal .string, some (.string v), '"' :: (Quoted.encode v.toList ++ ['"'])⟩
  have hsound : l.Sound := by
    have hends := @Lexeme.EndsBefore.quoted (Quoted.encode v.toList) [] (Quoted.units_encode h)
    rw [Quoted.decode_encode, String.ofList_toList] at hends
    exact ⟨rfl, List.cons_ne_nil _ _, [], hends, not_startsBetween_quote _⟩
  have htext : (Quoted.literal v).toList = l.text := String.toList_ofList
  have hstop : (Position.first.advance l.text).offset = (Quoted.literal v).utf8ByteSize := by
    rw [offset_advance, ← byteLength_toList, htext]
    exact Nat.zero_add _
  have htoken : l.toToken .first (Position.first.advance l.text) =
      ⟨.literal .string, Quoted.literal v, 1, 1, ⟨0, (Quoted.literal v).utf8ByteSize⟩, some (.string v)⟩ := by
    rw [Lexeme.toToken, hstop]
    rfl
  rw [htext, ← htoken]
  exact hsound.tokenize_text

/-- A text is the value of a string literal of some source exactly if every carriage return of it stands right behind a
backslash. Then its encoding between quotes is a source of one string literal with that value, and nothing else is in it. -/
theorem denoted_iff (v : String) :
    ((∃ source, ∃ t ∈ (tokenize source).tokens, t.kind = .literal .string ∧ t.value = some (.string v)) ↔
      ReturnsEscaped v.toList) ∧
    (ReturnsEscaped v.toList →
      (tokenize (Quoted.literal v)).tokens =
          [⟨.literal .string, Quoted.literal v, 1, 1, ⟨0, (Quoted.literal v).utf8ByteSize⟩, some (.string v)⟩,
            .eof (Position.first.advance (Quoted.literal v).toList)] ∧
        (tokenize (Quoted.literal v)).diagnostics = []) := by
  refine ⟨⟨?_, fun h => ?_⟩, tokenize_literal⟩
  · rintro ⟨source, t, ht, hk, hv⟩
    exact returnsEscaped_of_mem ht hk hv
  · have htokens := (tokenize_literal h).1
    exact ⟨Quoted.literal v, _, htokens ▸ List.mem_cons_self, rfl, rfl⟩

/-- A carriage return behind a backslash stays as it is in an encoding, and the line feed behind it is written as an escape like
any other; so are a quote and a backslash at the end. -/
theorem denoted_iff_escapedReturn :
    ReturnsEscaped "\\\r\n\"\\".toList ∧ Quoted.literal "\\\r\n\"\\" = "\"\\\r\\n\\\"\\\\\"" ∧
      (tokenize (Quoted.literal "\\\r\n\"\\")).tokens =
          [⟨.literal .string, "\"\\\r\\n\\\"\\\\\"", 1, 1, ⟨0, 10⟩, some (.string "\\\r\n\"\\")⟩, .eof ⟨10, 2, 8⟩] ∧
        (tokenize (Quoted.literal "\\\r\n\"\\")).diagnostics = [] := by
  have h : ReturnsEscaped "\\\r\n\"\\".toList := (ReturnsEscaped.escape '\r').append (ReturnsEscaped.of_notMem (by decide))
  exact ⟨h, by decide, (denoted_iff _).2 h⟩

end MiniLex
