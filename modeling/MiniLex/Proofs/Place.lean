import Mathlib.Data.List.Basic
import MiniLex.Proofs.Grammar.Between
import MiniLex.Text.Bytes
import MiniLex.Text.Position

/-!
# Places by counting

What the line and the column of an offset are, said without going through the text character by character: the line counts
the line breaks that end up to there, and the column the characters behind the last of them (`lineAt`, `columnAt`). Going on
by a stretch of text leads to the place that these give (`advance_placeAt`), and what stands further on in a text has a later
place (`placeAt_before`). Offsets of characters are written by the index of the character (`offsetOf`).
-/

namespace MiniLex

/-! ## Counting in 32 bits -/

/-- A number counted on by so many is greater by as many, if that is a number of 32 bits. -/
theorem toNat_add_ofNat {a : UInt32} {n : Nat} (h : a.toNat + n < UInt32.size) : (a + .ofNat n).toNat = a.toNat + n := by
  rw [UInt32.toNat_add, UInt32.toNat_ofNat_of_lt' (Nat.lt_of_le_of_lt (Nat.le_add_left _ _) h)]
  exact Nat.mod_eq_of_lt h

/-- A number counted on by fewer than all numbers of 32 bits is another one. -/
theorem add_ofNat_ne {a : UInt32} {n : Nat} (hpos : 0 < n) (h : n < UInt32.size) : a + .ofNat n ≠ a := by
  intro he
  have hzero : UInt32.ofNat n = 0 := by simpa using he
  have hn := UInt32.toNat_ofNat_of_lt' h
  rw [hzero] at hn
  exact absurd hn (Nat.ne_of_lt hpos)

/-! ## Going on -/

theorem utf8Size_of_isBreak {c : Char} (h : isBreak c = true) : c.utf8Size = 1 := by
  rcases (isBreak_iff c).mp h with rfl | rfl <;> rfl

/-- The place behind a text is as many bytes on as the text takes. -/
theorem offset_advance (p : Position) (cs : List Char) : (p.advance cs).offset = p.offset + byteLength cs := by
  fun_induction Position.advance p cs with
  | case1 => rfl
  | case2 p cs ih =>
    have h : byteLength ('\r' :: '\n' :: cs) = 2 + byteLength cs := by
      simp only [byteLength, ← Nat.add_assoc]
      rfl
    rw [ih, h]
    simp only [Position.nextLine]
    omega
  | case3 p c cs _ hb ih =>
    rw [ih, byteLength, utf8Size_of_isBreak hb]
    simp only [Position.nextLine]
    omega
  | case4 p c cs _ _ ih =>
    rw [ih, byteLength]
    simp only [Position.right]
    omega

theorem byteLength_pos {cs : List Char} (h : cs ≠ []) : 0 < byteLength cs := by
  cases cs with
  | nil => exact absurd rfl h
  | cons c cs =>
    have := c.utf8Size_pos
    rw [byteLength]
    omega

/-- Of two ways to split a text, the one with fewer bytes in front is cut out of the front of the other. -/
theorem append_eq_of_byteLength_le {cs ds es fs : List Char} (h : cs ++ ds = es ++ fs)
    (hl : byteLength cs ≤ byteLength es) : ∃ gs, es = cs ++ gs ∧ ds = gs ++ fs := by
  rcases List.append_eq_append_iff.mp h with ⟨gs, rfl, rfl⟩ | ⟨gs, rfl, rfl⟩
  · exact ⟨gs, rfl, rfl⟩
  · have hgs : gs = [] := by
      by_contra hn
      have hpos := byteLength_pos hn
      rw [byteLength_append] at hl
      omega
    subst hgs
    exact ⟨[], by simp, by simp⟩

/-- Two ways to split a text that take as many bytes in front are the same. -/
theorem append_inj_of_byteLength {cs ds es fs : List Char} (h : cs ++ ds = es ++ fs) (hl : byteLength cs = byteLength es) :
    cs = es ∧ ds = fs := by
  obtain ⟨gs, rfl, rfl⟩ := append_eq_of_byteLength_le h (Nat.le_of_eq hl)
  have hgs : gs = [] := by
    by_contra hn
    have hpos := byteLength_pos hn
    rw [byteLength_append] at hl
    omega
  subst hgs
  exact ⟨(List.append_nil cs).symm, rfl⟩

/-- Two texts, one behind the other, do not cut a line break in two. -/
def Uncut (cs ds : List Char) : Prop := ¬(cs.getLast? = some '\r' ∧ ds.head? = some '\n')

theorem Uncut.tail {c : Char} {cs ds : List Char} (h : Uncut (c :: cs) ds) : Uncut cs ds := by
  rintro ⟨hc, hd⟩
  exact h ⟨by simp [List.getLast?_cons, hc], hd⟩

/-- The place behind two texts is the place behind the second, from behind the first, if they cut no line break in two. -/
theorem Uncut.advance_append {cs ds : List Char} (h : Uncut cs ds) (p : Position) :
    p.advance (cs ++ ds) = (p.advance cs).advance ds := by
  fun_induction Position.advance p cs with
  | case1 => rfl
  | case2 p cs ih =>
    rw [List.cons_append, List.cons_append, Position.advance]
    exact ih h.tail.tail
  | case3 p c cs hn hb ih =>
    have hn' : ∀ es, c = '\r' → cs ++ ds = '\n' :: es → False := by
      rintro es rfl he
      cases cs with
      | nil => exact h ⟨rfl, by simp [show ds = _ from he]⟩
      | cons d cs => exact hn cs rfl (by rw [(List.cons.inj he).1])
    rw [List.cons_append, Position.advance, if_pos hb]
    · exact ih h.tail
    · exact hn'
  | case4 p c cs hn hb ih =>
    rw [List.cons_append, Position.advance, if_neg hb]
    · exact ih h.tail
    · rintro es rfl
      exact absurd rfl hb

/-- The line and the column behind a text depend on those in front of it, and not on the offset. -/
theorem line_column_advance {p q : Position} (hl : p.line = q.line) (hc : p.column = q.column) (cs : List Char) :
    (p.advance cs).line = (q.advance cs).line ∧ (p.advance cs).column = (q.advance cs).column := by
  fun_induction Position.advance p cs generalizing q with
  | case1 => exact ⟨hl, hc⟩
  | case2 p cs ih =>
    rw [Position.advance]
    exact ih (congrArg (· + 1) hl) rfl
  | case3 p c cs hn hb ih =>
    rw [Position.advance.eq_3 _ _ _ hn, if_pos hb]
    exact ih (congrArg (· + 1) hl) rfl
  | case4 p c cs hn hb ih =>
    rw [Position.advance.eq_3 _ _ _ hn, if_neg hb]
    exact ih hl (congrArg (· + 1) hc)

/-- A text without a line break leads as many columns on as it has characters, in the same line. -/
theorem advance_of_unbroken (p : Position) {cs : List Char} (h : ∀ c ∈ cs, isBreak c = false) :
    (p.advance cs).line = p.line ∧ (p.advance cs).column = p.column + .ofNat cs.length := by
  fun_induction Position.advance p cs with
  | case1 => exact ⟨rfl, (UInt32.add_zero _).symm⟩
  | case2 p cs => exact absurd (h '\r' List.mem_cons_self) (by decide)
  | case3 p c cs _ hb _ =>
    rw [h c List.mem_cons_self] at hb
    cases hb
  | case4 p c cs _ _ ih =>
    obtain ⟨hline, hcolumn⟩ := ih (fun d hd => h d (List.mem_cons_of_mem c hd))
    refine ⟨hline, ?_⟩
    rw [hcolumn, List.length_cons, Nat.add_comm, UInt32.ofNat_add, ← UInt32.add_assoc]
    rfl

/-! ## Lines and columns of offsets -/

/-- Where the character at an index begins. -/
def offsetOf (cs : List Char) (i : Nat) : Nat := byteLength (cs.take i)

/-- Whether a line break ends with the character at an index: a line feed does, with the carriage return in front of it if
there is one, and so does a carriage return with no line feed behind it. -/
def breakEndsAt (cs : List Char) (i : Nat) : Bool :=
  cs[i]? == some '\n' || cs[i]? == some '\r' && cs[i + 1]? != some '\n'

/-- Where the line breaks end that end at an offset or in front of it. -/
def breaksUpTo (cs : List Char) (offset : Nat) : List Nat :=
  (((List.range cs.length).filter (breakEndsAt cs)).map (fun i => offsetOf cs (i + 1))).filter (· ≤ offset)

/-- How many characters stand between two offsets. -/
def countBetween (cs : List Char) (start stop : Nat) : Nat :=
  (List.range cs.length).countP (fun i => start ≤ offsetOf cs i && offsetOf cs (i + 1) ≤ stop)

/-- Where the line of an offset begins. -/
def lineStart (cs : List Char) (offset : Nat) : Nat := (breaksUpTo cs offset).getLastD 0

/-- The line of an offset. -/
def lineAt (cs : List Char) (offset : Nat) : Nat := 1 + (breaksUpTo cs offset).length

/-- The column of an offset. -/
def columnAt (cs : List Char) (offset : Nat) : Nat := 1 + countBetween cs (lineStart cs offset) offset

/-! ## Offsets of characters -/

variable {cs : List Char}

theorem offsetOf_succ {i : Nat} {c : Char} (h : cs[i]? = some c) : offsetOf cs (i + 1) = offsetOf cs i + c.utf8Size := by
  rw [offsetOf, offsetOf, List.take_add_one, h, byteLength_append]
  rfl

theorem offsetOf_lt {i j : Nat} (hij : i < j) (hj : j ≤ cs.length) : offsetOf cs i < offsetOf cs j := by
  induction j with
  | zero => omega
  | succ j ih =>
    have hs := offsetOf_succ (List.getElem?_eq_getElem hj)
    have hpos := cs[j].utf8Size_pos
    rcases Nat.lt_or_eq_of_le (Nat.le_of_lt_succ hij) with h | rfl
    · have := ih h (by omega)
      omega
    · omega

/-- Offsets of characters are ordered as the characters are. -/
theorem offsetOf_le_iff {i j : Nat} (hi : i ≤ cs.length) (hj : j ≤ cs.length) : offsetOf cs i ≤ offsetOf cs j ↔ i ≤ j := by
  constructor
  · intro h
    by_contra hn
    have := offsetOf_lt (Nat.lt_of_not_le hn) hi
    omega
  · intro h
    rcases Nat.lt_or_eq_of_le h with h | rfl
    · exact Nat.le_of_lt (offsetOf_lt h hj)
    · exact Nat.le_refl _

theorem filter_range_lt {n m : Nat} (h : n ≤ m) (p : Nat → Bool) :
    (List.range m).filter (fun i => p i && decide (i < n)) = (List.range n).filter p := by
  obtain ⟨k, rfl⟩ := Nat.exists_eq_add_of_le h
  rw [List.range_add, List.filter_append]
  have hlow : (List.range n).filter (fun i => p i && decide (i < n)) = (List.range n).filter p := by
    refine List.filter_congr (fun i hi => ?_)
    simp [List.mem_range.mp hi]
  have hhigh : ((List.range k).map (n + ·)).filter (fun i => p i && decide (i < n)) = [] := by
    rw [List.filter_eq_nil_iff]
    intro i hi
    obtain ⟨j, _, rfl⟩ := List.mem_map.mp hi
    simp
  rw [hlow, hhigh, List.append_nil]

/-- Up to a character, the breaks are those that end in front of it. -/
theorem breaksUpTo_offsetOf {n : Nat} (hn : n ≤ cs.length) :
    breaksUpTo cs (offsetOf cs n) = ((List.range n).filter (breakEndsAt cs)).map (fun i => offsetOf cs (i + 1)) := by
  rw [breaksUpTo, List.filter_map, List.filter_filter, ← filter_range_lt hn]
  refine congrArg (List.map _) (List.filter_congr (fun i hi => ?_))
  have hi := List.mem_range.mp hi
  rw [Bool.and_comm]
  refine congrArg (breakEndsAt cs i && ·) (decide_eq_decide.mpr ?_)
  exact offsetOf_le_iff hi hn

/-- Up to a character, the characters behind an offset are those in front of it that begin there or further on. -/
theorem countBetween_offsetOf {n : Nat} (hn : n ≤ cs.length) (start : Nat) :
    countBetween cs start (offsetOf cs n) = (List.range n).countP (fun i => start ≤ offsetOf cs i) := by
  rw [countBetween, List.countP_eq_length_filter, List.countP_eq_length_filter, ← filter_range_lt hn]
  refine congrArg List.length (List.filter_congr (fun i hi => ?_))
  refine congrArg (decide (start ≤ offsetOf cs i) && ·) (decide_eq_decide.mpr ?_)
  exact offsetOf_le_iff (List.mem_range.mp hi) hn

/-! ## Places of characters -/

/-- Where the line of a character begins is not behind the character. -/
theorem lineStart_le {n : Nat} (hn : n ≤ cs.length) : lineStart cs (offsetOf cs n) ≤ offsetOf cs n := by
  rw [lineStart, breaksUpTo_offsetOf hn, List.getLastD_eq_getLast?]
  cases hl : (((List.range n).filter (breakEndsAt cs)).map (fun i => offsetOf cs (i + 1))).getLast? with
  | none => exact Nat.zero_le _
  | some last =>
    obtain ⟨i, hi, rfl⟩ := List.mem_map.mp (List.mem_of_getLast? hl)
    have hlt := List.mem_range.mp (List.mem_filter.mp hi).1
    exact (offsetOf_le_iff (by omega) hn).mpr hlt

theorem line_column_zero (cs : List Char) : lineAt cs (offsetOf cs 0) = 1 ∧ columnAt cs (offsetOf cs 0) = 1 := by
  have hz : 0 ≤ cs.length := Nat.zero_le _
  simp only [lineAt, columnAt, breaksUpTo_offsetOf hz, countBetween_offsetOf hz]
  exact ⟨rfl, rfl⟩

/-- Behind a character that ends a line break the next line begins. -/
theorem line_column_succ_of_break {n : Nat} {c : Char} (hc : cs[n]? = some c) (hb : breakEndsAt cs n = true) :
    lineAt cs (offsetOf cs (n + 1)) = lineAt cs (offsetOf cs n) + 1 ∧ columnAt cs (offsetOf cs (n + 1)) = 1 := by
  have hn : n + 1 ≤ cs.length := (List.getElem?_eq_some_iff.mp hc).1
  have hbreaks : breaksUpTo cs (offsetOf cs (n + 1)) = breaksUpTo cs (offsetOf cs n) ++ [offsetOf cs (n + 1)] := by
    rw [breaksUpTo_offsetOf hn, breaksUpTo_offsetOf (Nat.le_of_succ_le hn), List.range_succ, List.filter_append,
      List.map_append]
    simp [hb]
  have hstart : lineStart cs (offsetOf cs (n + 1)) = offsetOf cs (n + 1) := by
    rw [lineStart, hbreaks, List.getLastD_eq_getLast?, List.getLast?_concat]
    rfl
  refine ⟨?_, ?_⟩
  · rw [lineAt, hbreaks, List.length_append, lineAt]
    rfl
  · rw [columnAt, hstart, countBetween_offsetOf hn, Nat.add_eq_left, List.countP_eq_zero]
    intro i hi
    have hlt := List.mem_range.mp hi
    rw [decide_eq_true_eq, offsetOf_le_iff hn (by omega)]
    omega

/-- Behind a character that ends no line break the same line goes on. -/
theorem line_column_succ {n : Nat} {c : Char} (hc : cs[n]? = some c) (hb : breakEndsAt cs n = false) :
    lineAt cs (offsetOf cs (n + 1)) = lineAt cs (offsetOf cs n) ∧
      columnAt cs (offsetOf cs (n + 1)) = columnAt cs (offsetOf cs n) + 1 := by
  have hn : n + 1 ≤ cs.length := (List.getElem?_eq_some_iff.mp hc).1
  have hn' : n ≤ cs.length := Nat.le_of_succ_le hn
  have hbreaks : breaksUpTo cs (offsetOf cs (n + 1)) = breaksUpTo cs (offsetOf cs n) := by
    rw [breaksUpTo_offsetOf hn, breaksUpTo_offsetOf hn', List.range_succ, List.filter_append, List.map_append]
    simp [hb]
  have hstart : lineStart cs (offsetOf cs (n + 1)) = lineStart cs (offsetOf cs n) := by
    rw [lineStart, hbreaks, lineStart]
  refine ⟨?_, ?_⟩
  · rw [lineAt, hbreaks, lineAt]
  · rw [columnAt, columnAt, hstart, countBetween_offsetOf hn, countBetween_offsetOf hn', List.range_succ,
      List.countP_append, ← Nat.add_assoc]
    simp [lineStart_le hn']

/-- The place of a character in a text that begins at an offset, by counting in 32 bits. -/
def placeAt (start : Nat) (cs : List Char) (n : Nat) : Position :=
  ⟨start + offsetOf cs n, .ofNat (lineAt cs (offsetOf cs n)), .ofNat (columnAt cs (offsetOf cs n))⟩

theorem placeAt_zero (start : Nat) (cs : List Char) : placeAt start cs 0 = ⟨start, 1, 1⟩ := by
  obtain ⟨hline, hcolumn⟩ := line_column_zero cs
  rw [placeAt, hline, hcolumn]
  rfl

theorem placeAt_succ_of_break (start : Nat) {n : Nat} {c : Char} (hc : cs[n]? = some c) (hb : breakEndsAt cs n = true) :
    placeAt start cs (n + 1) = (placeAt start cs n).nextLine c.utf8Size := by
  obtain ⟨hline, hcolumn⟩ := line_column_succ_of_break hc hb
  rw [placeAt, hline, hcolumn, offsetOf_succ hc, ← Nat.add_assoc, UInt32.ofNat_add]
  rfl

theorem placeAt_succ (start : Nat) {n : Nat} {c : Char} (hc : cs[n]? = some c) (hb : breakEndsAt cs n = false) :
    placeAt start cs (n + 1) = (placeAt start cs n).right c := by
  obtain ⟨hline, hcolumn⟩ := line_column_succ hc hb
  rw [placeAt, hline, hcolumn, offsetOf_succ hc, ← Nat.add_assoc, UInt32.ofNat_add]
  rfl

/-- What breaks behind a text is told by the character there and the one behind it. -/
theorem breakEndsAt_length (read : List Char) (c : Char) (ds : List Char) :
    breakEndsAt (read ++ c :: ds) read.length = (c == '\n' || c == '\r' && ds.head? != some '\n') := by
  have hc : (read ++ c :: ds)[read.length]? = some c := by simp
  have hd : (read ++ c :: ds)[read.length + 1]? = ds.head? := by
    rw [List.getElem?_append_right (Nat.le_add_right _ _), Nat.add_sub_cancel_left, List.head?_eq_getElem?]
    rfl
  rw [breakEndsAt, hc, hd]
  rfl

/-- Going on by a stretch of text, which does not end between the halves of a line break, leads to the place behind it. -/
theorem advance_placeAt (start : Nat) {read text rest : List Char} {p : Position}
    (hp : p = placeAt start (read ++ (text ++ rest)) read.length)
    (hcut : Uncut text rest) : p.advance text = placeAt start (read ++ (text ++ rest)) (read.length + text.length) := by
  fun_induction Position.advance p text generalizing read with
  | case1 => exact hp
  | case2 p cs ih =>
    have h1 : placeAt start (read ++ ('\r' :: '\n' :: cs ++ rest)) (read.length + 1) = p.right '\r' := by
      rw [hp]
      exact placeAt_succ start (by simp) (by simp [breakEndsAt_length])
    have h2 : placeAt start (read ++ ('\r' :: '\n' :: cs ++ rest)) (read.length + 2) = p.nextLine 2 := by
      have hb := breakEndsAt_length (read ++ ['\r']) '\n' (cs ++ rest)
      rw [placeAt_succ_of_break start (c := '\n') (by simp) (by simpa using hb), h1]
      rfl
    have hi := @ih (read ++ ['\r', '\n']) (by simpa using h2.symm) hcut.tail.tail
    simpa [Nat.add_comm, Nat.add_left_comm] using hi
  | case3 p c cs hn hb ih =>
    have hends : breakEndsAt (read ++ (c :: cs ++ rest)) read.length = true := by
      rw [List.cons_append, breakEndsAt_length]
      rcases (isBreak_iff c).mp hb with rfl | rfl
      · cases cs with
        | nil => simpa using fun hd => hcut ⟨rfl, hd⟩
        | cons d cs => simpa using fun hd => hn cs rfl (by rw [hd])
      · rfl
    have h1 : placeAt start (read ++ (c :: cs ++ rest)) (read.length + 1) = p.nextLine 1 := by
      rw [placeAt_succ_of_break start (c := c) (by simp) hends, ← hp, utf8Size_of_isBreak hb]
    have hi := @ih (read ++ [c]) (by simpa using h1.symm) hcut.tail
    simpa [Nat.add_comm, Nat.add_left_comm] using hi
  | case4 p c cs hn hb ih =>
    have hne : c ≠ '\r' ∧ c ≠ '\n' := by simpa [isBreak_iff] using hb
    have hends : breakEndsAt (read ++ (c :: cs ++ rest)) read.length = false := by
      rw [List.cons_append, breakEndsAt_length]
      simp [hne]
    have h1 : placeAt start (read ++ (c :: cs ++ rest)) (read.length + 1) = p.right c := by
      rw [hp]
      exact placeAt_succ start (by simp) hends
    have hi := @ih (read ++ [c]) (by simpa using h1.symm) hcut.tail
    simpa [Nat.add_comm, Nat.add_left_comm] using hi

/-! ## Order -/

/-- A line and a column are in an earlier line than others, or in the same line and an earlier column. -/
def Before (p q : Nat × Nat) : Prop := p.1 < q.1 ∨ p.1 = q.1 ∧ p.2 < q.2

/-- A character further on has a later place. -/
theorem line_column_before {n m : Nat} (h : n < m) (hm : m ≤ cs.length) :
    Before (lineAt cs (offsetOf cs n), columnAt cs (offsetOf cs n)) (lineAt cs (offsetOf cs m), columnAt cs (offsetOf cs m)) := by
  induction m with
  | zero => omega
  | succ m ih =>
    have hc := List.getElem?_eq_getElem hm
    have hstep : Before (lineAt cs (offsetOf cs m), columnAt cs (offsetOf cs m))
        (lineAt cs (offsetOf cs (m + 1)), columnAt cs (offsetOf cs (m + 1))) := by
      cases hb : breakEndsAt cs m with
      | true =>
        rw [(line_column_succ_of_break hc hb).1]
        exact Or.inl (Nat.lt_succ_self _)
      | false =>
        rw [(line_column_succ hc hb).1, (line_column_succ hc hb).2]
        exact Or.inr ⟨rfl, Nat.lt_succ_self _⟩
    rcases Nat.lt_or_eq_of_le (Nat.le_of_lt_succ h) with h | rfl
    · have hi := ih h (by omega)
      simp only [Before] at hi hstep ⊢
      omega
    · exact hstep

/-! ## Line breaks -/

/-- How many line breaks a text has, a carriage return with the line feed behind it being one. -/
def lineBreaks (cs : List Char) : Nat := (List.range cs.length).countP (breakEndsAt cs)

/-- Whether a line break ends with the first character is told by that and the one behind it. -/
theorem breakEndsAt_zero (c : Char) (cs : List Char) :
    breakEndsAt (c :: cs) 0 = (c == '\n' || c == '\r' && cs.head? != some '\n') := breakEndsAt_length [] c cs

theorem lineBreaks_nil : lineBreaks [] = 0 := rfl

theorem lineBreaks_cons (c : Char) (cs : List Char) :
    lineBreaks (c :: cs) = lineBreaks cs + if breakEndsAt (c :: cs) 0 then 1 else 0 := by
  rw [lineBreaks, List.length_cons, List.range_succ_eq_map, List.countP_cons, List.countP_map]
  rfl

theorem lineBreaks_cons_of_unbroken {c : Char} (hc : isBreak c = false) (cs : List Char) :
    lineBreaks (c :: cs) = lineBreaks cs := by
  rw [Bool.eq_false_iff, ne_eq, isBreak_iff, not_or] at hc
  rw [lineBreaks_cons, breakEndsAt_zero]
  simp [hc]

/-- A carriage return in front of a line feed is one line break with it. -/
theorem lineBreaks_pair (cs : List Char) : lineBreaks ('\r' :: '\n' :: cs) = lineBreaks cs + 1 := by
  rw [lineBreaks_cons, lineBreaks_cons, breakEndsAt_zero, breakEndsAt_zero]
  rfl

/-- A character that breaks a line, and is not the first half of a line break, is one by itself. -/
theorem lineBreaks_cons_of_break {c : Char} {cs : List Char} (hn : ∀ tail, c = '\r' → cs = '\n' :: tail → False)
    (hc : isBreak c = true) : lineBreaks (c :: cs) = lineBreaks cs + 1 := by
  rw [lineBreaks_cons, breakEndsAt_zero]
  rcases (isBreak_iff c).mp hc with rfl | rfl
  · cases cs with
    | nil => rfl
    | cons d cs =>
      have hd : d ≠ '\n' := fun hd => hn cs rfl (by rw [hd])
      simp [hd]
  · rfl

/-- Two texts that cut no line break in two have their line breaks apart. -/
theorem Uncut.lineBreaks_append {cs ds : List Char} (h : Uncut cs ds) :
    lineBreaks (cs ++ ds) = lineBreaks cs + lineBreaks ds := by
  induction cs with
  | nil => rw [List.nil_append, lineBreaks_nil, Nat.zero_add]
  | cons c cs ih =>
    have hzero : breakEndsAt (c :: (cs ++ ds)) 0 = breakEndsAt (c :: cs) 0 := by
      rw [breakEndsAt_zero, breakEndsAt_zero]
      cases cs with
      | nil =>
        by_cases hc : c = '\r'
        · have hd : ds.head? ≠ some '\n' := fun hd => h ⟨by rw [hc]; rfl, hd⟩
          simp only [List.nil_append, List.head?_nil, bne_iff_ne.mpr hd]
          rfl
        · simp only [beq_eq_false_iff_ne.mpr hc, Bool.false_and]
      | cons d cs => rfl
    rw [List.cons_append, lineBreaks_cons, lineBreaks_cons, ih h.tail, hzero]
    omega

/-- The line breaks behind a text are line breaks of the whole, wherever it is cut. -/
theorem lineBreaks_le_append (cs ds : List Char) : lineBreaks ds ≤ lineBreaks (cs ++ ds) := by
  induction cs with
  | nil => exact Nat.le_refl _
  | cons c cs ih =>
    rw [List.cons_append, lineBreaks_cons]
    omega

/-- No text has more line breaks than characters. -/
theorem lineBreaks_le_length (cs : List Char) : lineBreaks cs ≤ cs.length := by
  have h := List.countP_le_length (p := breakEndsAt cs) (l := List.range cs.length)
  rwa [List.length_range] at h

/-- A text that holds a character that breaks a line has a line break. -/
theorem lineBreaks_pos {cs : List Char} {c : Char} (hc : c ∈ cs) (hb : isBreak c = true) : 0 < lineBreaks cs := by
  induction cs with
  | nil => cases hc
  | cons d cs ih =>
    by_cases hd : isBreak d = true
    · by_cases hpair : ∃ tail, d = '\r' ∧ cs = '\n' :: tail
      · obtain ⟨tail, rfl, rfl⟩ := hpair
        rw [lineBreaks_pair]
        exact Nat.succ_pos _
      · rw [lineBreaks_cons_of_break (fun tail h h' => hpair ⟨tail, h, h'⟩) hd]
        exact Nat.succ_pos _
    · have hne : c ≠ d := fun h => hd (h ▸ hb)
      rw [lineBreaks_cons_of_unbroken (Bool.eq_false_iff.mpr hd)]
      exact ih ((List.mem_cons.mp hc).resolve_left hne)

/-- A text leads as many lines on as it has line breaks. -/
theorem line_advance (p : Position) (cs : List Char) : (p.advance cs).line = p.line + .ofNat (lineBreaks cs) := by
  have hnext : ∀ (p : Position) (bytes n : Nat), (p.nextLine bytes).line + .ofNat n = p.line + .ofNat (n + 1) := by
    intro p bytes n
    rw [Nat.add_comm n, UInt32.ofNat_add, ← UInt32.add_assoc]
    rfl
  fun_induction Position.advance p cs with
  | case1 => exact (UInt32.add_zero _).symm
  | case2 p cs ih => rw [ih, lineBreaks_pair, hnext]
  | case3 p c cs hn hb ih => rw [ih, lineBreaks_cons_of_break hn hb, hnext]
  | case4 p c cs hn hb ih =>
    rw [ih, lineBreaks_cons_of_unbroken (Bool.eq_false_iff.mpr hb)]
    rfl

theorem lineAt_le (cs : List Char) (offset : Nat) : lineAt cs offset ≤ 1 + lineBreaks cs := by
  rw [lineAt, breaksUpTo, lineBreaks, List.countP_eq_length_filter]
  have h := List.length_filter_le (· ≤ offset) (((List.range cs.length).filter (breakEndsAt cs)).map
    (fun i => offsetOf cs (i + 1)))
  rw [List.length_map] at h
  exact Nat.add_le_add_left h 1

theorem columnAt_le (cs : List Char) (offset : Nat) : columnAt cs offset ≤ 1 + cs.length := by
  rw [columnAt, countBetween]
  have h := List.countP_le_length (l := List.range cs.length)
    (p := fun i => decide (lineStart cs offset ≤ offsetOf cs i) && decide (offsetOf cs (i + 1) ≤ offset))
  rw [List.length_range] at h
  exact Nat.add_le_add_left h 1

end MiniLex
