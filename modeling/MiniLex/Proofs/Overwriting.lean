import Mathlib.Data.List.Basic
import MiniLex.Disk.Basic

/-!
# What a write changes

A write changes the file at one place, the one that the path leads to, and leaves everything else on the disk as it was
(`Disk.write_cases`). The file holds what was written, or the beginning of it where the disk took no more; only a write that could
not open the file has changed nothing. No directory is at that place, so every path that led somewhere leads there still
(`Disk.Overwritten.walk`), and the same path reads what was written (`Disk.Overwritten.read`).
-/

namespace MiniLex

namespace Disk

variable {d : Disk} {p q : Place}

/-! ## Entries -/

theorem entry?_put_self (hp : p.names ≠ []) (e : Entry) : entry? (d.put p e) p = some e := by
  have hn : ¬p.names.isEmpty = true := fun h => hp (List.isEmpty_iff.mp h)
  unfold entry? put
  rw [if_neg hn, List.lookup_cons_self]

/-- Looking something up does not depend on what is known of another place. -/
theorem lookup_filter_ne (entries : List (Place × Entry)) (h : q ≠ p) :
    (entries.filter (fun known => known.1 != p)).lookup q = entries.lookup q := by
  induction entries with
  | nil => rfl
  | cons known entries ih =>
    obtain ⟨place, e⟩ := known
    by_cases hp : place = p
    · rw [List.filter_cons_of_neg (by simp [hp]), ih, List.lookup_cons, hp, beq_eq_false_iff_ne.mpr h]
    · rw [List.filter_cons_of_pos (by simpa using hp), List.lookup_cons, List.lookup_cons, ih]

theorem entry?_put_of_ne (h : q ≠ p) (e : Entry) : entry? (d.put p e) q = d.entry? q := by
  unfold entry? put
  rw [List.lookup_cons, beq_eq_false_iff_ne.mpr h, lookup_filter_ne _ h]

/-- The file at a place has been replaced, or made, and everything else is as it was. -/
structure Overwritten (d d' : Disk) (p : Place) (bytes : ByteArray) : Prop where
  written : entry? d' p = some (.file bytes)
  unchanged : ∀ q, q ≠ p → entry? d' q = d.entry? q
  unreadable_eq : d'.unreadable = d.unreadable
  unwritable_eq : d'.unwritable = d.unwritable
  shortage_eq : d'.shortage = d.shortage

theorem overwritten_put (hp : p.names ≠ []) (bytes : ByteArray) : Overwritten d (d.put p (.file bytes)) p bytes :=
  ⟨entry?_put_self hp _, fun _ hq => entry?_put_of_ne hq _, rfl, rfl, rfl⟩

/-! ## Paths -/

/-- Parts of a path are followed one after the other. -/
theorem walk_append (d : Disk) (p : Place) (parts more : List String) :
    d.walk p (parts ++ more) = (d.walk p parts).bind (fun q => d.walk q more) := by
  induction parts generalizing p with
  | nil => rfl
  | cons part parts ih =>
    rw [List.cons_append, walk, walk]
    cases d.entry? p with
    | none => rfl
    | some e =>
      cases e with
      | file => rfl
      | directory => exact ih _

/-- A path that leads somewhere leads there still when a file is overwritten where no directory is. -/
theorem Overwritten.walk {d' : Disk} {bytes : ByteArray} {origin : Place} {parts : List String} (ho : Overwritten d d' p bytes)
    (hp : d.entry? p ≠ some .directory) (h : d.walk origin parts = .ok q) : Disk.walk d' origin parts = .ok q := by
  induction parts generalizing origin with
  | nil => exact h
  | cons part parts ih =>
    rw [Disk.walk] at h ⊢
    cases hfound : d.entry? origin with
    | none => simp [hfound] at h
    | some found =>
      cases found with
      | file => simp [hfound] at h
      | directory =>
        -- what a path leads through is a directory, and so another place
        have hne : origin ≠ p := by
          rintro rfl
          exact hp hfound
        rw [ho.unchanged origin hne, hfound]
        rw [hfound] at h
        exact ih h

/-- A dot at the end of parts asks for a directory, and does not lead away from it. -/
theorem walk_dot {origin : Place} {parts : List String} (h : d.walk origin (parts ++ ["."]) = .ok q) :
    d.walk origin parts = .ok q ∧ d.entry? q = some .directory := by
  rw [walk_append] at h
  cases hw : d.walk origin parts with
  | error e => simp [hw, Except.bind] at h
  | ok r =>
    simp only [hw, Except.bind, walk] at h
    cases he : d.entry? r with
    | none => simp [he] at h
    | some found =>
      cases found with
      | file => simp [he] at h
      | directory =>
        obtain rfl : r = q := by simpa [he, Place.step] using h
        exact ⟨rfl, he⟩

theorem names_step {name : String} (hd : name ≠ ".") (hdd : name ≠ "..") : (p.step name).names ≠ [] := by
  rw [Place.step, if_neg hd, if_neg hdd]
  exact List.append_ne_nil_of_right_ne_nil _ (List.cons_ne_nil _ _)

/-- What a path for writing is: one without a slash at its end that leads through directories to a directory, and by one name
more to a place where no directory is. -/
theorem target_eq_ok {path : String} (h : d.target path = .ok p) :
    ∃ parsed front name directory, Path.ofString? path = some parsed ∧ parsed.slashed = false ∧
      parsed.parts = front ++ [name] ∧ d.walk parsed.origin front = .ok directory ∧
      d.entry? directory = some .directory ∧ p = directory.step name ∧ p.names ≠ [] ∧
      d.entry? p ≠ some .directory := by
  unfold target at h
  split at h
  · simp at h
  · next parsed hparsed =>
    split at h
    · simp at h
    · next name hname =>
      split at h
      · simp at h
      · next directory hwalk =>
        obtain ⟨hfront, hdirectory⟩ := walk_dot hwalk
        simp only at h
        split at h
        · simp at h
        · next hplain =>
          simp only [Bool.or_eq_true, beq_iff_eq, not_or, Bool.not_eq_true] at hplain
          obtain ⟨⟨hslashed, hdot⟩, hdots⟩ := hplain
          have hparts : parsed.parts = parsed.parts.dropLast ++ [name] :=
            (List.dropLast_append_getLast? name hname).symm
          split at h
          · simp at h
          · next hentry =>
            split at h
            · simp at h
            · obtain rfl : directory.step name = p := by simpa using h
              exact ⟨parsed, parsed.parts.dropLast, name, directory, hparsed, hslashed, hparts, hfront, hdirectory, rfl,
                names_step hdot hdots, hentry⟩

/-! ## Writing -/

/-- An open file takes so many bytes. -/
def Takes (d : Disk) (count : Nat) : Prop := ∀ s, d.shortage = some s → count ≤ s.room

/-- What becomes of the disk where a text is written to a path. -/
inductive Filed (d : Disk) (path text : String) : Except DiskError Unit → Disk → Prop where
  /-- The file is opened and takes all of the text. -/
  | whole {p : Place} {d' : Disk} : d.target path = .ok p → d.Takes text.toUTF8.size →
      Overwritten d d' p text.toUTF8 → Filed d path text (.ok ()) d'
  /-- The file is opened, which empties it, and takes only the beginning of the text. -/
  | cut {p : Place} {s : Shortage} {d' : Disk} : d.target path = .ok p → d.shortage = some s →
      s.room < text.toUTF8.size → Overwritten d d' p (text.toUTF8.extract 0 s.room) →
      Filed d path text (.error (.refused s.reason)) d'
  /-- The file is not opened. -/
  | unopened {e : DiskError} : d.target path = .error e → Filed d path text (.error e) d

/-- A write opens a file and fills it as far as the disk goes, or does not open one. -/
theorem write_cases (d : Disk) (path text : String) : Filed d path text (d.write path text).1 (d.write path text).2 := by
  cases ht : d.target path with
  | error e =>
    rw [write, ht]
    exact Filed.unopened ht
  | ok p =>
    obtain ⟨-, -, -, -, -, -, -, -, -, -, hnames, -⟩ := target_eq_ok ht
    have hwrite : d.write path text = d.fill p text.toUTF8 := by rw [write, ht]
    rw [hwrite, fill]
    cases hs : d.shortage with
    | none => exact Filed.whole ht (fun s h => by simp [hs] at h) (overwritten_put hnames _)
    | some s =>
      dsimp only
      split
      · next hroom =>
        refine Filed.whole ht (fun s' h => ?_) (overwritten_put hnames _)
        obtain rfl : s = s' := by simpa [hs] using h
        exact hroom
      · next hroom => exact Filed.cut ht hs (Nat.lt_of_not_le hroom) (overwritten_put hnames _)

theorem fromUTF8?_toUTF8 (text : String) : String.fromUTF8? text.toUTF8 = some text := by
  unfold String.fromUTF8?
  rw [String.toUTF8_eq_toByteArray, dif_pos text.isValidUTF8]
  rfl

/-- What was written through a path is read through it, unless the system does not open the file for reading. -/
theorem Overwritten.read {path text : String} {d' : Disk} (ho : Overwritten d d' p text.toUTF8) (h : d.target path = .ok p)
    (hr : d.unreadable.lookup p = none) : Disk.read d' path = .ok text := by
  obtain ⟨parsed, front, name, directory, hparsed, hslashed, hparts, hwalk, hdirectory, rfl, hnames, hentry⟩ :=
    target_eq_ok h
  have hfound : Disk.walk d' parsed.origin parsed.parts = .ok (directory.step name) := by
    refine ho.walk hentry ?_
    rw [hparts, walk_append, hwalk]
    simp only [Except.bind, Disk.walk, hdirectory]
  simp only [Disk.read, hparsed, hslashed, Bool.false_eq_true, if_false, hfound, ho.unreadable_eq, hr, ho.written,
    fromUTF8?_toUTF8]

end Disk

end MiniLex
