import MiniLex.Pattern.Parse
import MiniLex.Pattern.Size

/-!
# What a written pattern means

What the parts of a pattern mean depends on the flags in force, which the end of a group puts back to what they were in front
of it. With characters of every script in force, as they are at the beginning, there are no tables for their classes, their
properties and their cases, and what asks for these is a fault. With bytes of ASCII in force instead, a set that reaches beyond
ASCII could take part of a character, which is a fault as well.
-/

namespace MiniLex

/-- The flags in force. -/
structure PatternMode where
  anyCase : Bool
  multiLine : Bool
  anyDot : Bool
  scripts : Bool
  returns : Bool
  deriving DecidableEq

namespace PatternMode

/-- The flags in force at the beginning of a pattern. -/
def initial : PatternMode := ⟨false, false, false, true, false⟩

/-- The flags in force where some are set or cleared. -/
def apply (m : PatternMode) (settings : FlagSettings) : PatternMode :=
  ⟨(settings.get? .anyCase).getD m.anyCase, (settings.get? .multiLine).getD m.multiLine,
   (settings.get? .anyDot).getD m.anyDot, (settings.get? .scripts).getD m.scripts,
   (settings.get? .returns).getD m.returns⟩

/-- A set that is written in a stretch, with the letters of either case where the case does not matter. -/
def foldCase (m : PatternMode) (place : Stretch) (s : CharSet) : Except Flaw CharSet :=
  if !m.anyCase then .ok s
  else if !m.scripts then .ok (.anyCase s)
  else if s.isBare then .ok s
  else .error (.simple .caseUnavailable place)

/-- A set that is written in a stretch, or all else. -/
def negate (m : PatternMode) (place : Stretch) (negated : Bool) (s : CharSet) : Except Flaw CharSet :=
  if !negated then .ok s else if m.scripts then .ok (.compl s) else .error (.simple .invalidText place)

/-- The set of what is in a class, or of all else. -/
def shorthand (m : PatternMode) (place : Stretch) (set : NamedSet) (negated : Bool) : Except Flaw CharSet :=
  if m.scripts then .error (.simple .setUnavailable place) else m.negate place negated set.set

/-- The fault that a property is. Three short names are those of values. -/
def property (m : PatternMode) (place : Stretch) (name : PropertyName) : Flaw :=
  if !m.scripts then .simple .letterBeyondAscii place
  else
    match name with
    | .valued => .simple .propertyUnknown place
    | .plain name =>
      let letters := (name.toList.filter (fun c => c.toNat < 128)).map Char.toLower
      let letters := if ['i', 's'].isPrefixOf (name.toList.map Char.toLower) then letters.drop 2 else letters
      let letters := String.ofList (letters.filter (fun c => c != ' ' && c != '_' && c != '-'))
      if letters = "cf" || letters = "sc" || letters = "lc" then .simple .propertyValueUnknown place
      else .simple .propertyUnknown place

/-- A character of a set. -/
def setChar (m : PatternMode) (place : Stretch) (c : WrittenChar) : Except Flaw Char :=
  if m.scripts || c.char.toNat < 128 then .ok c.char
  else .error (.simple (if c.isByte then .invalidText else .letterBeyondAscii) place)

/-- A character that is a pattern. -/
def char (m : PatternMode) (place : Stretch) (c : WrittenChar) : Except Flaw Pattern :=
  if !m.scripts && c.isByte && 128 ≤ c.char.toNat then .error (.simple .invalidText place)
  else if !m.anyCase then .ok (.one (.single c.char))
  else if m.scripts then .error (.simple .caseUnavailable place)
  else .ok (.one (if c.char.isAlpha then .anyCase (.single c.char) else .single c.char))

/-- What the dot stands for. -/
def dot (m : PatternMode) (place : Stretch) : Except Flaw Pattern :=
  if !m.scripts then .error (.simple .invalidText place)
  else if m.anyDot then .ok (.one (.compl .empty))
  else if m.returns then .ok (.one (.compl (.ofRanges [('\n', '\n'), ('\x0D', '\x0D')])))
  else .ok (.one (.compl (.single '\n')))

/-- A test at a gap. -/
def gap (m : PatternMode) : WrittenGap → GapTest
  | .textStart => .textStart
  | .textEnd => .textEnd
  | .lineStart => if m.multiLine then .lineStart m.returns else .textStart
  | .lineEnd => if m.multiLine then .lineEnd m.returns else .textEnd
  | .word e => if m.scripts then .scriptWord e else .word e

end PatternMode

/-- What an atom means. -/
def Atom.meaning (m : PatternMode) (place : Stretch) : Atom → Except Flaw Pattern
  | .char c => m.char place c
  | .dot => m.dot place
  | .gap g => .ok (.gap (m.gap g))
  | .shorthand set negated => (m.shorthand place set negated).map .one
  | .property name => .error (m.property place name)

/-- The set that an operator makes of its sides. The case of letters is settled on its sides, on the right one first. -/
def PatternMode.operate (m : PatternMode) (f : CharSet → CharSet → CharSet) (aPlace bPlace : Stretch) (a b : CharSet) :
    Except Flaw CharSet := do
  let b ← m.foldCase bPlace b
  let a ← m.foldCase aPlace a
  return f a b

mutual

/-- The set that members make. -/
def Members.set (m : PatternMode) : Members → Except Flaw CharSet
  | .nothing _ => .ok .empty
  | .char place c => (m.setChar place c).map .single
  | .range firstPlace lastPlace first last => do
    let first ← m.setChar firstPlace first
    let last ← m.setChar lastPlace last
    return .range first last
  | .named place set negated => do m.negate place negated (← m.foldCase place set.set)
  | .shorthand place set negated => m.shorthand place set negated
  | .property place name => .error (m.property place name)
  | .bracket place negated inner => do m.negate place negated (← m.foldCase place (← inner.set m))
  | .union _ items => Members.setOfAll m items
  | .inter a b => do
    let s ← a.set m
    let t ← b.set m
    m.operate .inter a.place b.place s t
  | .diff a b => do
    let s ← a.set m
    let t ← b.set m
    m.operate .diff a.place b.place s t
  | .symmDiff a b => do
    let s ← a.set m
    let t ← b.set m
    m.operate .symmDiff a.place b.place s t

/-- The set that several members make together. -/
def Members.setOfAll (m : PatternMode) : List Members → Except Flaw CharSet
  | [] => .ok .empty
  | x :: xs => do
    let s ← x.set m
    let t ← Members.setOfAll m xs
    return .union s t

end

mutual

/-- What a part means, and the flags in force behind it. -/
def Node.meaning (m : PatternMode) : Node → Except Flaw (Pattern × PatternMode)
  | .empty _ => .ok (.empty, m)
  | .flags _ settings => .ok (.empty, m.apply settings)
  | .atom place a => (a.meaning m place).map (·, m)
  | .bracket place negated members => do
    let s ← m.negate place negated (← m.foldCase place (← members.set m))
    return (.one s, m)
  | .repetition _ inner least most => do
    let (p, m) ← inner.meaning m
    return (p.repeated least most, m)
  | .group _ kept settings inner => do
    let (p, _) ← inner.meaning (m.apply settings)
    return (if kept then .kept p else p, m)
  | .sequence _ items => Node.sequenceMeaning m items
  | .alternatives _ items => Node.choiceMeaning m items

/-- What parts mean one behind the other. -/
def Node.sequenceMeaning (m : PatternMode) : List Node → Except Flaw (Pattern × PatternMode)
  | [] => .ok (.empty, m)
  | [n] => n.meaning m
  | n :: ns => do
    let (p, m) ← n.meaning m
    let (q, m) ← Node.sequenceMeaning m ns
    return (.seq p q, m)

/-- What alternatives mean. Flags that are set in one are in force in those behind it. -/
def Node.choiceMeaning (m : PatternMode) : List Node → Except Flaw (Pattern × PatternMode)
  | [] => .ok (.empty, m)
  | [n] => n.meaning m
  | n :: ns => do
    let (p, m) ← n.meaning m
    let (q, m) ← Node.choiceMeaning m ns
    return (.alt p q, m)

end

/-- The pattern that a text writes. -/
def Pattern.ofString (written : String) : Except PatternError Pattern :=
  match Node.ofString written with
  | .error flaw => .error (.malformed written flaw)
  | .ok n =>
    match n.meaning .initial with
    | .error flaw => .error (.malformed written flaw)
    | .ok (p, _) =>
      if p.isTooLarge then .error (.tooLarge Pattern.sizeLimit)
      else if p.isDecidable then .ok p
      else .error .undecidable

end MiniLex
