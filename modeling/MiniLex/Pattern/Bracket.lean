import MiniLex.Pattern.Escape

/-!
# Sets in brackets

Brackets hold characters, ranges of characters, escape sequences, named sets and brackets, which all go into one set, and
operators that make a set from one on the left and one on the right. Operators bind alike and from the left. A caret in front
stands for all else; dashes behind it stand for themselves, and so does a closing bracket that comes first.
-/

namespace MiniLex

/-- Members of a set one behind the other. -/
structure MemberRun where
  place : Stretch
  items : List Members

namespace MemberRun

/-- No members, at a place. -/
def emptyAt (p : PatternPlace) : MemberRun := ⟨.point p, []⟩

def push (r : MemberRun) (m : Members) : MemberRun :=
  ⟨⟨if r.items.isEmpty then m.start else r.place.start, m.stop⟩, r.items ++ [m]⟩

/-- What the members make together. -/
def members (r : MemberRun) : Members :=
  match r.items with
  | [] => .nothing r.place
  | [m] => m
  | ms => .union r.place ms

end MemberRun

/-- An operator in brackets. -/
inductive SetOperator where
  | inter | diff | symmDiff
  deriving DecidableEq

namespace SetOperator

/-- The operator that two characters make. -/
def ofChars? (c : Char) (d : Option Char) : Option SetOperator :=
  if d ≠ some c then none
  else if c = '&' then some .inter
  else if c = '-' then some .diff
  else if c = '~' then some .symmDiff
  else none

/-- What an operator makes of its sides. -/
def apply : SetOperator → Members → Members → Members
  | .inter, a, b => .inter a b
  | .diff, a, b => .diff a b
  | .symmDiff, a, b => .symmDiff a b

end SetOperator

/-- Brackets that are still open. -/
structure OpenBracket where
  /-- The opening bracket with what belongs to it. -/
  place : Stretch
  negated : Bool
  /-- What stands to the left of the last operator, and that operator. -/
  left : Option (Members × SetOperator)
  /-- The members behind the last operator. -/
  run : MemberRun

namespace OpenBracket

/-- Brackets with one member more. -/
def push (b : OpenBracket) (m : Members) : OpenBracket := ⟨b.place, b.negated, b.left, b.run.push m⟩

/-- All that is in brackets. -/
def members (b : OpenBracket) : Members :=
  match b.left with
  | none => b.run.members
  | some (left, operator) => operator.apply left b.run.members

/-- Brackets with an operator behind all that is in them, up to a place. -/
def operate (b : OpenBracket) (operator : SetOperator) (p : PatternPlace) : OpenBracket :=
  ⟨b.place, b.negated, some (b.members, operator), .emptyAt p⟩

end OpenBracket

namespace PatternReader

/-- The dashes in front of the reader, as members. -/
def leadingDashes (start : PatternPlace) (run : MemberRun) (r : PatternReader) : Except Flaw (MemberRun × PatternReader) :=
  if _h : r.head? = some '-' then
    let s := r.next
    if s.isAtEnd then .error (.simple .setUnclosed (.point start))
    else leadingDashes start (run.push (.char r.nextPlace ⟨'-', false⟩)) s
  else .ok (run, r)
termination_by r.rest.length
decreasing_by
  refine r.length_next_lt ?_
  cases hr : r.rest with
  | nil => simp [head?, hr] at _h
  | cons c cs => simp [isAtEnd, hr]

/-- The bracket in front of the reader, with what belongs to it and the members that only stand for themselves there. -/
def openBracket (r : PatternReader) : Except Flaw (OpenBracket × PatternReader) := do
  let start := r.position
  let r := r.next
  if r.isAtEnd then throw (.simple .setUnclosed (r.since start))
  let negated := r.head? == some '^'
  let r := if negated then r.next else r
  if r.isAtEnd then throw (.simple .setUnclosed (r.since start))
  let (run, r) ← r.leadingDashes start (.emptyAt r.position)
  if run.items.isEmpty && r.head? == some ']' then
    let s := r.next
    if s.isAtEnd then throw (.simple .setUnclosed (s.since start))
    return (⟨s.since start, negated, none, run.push (.char r.nextPlace ⟨']', false⟩)⟩, s)
  return (⟨r.since start, negated, none, run⟩, r)

/-- The named set in front of the reader, between colons and brackets, and possibly behind a caret. -/
def namedSet? (r : PatternReader) : Option (Members × PatternReader) := do
  let s ← r.behind? "[:"
  let negated := s.head? == some '^'
  let s := if negated then s.bump else s
  let name := s.rest.takeWhile (· != ':')
  let e ← (s.bumpBy name.length).behind? ":]"
  let set ← NamedSet.ofName? (String.ofList name)
  pure (.named (e.since r.position) set negated, e)

/-- One character of a set, or an escape sequence. -/
def setAtom (r : PatternReader) : Except Flaw (Atom × PatternReader) :=
  match r.head? with
  | some '\\' => r.escape
  | some c => .ok (.char ⟨c, false⟩, r.bump)
  | none => .error (.simple .setUnclosed r.here)

/-- An atom as a member of a set. -/
def memberOf (place : Stretch) : Atom → Except Flaw Members
  | .char c => .ok (.char place c)
  | .shorthand set negated => .ok (.shorthand place set negated)
  | .property name => .ok (.property place name)
  | .dot | .gap _ => .error (.simple .setEscape place)

/-- An atom as one end of a range. -/
def boundaryOf (place : Stretch) : Atom → Except Flaw WrittenChar
  | .char c => .ok c
  | _ => .error (.simple .setRangeBoundary place)

/-- A member of a set, or a range of characters. The innermost brackets begin in a stretch. -/
def member (bracket : Stretch) (r : PatternReader) : Except Flaw (Members × PatternReader) := do
  let (first, s) ← r.setAtom
  let firstPlace := s.since r.position
  let s := s.skip
  if s.isAtEnd then throw (.simple .setUnclosed bracket)
  if s.head? ≠ some '-' || s.secondWord? = some ']' || s.secondWord? = some '-' then
    return (← memberOf firstPlace first, s)
  let s := s.next
  if s.isAtEnd then throw (.simple .setUnclosed bracket)
  let (last, e) ← s.setAtom
  let lastPlace := e.since s.position
  let first ← boundaryOf firstPlace first
  let last ← boundaryOf lastPlace last
  if last.char < first.char then throw (.simple .setRangeReversed ⟨firstPlace.start, lastPlace.stop⟩)
  return (.range firstPlace lastPlace first last, e)

/-- The rest of brackets, with the brackets around them from the innermost on. Every round reads a character, so that there
are no more rounds than characters. -/
def closeBrackets : Nat → OpenBracket → List OpenBracket → PatternReader → Except Flaw (Node × PatternReader)
  | 0, b, _, _ => .error (.simple .setUnclosed b.place)
  | rounds + 1, b, around, r =>
    let r := r.skip
    match r.head? with
    | none => .error (.simple .setUnclosed b.place)
    | some '[' =>
      match r.namedSet? with
      | some (m, s) => closeBrackets rounds (b.push m) around s
      | none => do
        let (inner, s) ← r.openBracket
        closeBrackets rounds inner (b :: around) s
    | some ']' =>
      let s := r.bump
      let place := s.since b.place.start
      match around with
      | [] => .ok (.bracket place b.negated b.members, s)
      | outer :: around => closeBrackets rounds (outer.push (.bracket place b.negated b.members)) around s
    | some c =>
      match SetOperator.ofChars? c r.second? with
      | some operator =>
        let s := r.bumpBy 2
        closeBrackets rounds (b.operate operator s.position) around s
      | none => do
        let (m, s) ← r.member b.place
        closeBrackets rounds (b.push m) around s

/-- The set in brackets in front of the reader. -/
def bracket (r : PatternReader) : Except Flaw (Node × PatternReader) := do
  let (b, s) ← r.openBracket
  closeBrackets (s.rest.length + 1) b [] s

end PatternReader

end MiniLex
