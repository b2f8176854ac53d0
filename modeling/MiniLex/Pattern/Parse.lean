import MiniLex.Pattern.Bracket
import MiniLex.Pattern.Count
import MiniLex.Pattern.Opening

/-!
# The parts of a pattern

A pattern is read from left to right into the group that is open. A repetition takes the last part away from it and puts
itself in the place, a bar begins an alternative, and a closing parenthesis makes the group a part of the one around it. What
no other rule takes is a character that stands for itself.
-/

namespace MiniLex

/-- A group of which the end has not been read: the alternative that is being read, and those in front of it with the place
where the first one begins. -/
structure OpenGroup where
  start : PatternPlace
  items : List Node
  earlier : Option (PatternPlace × List Node)

namespace OpenGroup

/-- Nothing yet, from a place on. -/
def emptyAt (p : PatternPlace) : OpenGroup := ⟨p, [], none⟩

def push (g : OpenGroup) (n : Node) : OpenGroup := ⟨g.start, g.items ++ [n], g.earlier⟩

/-- The alternative that is being read, up to a place. -/
def current (g : OpenGroup) (stop : PatternPlace) : Node :=
  match g.items with
  | [] => .empty ⟨g.start, stop⟩
  | [n] => n
  | ns => .sequence ⟨g.start, stop⟩ ns

/-- A new alternative behind a bar at a place, from another place on. -/
def alternate (g : OpenGroup) (bar behind : PatternPlace) : OpenGroup :=
  let (start, nodes) := g.earlier.getD (g.start, [])
  ⟨behind, [], some (start, nodes ++ [g.current bar])⟩

/-- All that is in the group, up to a place. -/
def close (g : OpenGroup) (stop : PatternPlace) : Node :=
  match g.earlier with
  | none => g.current stop
  | some (start, nodes) => .alternatives ⟨start, stop⟩ (nodes ++ [g.current stop])

/-- The last part, if it is one that can be repeated. -/
def repeatable? (g : OpenGroup) : Option Node := g.items.getLast?.filter (fun n => !n.isVoid)

/-- Another part in the place of the last one. -/
def replaceLast (g : OpenGroup) (n : Node) : OpenGroup := ⟨g.start, g.items.dropLast ++ [n], g.earlier⟩

end OpenGroup

/-- What stands around a group: its parenthesis and what belongs to that, the group around it, and whether white space is
passed over there. -/
structure Surroundings where
  parenthesis : Stretch
  kept : Bool
  settings : FlagSettings
  outer : OpenGroup
  spaced : Bool

namespace PatternReader

/-- The reader with white space passed over or not. -/
def withSpaced (r : PatternReader) (spaced : Bool) : PatternReader := ⟨r.position, r.rest, spaced, r.names⟩

/-- What a sign for repetition says: how often at least, and how often at most, if that is bounded. -/
def range? : Char → Option (Nat × Option Nat)
  | '?' => some (0, some 1)
  | '*' => some (0, none)
  | '+' => some (1, none)
  | _ => none

/-- How often a part is repeated, if a repetition begins with the next character. -/
def repetition? (r : PatternReader) (c : Char) : Option (Except Flaw ((Nat × Option Nat) × PatternReader)) :=
  if c = '{' then some r.counts else (range? c).map (fun range => .ok (range, r.bump.behindShortest))

/-- The atom in front of the reader. -/
def atom (r : PatternReader) (c : Char) : Except Flaw (Atom × PatternReader) :=
  if c = '\\' then r.escape
  else
    .ok
      (if c = '.' then .dot
      else if c = '^' then .gap .lineStart
      else if c = '$' then .gap .lineEnd
      else .char ⟨c, false⟩, r.bump)

/-- A group with the part in front of the reader, which begins with a character and is neither a group nor a bar. -/
def part (r : PatternReader) (c : Char) (g : OpenGroup) : Except Flaw (OpenGroup × PatternReader) := do
  match r.repetition? c, g.repeatable? with
  | some _, none => throw (.simple .repetitionOfNothing r.here)
  | some counted, some n =>
    let ((least, most), s) ← counted
    return (g.replaceLast (.repetition (s.since n.place.start) n least most), s)
  | none, _ =>
    if c = '[' then
      let (n, s) ← r.bracket
      return (g.push n, s)
    else
      let (a, s) ← r.atom c
      return (g.push (.atom (s.since r.position) a), s)

/-- The whole of a pattern whose end is reached. -/
def finish (r : PatternReader) (g : OpenGroup) : List Surroundings → Except Flaw Node
  | [] => .ok (g.close r.position)
  | around :: _ => .error (.simple .groupUnclosed around.parenthesis)

/-- The rest of a pattern, with the open group and what is around it from the innermost on. Every round reads a character, so
that there are no more rounds than characters. -/
def parts : Nat → OpenGroup → List Surroundings → PatternReader → Except Flaw Node
  | 0, g, around, r => r.finish g around
  | rounds + 1, g, around, r =>
    let r := r.skip
    match r.head? with
    | none => r.finish g around
    | some '(' => do
      match ← r.opening with
      | (.flags settings, s) =>
        parts rounds (g.push (.flags (s.since r.position) settings)) around
          (s.withSpaced ((settings.get? .spaced).getD s.spaced))
      | (.group kept settings, s) =>
        parts rounds (.emptyAt s.position) (⟨r.nextPlace, kept, settings, g, s.spaced⟩ :: around)
          (s.withSpaced ((settings.get? .spaced).getD s.spaced))
    | some ')' =>
      match around with
      | [] => .error (.simple .groupUnopened r.nextPlace)
      | inner :: around =>
        let s := r.bump.withSpaced inner.spaced
        let n := .group (s.since inner.parenthesis.start) inner.kept inner.settings (g.close r.position)
        parts rounds (inner.outer.push n) around s
    | some '|' => parts rounds (g.alternate r.position r.bump.position) around r.bump
    | some c => do
      let (g, s) ← r.part c g
      parts rounds g around s

end PatternReader

/-- The parts of a pattern. -/
def Node.ofString (pattern : String) : Except Flaw Node := do
  let r := PatternReader.ofString pattern
  let n ← PatternReader.parts (r.rest.length + 1) (.emptyAt r.position) [] r
  match n.tooDeep? nestingLimit with
  | some place => throw (.simple (.nesting nestingLimit) place)
  | none => return n

end MiniLex
