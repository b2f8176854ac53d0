import MiniLex.Pattern.Basic
import MiniLex.Pattern.Fault

/-!
# Patterns as written

A pattern is written as atoms, sets in brackets, groups in parentheses, repetitions, sequences and alternatives. Every part
knows the stretch that it is written in, since what it means may turn out to be a fault of it only when the flags are known
that are in force there.
-/

namespace MiniLex

/-- What a flag is about. -/
inductive PatternFlag where
  /-- The case of letters does not matter. -/
  | anyCase
  /-- Lines begin and end inside the text. -/
  | multiLine
  /-- The dot stands for a line feed, too. -/
  | anyDot
  /-- Repetitions are as short as they can be. -/
  | short
  /-- Characters of every script count. -/
  | scripts
  /-- A carriage return ends a line, too. -/
  | returns
  /-- White space and comments are passed over. -/
  | spaced
  deriving DecidableEq

namespace PatternFlag

/-- The flag that a letter stands for. -/
def ofChar? : Char → Option PatternFlag
  | 'i' => some .anyCase
  | 'm' => some .multiLine
  | 's' => some .anyDot
  | 'U' => some .short
  | 'u' => some .scripts
  | 'R' => some .returns
  | 'x' => some .spaced
  | _ => none

end PatternFlag

/-- Flags that are set, or else cleared. -/
abbrev FlagSettings := List (PatternFlag × Bool)

/-- What some settings say about a flag, if anything. -/
def FlagSettings.get? (settings : FlagSettings) (f : PatternFlag) : Option Bool := settings.lookup f

/-- A character as written. -/
structure WrittenChar where
  char : Char
  /-- Whether it is written as the value of a byte, in two hexadecimal digits. -/
  isByte : Bool
  deriving DecidableEq

/-- What the name of a property of characters consists of. -/
inductive PropertyName where
  /-- A name, or the letter for one. -/
  | plain (name : String)
  /-- A name with a value. -/
  | valued
  deriving DecidableEq

/-- What is asked of a gap, without regard to flags. -/
inductive WrittenGap where
  | textStart | textEnd | lineStart | lineEnd
  | word (e : WordEdge)
  deriving DecidableEq

/-- What is written as one character or one escape sequence. -/
inductive Atom where
  | char (c : WrittenChar)
  | dot
  | gap (g : WrittenGap)
  /-- Digits, white space or parts of words, or all else. -/
  | shorthand (set : NamedSet) (negated : Bool)
  | property (name : PropertyName)
  deriving DecidableEq

/-- What is in brackets. -/
inductive Members where
  | nothing (place : Stretch)
  | char (place : Stretch) (c : WrittenChar)
  | range (firstPlace lastPlace : Stretch) (first last : WrittenChar)
  | named (place : Stretch) (set : NamedSet) (negated : Bool)
  | shorthand (place : Stretch) (set : NamedSet) (negated : Bool)
  | property (place : Stretch) (name : PropertyName)
  /-- Brackets inside brackets. -/
  | bracket (place : Stretch) (negated : Bool) (inner : Members)
  /-- Several, one behind the other. -/
  | union (place : Stretch) (items : List Members)
  /-- What is on both sides of an operator. -/
  | inter (a b : Members)
  /-- What is on the left of an operator and not on its right. -/
  | diff (a b : Members)
  /-- What is on just one side of an operator. -/
  | symmDiff (a b : Members)

namespace Members

/-- Where members begin. -/
def start : Members → PatternPlace
  | .nothing place | .char place _ | .named place .. | .shorthand place .. | .property place _ | .bracket place ..
  | .union place _ => place.start
  | .range firstPlace .. => firstPlace.start
  | .inter a _ | .diff a _ | .symmDiff a _ => a.start

/-- Where members end. -/
def stop : Members → PatternPlace
  | .nothing place | .char place _ | .named place .. | .shorthand place .. | .property place _ | .bracket place ..
  | .union place _ => place.stop
  | .range _ lastPlace .. => lastPlace.stop
  | .inter _ b | .diff _ b | .symmDiff _ b => b.stop

/-- The stretch that members are written in. -/
def place (m : Members) : Stretch := ⟨m.start, m.stop⟩

end Members

/-- A part of a pattern. -/
inductive Node where
  | empty (place : Stretch)
  /-- Flags for what follows. -/
  | flags (place : Stretch) (settings : FlagSettings)
  | atom (place : Stretch) (a : Atom)
  | bracket (place : Stretch) (negated : Bool) (members : Members)
  | repetition (place : Stretch) (inner : Node) (least : Nat) (most : Option Nat)
  /-- A group, which may be kept and may have flags of its own. -/
  | group (place : Stretch) (kept : Bool) (settings : FlagSettings) (inner : Node)
  | sequence (place : Stretch) (items : List Node)
  | alternatives (place : Stretch) (items : List Node)

namespace Node

/-- The stretch that a part is written in. -/
def place : Node → Stretch
  | .empty place | .flags place _ | .atom place _ | .bracket place .. | .repetition place .. | .group place ..
  | .sequence place _ | .alternatives place _ => place

/-- Whether a part is nothing that can be repeated. -/
def isVoid : Node → Bool
  | .empty _ | .flags .. => true
  | _ => false

end Node

/-!
## Depth
-/

mutual

/-- The first stretch of members that is nested more deeply than a limit, if there is one. -/
def Members.tooDeep? (limit : Nat) : Members → Option Stretch
  | .bracket place _ inner => if limit = 0 then some place else inner.tooDeep? (limit - 1)
  | .union place items => if limit = 0 then some place else Members.anyTooDeep? (limit - 1) items
  | .inter a b =>
    if limit = 0 then some ⟨a.start, b.stop⟩ else (a.tooDeep? (limit - 1)).or (b.tooDeep? (limit - 1))
  | .diff a b =>
    if limit = 0 then some ⟨a.start, b.stop⟩ else (a.tooDeep? (limit - 1)).or (b.tooDeep? (limit - 1))
  | .symmDiff a b =>
    if limit = 0 then some ⟨a.start, b.stop⟩ else (a.tooDeep? (limit - 1)).or (b.tooDeep? (limit - 1))
  | .nothing _ | .char .. | .range .. | .named .. | .shorthand .. | .property .. => none

/-- The first stretch of several members that is nested more deeply than a limit, if there is one. -/
def Members.anyTooDeep? (limit : Nat) : List Members → Option Stretch
  | [] => none
  | m :: ms => (m.tooDeep? limit).or (Members.anyTooDeep? limit ms)

end

mutual

/-- The first stretch of a part that is nested more deeply than a limit, if there is one. -/
def Node.tooDeep? (limit : Nat) : Node → Option Stretch
  | .empty _ | .flags .. | .atom .. => none
  | .bracket place _ members => if limit = 0 then some place else members.tooDeep? (limit - 1)
  | .repetition place inner _ _ => if limit = 0 then some place else inner.tooDeep? (limit - 1)
  | .group place _ _ inner => if limit = 0 then some place else inner.tooDeep? (limit - 1)
  | .sequence place items => if limit = 0 then some place else Node.anyTooDeep? (limit - 1) items
  | .alternatives place items => if limit = 0 then some place else Node.anyTooDeep? (limit - 1) items

/-- The first stretch of several parts that is nested more deeply than a limit, if there is one. -/
def Node.anyTooDeep? (limit : Nat) : List Node → Option Stretch
  | [] => none
  | n :: ns => (n.tooDeep? limit).or (Node.anyTooDeep? limit ns)

end

/-- How deeply the parts of a pattern may be nested. -/
def nestingLimit : Nat := 250

end MiniLex
