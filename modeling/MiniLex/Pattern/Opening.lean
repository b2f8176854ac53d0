import MiniLex.Character.Class
import MiniLex.Pattern.Reader
import MiniLex.Pattern.Written

/-!
# What opens a group

A group begins with a parenthesis, and may have a name or flags behind a question mark. Flags that are closed at once are no
group: they are in force up to the end of the group around them. No flag stands twice, and neither does the sign behind which
flags are cleared.
-/

namespace MiniLex

/-- What an opening parenthesis begins. -/
inductive Opening where
  /-- Flags for what follows. -/
  | flags (settings : FlagSettings)
  /-- A group. -/
  | group (kept : Bool) (settings : FlagSettings)
  deriving DecidableEq

/-- One sign among flags: a flag, or what all behind it are cleared by. -/
inductive FlagSign where
  | flag (f : PatternFlag)
  | negation
  deriving DecidableEq

namespace FlagSign

/-- The fault that a sign stands twice. -/
def twice : FlagSign → PatternFault
  | .flag _ => .flagTwice
  | .negation => .flagNegationTwice

/-- What several signs say, when flags are being set or cleared. -/
def settings (value : Bool) : List FlagSign → FlagSettings
  | [] => []
  | .flag f :: signs => (f, value) :: settings value signs
  | .negation :: signs => settings false signs

end FlagSign

namespace PatternReader

/-- The sign in front of the reader. -/
def flagSign (r : PatternReader) (c : Char) : Except Flaw FlagSign :=
  if c = '-' then .ok .negation
  else
    match PatternFlag.ofChar? c with
    | some f => .ok (.flag f)
    | none => .error (.simple .flagUnknown r.nextPlace)

/-- The signs in front of the reader, up to a colon or a parenthesis, behind others. -/
def flagSigns (signs : List (FlagSign × Stretch)) (r : PatternReader) :
    Except Flaw (List (FlagSign × Stretch) × PatternReader) :=
  match _h : r.rest with
  | [] => .error (.simple .flagMissing r.here)
  | c :: _ =>
    if c = ':' || c = ')' then .ok (signs, r)
    else
      match r.flagSign c with
      | .error e => .error e
      | .ok sign =>
        match signs.lookup sign with
        | some earlier => .error ⟨sign.twice, r.nextPlace, some earlier⟩
        | none => flagSigns (signs ++ [(sign, r.nextPlace)]) r.bump
termination_by r.rest.length
decreasing_by
  have := r.length_bump
  have : 0 < r.rest.length := by simp [_h]
  omega

/-- Whether the name of a group may begin with a character. -/
def startsName (c : Char) : Bool := c == '_' || isAlphabetic c

/-- Whether the name of a group may go on with a character. -/
def goesOnName (c : Char) : Bool :=
  c == '_' || c == '.' || c == '[' || c == ']' || isAlphabetic c || isNumeric c

/-- The reader behind the name of a group and the angle bracket that closes it. -/
def groupName (r : PatternReader) : Except Flaw PatternReader := do
  let e := if r.head?.any startsName then r.bump.past goesOnName else r
  match e.head? with
  | none => throw (.simple .nameUnclosed e.here)
  | some '>' =>
    if e.position = r.position then throw (.simple .nameEmpty r.here)
    let name := String.ofList (r.rest.take (r.rest.length - e.rest.length))
    let place := e.since r.position
    match r.names.lookup name with
    | some earlier => throw ⟨.nameTwice, place, some earlier⟩
    | none =>
      let s := e.bump
      return ⟨s.position, s.rest, s.spaced, s.names ++ [(name, place)]⟩
  | some _ => throw (.simple .nameCharacter e.nextPlace)

/-- The reader behind signs that ask for what stands around a gap, if there are any. -/
def behindLookAround? (r : PatternReader) : Option PatternReader :=
  ["?=", "?!", "?<=", "?<!"].findSome? r.behind?

/-- What the parenthesis in front of the reader opens. -/
def opening (r : PatternReader) : Except Flaw (Opening × PatternReader) := do
  let place := r.nextPlace
  let s := r.next
  if let some e := s.behindLookAround? then throw (.simple .lookAround (e.since r.position))
  if let some e := (s.behind? "?P<").or (s.behind? "?<") then return (.group true [], ← e.groupName)
  match s.behind? "?" with
  | none => return (.group true [], s)
  | some e =>
    if e.isAtEnd then throw (.simple .groupUnclosed place)
    let (signs, e) ← e.flagSigns []
    if let some (.negation, dash) := signs.getLast? then throw (.simple .flagNegationDangling dash)
    let settings := FlagSign.settings true (signs.map Prod.fst)
    if e.head? = some ':' then return (.group false settings, e.bump)
    if signs.isEmpty then throw (.simple .repetitionOfNothing s.here)
    return (.flags settings, e.bump)

end PatternReader

end MiniLex
