import MiniLex.Character.WhiteSpace
import MiniLex.Command.Log
import MiniLex.Pattern.Meaning

/-!
# Which notices of a log are shown

A filter is written as directives with commas between them, and behind a slash a pattern that is in the texts of all notices
shown. A directive is a threshold for everything, a target of which everything is shown, or a target and a threshold with an
equals sign between them. It is about the notices from those parts of the program whose names begin with its target. Of
several directives about a notice the one with the longest target decides. A directive or a pattern that is not well formed is
passed over, and there is a complaint about it.
-/

namespace MiniLex

/-- What is wrong with a filter as written. -/
inductive FilterError where
  /-- A directive with a threshold that there is not, or with too many equals signs. -/
  | invalid (written : String)
  /-- More than one slash, where nothing of the filter counts. -/
  | tooManySlashes (written : String)
  /-- A pattern that is none. -/
  | pattern (e : PatternError)
  deriving DecidableEq

/-- The complaint about an error. -/
def FilterError.message : FilterError → String
  | .invalid written => "warning: invalid logging spec '" ++ written ++ "', ignoring it\n"
  | .tooManySlashes written => "warning: invalid logging spec '" ++ written ++ "' (too many '/'s), ignoring it\n"
  | .pattern e => "warning: invalid regex filter - " ++ e.message ++ ", ignoring it\n"

/-- A threshold for the notices from parts of the program whose names begin with the target, or for all where there is no
target: the least severe ones that are shown, or none at all. -/
structure Directive where
  target : Option String
  least : Option Severity
  deriving DecidableEq

namespace Directive

/-- The threshold that a word names, in letters of either case. -/
def level? (word : String) : Option (Option Severity) :=
  match word.toLower with
  | "off" => some none
  | "error" => some (some .error)
  | "warn" => some (some .warn)
  | "info" => some (some .info)
  | "debug" => some (some .debug)
  | "trace" => some (some .trace)
  | _ => none

/-- A text without the white space around it. -/
def trimmed (s : String) : String :=
  String.ofList (((s.toList.dropWhile isWhiteSpace).reverse.dropWhile isWhiteSpace).reverse)

/-- The directive that a text writes. -/
def parse (s : String) : Except FilterError Directive :=
  match s.splitOn "=" with
  | [word] =>
    match level? word with
    | some least => .ok ⟨none, least⟩
    | none => .ok ⟨some word, some .trace⟩
  | [target, word] =>
    let word := trimmed word
    if word.isEmpty then .ok ⟨some target, some .trace⟩
    else
      match level? word with
      | some least => .ok ⟨some target, least⟩
      | none => .error (.invalid word)
  | _ => .error (.invalid s)

/-- The text that the name of a part has to begin with. -/
def start (d : Directive) : List Char := (d.target.getD "").toList

/-- Whether a directive is about a notice. -/
def covers (d : Directive) (n : Notice) : Bool := d.start.isPrefixOf n.target.toList

/-- Whether a directive lets a severity through. -/
def admits (d : Directive) (s : Severity) : Bool := d.least.any (fun least => s.rank ≤ least.rank)

/-- Directives with one more, in the place of the one that has the same target if there is one. -/
def insert (d : Directive) : List Directive → List Directive
  | [] => [d]
  | e :: directives => if e.target = d.target then d :: directives else e :: d.insert directives

/-- The directive with the longest target, the last of them if there are several. -/
def decisive? (directives : List Directive) : Option Directive :=
  directives.foldl (fun best d => if best.any (fun b => d.start.length < b.start.length) then best else some d) none

end Directive

/-- Which notices are shown. -/
structure LogFilter where
  directives : List Directive
  /-- What the texts of notices have to contain, if anything. -/
  pattern : Option Pattern
  deriving DecidableEq

namespace LogFilter

/-- Nothing is shown. -/
def off : LogFilter := ⟨[], none⟩

/-- The filter that shows notices from a severity up, wherever they come from. -/
def atLeast (s : Severity) : LogFilter := ⟨[⟨none, some s⟩], none⟩

/-- The filter where none is given: a verbose command shows what it does, any other only what goes wrong. -/
def ofVerbosity (verbose : Bool) : LogFilter := atLeast (if verbose then .debug else .warn)

/-- Whether a notice is shown. -/
def admits (f : LogFilter) (n : Notice) : Bool :=
  (Directive.decisive? (f.directives.filter (fun d => d.covers n))).any (fun d => d.admits n.severity) &&
    f.pattern.all (fun p => p.isIn n.text)

end LogFilter

/-- A filter with the errors in what was written for it. -/
structure LogSetup where
  filter : LogFilter
  errors : List FilterError
  deriving DecidableEq

namespace LogSetup

/-- The directives that a text writes, and what is wrong with the others. -/
def readDirectives (s : String) : List Directive × List FilterError :=
  let words := ((s.splitOn ",").map Directive.trimmed).filter (fun word => !word.isEmpty)
  words.foldl
    (fun (directives, errors) word =>
      match Directive.parse word with
      | .ok d => (d.insert directives, errors)
      | .error e => (directives, errors ++ [e]))
    ([], [])

/-- The directives that count: errors are shown where there is none. -/
def orErrors (directives : List Directive) : List Directive :=
  if directives.isEmpty then (LogFilter.atLeast .error).directives else directives

/-- The filter that directives make. -/
def ofDirectives (s : String) : LogSetup :=
  let (directives, errors) := readDirectives s
  ⟨⟨orErrors directives, none⟩, errors⟩

/-- A filter with a pattern. -/
def withPattern (setup : LogSetup) (written : String) : LogSetup :=
  match Pattern.ofString written with
  | .ok p => ⟨⟨setup.filter.directives, some p⟩, setup.errors⟩
  | .error e => ⟨setup.filter, setup.errors ++ [.pattern e]⟩

/-- The filter that a text writes. -/
def ofString (s : String) : LogSetup :=
  match s.splitOn "/" with
  | [directives] => ofDirectives directives
  | [directives, written] => (ofDirectives directives).withPattern written
  | _ => ⟨.atLeast .error, [.tooManySlashes s]⟩

/-- The filter that the environment gives, or else the one of the verbosity. -/
def choose (environment : Option String) (verbose : Bool) : LogSetup :=
  match environment with
  | some s => ofString s
  | none => ⟨.ofVerbosity verbose, []⟩

end LogSetup

end MiniLex
