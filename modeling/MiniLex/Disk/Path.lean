/-!
# Paths

A path leads from the working directory, or from the top of the file system if it begins with a slash, over names that are
separated by slashes. A single dot stays in a directory and a double dot leads to the one around it. A slash at the end
says that the path names a directory.
-/

namespace MiniLex

/-- A place in the file system, without dots: how many directories around the starting point it is reached through, and the
names from there on. -/
structure Place where
  fromTop : Bool
  above : Nat
  names : List String
  deriving DecidableEq

namespace Place

def working : Place := ⟨false, 0, []⟩

/-- The top of the file system. -/
def top : Place := ⟨true, 0, []⟩

/-- The place that one part of a path leads to from a directory. The directory around the top is the top itself. -/
def step (p : Place) (part : String) : Place :=
  if part = "." then p
  else if part = ".." then
    if p.names.isEmpty then ⟨p.fromTop, if p.fromTop then 0 else p.above + 1, []⟩
    else ⟨p.fromTop, p.above, p.names.dropLast⟩
  else ⟨p.fromTop, p.above, p.names ++ [part]⟩

end Place

/-- A path, taken apart. -/
structure Path where
  /-- Where the path begins. -/
  origin : Place
  /-- The names and dots between the slashes. -/
  parts : List String
  /-- Whether there is a slash at the end. -/
  slashed : Bool
  deriving DecidableEq

namespace Path

/-- Splits a text at its slashes. -/
def splitSlashes : List Char → List (List Char)
  | [] => [[]]
  | c :: cs =>
    if c = '/' then [] :: splitSlashes cs
    else
      match splitSlashes cs with
      | [] => [[c]]
      | part :: parts => (c :: part) :: parts

/-- Takes a path apart. The empty text is none. -/
def ofString? (s : String) : Option Path :=
  let text := s.toList
  if text.isEmpty then none
  else
    some
      ⟨if text.head? = some '/' then .top else .working,
       ((splitSlashes text).filter (fun part => !part.isEmpty)).map String.ofList,
       text.getLast? = some '/'⟩

end Path

end MiniLex
