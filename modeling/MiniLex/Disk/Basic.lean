import MiniLex.Disk.Path

/-!
# Files and directories

A disk holds files and directories at places of the file system. What stands around the working directory is a directory, of
which nothing else is known. Reading follows a path through directories to a file and decodes it. Writing opens the file that a
path names, or makes a new one in an existing directory; opening empties it, and then the bytes go in one after the other. A
write can fail at either point, and where it is the disk that takes no more, the file is left with the bytes that went in.
-/

namespace MiniLex

/-- Why an access to the disk fails. -/
inductive DiskError where
  | notFound
  | notADirectory
  | isADirectory
  /-- The file is not text: its bytes are no valid UTF-8. -/
  | invalidText
  /-- The system refuses for a reason of its own. -/
  | refused (reason : String)
  deriving DecidableEq

/-- The wording of a failed access. -/
def DiskError.message : DiskError → String
  | .notFound => "No such file or directory (os error 2)"
  | .notADirectory => "Not a directory (os error 20)"
  | .isADirectory => "Is a directory (os error 21)"
  | .invalidText => "stream did not contain valid UTF-8"
  | .refused reason => reason

/-- What is at a place. -/
inductive Entry where
  | file (content : ByteArray)
  | directory

/-- The point at which an open file takes no more. -/
structure Shortage where
  /-- How many bytes it takes. -/
  room : Nat
  /-- What the system says of the next one. -/
  reason : String
  deriving DecidableEq

/-- The files and directories that are known, and what the system does not do. -/
structure Disk where
  entries : List (Place × Entry)
  /-- Where the system opens no file for reading, and what it says. -/
  unreadable : List (Place × String)
  /-- Where the system opens no file for writing, and what it says. -/
  unwritable : List (Place × String)
  /-- Whether an open file takes only so much. -/
  shortage : Option Shortage

namespace Disk

def empty : Disk := ⟨[], [], [], none⟩

/-- What is at a place, if anything is. -/
def entry? (d : Disk) (p : Place) : Option Entry :=
  if p.names.isEmpty then some .directory else d.entries.lookup p

/-- The disk with something put at a place, in the stead of what was there. -/
def put (d : Disk) (p : Place) (e : Entry) : Disk :=
  ⟨(p, e) :: d.entries.filter (fun known => known.1 != p), d.unreadable, d.unwritable, d.shortage⟩

/-- The disk with something put at a place, and directories at those places above it where nothing was. -/
def create (d : Disk) (p : Place) (e : Entry) : Disk :=
  let above := (List.range p.names.length).map fun n => (⟨p.fromTop, p.above, p.names.take n⟩ : Place)
  (above.foldl (fun d q => if (d.entry? q).isSome then d else d.put q .directory) d).put p e

/-- Follows parts of a path from a place, which has to be a directory if there are any. -/
def walk (d : Disk) (p : Place) : List String → Except DiskError Place
  | [] => .ok p
  | part :: parts =>
    match d.entry? p with
    | none => .error .notFound
    | some (.file _) => .error .notADirectory
    | some .directory => walk d (p.step part) parts

/-- Reads the file that a path names. A slash at the end asks for a directory as a dot does. -/
def read (d : Disk) (path : String) : Except DiskError String :=
  match Path.ofString? path with
  | none => .error .notFound
  | some path =>
    match d.walk path.origin (if path.slashed then path.parts ++ ["."] else path.parts) with
    | .error e => .error e
    | .ok p =>
      match d.unreadable.lookup p with
      | some reason => .error (.refused reason)
      | none =>
        match d.entry? p with
        | none => .error .notFound
        | some .directory => .error .isADirectory
        | some (.file content) =>
          match String.fromUTF8? content with
          | none => .error .invalidText
          | some text => .ok text

/-- The place of the file that a path names for writing: one in an existing directory that is no directory itself. -/
def target (d : Disk) (path : String) : Except DiskError Place :=
  match Path.ofString? path with
  | none => .error .notFound
  | some path =>
    match path.parts.getLast? with
    | none => .error .isADirectory
    | some name =>
      match d.walk path.origin (path.parts.dropLast ++ ["."]) with
      | .error e => .error e
      | .ok directory =>
        let p := directory.step name
        if path.slashed || name == "." || name == ".." then .error .isADirectory
        else
          match d.entry? p with
          | some .directory => .error .isADirectory
          | _ =>
            match d.unwritable.lookup p with
            | some reason => .error (.refused reason)
            | none => .ok p

/-- Puts bytes into the empty file at a place, as many as it takes. -/
def fill (d : Disk) (p : Place) (bytes : ByteArray) : Except DiskError Unit × Disk :=
  match d.shortage with
  | none => (.ok (), d.put p (.file bytes))
  | some s =>
    if bytes.size ≤ s.room then (.ok (), d.put p (.file bytes))
    else (.error (.refused s.reason), d.put p (.file (bytes.extract 0 s.room)))

/-- Writes text to the file that a path names. -/
def write (d : Disk) (path text : String) : Except DiskError Unit × Disk :=
  match d.target path with
  | .error e => (.error e, d)
  | .ok p => d.fill p text.toUTF8

end Disk

end MiniLex
