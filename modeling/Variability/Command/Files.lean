/-! What the command reads: files by path, which may be missing or be
directories. A directory held in memory answers as one on disk would. Of what
lies around it only this is known, that the folders it lies in are folders. -/
namespace Variability

inductive ReadFault where
  | notFound
  | notDirectory
  | isDirectory
  | nameTooLong
  /-- The path has a NUL, which no path can have. -/
  | nulInPath
  | other (message : String)
  deriving DecidableEq, Repr

namespace ReadFault

def message : ReadFault → String
  | .notFound => "No such file or directory (os error 2)"
  | .notDirectory => "Not a directory (os error 20)"
  | .isDirectory => "Is a directory (os error 21)"
  | .nameTooLong => "File name too long (os error 36)"
  | .nulInPath => "file name contained an unexpected NUL byte"
  | .other message => message

def isAbsence : ReadFault → Bool
  | .notFound | .notDirectory => true
  | _ => false

end ReadFault

abbrev Files := String → Except ReadFault ByteArray

/-- Something stands at the path, be it readable or not. -/
def Files.holds (files : Files) (path : String) : Bool :=
  match files path with
  | .ok _ => true
  | .error fault => !fault.isAbsence

structure Directory where
  files : List (List String × ByteArray) := []
  folders : List (List String) := []

namespace Directory

/-- A path is a folder when it is listed as one or something lies below it. -/
def isFolder (d : Directory) (path : List String) : Bool :=
  path.isEmpty || (d.folders ++ d.files.map (·.1.dropLast)).any path.isPrefixOf

def maxNameSize : Nat := 255

def maxPathSize : Nat := 4095

/-- A part of a path that stands for the folder it is in. -/
def isHere (part : String) : Bool := part == "" || part == "."

/-- Follows the parts of a path from a place in the directory, or from a folder
around it if there is none. Only folders can be entered. -/
def follow (d : Directory) :
    Option (List String) → List String → Except ReadFault (Option (List String))
  | place, [] => .ok place
  | none, part :: rest =>
    if isHere part || part == ".." then d.follow none rest
    else .error (if maxNameSize < part.utf8ByteSize then .nameTooLong else .notFound)
  | some place, part :: rest =>
    if !d.isFolder place then
      .error (if (d.files.lookup place).isSome then .notDirectory else .notFound)
    else if isHere part then d.follow (some place) rest
    else if part == ".." then
      d.follow (if place.isEmpty then none else some place.dropLast) rest
    else if maxNameSize < part.utf8ByteSize then .error .nameTooLong
    else d.follow (some (place ++ [part])) rest

def read (d : Directory) : Files := fun path =>
  if path.contains '\x00' then .error .nulInPath
  else if path == "" then .error .notFound
  else if maxPathSize < path.utf8ByteSize then .error .nameTooLong
  else do
    match ← d.follow (if path.startsWith "/" then none else some []) (path.splitOn "/") with
    | none => .error .isDirectory
    | some place =>
      match d.files.lookup place with
      | some content => .ok content
      | none => .error (if d.isFolder place then .isDirectory else .notFound)

end Directory
end Variability
