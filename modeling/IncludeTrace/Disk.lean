/-
Disks: the files that can be read and written.  Everybody may read and write all of them.

* `Disk.find` — the place that a path names; every segment but the last must lead
  into a directory, and `..` goes back to the one above;
* `Disk.look` — what stands there, where only a name that is too long is a fault;
* `Disk.read` — the bytes of a file;
* `Disk.filePlace`, `Disk.withBytes` — where a file can be opened for writing, and the
  disk with bytes in it; a directory is never opened, and none is ever made;
* `lookup_put_self`, `lookup_put_of_ne` — putting something at one place changes that
  place and no other;
* `Disk.changes` — the files that are new or have other bytes.
-/
import IncludeTrace.Path.Location
import IncludeTrace.Text.Quoted
import IncludeTrace.Text.Utf8

namespace IncludeTrace

/-- The names that lead from the root of a disk to something on it. -/
abbrev Place := List String

/-- What can stand at a place. -/
inductive Stored where
  | directory
  | file (bytes : List UInt8)
  deriving DecidableEq, Repr

/-- What stands where, the directory in which relative paths start, and the users' own
directories by the users' names; the empty name stands for the user at work. -/
structure Disk where
  here : Place
  homes : List (String × String)
  contents : List (Place × Stored)
  deriving DecidableEq, Repr

/-- Why a path cannot be read or written. -/
inductive DiskFault where
  | missing
  | isDirectory
  | notDirectory
  /-- The path, or one of the names in it, has too many bytes. -/
  | tooLong
  /-- The path holds the character that ends a path in an operating system's eyes. -/
  | nullCharacter
  deriving DecidableEq, Repr

namespace DiskFault

/-- The number and the words by which operating systems know a fault; a path with a
null character never reaches them. -/
def known? : DiskFault → Option (Nat × String)
  | missing => some (2, "No such file or directory")
  | isDirectory => some (21, "Is a directory")
  | notDirectory => some (20, "Not a directory")
  | tooLong => some (36, "File name too long")
  | nullCharacter => none

/-- The fault, and the path that it is about. -/
def message (fault : DiskFault) (path : Location) : String :=
  match fault.known? with
  | some (number, reason) => s!"[Errno {number}] {reason}: {Text.quoted path.text}"
  | none => "embedded null byte"

end DiskFault

namespace Disk

/-- What stands at a place; the root is always there. -/
def at? (d : Disk) (place : Place) : Option Stored :=
  if place = [] then some .directory else d.contents.lookup place

/-- How many bytes a text takes in a path. -/
def byteCount (s : String) : Nat :=
  (Text.Utf8.encode s.toList).length

/-- The greatest number of bytes in one name. -/
def longestName : Nat := 255

/-- The greatest number of bytes in a path. -/
def longestPath : Nat := 4095

/-- The place to which segments lead from another one. -/
def follow (d : Disk) (place : Place) : List String → Except DiskFault Place
  | [] => .ok place
  | segment :: rest =>
    match d.at? place with
    | some .directory =>
      if longestName < byteCount segment then .error .tooLong
      else d.follow (if segment = Segments.up then place.dropLast else place ++ [segment]) rest
    | some (.file _) => .error .notDirectory
    | none => .error .missing

/-- The place that a path names. -/
def find (d : Disk) (path : Location) : Except DiskFault Place :=
  if path.text.toList.contains '\x00' then .error .nullCharacter
  else if longestPath < byteCount path.text then .error .tooLong
  else d.follow (if path.anchor = "" then d.here else []) path.segments

/-- What stands at the end of a path, if anything does.  A fault is a path that is too long;
nobody is kept out of a directory, because a disk has no permissions. -/
def look (d : Disk) (path : Location) : Except DiskFault (Option Stored) :=
  match d.find path with
  | .ok place => .ok (d.at? place)
  | .error .tooLong => .error .tooLong
  | .error _ => .ok none

/-- The bytes of the file that a path names. -/
def read (d : Disk) (path : Location) : Except DiskFault (List UInt8) := do
  match d.at? (← d.find path) with
  | some (.file bytes) => .ok bytes
  | some .directory => .error .isDirectory
  | none => .error .missing

/-- The text of the file that a path names. -/
def readText (d : Disk) (path : Location) : Except DiskFault String :=
  (d.read path).map fun bytes => String.ofList (Text.universalNewlines (Text.Utf8.decode bytes))

/-- The contents with something else at one place. -/
def put (place : Place) (s : Stored) : List (Place × Stored) → List (Place × Stored)
  | [] => [(place, s)]
  | (p, old) :: rest => if p = place then (p, s) :: rest else (p, old) :: put place s rest

theorem lookup_put_self (place : Place) (s : Stored) (l : List (Place × Stored)) :
    (put place s l).lookup place = some s := by
  induction l with
  | nil => simp [put]
  | cons entry rest ih =>
    obtain ⟨p, old⟩ := entry
    by_cases h : p = place
    · simp [put, h]
    · simp [put, h, List.lookup_cons, beq_false_of_ne (Ne.symm h), ih]

theorem lookup_put_of_ne {place other : Place} (h : other ≠ place) (s : Stored)
    (l : List (Place × Stored)) : (put place s l).lookup other = l.lookup other := by
  induction l with
  | nil => simp [put, List.lookup_cons, beq_false_of_ne h]
  | cons entry rest ih =>
    obtain ⟨p, old⟩ := entry
    by_cases hp : p = place
    · subst hp
      simp [put, List.lookup_cons, beq_false_of_ne h]
    · simp [put, hp, List.lookup_cons, ih]

/-- The place of the file that a path names, if a file can be there. -/
def filePlace (d : Disk) (path : Location) : Except DiskFault Place := do
  let place ← d.find path
  if d.at? place = some .directory then .error .isDirectory else .ok place

/-- The disk with a file at a place. -/
def withBytes (d : Disk) (place : Place) (bytes : List UInt8) : Disk :=
  { d with contents := put place (.file bytes) d.contents }

/-- The disk with a directory at a place and above it. -/
def withDirectory (d : Disk) (place : Place) : Disk :=
  ((List.range (place.length + 1)).map place.take).foldl
    (fun d p =>
      match d.at? p with
      | some _ => d
      | none => { d with contents := put p .directory d.contents })
    d

/-- The disk with a file at a place, and directories above it. -/
def withFile (d : Disk) (place : Place) (bytes : List UInt8) : Disk :=
  (d.withDirectory place.dropLast).withBytes place bytes

/-- A disk without files. -/
def blank (here : Place) (homes : List (String × String)) : Disk :=
  (Disk.mk here homes []).withDirectory here

/-- The files of `after` that `before` does not have with the same bytes, by the
segments that lead to them from the directory in which paths start. -/
def changes (before after : Disk) : List (List String × List UInt8) :=
  after.contents.filterMap fun (place, s) =>
    match s with
    | .directory => none
    | .file bytes =>
      if before.at? place = some s ∨ ¬ after.here.isPrefixOf place then none
      else some (place.drop after.here.length, bytes)

end Disk

end IncludeTrace
