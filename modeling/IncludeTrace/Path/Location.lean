/-
Locations: paths after lexical normalisation.

A location is an anchor (the root, a drive, a share, or nothing) and the
segments below it.  Normalising never looks at a disk.

* `Location.posix`, `Location.windows` — normalisation under either flavour;
* `Location.normalize` — under the flavour that the spelling gives away;
* `Location.spelled` — a POSIX path as it stands, `..` not worked off;
* `Location.text` — how a location is written.

Under Windows rules normalisation has two stages that see drives differently:
`tidy` works on the text and takes anything in front of a colon for a drive,
`Location.parseWindows` reads the tidied text and wants a drive letter or a
complete share.
-/
import IncludeTrace.Path.Flavour
import IncludeTrace.Path.Segments

namespace IncludeTrace

/-- An anchor and the segments below it. -/
structure Location where
  flavour : Flavour
  anchor : String
  segments : List String
  deriving DecidableEq, Repr, Inhabited

namespace Location

/-- The anchor, if there is one, followed by the segments. -/
def parts (l : Location) : List String :=
  if l.anchor = "" then l.segments else l.anchor :: l.segments

/-- The written form; nothing at all is written as the current directory. -/
def text (l : Location) : String :=
  if l.anchor = "" ∧ l.segments = [] then "." else l.anchor ++ l.flavour.joined l.segments

/-- The last segment, or the empty text for a bare anchor. -/
def name (l : Location) : String :=
  l.segments.getLast?.getD ""

/-- The location one segment higher; a bare anchor stays where it is. -/
def parent (l : Location) : Location :=
  { l with segments := l.segments.dropLast }

/-! ### POSIX -/

/-- The root that leading slashes denote: exactly two of them are a root of their own. -/
def posixAnchor (s : List Char) : String :=
  match (s.takeWhile (· == '/')).length with
  | 0 => ""
  | 2 => "//"
  | _ => "/"

/-- A POSIX path with `.`, `..` and doubled slashes worked off. -/
def posix (path : String) : Location :=
  let anchor := posixAnchor path.toList
  ⟨.posix, anchor, Segments.resolve (anchor != "") (Flavour.posix.pieces path.toList)⟩

/-- A POSIX path as it stands: only `.` and empty segments are left out. -/
def spelled (path : String) : Location :=
  ⟨.posix, posixAnchor path.toList,
    (Flavour.posix.pieces path.toList).filter fun segment => segment != "" && segment != "."⟩

/-! ### Windows -/

/-- The text with every slash turned into a backslash. -/
def backslashed (s : List Char) : List Char :=
  s.map fun c => if c = '/' then '\\' else c

/-- Where the share of a text begins, counted from its start: behind two
backslashes, or behind the long spelling of them. -/
def shareStart (s : List Char) : Nat :=
  if (s.take 8).map Char.toUpper = ['\\', '\\', '?', '\\', 'U', 'N', 'C', '\\'] then 8 else 2

/-- How many characters of a backslashed text are its drive: a host and a share,
or two characters of which the second is a colon. -/
def driveLength (s : List Char) : Nat :=
  match s with
  | '\\' :: '\\' :: _ =>
    let host := ((s.drop (shareStart s)).takeWhile (· != '\\')).length
    let share := ((s.drop (shareStart s + host + 1)).takeWhile (· != '\\')).length
    min s.length (shareStart s + host + 1 + share)
  | _ :: ':' :: _ => 2
  | _ => 0

/-- A Windows text with its segments worked off behind the drive. -/
def tidy (path : List Char) : List Char :=
  let s := backslashed path
  let drive := s.take (driveLength s)
  let rest := s.drop (driveLength s)
  let start := if rest.head? = some '\\' then drive ++ ['\\'] else drive
  let segments := Segments.resolve (start.getLast? == some '\\') (Flavour.windows.pieces rest)
  if start = [] ∧ segments = [] then ['.']
  else start ++ (Flavour.windows.joined segments).toList

/-- What stands before the first backslash, and what after it. -/
def hostAndRest (s : List Char) : List Char × Option (List Char) :=
  (s.takeWhile (· != '\\'),
    match s.dropWhile (· != '\\') with
    | [] => none
    | _ :: rest => some rest)

/-- The drive, the root and the relative rest of a text that names no share. -/
def splitLocal (s : List Char) : List Char × List Char × List Char :=
  let (drive, rest) :=
    match s with
    | c :: ':' :: rest => if c.isAlpha then ([c, ':'], rest) else ([], s)
    | _ => ([], s)
  if rest.head? = some '\\' then (drive, ['\\'], rest.dropWhile (· == '\\'))
  else (drive, [], rest)

/-- The share at the start of a text, and the relative rest behind it; a host
must be followed by a backslash, and not by two. -/
def splitShare? (s : List Char) : Option (List Char × List Char) :=
  match s with
  | '\\' :: '\\' :: tail =>
    if tail.head? = some '\\' then none
    else
      match hostAndRest tail with
      | (_, none) => none
      | (host, some rest) =>
        if rest.head? = some '\\' then none
        else
          let (share, relative) := hostAndRest rest
          some ('\\' :: '\\' :: host ++ '\\' :: share, relative.getD [])
  | _ => none

/-- The marker of a long path, and the text behind it in its short spelling. -/
def splitLong (s : List Char) : List Char × List Char :=
  match s with
  | '\\' :: '\\' :: '?' :: '\\' :: 'U' :: 'N' :: 'C' :: '\\' :: rest =>
    (['\\', '\\', '?', '\\', 'U', 'N', 'C'], '\\' :: '\\' :: rest)
  | '\\' :: '\\' :: '?' :: '\\' :: rest => (['\\', '\\', '?', '\\'], rest)
  | _ => ([], s)

/-- The drive, the root and the relative rest of a backslashed text. -/
def splitAnchor (s : List Char) : List Char × List Char × List Char :=
  let (long, rest) := splitLong s
  match splitShare? rest with
  | some (share, relative) =>
    (long ++ (if long = [] then share else share.drop 1), ['\\'], relative)
  | none =>
    let (drive, root, relative) := splitLocal rest
    (long ++ drive, root, relative)

/-- A Windows path as it stands: only `.` and empty segments are left out. -/
def parseWindows (path : List Char) : Location :=
  let (drive, root, relative) := splitAnchor (backslashed path)
  ⟨.windows, String.ofList (drive ++ root),
    (Flavour.windows.pieces relative).filter fun segment => segment != "" && segment != "."⟩

/-- A Windows path with `.`, `..` and doubled separators worked off. -/
def windows (path : String) : Location :=
  parseWindows (tidy path.toList)

/-! ### Either flavour -/

/-- The normal form of a path under the rules of a flavour. -/
def under : Flavour → String → Location
  | .posix => posix
  | .windows => windows

/-- The normal form of a path under the rules that its spelling gives away. -/
def normalize (path : String) : Location :=
  under (Flavour.of path) path

end Location

end IncludeTrace
