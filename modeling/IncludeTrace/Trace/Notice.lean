/-
Include notices: the lines of compiler output that name an opened file.

* `NoticeStyle` — notices are marked by a text behind which each further space
  is one level of nesting, or start with dots, one more than the level;
* `NoticeStyle.read?` — depth and path of one line;
* `notices` — all notices of a text, in order of appearance.

Carriage returns at the end of a line never belong to it.
-/
import IncludeTrace.Text.Blank
import IncludeTrace.Text.Search

namespace IncludeTrace

/-- How a compiler announces the files it opens. -/
inductive NoticeStyle where
  /-- By a text that stands in front of the path. -/
  | marked (marker : String)
  /-- By dots at the start of the line. -/
  | dotted
  deriving DecidableEq, Repr

/-- One include notice and the line it was read from, counted from 1. -/
structure Notice where
  depth : Nat
  path : String
  lineNumber : Nat
  line : String
  deriving DecidableEq, Repr, Inhabited

namespace NoticeStyle

/-- The text by which notices are marked unless the compiler is localised. -/
def usualMarker : String := "Note: including file: "

/-- A line without the carriage returns at its end. -/
def withoutReturns (line : List Char) : List Char :=
  Text.trimEndBy (· == '\r') line

/-- The rest of a single line; one line break at its very end is passed over. -/
def restOfLine? (s : List Char) : Option (List Char) :=
  match s.dropWhile (· != '\n') with
  | [] | ['\n'] => some (s.takeWhile (· != '\n'))
  | _ => none

/-- Depth and path of a line that is marked, blank paths included. -/
def readMarked? (marker line : List Char) : Option (Nat × List Char) :=
  (Text.cutAt? marker line).map fun (_, rest) =>
    ((rest.takeWhile (· == ' ')).length, rest.dropWhile (· == ' '))

/-- Depth and path of a line that starts with dots, blank paths included. -/
def readDotted? (line : List Char) : Option (Nat × List Char) :=
  match (line.takeWhile (· == '.')).length, line.dropWhile (· == '.') with
  | depth + 1, ' ' :: rest => (restOfLine? rest).map (depth, ·)
  | _, _ => none

/-- Depth and path of one line, if it is a notice. -/
def read? (style : NoticeStyle) (line : List Char) : Option (Nat × List Char) :=
  let line := withoutReturns line
  let found :=
    match style with
    | marked marker => readMarked? marker.toList line
    | dotted => readDotted? line
  found.filter fun (_, path) => path != []

end NoticeStyle

/-- The notices of a list of lines of which the first has the given number. -/
def noticesFrom (style : NoticeStyle) : Nat → List (List Char) → List Notice
  | _, [] => []
  | number, line :: lines =>
    match style.read? line with
    | some (depth, path) =>
      ⟨depth, String.ofList path, number, String.ofList (NoticeStyle.withoutReturns line)⟩
        :: noticesFrom style (number + 1) lines
    | none => noticesFrom style (number + 1) lines

/-- The notices of a text. -/
def notices (style : NoticeStyle) (text : String) : List Notice :=
  noticesFrom style 1 (text.toList.splitOn '\n')

end IncludeTrace
