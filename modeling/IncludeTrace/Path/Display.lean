/-
Display names: the text under which an include is shown.

* `DisplayMode` — the path as traced, its normal form, or a route from one of
  the base directories, with or without `..` steps;
* `displayName?` — the display name of a path, where the shortest candidate wins
  and of equally short ones the earliest; there is none when no base directory
  leads to the path.
-/
import IncludeTrace.Path.Route

namespace IncludeTrace

/-- How an include path is shown. -/
inductive DisplayMode where
  | unchanged
  | shortest
  | shortestAvoidingUp
  | absolute
  deriving DecidableEq, Repr, Inhabited

namespace DisplayMode

/-- The modes in the order in which they are offered. -/
def all : List DisplayMode := [unchanged, shortest, shortestAvoidingUp, absolute]

/-- The word by which a mode is chosen. -/
def word : DisplayMode → String
  | unchanged => "unchanged"
  | shortest => "shortest"
  | shortestAvoidingUp => "shortest-avoid-up-steps"
  | absolute => "absolute"

/-- The mode that a word chooses. -/
def ofWord? (word : String) : Option DisplayMode :=
  all.find? (·.word == word)

@[simp] theorem ofWord?_word (m : DisplayMode) : ofWord? m.word = some m := by
  cases m <;> decide

/-- Whether a mode looks for the shortest route from a base directory. -/
def isRelative : DisplayMode → Bool
  | shortest | shortestAvoidingUp => true
  | unchanged | absolute => false

end DisplayMode

/-- The route from one base directory, unless it is empty, leads nowhere, or
steps up where that is to be avoided. -/
def candidateRoute? (avoidUp : Bool) (target : Location) (base : String) :
    Option (List String) :=
  if base = "" then none
  else
    match (Location.under target.flavour base).routeTo? target with
    | none | some [] => none
    | some route => if avoidUp && route.contains Segments.up then none else some route

/-- The earliest of the shortest texts. -/
def earliestShortest? (texts : List String) : Option String :=
  texts.foldl
    (fun best text =>
      match best with
      | none => some text
      | some b => if text.length < b.length then some text else some b)
    none

/-- The shortest of the routes from the base directories, written out. -/
def shortestRoute? (avoidUp : Bool) (bases : List String) (path : String) : Option String :=
  let target := Location.normalize path
  earliestShortest?
    ((bases.filterMap (candidateRoute? avoidUp target)).map target.flavour.joined)

/-- The display name of an include path. -/
def displayName? (mode : DisplayMode) (bases : List String) (path : String) : Option String :=
  if path = "" then none
  else
    match mode with
    | .unchanged => some path
    | .absolute => some (Location.normalize path).text
    | .shortest => shortestRoute? false bases path
    | .shortestAvoidingUp => shortestRoute? true bases path

end IncludeTrace
