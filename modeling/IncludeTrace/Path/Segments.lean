/-
Lexical walks: what a list of segments amounts to.

A walk keeps the directory it has reached as a stack, deepest segment first.
Empty segments and `.` stay where they are, a name goes down, and `..` takes
back the last name; with no name to take back it is lost at a root and kept
elsewhere.

* `enter` — one step of a walk;
* `resolve` — the segments that a whole walk from an empty start reaches.
-/

namespace IncludeTrace.Segments

/-- The segment that steps out of a directory. -/
def up : String := ".."

/-- The stack after one more segment. -/
def enter (rooted : Bool) (stack : List String) (segment : String) : List String :=
  if segment = "" ∨ segment = "." then stack
  else if segment = up then
    match stack with
    | [] => if rooted then [] else [up]
    | top :: rest => if top = up then up :: top :: rest else rest
  else segment :: stack

/-- The segments that are left once `.`, `..` and empty segments are worked off. -/
def resolve (rooted : Bool) (segments : List String) : List String :=
  (segments.foldl (enter rooted) []).reverse

end IncludeTrace.Segments
