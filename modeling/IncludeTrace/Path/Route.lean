/-
Routes: the segments that lead from one location to another.

* `commonLength` — how many leading segments two lists share, up to the key of
  the flavour;
* `Location.routeTo?` — up out of what is left of the base, then down into what
  is left of the target.  There is no route between different anchors, and none
  out of a base whose remaining segments hold an unresolved `..`.
-/
import IncludeTrace.Path.Location

namespace IncludeTrace

/-- How many leading segments of two lists have the same keys. -/
def commonLength (flavour : Flavour) : List String → List String → Nat
  | a :: as, b :: bs =>
    if flavour.key a = flavour.key b then commonLength flavour as bs + 1 else 0
  | _, _ => 0

/-- The segments leading from `base` to `target`. -/
def Location.routeTo? (base target : Location) : Option (List String) :=
  let key := target.flavour.key
  if key target.anchor ≠ key base.anchor then none
  else
    let common := commonLength target.flavour target.segments base.segments
    let left := base.segments.drop common
    if Segments.up ∈ left then none
    else some (List.replicate left.length Segments.up ++ target.segments.drop common)

end IncludeTrace
