/-
Include trees as text: one line per include, drawn with branches, or JSON.

* `outline` — each line starts with one unit of four characters per level above
  it, a bar where more follows at that level, and then the branch of the include;
* `IncludeTree.json` — the tree as a JSON object.
-/
import IncludeTrace.Json.Value
import IncludeTrace.Trace.Tree

namespace IncludeTrace

/-- The branch in front of an include. -/
def branch (isLast : Bool) : String :=
  if isLast then "└── " else "├── "

/-- The unit under a branch. -/
def continuation (isLast : Bool) : String :=
  if isLast then "    " else "│   "

/-- The path in brackets, where it is asked for and differs from the name. -/
def rawPart (showPaths : Bool) (i : Include) : String :=
  if showPaths && i.path != i.name then " [" ++ i.path ++ "]" else ""

/-- Whether nothing stands in a forest. -/
def Forest.isNil {α : Type} : Forest α → Bool
  | .nil => true
  | .cons .. => false

/-- The lines of a forest, each behind the units of the levels above. -/
def outline (units : String) (showPaths : Bool) : Forest Include → List String
  | .nil => []
  | .cons i below beside =>
    (units ++ branch beside.isNil ++ i.name ++ rawPart showPaths i)
      :: (outline (units ++ continuation beside.isNil) showPaths below
        ++ outline units showPaths beside)

/-- Lines one below the other, each with its line break. -/
def printed (lines : List String) : String :=
  String.join (lines.map (· ++ "\n"))

/-- The includes of a forest as JSON objects. -/
def includesJson : Forest Include → List Json
  | .nil => []
  | .cons i below beside =>
    .obj [("raw_path", .str i.path), ("display_name", .str i.name),
      ("children", .arr (includesJson below))] :: includesJson beside

/-- The tree as a JSON object in which a given value stands for the source. -/
def IncludeTree.jsonFrom (source : Json) (t : IncludeTree) : Json :=
  .obj [("source", source), ("num_includes", .int t.count),
    ("includes", .arr (includesJson t.includes))]

/-- The tree as a JSON object. -/
def IncludeTree.json (t : IncludeTree) : Json :=
  t.jsonFrom (Json.ofText? t.source)

end IncludeTrace
