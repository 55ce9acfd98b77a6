/-
What the browser shows about a tree and about single includes, as markup.

* `fileLabel` — the line above the tree;
* `summary` — the panel for the whole translation unit;
* `details` — the panel for one include;
* `Stats`, `stats` — the figures that both panels show;
* `countNodes` — the number of nodes, by which the browser sees whether all can have rows.
-/
import IncludeTrace.Browser.Markup
import IncludeTrace.Trace.Tree

namespace IncludeTrace.Browser

/-- How many includes stand directly below something, how many below it in all, and
over how many levels. -/
structure Stats where
  direct : Nat
  total : Nat
  depth : Nat
  deriving DecidableEq, Repr

/-- The nodes of a forest, counted from `count` on: a tree has its root and those below it. -/
def countNodesFrom (count : Nat) : Forest Include → Nat
  | .nil => count
  | .cons _ below beside => countNodesFrom (count + countNodesFrom 1 below) beside

/-- The number of nodes of a tree, from what stands below its root. -/
def countNodes (below : Forest Include) : Nat :=
  countNodesFrom 1 below

/-- The includes of a forest and its levels, behind a total and a depth found before. -/
def tallyFrom (total depth : Nat) : Forest Include → Nat × Nat
  | .nil => (total, depth)
  | .cons _ below beside =>
    let (inner, levels) := tallyFrom 0 0 below
    tallyFrom (total + (1 + inner)) (max depth (1 + levels)) beside

/-- The figures of what stands below something. -/
def stats (below : Forest Include) : Stats :=
  let (total, depth) := tallyFrom 0 0 below
  ⟨below.width, total, depth⟩

/-- A text between the tags of a style. -/
def styled (style text : String) : String :=
  "[" ++ style ++ "]" ++ text ++ "[/]"

/-- The style of headings. -/
def heading : String := "bold magenta"

/-- A figure. -/
def figure (n : Int) : String :=
  styled "cyan" (toString n)

/-- A name, shown as it stands. -/
def nameMarkup (name : String) : String :=
  styled "white" (Markup.escape name)

/-- The first of two texts, or the second if there is no first one. -/
def orElse (text : Option String) (fallback : String) : String :=
  (text.filter (· != "")).getD fallback

/-- The line above the tree. -/
def fileLabel (title : Option String) (count : Option Int) : String :=
  let name := styled heading (Markup.escape (orElse title "(no file)"))
  match count with
  | none => name
  | some n => name ++ "  ·  " ++ figure n ++ " includes"

/-- Lines one below the other. -/
def lines (l : List String) : String :=
  "\n".intercalate l

/-- A number of levels. -/
def levels (n : Nat) : String :=
  figure n ++ " " ++ styled "dim" "levels"

/-- The panel for the whole translation unit. -/
def summary (title : Option String) (t : IncludeTree) : String :=
  let s := stats t.includes
  lines [
    styled heading "Translation unit",
    "  " ++ nameMarkup (orElse t.source (orElse title "?")),
    "",
    styled heading "Stats",
    "  Includes:          " ++ figure t.count,
    "  Direct includes:   " ++ figure s.direct,
    "  Max nesting:       " ++ levels s.depth]

/-- The panel for one include. -/
def details (t : Tree Include) : String :=
  let s := stats t.below
  lines [
    styled heading "Include",
    "  " ++ nameMarkup t.root.name,
    "",
    styled heading "Path",
    "  " ++ styled "dim" (Markup.escape t.root.path),
    "",
    styled heading "Stats",
    "  Direct includes:   " ++ figure s.direct,
    "  Total below:       " ++ figure s.total,
    "  Max depth from here:  " ++ levels s.depth]

/-- The panel while a run is under way. -/
def collecting : String :=
  styled "dim" "Collecting includes..."

/-- The panel after a run that gave no tree. -/
def failure (error : Option String) : String :=
  let reason :=
    match error.filter (· != "") with
    | some text => styled "red" ("Error: " ++ Markup.escape text)
    | none => styled "red" "No include tree could be built."
  reason ++ "\n\n" ++ styled "dim" "r" ++ " = Retry"

end IncludeTrace.Browser
