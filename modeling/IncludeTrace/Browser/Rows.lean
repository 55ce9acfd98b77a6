/-
The rows of the tree that is browsed.

* `Item` — what a row shows: an include, or a placeholder;
* `populate` — the items of a forest, at most a given number of includes and levels;
* `Row` — an item that can be opened, and that keeps its identity;
* `planted`, `openTo`, `openAll`, `reveal` — fresh rows, and rows with other ones open;
* `find`, `pathOf?`, `matching` — rows by position, by identity, and by what they show.
-/
import IncludeTrace.Browser.Wording
import IncludeTrace.Text.Case
import IncludeTrace.Text.Search

namespace IncludeTrace.Browser

/-- What a row is made of: the markup of its label, the include it stands for, and whether
rows may stand below it. -/
structure Item where
  markup : String
  file : Option (Tree Include)
  openable : Bool
  deriving DecidableEq, Repr, Inhabited

namespace Item

/-- The label of a row, where emoji codes are left as they are. -/
def label (item : Item) : String :=
  Markup.firstLine .absent item.markup

/-- A row that stands for nothing. -/
def placeholder (markup : String) : Item :=
  ⟨markup, none, false⟩

/-- The row of an include. -/
def ofTree (t : Tree Include) : Item :=
  ⟨nameMarkup t.root.name, some t, t.below != .nil⟩

/-- The row after which further includes are not shown. -/
def truncated (greatest : Int) : Item :=
  placeholder (styled "dim" s!"… truncated ({greatest} nodes max)")

/-- The row of an include that stands too deep. -/
def tooDeep (name : String) : Item :=
  placeholder (styled "dim" (Markup.escape name ++ " …"))

/-- The only row where there is no tree. -/
def noIncludes : Item :=
  placeholder (styled "dim" "No includes")

end Item

/-- How many levels and how many includes are shown at most. -/
structure Limits where
  levels : Int
  includes : Int
  deriving DecidableEq, Repr

/-- The limits that the browser keeps to. -/
def Limits.usual : Limits := ⟨64, 5000⟩

/-- The items of a forest that starts at `depth`, when `count` includes have items
already, and the count afterwards.  Either may start below zero, which leaves more room. -/
def populate (l : Limits) (depth : Int) : Forest Include → Int → Forest Item × Int
  | .nil, count => (.nil, count)
  | .cons i below beside, count =>
    if l.includes ≤ count then (.cons (.truncated l.includes) .nil .nil, count)
    else if l.levels ≤ depth then
      let (rest, count) := populate l depth beside count
      (.cons (.tooDeep i.name) .nil rest, count)
    else
      let (inner, count) := populate l (depth + 1) below (count + 1)
      let (rest, count) := populate l depth beside count
      (.cons (.ofTree ⟨i, below⟩) inner rest, count)

/-- An item with an identity, open or not. -/
structure Row where
  id : Nat
  item : Item
  isOpen : Bool
  deriving DecidableEq, Repr, Inhabited

namespace Rows

/-- Fresh rows, none of them open, numbered in preorder from `first`. -/
def planted (first : Nat) : Forest Item → Forest Row
  | .nil => .nil
  | .cons item below beside =>
    .cons ⟨first, item, false⟩ (planted (first + 1) below)
      (planted (first + 1 + below.size) beside)

/-- The rows with those of the first `levels` levels open. -/
def openTo : Nat → Forest Row → Forest Row
  | _, .nil => .nil
  | 0, rows => rows
  | levels + 1, .cons r below beside =>
    .cons { r with isOpen := true } (openTo levels below) (openTo (levels + 1) beside)

/-- The rows, all open or all closed. -/
def openAll (isOpen : Bool) (rows : Forest Row) : Forest Row :=
  rows.map fun r => { r with isOpen := isOpen }

/-- Whether a row with an identity is there. -/
def has (id : Nat) : Forest Row → Bool
  | .nil => false
  | .cons r below beside => r.id == id || has id below || has id beside

/-- The rows with everything above the row with an identity open. -/
def reveal (id : Nat) : Forest Row → Forest Row
  | .nil => .nil
  | .cons r below beside =>
    .cons { r with isOpen := r.isOpen || has id below } (reveal id below) (reveal id beside)

/-- The row that a path of positions leads to. -/
def find? : List Nat → Forest Row → Option Row
  | _, .nil => none
  | [], _ => none
  | 0 :: path, .cons r below _ => if path = [] then some r else find? path below
  | (k + 1) :: path, .cons _ _ beside => find? (k :: path) beside

/-- The path of positions to the row with an identity, when the first row has
position `k`. -/
def pathFrom? (id : Nat) : Nat → Forest Row → Option (List Nat)
  | _, .nil => none
  | k, .cons r below beside =>
    if r.id = id then some [k]
    else ((pathFrom? id 0 below).map (k :: ·)).or (pathFrom? id (k + 1) beside)

/-- The path of positions to the row with an identity. -/
def pathOf? (id : Nat) (rows : Forest Row) : Option (List Nat) :=
  pathFrom? id 0 rows

/-- The text in which a query is looked for: the label and the path, in lower case. -/
def haystack (item : Item) : List Char :=
  Text.lower item.label.toList
    ++ match item.file with
      | some t => ' ' :: Text.lower t.root.path.toList
      | none => []

/-- The rows that a query matches, in preorder. -/
def matching (query : String) (rows : Forest Row) : List Row :=
  (rows.preorder.map (·.2)).filter fun r =>
    Text.contains (Text.lower query.toList) (haystack r.item)

end Rows

end IncludeTrace.Browser
