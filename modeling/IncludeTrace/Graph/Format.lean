/-
The formats in which a graph document can be written.

* `Format.ofSuffix` — the format that a file name asks for, DGML unless its suffix
  is the word of another one;
* `Document.render` — the document in a format; only Mermaid can refuse it.
-/
import IncludeTrace.Graph.Dgml
import IncludeTrace.Graph.Dot
import IncludeTrace.Graph.Mermaid
import IncludeTrace.Path.Location
import IncludeTrace.Text.Case

namespace IncludeTrace

namespace Location

/-- The last dot of the name and what follows it, unless the dot is the first or
the last character. -/
def suffix (l : Location) : String :=
  let reversed := l.name.toList.reverse
  let ending := reversed.takeWhile (· != '.')
  match reversed.dropWhile (· != '.') with
  | _ :: _ :: _ => if ending = [] then "" else String.ofList ('.' :: ending.reverse)
  | _ => ""

end Location

namespace Graph

/-- A way of writing a graph. -/
inductive Format where
  | dgml
  | dot
  | mermaid
  | json
  deriving DecidableEq, Repr, Inhabited

namespace Format

/-- The formats in the order in which they are offered. -/
def all : List Format := [dgml, dot, mermaid, json]

/-- The word by which a format is chosen. -/
def word : Format → String
  | dgml => "dgml"
  | dot => "dot"
  | mermaid => "mermaid"
  | json => "json"

/-- The format that a word chooses. -/
def ofWord? (word : String) : Option Format :=
  all.find? (·.word == word)

@[simp] theorem ofWord?_word (f : Format) : ofWord? f.word = some f := by
  cases f <;> decide

/-- The suffix of a file name, in lower case and without dots in front. -/
def suffixWord (path : Location) : String :=
  String.ofList ((Text.lower path.suffix.toList).dropWhile (· == '.'))

/-- The format that a file name asks for. -/
def ofSuffix (path : Location) : Format :=
  (ofWord? (suffixWord path)).getD dgml

end Format

/-- A title that is worth showing. -/
def shownTitle (title : Option String) : Option String :=
  title.filter (· != "")

/-- The document in a format, with a title where the format has a place for it. -/
def Document.render (d : Document) (format : Format) (title : Option String) :
    Except MissingNode String :=
  match format with
  | .dgml => .ok (Dgml.text d)
  | .dot => .ok (Dot.text d (shownTitle title))
  | .mermaid => Mermaid.text d (shownTitle title)
  | .json => .ok d.json.text

end Graph

end IncludeTrace
