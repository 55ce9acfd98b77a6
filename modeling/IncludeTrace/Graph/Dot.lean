/-
Graph documents in DOT.

* `Dot.quoted` — backslashes and then quotes are preceded by a backslash, and nothing
  else is;
* `Dot.text` — the title, if there is one, then a line per node and a line per link.
-/
import IncludeTrace.Graph.Document
import IncludeTrace.Text.Replace

namespace IncludeTrace.Graph.Dot

/-- The replacements in a quoted text; a quote gets its backslash after backslashes were looked
at. -/
def escapes : List (Char × String) :=
  [('\\', "\\\\"), ('"', "\\\"")]

/-- A text between quotes. -/
def quoted (s : String) : String :=
  String.ofList ('"' :: Text.replaceAll escapes s.toList ++ ['"'])

/-- The lines that name the graph. -/
def titleLines : Option String → List String
  | some title => ["    label=" ++ quoted title ++ ";", "    labelloc=t;"]
  | none => []

/-- The line of a node. -/
def nodeLine (n : Node) : String :=
  "    " ++ quoted n.id ++ " [label=" ++ quoted n.label ++ "];"

/-- The line of a link. -/
def linkLine (l : Link) : String :=
  "    " ++ quoted l.source ++ " -> " ++ quoted l.target ++ ";"

/-- The document in DOT. -/
def text (d : Document) (title : Option String) : String :=
  "\n".intercalate
    ("digraph includes \x7b" :: titleLines title
      ++ ["    rankdir=LR;",
        "    node [shape=box, style=rounded, fontname=\"sans-serif\"];"]
      ++ d.nodes.map nodeLine ++ d.links.map linkLine ++ ["\x7d"])

end IncludeTrace.Graph.Dot
