/-
Graph documents in DGML, the XML dialect for directed graphs.

* `Dgml.escapes` — the characters that an attribute value cannot hold as they
  are: markup, quotes, and the blanks that a reader would turn into spaces;
* `Dgml.text` — one element per node and per link, indented by two spaces a level.
-/
import IncludeTrace.Graph.Document
import IncludeTrace.Text.Replace

namespace IncludeTrace.Graph.Dgml

/-- The name of the dialect. -/
def dialect : String := "http://schemas.microsoft.com/vs/2009/dgml"

/-- The replacements in an attribute value; the ampersands come first, so that those of the other
replacements stay. -/
def escapes : List (Char × String) :=
  [('&', "&amp;"), ('<', "&lt;"), ('>', "&gt;"), ('"', "&quot;"), ('\r', "&#13;"),
    ('\n', "&#10;"), ('\t', "&#09;")]

/-- A name and its value, with a space in front. -/
def attributeOf (name value : String) : String :=
  " " ++ name ++ "=\"" ++ String.ofList (Text.replaceAll escapes value.toList) ++ "\""

/-- The line of a node. -/
def nodeLine (n : Node) : String :=
  "    <Node" ++ attributeOf "Id" n.id ++ attributeOf "Label" n.label ++ " />"

/-- The line of a link. -/
def linkLine (l : Link) : String :=
  "    <Link" ++ attributeOf "Source" l.source ++ attributeOf "Target" l.target ++ " />"

/-- The lines of an element that holds the given lines. -/
def group (name : String) : List String → List String
  | [] => ["  <" ++ name ++ " />"]
  | lines => ("  <" ++ name ++ ">") :: lines ++ ["  </" ++ name ++ ">"]

/-- The document in DGML. -/
def text (d : Document) : String :=
  "\n".intercalate
    ("<?xml version='1.0' encoding='utf-8'?>"
      :: ("<DirectedGraph" ++ attributeOf "xmlns" dialect ++ ">")
      :: group "Nodes" (d.nodes.map nodeLine) ++ group "Links" (d.links.map linkLine)
      ++ ["</DirectedGraph>"])

end IncludeTrace.Graph.Dgml
