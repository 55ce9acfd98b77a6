/-
Graph documents: an include tree seen as a directed graph with one node per file.

* `Document.ofForest` — goes through a forest in preorder; an include of a file
  that is a node already is left out together with everything below it, and so is
  the link to it;
* `Document.json` — nodes and links as a JSON object.

The outermost includes have no incoming link, because the translation unit itself
is no node.
-/
import IncludeTrace.Json.Value
import IncludeTrace.Trace.Tree

namespace IncludeTrace.Graph

/-- A file and the text it is labelled with. -/
structure Node where
  id : String
  label : String
  deriving DecidableEq, Repr, Inhabited

/-- One file includes another. -/
structure Link where
  source : String
  target : String
  deriving DecidableEq, Repr, Inhabited

/-- The nodes and links of a graph, in the order in which they are written. -/
structure Document where
  nodes : List Node
  links : List Link
  deriving DecidableEq, Repr, Inhabited

namespace Document

/-- The document without nodes. -/
def empty : Document := ⟨[], []⟩

/-- Whether a file is a node. -/
def has (d : Document) (id : String) : Bool :=
  d.nodes.any (·.id == id)

/-- One more node, linked from the file that includes it. -/
def add (d : Document) (parent : Option String) (i : Include) : Document :=
  ⟨d.nodes ++ [⟨i.path, i.name⟩], d.links ++ (parent.map (⟨·, i.path⟩)).toList⟩

/-- The document after the includes of `parent` have been gone through. -/
def addForest (parent : Option String) : Forest Include → Document → Document
  | .nil, d => d
  | .cons i below beside, d =>
    if d.has i.path then addForest parent beside d
    else addForest parent beside (addForest (some i.path) below (d.add parent i))

/-- The graph of a forest of includes. -/
def ofForest (f : Forest Include) : Document :=
  addForest none f empty

/-- What is noted about a document that was just built. -/
def remark (d : Document) : Journal :=
  [.log .debug s!"Graph has {d.nodes.length} node(s) and {d.links.length} link(s)"]

/-- A node as a JSON object. -/
def nodeJson (n : Node) : Json :=
  .obj [("id", .str n.id), ("label", .str n.label)]

/-- A link as a JSON object. -/
def linkJson (l : Link) : Json :=
  .obj [("source", .str l.source), ("target", .str l.target)]

/-- The document as a JSON object. -/
def json (d : Document) : Json :=
  .obj [("directed", .bool true), ("nodes", .arr (d.nodes.map nodeJson)),
    ("links", .arr (d.links.map linkJson))]

end Document

end IncludeTrace.Graph
