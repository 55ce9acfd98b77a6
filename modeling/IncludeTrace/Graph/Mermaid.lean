/-
Graph documents in Mermaid.

Paths are no Mermaid names, so nodes are called `n0`, `n1`, … in their order.

* `Mermaid.number?` — the number under which a link finds a file; of several nodes
  with one id the last counts;
* `Mermaid.text` — the header, a line per node and a line per link, unless some
  link ends at a file that is no node.
-/
import IncludeTrace.Graph.Document

namespace IncludeTrace.Graph

/-- A link mentions a file that is no node. -/
structure MissingNode where
  id : String
  deriving DecidableEq, Repr

namespace Mermaid

/-- A character as it stands in a label. -/
def escapeChar (c : Char) : List Char :=
  if c = '"' then "#quot;".toList else [c]

/-- A label without quotes. -/
def label (s : String) : String :=
  String.ofList (s.toList.flatMap escapeChar)

/-- The lines in front of the nodes. -/
def header : Option String → List String
  | some title => ["---", "title: " ++ title, "---", "graph LR"]
  | none => ["graph LR"]

/-- The name of the node with a number. -/
def nodeName (number : Nat) : String :=
  "n" ++ toString number

/-- The number of the last node with an id, when the first one has number `start`. -/
def number? (id : String) : Nat → List Node → Option Nat
  | _, [] => none
  | start, n :: rest => (number? id (start + 1) rest).or (if n.id = id then some start else none)

/-- The lines of nodes of which the first has number `start`. -/
def nodeLines : Nat → List Node → List String
  | _, [] => []
  | start, n :: rest =>
    ("    " ++ nodeName start ++ "[\"" ++ label n.label ++ "\"]") :: nodeLines (start + 1) rest

/-- The number of a node that a link mentions. -/
def endpoint (nodes : List Node) (id : String) : Except MissingNode Nat :=
  match number? id 0 nodes with
  | some number => .ok number
  | none => .error ⟨id⟩

/-- The line of a link. -/
def linkLine (nodes : List Node) (l : Link) : Except MissingNode String := do
  let source ← endpoint nodes l.source
  let target ← endpoint nodes l.target
  return "    " ++ nodeName source ++ " --> " ++ nodeName target

/-- The lines of links, unless one of them ends nowhere. -/
def linkLines (nodes : List Node) : List Link → Except MissingNode (List String)
  | [] => .ok []
  | l :: rest => do
    let line ← linkLine nodes l
    let lines ← linkLines nodes rest
    return line :: lines

/-- The document in Mermaid. -/
def text (d : Document) (title : Option String) : Except MissingNode String := do
  let links ← linkLines d.nodes d.links
  return "\n".intercalate (header title ++ nodeLines 0 d.nodes ++ links)

end Mermaid

end IncludeTrace.Graph
