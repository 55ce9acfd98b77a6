/-
What is written in Mermaid, line by line.

Nodes are called by their numbers, so a link has to find the numbers of its two files.  Of several
nodes with one id it finds the last one, and for a file that is no node it finds none, which is
then reported.  In the document of a forest neither can happen: no id is there twice, and every
file that is mentioned is a node, the including one before the included one:

* `Mermaid.number?_eq_some_iff` — the number that is found for an id;
* `Mermaid.linkLines_eq_ok_iff`, `Document.ends`, `Mermaid.linkLines_eq_error_iff` — the links
  that can be written, and what is reported of the others;
* `Mermaid.lines`, `Mermaid.render_eq_ok_iff` — the lines of a document;
* `Mermaid.Arrow`, `arrow_of_finds` — the numbers of a link in the document of a forest;
* `Document.render_mermaid_lines` — what is written of forests, and what of documents is not.
-/
import IncludeTrace.Proofs.WholeFiles
import Mathlib.Data.List.Forall2

namespace IncludeTrace.Graph

namespace Mermaid

variable {nodes : List Node} {links : List Link} {id : String}

/-! ### Numbers -/

theorem le_of_number?_eq_some {start number : Nat} (h : number? id start nodes = some number) :
    start ≤ number := by
  induction nodes generalizing start with
  | nil => cases h
  | cons n nodes ih =>
    rw [number?, Option.or_eq_some_iff] at h
    rcases h with h | ⟨-, h⟩
    · exact Nat.le_of_succ_le (ih h)
    · split at h
      · cases h
        exact Nat.le_refl _
      · cases h

/-- The number that is found is that of the last node with the id. -/
theorem number?_eq_some_iff {start k : Nat} :
    number? id start nodes = some (start + k) ↔
      (nodes.map Node.id)[k]? = some id ∧ ∀ j, k < j → (nodes.map Node.id)[j]? ≠ some id := by
  induction nodes generalizing start k with
  | nil => simp [number?]
  | cons n nodes ih =>
    rw [number?, Option.or_eq_some_iff, List.map_cons]
    cases k with
    | zero =>
      -- A node further on has a greater number.
      have hlater : number? id (start + 1) nodes ≠ some (start + 0) := fun h =>
        absurd (le_of_number?_eq_some h) (Nat.not_succ_le_self start)
      have hnone : number? id (start + 1) nodes = none ↔ id ∉ nodes.map Node.id := by
        refine ⟨fun hnone hmem => ?_, fun hmem => number?_eq_none hmem (start + 1)⟩
        rw [← Option.not_isSome_iff_eq_none] at hnone
        exact hnone (isSome_number? hmem (start + 1))
      rw [or_iff_right hlater, hnone]
      constructor
      · rintro ⟨hmem, hfirst⟩
        refine ⟨?_, fun j hj hat => ?_⟩
        · split at hfirst
          · next heq => rw [heq, List.getElem?_cons_zero]
          · cases hfirst
        · obtain ⟨j, rfl⟩ := Nat.exists_eq_succ_of_ne_zero (Nat.pos_iff_ne_zero.1 hj)
          exact hmem (List.mem_of_getElem? hat)
      · rintro ⟨hfirst, hlast⟩
        rw [List.getElem?_cons_zero, Option.some.injEq] at hfirst
        refine ⟨fun hmem => ?_, by rw [if_pos hfirst]; rfl⟩
        obtain ⟨j, hj⟩ := List.mem_iff_getElem?.1 hmem
        exact hlast (j + 1) (Nat.succ_pos j) hj
    | succ k =>
      have hfirst : (if n.id = id then some start else none) ≠ some (start + (k + 1)) := by
        split
        · intro h
          have heq := Option.some.inj h
          omega
        · exact (Option.some_ne_none _).symm
      rw [or_iff_left fun h => hfirst h.2, Nat.add_comm k 1, ← Nat.add_assoc, ih,
        Nat.add_comm 1 k, List.getElem?_cons_succ]
      refine and_congr_right fun _ => ⟨fun hlast j hj => ?_, fun hlast j hj => ?_⟩
      · obtain ⟨j, rfl⟩ := Nat.exists_eq_succ_of_ne_zero (Nat.ne_zero_of_lt hj)
        exact hlast j (Nat.lt_of_succ_lt_succ hj)
      · exact hlast (j + 1) (Nat.succ_lt_succ hj)

/-- What a link finds depends on the ids alone. -/
theorem number?_congr {others : List Node} (h : nodes.map Node.id = others.map Node.id)
    (start : Nat) : number? id start nodes = number? id start others := by
  induction nodes generalizing others start with
  | nil =>
    rw [List.map_nil, eq_comm, List.map_eq_nil_iff] at h
    rw [h]
  | cons n nodes ih =>
    cases others with
    | nil => cases h
    | cons m others =>
      obtain ⟨hfirst, hrest⟩ := List.cons.inj h
      rw [number?, number?, ih hrest, hfirst]

/-! ### Links -/

/-- The line of a link that leads from a number to another one. -/
def arrow (ends : Nat × Nat) : String :=
  "    " ++ nodeName ends.1 ++ " --> " ++ nodeName ends.2

/-- The numbers that a link finds. -/
def Finds (nodes : List Node) (l : Link) (ends : Nat × Nat) : Prop :=
  number? l.source 0 nodes = some ends.1 ∧ number? l.target 0 nodes = some ends.2

theorem endpoint_eq_ok_iff {number : Nat} :
    endpoint nodes id = .ok number ↔ number? id 0 nodes = some number := by
  rw [endpoint]
  cases number? id 0 nodes with
  | none => exact iff_of_false (by rintro ⟨⟩) (by rintro ⟨⟩)
  | some k => rw [Except.ok.injEq, Option.some.injEq]

theorem linkLine_eq_ok_iff {l : Link} {line : String} :
    linkLine nodes l = .ok line ↔ ∃ ends, Finds nodes l ends ∧ line = arrow ends := by
  rw [linkLine, bind_eq_ok_iff]
  constructor
  · rintro ⟨source, hsource, h⟩
    obtain ⟨target, htarget, hline⟩ := bind_eq_ok_iff.1 h
    exact ⟨(source, target), ⟨endpoint_eq_ok_iff.1 hsource, endpoint_eq_ok_iff.1 htarget⟩,
      (Except.ok.inj hline).symm⟩
  · rintro ⟨ends, ⟨hsource, htarget⟩, rfl⟩
    exact ⟨ends.1, endpoint_eq_ok_iff.2 hsource,
      bind_eq_ok_iff.2 ⟨ends.2, endpoint_eq_ok_iff.2 htarget, rfl⟩⟩

/-- Links are written one by one, each with the numbers that it finds. -/
theorem linkLines_eq_ok_iff {lines : List String} :
    linkLines nodes links = .ok lines ↔
      ∃ ends, List.Forall₂ (Finds nodes) links ends ∧ lines = ends.map arrow := by
  induction links generalizing lines with
  | nil =>
    constructor
    · intro h
      exact ⟨[], .nil, (Except.ok.inj h).symm⟩
    · rintro ⟨ends, hends, rfl⟩
      rw [List.forall₂_nil_left_iff.1 hends]
      rfl
  | cons l links ih =>
    rw [linkLines, bind_eq_ok_iff]
    constructor
    · rintro ⟨line, hline, h⟩
      obtain ⟨rest, hrest, hlines⟩ := bind_eq_ok_iff.1 h
      obtain ⟨first, hfirst, rfl⟩ := linkLine_eq_ok_iff.1 hline
      obtain ⟨ends, hends, rfl⟩ := ih.1 hrest
      exact ⟨first :: ends, .cons hfirst hends, (Except.ok.inj hlines).symm⟩
    · rintro ⟨ends, hends, rfl⟩
      obtain ⟨first, rest, hfirst, hrest, rfl⟩ := List.forall₂_cons_left_iff.1 hends
      exact ⟨arrow first, linkLine_eq_ok_iff.2 ⟨first, hfirst, rfl⟩,
        bind_eq_ok_iff.2 ⟨rest.map arrow, ih.2 ⟨rest, hrest, rfl⟩, rfl⟩⟩

/-- The first file that is no node is reported, link by link, the source before the target. -/
theorem linkLines_eq_error_iff {e : MissingNode} :
    linkLines nodes links = .error e ↔
      (links.flatMap fun l => [l.source, l.target]).find? (fun id => id ∉ nodes.map Node.id)
        = some e.id := by
  induction links with
  | nil => exact iff_of_false (by rintro ⟨⟩) (by rintro ⟨⟩)
  | cons l links ih =>
    rw [List.flatMap_cons, List.cons_append, List.singleton_append, linkLines, linkLine]
    by_cases hsource : l.source ∈ nodes.map Node.id
    · obtain ⟨source, hs⟩ := exists_endpoint hsource
      rw [hs, List.find?_cons_of_neg (by simpa using hsource)]
      by_cases htarget : l.target ∈ nodes.map Node.id
      · obtain ⟨target, ht⟩ := exists_endpoint htarget
        rw [ht, List.find?_cons_of_neg (by simpa using htarget), ← ih]
        -- The link is written, so the fault is that of a later one.
        cases linkLines nodes links with
        | error e' => exact Iff.rfl
        | ok lines => exact iff_of_false (by rintro ⟨⟩) (by rintro ⟨⟩)
      · rw [endpoint_of_not_mem htarget, List.find?_cons_of_pos (by simpa using htarget)]
        obtain ⟨missing⟩ := e
        simp [bind, Except.bind]
    · rw [endpoint_of_not_mem hsource, List.find?_cons_of_pos (by simpa using hsource)]
      obtain ⟨missing⟩ := e
      simp [bind, Except.bind]

/-! ### Lines -/

/-- The line of the node with a number. -/
def nodeLine (number : Nat) (n : Node) : String :=
  "    " ++ nodeName number ++ "[\"" ++ label n.label ++ "\"]"

/-- The lines of a document whose links lead from and to certain numbers. -/
def lines (d : Document) (title : Option String) (ends : List (Nat × Nat)) : List String :=
  header title ++ (d.nodes.zipIdx.map fun p => nodeLine p.2 p.1) ++ ends.map arrow

theorem nodeLines_eq (start : Nat) (nodes : List Node) :
    nodeLines start nodes = (nodes.zipIdx start).map fun p => nodeLine p.2 p.1 := by
  induction nodes generalizing start with
  | nil => rfl
  | cons n nodes ih =>
    rw [nodeLines, ih, List.zipIdx_cons, List.map_cons]
    rfl

/-- A document is written in lines, with the numbers that its links find. -/
theorem render_eq_ok_iff {d : Document} {title : Option String} {text : String} :
    d.render .mermaid title = .ok text ↔
      ∃ ends, List.Forall₂ (Finds d.nodes) d.links ends ∧
        text = "\n".intercalate (lines d (shownTitle title) ends) := by
  rw [Document.render, Mermaid.text, bind_eq_ok_iff]
  constructor
  · rintro ⟨written, hwritten, h⟩
    obtain ⟨ends, hends, rfl⟩ := linkLines_eq_ok_iff.1 hwritten
    rw [nodeLines_eq] at h
    exact ⟨ends, hends, (Except.ok.inj h).symm⟩
  · rintro ⟨ends, hends, rfl⟩
    refine ⟨ends.map arrow, linkLines_eq_ok_iff.2 ⟨ends, hends, rfl⟩, ?_⟩
    rw [nodeLines_eq]
    rfl

/-! ### Line breaks -/

theorem newline_not_mem_nodeName (number : Nat) : '\n' ∉ (nodeName number).toList := by
  rw [nodeName, String.toList_append, List.mem_append, not_or]
  refine ⟨by decide, fun h => ?_⟩
  have htext : (toString number).toList = Nat.toDigits 10 number := by
    show number.repr.toList = _
    rw [Nat.repr_eq_ofList_toDigits, String.toList_ofList]
  rw [htext] at h
  exact absurd (Nat.isDigit_of_mem_toDigits (by decide) (by decide) h) (by decide)

theorem newline_not_mem_label {s : String} (h : '\n' ∉ s.toList) : '\n' ∉ (label s).toList := by
  rw [label, String.toList_ofList, List.mem_flatMap]
  rintro ⟨c, hc, hmem⟩
  rw [escapeChar] at hmem
  split at hmem
  · exact absurd hmem (by decide)
  · rw [List.mem_singleton.1 hmem] at h
    exact h hc

theorem newline_not_mem_header {title : Option String}
    (h : ∀ t, title = some t → '\n' ∉ t.toList) : ∀ line ∈ header title, '\n' ∉ line.toList := by
  cases title with
  | none => simp [header]
  | some t =>
    have ht := h t rfl
    simp [header, ht]

theorem newline_not_mem_nodeLine {n : Node} (h : '\n' ∉ n.label.toList) (number : Nat) :
    '\n' ∉ (nodeLine number n).toList := by
  have hname := newline_not_mem_nodeName number
  have hlabel := newline_not_mem_label h
  simp [nodeLine, hname, hlabel]

theorem newline_not_mem_arrow (ends : Nat × Nat) : '\n' ∉ (arrow ends).toList := by
  have hsource := newline_not_mem_nodeName ends.1
  have htarget := newline_not_mem_nodeName ends.2
  simp [arrow, hsource, htarget]

/-- Without line breaks in labels and title, the lines are those of the text. -/
theorem splitOn_lines {d : Document} {title : Option String} {ends : List (Nat × Nat)}
    (hlabels : ∀ n ∈ d.nodes, '\n' ∉ n.label.toList)
    (htitle : ∀ t, title = some t → '\n' ∉ t.toList) :
    ("\n".intercalate (lines d title ends)).toList.splitOn '\n'
      = (lines d title ends).map String.toList := by
  have hline : ∀ line ∈ lines d title ends, '\n' ∉ line.toList := by
    intro line hline
    rw [lines, List.mem_append, List.mem_append] at hline
    rcases hline with (hheader | hnode) | hlink
    · exact newline_not_mem_header htitle line hheader
    · obtain ⟨⟨n, k⟩, hn, rfl⟩ := List.mem_map.1 hnode
      exact newline_not_mem_nodeLine (hlabels n (List.fst_mem_of_mem_zipIdx hn)) k
    · obtain ⟨e, -, rfl⟩ := List.mem_map.1 hlink
      exact newline_not_mem_arrow e
  have hsome : (lines d title ends).map String.toList ≠ [] := by
    cases title <;> simp [lines, header]
  rw [String.toList_intercalate]
  exact List.splitOn_intercalate '\n' (by simpa using hline) hsome

/-! ### Forests -/

/-- A link leads from the node of its source to that of its target, which comes later. -/
structure Arrow (d : Document) (l : Link) (ends : Nat × Nat) : Prop where
  source : ∃ n, d.nodes[ends.1]? = some n ∧ n.id = l.source
  target : ∃ n, d.nodes[ends.2]? = some n ∧ n.id = l.target
  forward : ends.1 < ends.2

theorem exists_of_number?_eq_some {number : Nat} (h : number? id 0 nodes = some number) :
    ∃ n, nodes[number]? = some n ∧ n.id = id := by
  rw [← Nat.zero_add number, number?_eq_some_iff, List.getElem?_map] at h
  exact Option.map_eq_some_iff.1 h.1

/-- In the document of a forest the numbers that a link finds are those of its two nodes. -/
theorem arrow_of_finds {f : Forest Include} {l : Link} {ends : Nat × Nat}
    (hl : l ∈ (Document.ofForest f).links) (h : Finds (Document.ofForest f).nodes l ends) :
    Arrow (Document.ofForest f) l ends := by
  have hgrown := Document.grown_ofForest f
  have hposition : ∀ {id number}, number? id 0 (Document.ofForest f).nodes = some number →
      (Document.ofForest f).ids.idxOf id = number := by
    intro id number hnumber
    obtain ⟨n, hn, rfl⟩ := exists_of_number?_eq_some hnumber
    have hat : (Document.ofForest f).ids[number]? = some n.id := by
      rw [Document.ids, List.getElem?_map, hn, Option.map_some]
    obtain ⟨hlt, hget⟩ := List.getElem?_eq_some_iff.1 hat
    rw [← hget]
    exact hgrown.ids_nodup.idxOf_getElem number hlt
  refine ⟨exists_of_number?_eq_some h.1, exists_of_number?_eq_some h.2, ?_⟩
  rw [← hposition h.1, ← hposition h.2]
  exact Document.idxOf_lt_idxOf hgrown.ids_nodup (hgrown.forward l hl)

end Mermaid

namespace Document

/-- The files that links mention, link by link, the source before the target. -/
def ends (d : Document) : List String :=
  d.links.flatMap fun l => [l.source, l.target]

/-- The nodes of a forest stand for its includes. -/
theorem exists_of_mem_nodes_ofForest {f : Forest Include} {n : Node}
    (h : n ∈ (ofForest f).nodes) : ∃ i ∈ f.values, n = .ofInclude i := by
  obtain ⟨parent, i, hin, rfl, -⟩ := (grown_ofForest f).node n h
  refine ⟨i, ?_, rfl⟩
  rw [Forest.values_eq_map_root]
  cases hin with
  | outermost ht => exact List.mem_map_of_mem (Forest.mem_subtrees_of_mem_trees ht)
  | below ht hu =>
    exact List.mem_map_of_mem
      (Forest.mem_subtrees_of_below ht (Forest.mem_subtrees_of_mem_trees hu))

/-- **In Mermaid, every arrow of a forest leads from its source to its target.**  The document of
a forest is always written: the header, a line for each node with the number of its place, and
for each link the numbers of its two nodes, the source's being the lower one.  These are the lines
of the text if no name and no title has a line break.  Any other document is refused exactly if it
mentions a file that is no node, and the first such file is reported. -/
theorem render_mermaid_lines :
    (∀ (f : Forest Include) (title : Option String),
      ∃ ends, List.Forall₂ (Mermaid.Arrow (ofForest f)) (ofForest f).links ends ∧
        ∃ text, (ofForest f).render .mermaid title = .ok text ∧
          text = "\n".intercalate (Mermaid.lines (ofForest f) (shownTitle title) ends) ∧
          ((∀ i ∈ f.values, '\n' ∉ i.name.toList) → (∀ t, title = some t → '\n' ∉ t.toList) →
            text.toList.splitOn '\n'
              = (Mermaid.lines (ofForest f) (shownTitle title) ends).map String.toList)) ∧
    ∀ (d : Document) (title : Option String),
      ((∃ e, d.render .mermaid title = .error e) ↔ ∃ id ∈ d.ends, id ∉ d.ids) ∧
      ∀ e, d.render .mermaid title = .error e ↔
        d.ends.find? (fun id => id ∉ d.ids) = some e.id := by
  have hmissing : ∀ (d : Document) (title : Option String) e,
      d.render .mermaid title = .error e ↔
        d.ends.find? (fun id => id ∉ d.ids) = some e.id := by
    intro d title e
    rw [ends, ids, ← Mermaid.linkLines_eq_error_iff, render, Mermaid.text, bind_eq_error_iff]
    refine or_iff_left ?_
    rintro ⟨written, -, h⟩
    cases h
  refine ⟨fun f title => ?_, fun d title => ⟨?_, hmissing d title⟩⟩
  · obtain ⟨text, htext⟩ := exists_render_ofForest f .mermaid title
    obtain ⟨ends, hends, hlines⟩ := Mermaid.render_eq_ok_iff.1 htext
    have harrows : List.Forall₂ (Mermaid.Arrow (ofForest f)) (ofForest f).links ends := by
      rw [List.forall₂_iff_zip] at hends ⊢
      exact ⟨hends.1, fun hpair =>
        Mermaid.arrow_of_finds (List.of_mem_zip hpair).1 (hends.2 hpair)⟩
    refine ⟨ends, harrows, text, htext, hlines, fun hnames htitle => ?_⟩
    rw [hlines]
    refine Mermaid.splitOn_lines (fun n hn => ?_) fun t ht => ?_
    · obtain ⟨i, hi, rfl⟩ := exists_of_mem_nodes_ofForest hn
      exact hnames i hi
    · exact htitle t (Option.eq_some_of_filter_eq_some ht)
  · simp only [hmissing]
    constructor
    · rintro ⟨e, he⟩
      exact ⟨e.id, List.mem_of_find?_eq_some he, by simpa using List.find?_some he⟩
    · rintro ⟨id, hid, hnone⟩
      have hsome : (d.ends.find? fun id => id ∉ d.ids).isSome = true :=
        List.find?_isSome.2 ⟨id, hid, decide_eq_true hnone⟩
      obtain ⟨first, hfirst⟩ := Option.isSome_iff_exists.1 hsome
      exact ⟨⟨first⟩, hfirst⟩

/-- A file that two others include is reached by one arrow, and a quote in a name stays in its
line. -/
theorem render_mermaid_lines_shared :
    let f : Forest Include :=
      .cons ⟨"/a.h", "a.h"⟩ (.cons ⟨"/b.h", "\"b\".h"⟩ .nil .nil)
        (.cons ⟨"/c.h", "c.h"⟩ (.cons ⟨"/b.h", "\"b\".h"⟩ .nil .nil) .nil)
    let text := "\n".intercalate ["---", "title: x.c", "---", "graph LR", "    n0[\"a.h\"]",
      "    n1[\"#quot;b#quot;.h\"]", "    n2[\"c.h\"]", "    n0 --> n1"]
    (∀ i ∈ f.values, '\n' ∉ i.name.toList) ∧ '\n' ∉ "x.c".toList ∧
      (ofForest f).render .mermaid (some "x.c") = .ok text ∧
      ∃ ends, List.Forall₂ (Mermaid.Arrow (ofForest f)) (ofForest f).links ends ∧
        text.toList.splitOn '\n'
          = (Mermaid.lines (ofForest f) (some "x.c") ends).map String.toList := by
  intro f text
  have hnames : ∀ i ∈ f.values, '\n' ∉ i.name.toList := by decide +kernel
  have htitle : '\n' ∉ "x.c".toList := by decide
  have hrender : (ofForest f).render .mermaid (some "x.c") = .ok text := by decide +kernel
  obtain ⟨ends, harrows, written, hwritten, -, hlines⟩ := render_mermaid_lines.1 f (some "x.c")
  cases hrender.symm.trans hwritten
  refine ⟨hnames, htitle, hrender, ends, harrows, hlines hnames ?_⟩
  rintro t ⟨⟩
  exact htitle

end Document

end IncludeTrace.Graph
