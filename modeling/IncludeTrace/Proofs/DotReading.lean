/-
Graph documents are read back from DOT.

The reader knows nothing of the writer but the shape of its lines.  It goes through the text
once: a quoted text ends at the first quote that no backslash escapes, and a line ends at a
line feed outside of quotes, so whatever stands in ids, labels and titles stays in them:

* `Line`, `outside`, `inside` — the lines of a text, with what is quoted taken out of them;
* `read?` — the document and the title that the lines state;
* `Reads` — a piece of text means one piece of a line, wherever it stands;
* `replaceAll_escapes` — the two replacements escape each character on its own;
* `reads_quoted` — what was quoted is taken out as it was;
* `read?_text`, `render_dot_read_back` — nodes, links and title are read back.
-/
import IncludeTrace.Graph.Format
import Mathlib.Data.List.Basic
import Mathlib.Data.List.Forall2

namespace IncludeTrace.Graph

namespace Dot

/-! ### The reader -/

/-- A line of DOT: the characters outside of quotes, where one quote stands for each quoted
text, and the quoted texts. -/
structure Line where
  frame : List Char
  texts : List (List Char)
  deriving DecidableEq

namespace Line

/-- Two pieces of one line. -/
def append (l m : Line) : Line :=
  ⟨l.frame ++ m.frame, l.texts ++ m.texts⟩

/-- One more character at the front of the first quoted text. -/
def prepend (c : Char) (l : Line) : Line :=
  { l with texts := l.texts.modifyHead (c :: ·) }

end Line

mutual

/-- The lines of a text that starts outside of quotes. -/
def outside : List Char → Option (List Line)
  | [] => some [⟨[], []⟩]
  | c :: s =>
    if c = '\n' then (outside s).map (⟨[], []⟩ :: ·)
    else if c = '"' then (inside s).map (List.modifyHead (Line.append ⟨['"'], []⟩))
    else (outside s).map (List.modifyHead (Line.append ⟨[c], []⟩))

/-- The lines of a text that starts inside of quotes; what is left of the quoted text is the
first one of its line. -/
def inside : List Char → Option (List Line)
  | [] => none
  | '"' :: s => (outside s).map (List.modifyHead (Line.append ⟨[], [[]]⟩))
  | '\\' :: '"' :: s => (inside s).map (List.modifyHead (Line.prepend '"'))
  | '\\' :: '\\' :: s => (inside s).map (List.modifyHead (Line.prepend '\\'))
  | c :: s => (inside s).map (List.modifyHead (Line.prepend c))

end

/-- What stands around the texts of a line that states a node. -/
def nodeFrame : List Char :=
  "    ".toList ++ ['"'] ++ " [label=".toList ++ ['"'] ++ "];".toList

/-- What stands around the texts of a line that states a link. -/
def linkFrame : List Char :=
  "    ".toList ++ ['"'] ++ " -> ".toList ++ ['"'] ++ ";".toList

/-- What a line of a graph states. -/
inductive Statement where
  | node (n : Node)
  | link (l : Link)

namespace Statement

def node? : Statement → Option Node
  | node n => some n
  | link _ => none

def link? : Statement → Option Link
  | node _ => none
  | link l => some l

/-- The statement of a line. -/
def ofLine? (l : Line) : Option Statement :=
  match l.texts with
  | [a, b] =>
    if l.frame = nodeFrame then some (.node ⟨String.ofList a, String.ofList b⟩)
    else if l.frame = linkFrame then some (.link ⟨String.ofList a, String.ofList b⟩)
    else none
  | _ => none

end Statement

/-- The first line. -/
def opening : Line := ⟨"digraph includes \x7b".toList, []⟩

/-- What stands around the text of a line that states a title. -/
def titleFrame : List Char := "    label=".toList ++ ['"'] ++ ";".toList

/-- The line behind the one of a title. -/
def titlePlace : Line := ⟨"    labelloc=t;".toList, []⟩

/-- What stands around the font in the line that is about all nodes. -/
def fontFrame : List Char :=
  "    node [shape=box, style=rounded, fontname=".toList ++ ['"'] ++ "];".toList

/-- The lines in front of the statements. -/
def settings : List Line :=
  [⟨"    rankdir=LR;".toList, []⟩, ⟨fontFrame, ["sans-serif".toList]⟩]

/-- The last line. -/
def closing : Line := ⟨"\x7d".toList, []⟩

/-- The document that the lines behind the title state. -/
def document? (lines : List Line) : Option Document :=
  if lines.take 2 = settings ∧ lines.getLast? = some closing then
    ((lines.drop 2).dropLast.mapM Statement.ofLine?).map fun statements =>
      ⟨statements.filterMap Statement.node?, statements.filterMap Statement.link?⟩
  else none

/-- The title at the front of some lines, and the lines behind it. -/
def titleAndRest : List Line → Option String × List Line
  | ⟨frame, [title]⟩ :: place :: rest =>
    if frame = titleFrame ∧ place = titlePlace then (some (String.ofList title), rest)
    else (none, ⟨frame, [title]⟩ :: place :: rest)
  | lines => (none, lines)

/-- The document and the title that lines state. -/
def ofLines? : List Line → Option (Document × Option String)
  | first :: lines =>
    let (title, rest) := titleAndRest lines
    if first = opening then (document? rest).map (·, title) else none
  | [] => none

/-- The document and the title that a text states. -/
def read? (text : String) : Option (Document × Option String) :=
  (outside text.toList).bind ofLines?

/-! ### What pieces of text mean -/

/-- A piece of text means a piece of a line, whatever follows it. -/
def Reads (s : List Char) (l : Line) : Prop :=
  ∀ rest, outside (s ++ rest) = (outside rest).map (List.modifyHead l.append)

theorem Line.append_assoc (l m n : Line) : (l.append m).append n = l.append (m.append n) := by
  simp [append]

theorem modifyHead_append (l m : Line) :
    List.modifyHead (l.append m).append = List.modifyHead l.append ∘ List.modifyHead m.append := by
  funext lines
  cases lines with
  | nil => rfl
  | cons n lines => simp [Line.append_assoc]

theorem Reads.append {s t : List Char} {l m : Line} (hs : Reads s l) (ht : Reads t m) :
    Reads (s ++ t) (l.append m) := by
  intro rest
  rw [List.append_assoc, hs, ht, Option.map_map, modifyHead_append]

/-- Neither a quoted text begins in a text, nor does the line end. -/
def Bare (s : List Char) : Prop :=
  ∀ c ∈ s, c ≠ '"' ∧ c ≠ '\n'

-- The instance is named because all characters could be gone through as well.
instance (s : List Char) : Decidable (Bare s) :=
  List.decidableBAll (fun c => c ≠ '"' ∧ c ≠ '\n') s

/-- Outside of quotes everything but quotes and line feeds stands for itself. -/
theorem reads_plain {s : List Char} (h : Bare s) : Reads s ⟨s, []⟩ := by
  induction s with
  | nil =>
    intro rest
    have hid : List.modifyHead (Line.append ⟨[], []⟩) = id := by
      funext lines
      cases lines <;> rfl
    rw [hid, Option.map_id]
    rfl
  | cons c s ih =>
    obtain ⟨hquote, hfeed⟩ := h c List.mem_cons_self
    have hc : Reads [c] ⟨[c], []⟩ := by
      intro rest
      rw [List.singleton_append, outside, if_neg hfeed, if_neg hquote]
    exact hc.append (ih fun d hd => h d (List.mem_cons_of_mem _ hd))

/-- A character as it stands in a quoted text. -/
def escapeChar (c : Char) : List Char :=
  if c = '"' ∨ c = '\\' then ['\\', c] else [c]

theorem replaceAll_singleton (c : Char) : Text.replaceAll escapes [c] = escapeChar c := by
  rw [escapeChar]
  split
  · next h =>
    rcases h with rfl | rfl
    · rfl
    · rfl
  · next h =>
    rw [not_or] at h
    refine Text.replaceAll_of_ne ?_
    simp [escapes, h.1, h.2]

/-- The replacements in a quoted text come to one for each character. -/
theorem replaceAll_escapes (s : List Char) : Text.replaceAll escapes s = s.flatMap escapeChar := by
  rw [Text.replaceAll_eq_flatMap]
  simp only [replaceAll_singleton]

/-- An escaped character is read as it was, whatever it is. -/
theorem inside_escapeChar (c : Char) (s : List Char) :
    inside (escapeChar c ++ s) = (inside s).map (List.modifyHead (Line.prepend c)) := by
  rw [escapeChar]
  split
  · next h =>
    rcases h with rfl | rfl
    · rw [List.cons_append, List.singleton_append, inside]
    · rw [List.cons_append, List.singleton_append, inside]
  · next h =>
    rw [not_or] at h
    rw [List.singleton_append, inside]
    · exact h.1
    · exact fun _ hc => absurd hc h.2
    · exact fun _ hc => absurd hc h.2

/-- The quote behind an escaped text is the first one that ends it. -/
theorem inside_escaped (s rest : List Char) :
    inside (s.flatMap escapeChar ++ '"' :: rest)
      = (outside rest).map (List.modifyHead (Line.append ⟨[], [s]⟩)) := by
  induction s with
  | nil => rw [List.flatMap_nil, List.nil_append, inside]
  | cons c s ih =>
    have hprepend : List.modifyHead (Line.prepend c) ∘ List.modifyHead (Line.append ⟨[], [s]⟩)
        = List.modifyHead (Line.append ⟨[], [c :: s]⟩) := by
      funext lines
      cases lines <;> rfl
    rw [List.flatMap_cons, List.append_assoc, inside_escapeChar, ih, Option.map_map, hprepend]

/-- A backslash at the end of a text does not hide the quote behind it. -/
example : inside ['a', '\\', '\\', '"', ';'] = some [⟨[';'], [['a', '\\']]⟩] := by decide

/-- What is quoted is taken out of its line as it was. -/
theorem reads_quoted (s : String) : Reads (quoted s).toList ⟨['"'], [s.toList]⟩ := by
  intro rest
  have hjoined : List.modifyHead (Line.append ⟨['"'], []⟩)
        ∘ List.modifyHead (Line.append ⟨[], [s.toList]⟩)
      = List.modifyHead (Line.append ⟨['"'], [s.toList]⟩) := by
    rw [← modifyHead_append]
    rfl
  have hrest : (quoted s).toList ++ rest
      = '"' :: (s.toList.flatMap escapeChar ++ '"' :: rest) := by
    simp [quoted, replaceAll_escapes]
  rw [hrest, outside, if_neg (by decide), if_pos rfl, inside_escaped, Option.map_map, hjoined]

/-! ### Lines -/

theorem outside_lines {pieces : List (List Char)} {lines : List Line}
    (h : List.Forall₂ Reads pieces lines) (hsome : pieces ≠ []) :
    outside (['\n'].intercalate pieces) = some lines := by
  have hempty (l : Line) : l.append ⟨[], []⟩ = l := by simp [Line.append]
  induction h with
  | nil => exact absurd rfl hsome
  -- The last line has no break behind it, so it is the base case and not the empty list.
  | @cons s l pieces lines hs hrest ih =>
    cases hrest with
    | nil =>
      have hs := hs []
      rw [List.append_nil, outside] at hs
      simpa [hempty] using hs
    | cons ht hrest =>
      rw [List.intercalate_cons_of_ne_nil (List.cons_ne_nil _ _), List.append_assoc, hs,
        List.singleton_append, outside, if_pos rfl, ih (List.cons_ne_nil _ _)]
      simp [hempty]

theorem reads_bare {a : String} (ha : Bare a.toList) : Reads a.toList ⟨a.toList, []⟩ :=
  reads_plain ha

theorem reads_one {a b : String} (ha : Bare a.toList) (hb : Bare b.toList) (x : String) :
    Reads (a ++ quoted x ++ b).toList ⟨a.toList ++ ['"'] ++ b.toList, [x.toList]⟩ := by
  have h := ((reads_bare ha).append (reads_quoted x)).append (reads_bare hb)
  simp only [String.toList_append]
  exact h

theorem reads_two {a b c : String} (ha : Bare a.toList) (hb : Bare b.toList)
    (hc : Bare c.toList) (x y : String) :
    Reads (a ++ quoted x ++ b ++ quoted y ++ c).toList
      ⟨a.toList ++ ['"'] ++ b.toList ++ ['"'] ++ c.toList, [x.toList, y.toList]⟩ := by
  have h := ((reads_one ha hb x).append (reads_quoted y)).append (reads_bare hc)
  simp only [String.toList_append] at h ⊢
  exact h

/-- The line of a node, as the reader sees it. -/
def nodeMeaning (n : Node) : Line :=
  ⟨nodeFrame, [n.id.toList, n.label.toList]⟩

/-- The line of a link, as the reader sees it. -/
def linkMeaning (l : Link) : Line :=
  ⟨linkFrame, [l.source.toList, l.target.toList]⟩

theorem reads_nodeLine (n : Node) : Reads (nodeLine n).toList (nodeMeaning n) :=
  reads_two (by decide) (by decide) (by decide) n.id n.label

theorem reads_linkLine (l : Link) : Reads (linkLine l).toList (linkMeaning l) :=
  reads_two (by decide) (by decide) (by decide) l.source l.target

/-- The lines of a title, as the reader sees them. -/
def titleMeaning : Option String → List Line
  | some title => [⟨titleFrame, [title.toList]⟩, titlePlace]
  | none => []

theorem reads_titleLines (title : Option String) :
    List.Forall₂ Reads ((titleLines title).map String.toList) (titleMeaning title) := by
  cases title with
  | none => exact .nil
  | some title =>
    have htitle := reads_one (a := "    label=") (b := ";") (by decide) (by decide) title
    exact .cons htitle (.cons (reads_bare (by decide)) .nil)

theorem reads_settings :
    List.Forall₂ Reads
      (["    rankdir=LR;", "    node [shape=box, style=rounded, fontname=\"sans-serif\"];"].map
        String.toList) settings := by
  have hfont := reads_one (a := "    node [shape=box, style=rounded, fontname=") (b := "];")
    (by decide) (by decide) "sans-serif"
  exact .cons (reads_bare (by decide)) (.cons hfont .nil)

/-- The lines of a document, as the reader sees them. -/
def meaning (d : Document) (title : Option String) : List Line :=
  opening :: (titleMeaning title
    ++ (settings ++ (d.nodes.map nodeMeaning ++ d.links.map linkMeaning ++ [closing])))

theorem outside_text (d : Document) (title : Option String) :
    outside (text d title).toList = some (meaning d title) := by
  have hopening : Reads "digraph includes \x7b".toList opening := reads_bare (by decide)
  have hclosing : Reads "\x7d".toList closing := reads_bare (by decide)
  have hnodes : List.Forall₂ Reads ((d.nodes.map nodeLine).map String.toList)
      (d.nodes.map nodeMeaning) := by
    rw [List.map_map, List.forall₂_map_left_iff, List.forall₂_map_right_iff, List.forall₂_same]
    exact fun n _ => reads_nodeLine n
  have hlinks : List.Forall₂ Reads ((d.links.map linkLine).map String.toList)
      (d.links.map linkMeaning) := by
    rw [List.map_map, List.forall₂_map_left_iff, List.forall₂_map_right_iff, List.forall₂_same]
    exact fun l _ => reads_linkLine l
  have hstatements := List.rel_append (List.rel_append hnodes hlinks) (.cons hclosing .nil)
  have hrest := List.rel_append (reads_titleLines title)
    (List.rel_append reads_settings hstatements)
  have hlines := outside_lines (.cons hopening hrest) (List.cons_ne_nil _ _)
  rw [← meaning] at hlines
  rw [← hlines, text, String.toList_intercalate]
  simp

/-! ### Documents -/

/-- The statements are those of the document, in order. -/
theorem mapM_ofLine? (d : Document) :
    (d.nodes.map nodeMeaning ++ d.links.map linkMeaning).mapM Statement.ofLine?
      = some (d.nodes.map .node ++ d.links.map .link) := by
  have hnode : Statement.ofLine? ∘ nodeMeaning = fun n => pure (.node n) := by
    funext n
    simp [Statement.ofLine?, nodeMeaning]
  have hframe : linkFrame ≠ nodeFrame := by decide
  have hlink : Statement.ofLine? ∘ linkMeaning = fun l => pure (.link l) := by
    funext l
    simp [Statement.ofLine?, linkMeaning, hframe]
  rw [List.mapM_append, List.mapM_map, List.mapM_map, hnode, hlink, List.mapM_pure,
    List.mapM_pure]
  rfl

theorem document?_meaning (d : Document) :
    document? (settings ++ (d.nodes.map nodeMeaning ++ d.links.map linkMeaning ++ [closing]))
      = some d := by
  have hnodes : (d.nodes.map Statement.node ++ d.links.map Statement.link).filterMap
      Statement.node? = d.nodes := by
    simp [List.filterMap_append, List.filterMap_map, Function.comp_def, Statement.node?]
  have hlinks : (d.nodes.map Statement.node ++ d.links.map Statement.link).filterMap
      Statement.link? = d.links := by
    simp [List.filterMap_append, List.filterMap_map, Function.comp_def, Statement.link?]
  have hlast : (settings ++ (d.nodes.map nodeMeaning ++ d.links.map linkMeaning
      ++ [closing])).getLast? = some closing := by
    rw [← List.append_assoc, List.getLast?_concat]
  have hdrop (lines : List Line) : (settings ++ lines).drop 2 = lines := rfl
  rw [document?, if_pos ⟨rfl, hlast⟩, hdrop, List.dropLast_concat, mapM_ofLine?,
    Option.map_some, hnodes, hlinks]

theorem titleAndRest_meaning (title : Option String) (lines : List Line) :
    titleAndRest (titleMeaning title ++ (settings ++ lines)) = (title, settings ++ lines) := by
  cases title with
  | none => rfl
  | some title =>
    rw [titleMeaning, List.cons_append, List.cons_append, List.nil_append, titleAndRest,
      if_pos ⟨rfl, rfl⟩, String.ofList_toList]

/-- The document and the title are read back from the text. -/
theorem read?_text (d : Document) (title : Option String) :
    read? (text d title) = some (d, title) := by
  rw [read?, outside_text, Option.bind_some, meaning, ofLines?, titleAndRest_meaning]
  simp only [if_pos, document?_meaning, Option.map_some]

end Dot

/-- **Graph documents are read back from DOT**, whatever stands in their ids, labels and
titles, so different documents or titles never give the same text; an empty title is none. -/
theorem Document.render_dot_read_back (d : Document) (title : Option String) :
    (∃ text, d.render .dot title = .ok text ∧ Dot.read? text = some (d, shownTitle title)) ∧
      ∀ (e : Document) (other : Option String),
        d.render .dot title = e.render .dot other ↔
          d = e ∧ shownTitle title = shownTitle other := by
  refine ⟨⟨Dot.text d (shownTitle title), rfl, Dot.read?_text _ _⟩, fun e other => ⟨?_, ?_⟩⟩
  · intro h
    have htext : Dot.text d (shownTitle title) = Dot.text e (shownTitle other) :=
      Except.ok.inj h
    have hread := Dot.read?_text d (shownTitle title)
    rw [htext, Dot.read?_text, Option.some.injEq, Prod.mk.injEq] at hread
    exact ⟨hread.1.symm, hread.2.symm⟩
  · rintro ⟨rfl, htitle⟩
    rw [Document.render, Document.render, htitle]

end IncludeTrace.Graph
