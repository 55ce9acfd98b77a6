/-
Graph documents are read back from DGML.

The reader is one of XML and knows nothing of the writer.  An attribute value is escaped so
that it survives reading: markup and quotes would end it or start a reference, and tabs and
line ends would become spaces:

* `replaceAll_escapes` — the replacements escape each character on its own;
* `value?_escaped`, `writes_escaped` — what is escaped is read as it was, and ends nowhere;
* `means_nodeLine`, `means_linkLine` — each line of a node or link is one empty element;
* `tree` — a document as one element with two others in it, for its nodes and links;
* `means_text` — the lines of a document are the tags of this element;
* `render_dgml_read_back` — nodes and links are read back from the text.
-/
import IncludeTrace.Graph.Format
import IncludeTrace.Proofs.XmlReading

namespace IncludeTrace.Graph

open Xml

namespace Dgml

/-! ### Escaped values -/

/-- A character as it stands in an attribute value. -/
def escapeChar (c : Char) : List Char :=
  if c = '&' then "&amp;".toList
  else if c = '<' then "&lt;".toList
  else if c = '>' then "&gt;".toList
  else if c = '"' then "&quot;".toList
  else if c = '\r' then "&#13;".toList
  else if c = '\n' then "&#10;".toList
  else if c = '\t' then "&#09;".toList
  else [c]

theorem replaceAll_singleton (c : Char) : Text.replaceAll escapes [c] = escapeChar c := by
  simp only [escapeChar]
  -- The ampersand goes first: what the later steps put in has one, and none of them replaces it.
  split_ifs with hamp hlt hgt hquot hreturn hfeed htab
  · subst hamp
    rfl
  · subst hlt
    rfl
  · subst hgt
    rfl
  · subst hquot
    rfl
  · subst hreturn
    rfl
  · subst hfeed
    rfl
  · subst htab
    rfl
  · refine Text.replaceAll_of_ne ?_
    simp [escapes, hamp, hlt, hgt, hquot, hreturn, hfeed, htab]

/-- The replacements in an attribute value come to one for each character. -/
theorem replaceAll_escapes (s : List Char) : Text.replaceAll escapes s = s.flatMap escapeChar := by
  rw [Text.replaceAll_eq_flatMap]
  simp only [replaceAll_singleton]

/-- An escaped character is read as it was, whatever it is. -/
theorem value?_escapeChar (c : Char) (s : List Char) :
    value? (escapeChar c ++ s) = (value? s).map (c :: ·) := by
  simp only [escapeChar]
  split_ifs with hamp hlt hgt hquot hreturn hfeed htab
  · subst hamp
    rfl
  · subst hlt
    rfl
  · subst hgt
    rfl
  · subst hquot
    rfl
  · subst hreturn
    rfl
  · subst hfeed
    rfl
  · subst htab
    rfl
  · -- Of the blanks only a space is left, and it stands for itself.
    have hblank : (if isSpace c then ' ' else c) = c := by
      split
      · next hspace =>
        simp only [isSpace, Bool.or_eq_true, beq_iff_eq, htab, hfeed, hreturn, or_false] at hspace
        exact hspace.symm
      · rfl
    rw [List.singleton_append, value?, if_neg hamp, hblank]

theorem value?_escaped (s : List Char) : value? (s.flatMap escapeChar) = some s := by
  induction s with
  | nil => rfl
  | cons c s ih => rw [List.flatMap_cons, value?_escapeChar, ih, Option.map_some]

/-- What looks like a reference is read as it was. -/
example : value? ("&lt;\t\"".toList.flatMap escapeChar) = some "&lt;\t\"".toList := by
  decide +kernel

/-- No escape holds a quote or an angle bracket. -/
theorem bare_escapeChar (c : Char) : ∀ d ∈ escapeChar c, d ≠ '"' ∧ d ≠ '<' := by
  simp only [escapeChar]
  split_ifs with hamp hlt hgt hquot
  · simp
  · simp
  · simp
  · simp
  · simp
  · simp
  · simp
  · intro d hd
    rw [List.mem_singleton] at hd
    rw [hd]
    exact ⟨hquot, hlt⟩

theorem writes_escaped (s : List Char) : Writes (s.flatMap escapeChar) s where
  bare := by
    intro d hd
    obtain ⟨c, -, hd⟩ := List.mem_flatMap.1 hd
    exact bare_escapeChar c d hd
  value := value?_escaped s

/-! ### Tags -/

/-- An element without its closing bracket, as it is written. -/
def startOf (e : Element) : List Char :=
  '<' :: e.name.toList ++ e.attributes.flatMap fun a => (attributeOf a.1 a.2).toList

/-- The names in an element can be read. -/
def Named (e : Element) : Prop :=
  IsName e.name.toList ∧ ∀ a ∈ e.attributes, IsName a.1.toList

/-- Attributes that were written are read with their values, one after another. -/
theorem leads_attributes {attributes : List (String × String)}
    (h : ∀ a ∈ attributes, IsName a.1.toList) {r : Reader} {e : Element} (hr : AtElement r e) :
    ∃ q, Leads r (attributes.flatMap fun a => (attributeOf a.1 a.2).toList) q ∧
      q.tags = r.tags ∧ AtElement q ⟨e.name, e.attributes ++ attributes⟩ := by
  induction attributes generalizing r e with
  | nil =>
    refine ⟨r, rfl, rfl, ?_⟩
    rw [List.append_nil]
    exact hr
  | cons a attributes ih =>
    have hfirst := leads_attribute hr (h a List.mem_cons_self) (writes_escaped a.2.toList)
    rw [String.ofList_toList, String.ofList_toList] at hfirst
    have htext : (attributeOf a.1 a.2).toList
        = ' ' :: a.1.toList ++ ['=', '"'] ++ a.2.toList.flatMap escapeChar ++ ['"'] := by
      simp [attributeOf, replaceAll_escapes]
    rw [← htext] at hfirst
    -- The reader is back between two attributes, where the remaining ones start from.
    obtain ⟨q, hrest, htags, hq⟩ := ih (fun b hb => h b (List.mem_cons_of_mem _ hb))
      (atElement_inside r.tags (e.with a.1 a.2))
    refine ⟨q, hfirst.append hrest, htags, ?_⟩
    rwa [Element.with, List.append_assoc] at hq

theorem leads_startOf {e : Element} (h : Named e) (tags : List Tag) :
    ∃ q, Leads ⟨tags, .content⟩ (startOf e) q ∧ q.tags = tags ∧ AtElement q e := by
  have hname := atElement_beginning tags e.name.toList
  rw [String.ofList_toList] at hname
  obtain ⟨q, hleads, htags, hq⟩ := leads_attributes h.2 hname
  exact ⟨q, (leads_beginning h.1 tags).append hleads, htags, hq⟩

/-- The start of an element is one tag. -/
theorem means_start {e : Element} (h : Named e) : Means (startOf e ++ ['>']) [.opening e] := by
  intro before
  obtain ⟨q, hleads, rfl, hq⟩ := leads_startOf h before
  exact hleads.append (.cons (hq '>' (by decide)) rfl)

/-- An element in which nothing stands is one tag. -/
theorem means_empty {e : Element} (h : Named e) :
    Means (startOf e ++ " />".toList) [.empty e] := by
  intro before
  obtain ⟨q, hleads, rfl, hq⟩ := leads_startOf h before
  exact hleads.append (.cons (hq ' ' (by decide)) rfl)

theorem means_indented (n : Nat) {s : List Char} {ts : List Tag} (h : Means s ts) :
    Means (List.replicate n ' ' ++ s) ts := by
  induction n with
  | zero => exact h
  | succ n ih => exact fun before => .cons rfl (ih before)

/-! ### Documents -/

/-- A node as an element. -/
def nodeElement (n : Node) : Element :=
  ⟨"Node", [("Id", n.id), ("Label", n.label)]⟩

/-- A link as an element. -/
def linkElement (l : Link) : Element :=
  ⟨"Link", [("Source", l.source), ("Target", l.target)]⟩

/-- Elements side by side in which nothing stands. -/
def leaves (es : List Element) : Forest Element :=
  .ofTrees (es.map (⟨·, .nil⟩))

/-- A document as one element. -/
def tree (d : Document) : Tree Element :=
  ⟨⟨"DirectedGraph", [("xmlns", dialect)]⟩,
    .cons ⟨"Nodes", []⟩ (leaves (d.nodes.map nodeElement))
      (.cons ⟨"Links", []⟩ (leaves (d.links.map linkElement)) .nil)⟩

/-- The node that an element is. -/
def node? (t : Tree Element) : Option Node :=
  if t.root.name = "Node" then
    (t.root.attributes.lookup "Id").bind fun id =>
      (t.root.attributes.lookup "Label").map fun label => ⟨id, label⟩
  else none

/-- The link that an element is. -/
def link? (t : Tree Element) : Option Link :=
  if t.root.name = "Link" then
    (t.root.attributes.lookup "Source").bind fun source =>
      (t.root.attributes.lookup "Target").map fun target => ⟨source, target⟩
  else none

/-- The document that an element of the dialect is. -/
def document? (t : Tree Element) : Option Document :=
  match t.root, t.below with
  | ⟨"DirectedGraph", attributes⟩, .cons ⟨"Nodes", _⟩ nodes (.cons ⟨"Links", _⟩ links .nil) =>
    if attributes.lookup "xmlns" = some dialect then
      (nodes.trees.mapM node?).bind fun ns =>
        (links.trees.mapM link?).map fun ls => ⟨ns, ls⟩
    else none
  | _, _ => none

theorem mapM_leaves {α : Type} {element : α → Element} {read : Tree Element → Option α}
    (h : ∀ a, read ⟨element a, .nil⟩ = some a) (l : List α) :
    (leaves (l.map element)).trees.mapM read = some l := by
  have hread : (read ∘ (⟨·, .nil⟩) ∘ element) = pure := funext h
  rw [leaves, Forest.trees_ofTrees, List.map_map, List.mapM_map, hread, List.mapM_pure]
  exact congrArg some (List.map_id l)

/-- The document is read off its element. -/
theorem document?_tree (d : Document) : document? (tree d) = some d := by
  have hnodes : (leaves (d.nodes.map nodeElement)).trees.mapM node? = some d.nodes :=
    mapM_leaves (fun _ => rfl) d.nodes
  have hlinks : (leaves (d.links.map linkElement)).trees.mapM link? = some d.links :=
    mapM_leaves (fun _ => rfl) d.links
  have hdialect : [("xmlns", dialect)].lookup "xmlns" = some dialect := by simp
  simp only [document?, tree, hdialect, if_pos, hnodes, hlinks, Option.bind_some, Option.map_some]

/-! ### Lines -/

/-- A line with two attributes is one element in which nothing stands. -/
theorem means_leafLine {start name a b : String}
    (hstart : start.toList = List.replicate 4 ' ' ++ '<' :: name.toList)
    (hname : IsName name.toList) (ha : IsName a.toList) (hb : IsName b.toList) (x y : String) :
    Means (start ++ attributeOf a x ++ attributeOf b y ++ " />").toList
      [.empty ⟨name, [(a, x), (b, y)]⟩] := by
  have hnamed : Named ⟨name, [(a, x), (b, y)]⟩ := by
    refine ⟨hname, fun entry h => ?_⟩
    simp only [List.mem_cons, List.not_mem_nil, or_false] at h
    rcases h with rfl | rfl
    · exact ha
    · exact hb
  have h := means_indented 4 (means_empty hnamed)
  have hline : (start ++ attributeOf a x ++ attributeOf b y ++ " />").toList
      = List.replicate 4 ' ' ++ (startOf ⟨name, [(a, x), (b, y)]⟩ ++ " />".toList) := by
    simp [hstart, startOf]
  rwa [hline]

theorem means_nodeLine (n : Node) : Means (nodeLine n).toList [.empty (nodeElement n)] :=
  means_leafLine rfl (by decide) (by decide) (by decide) n.id n.label

theorem means_linkLine (l : Link) : Means (linkLine l).toList [.empty (linkElement l)] :=
  means_leafLine rfl (by decide) (by decide) (by decide) l.source l.target

theorem tagsOf_leaves (es : List Element) : tagsOf (leaves es) = es.map .empty := by
  induction es with
  | nil => rfl
  | cons e es ih => exact congrArg (Tag.empty e :: ·) ih

theorem means_emptyLine {name : String} (h : IsName name.toList) :
    Means ("  <" ++ name ++ " />").toList [.empty ⟨name, []⟩] := by
  have hnamed : Named ⟨name, []⟩ := ⟨h, fun a ha => absurd ha List.not_mem_nil⟩
  have htext : ("  <" ++ name ++ " />").toList
      = List.replicate 2 ' ' ++ (startOf ⟨name, []⟩ ++ " />".toList) := by
    simp [startOf]
  rw [htext]
  exact means_indented 2 (means_empty hnamed)

theorem means_openingLine {name : String} (h : IsName name.toList) :
    Means ("  <" ++ name ++ ">").toList [.opening ⟨name, []⟩] := by
  have hnamed : Named ⟨name, []⟩ := ⟨h, fun a ha => absurd ha List.not_mem_nil⟩
  have htext : ("  <" ++ name ++ ">").toList
      = List.replicate 2 ' ' ++ (startOf ⟨name, []⟩ ++ ['>']) := by
    simp [startOf]
  rw [htext]
  exact means_indented 2 (means_start hnamed)

theorem means_closingLine {name : String} (h : IsName name.toList) :
    Means ("  </" ++ name ++ ">").toList [.closing name] := by
  have htext : ("  </" ++ name ++ ">").toList
      = List.replicate 2 ' ' ++ ('<' :: '/' :: name.toList ++ ['>']) := by
    simp
  have hclosing := means_closing h
  rw [String.ofList_toList] at hclosing
  rw [htext]
  exact means_indented 2 hclosing

/-- The lines of a group are the tags of one element, whether there is anything in it or not. -/
theorem means_group {α : Type} {name : String} {line : α → String} {element : α → Element}
    (hname : IsName name.toList) (h : ∀ a, Means (line a).toList [.empty (element a)])
    (l : List α) :
    ∃ tss, List.Forall₂ Means ((group name (l.map line)).map String.toList) tss ∧
      tss.flatten = tagsOf (.cons ⟨name, []⟩ (leaves (l.map element)) .nil) := by
  cases l with
  -- A list without entries is written as one empty element, not as an opening and a closing line.
  | nil => exact ⟨[[.empty ⟨name, []⟩]], .cons (means_emptyLine hname) .nil, rfl⟩
  | cons first rest =>
    have hmiddle : List.Forall₂ Means (((first :: rest).map line).map String.toList)
        ((first :: rest).map fun a => [Tag.empty (element a)]) := by
      rw [List.map_map, List.forall₂_map_left_iff, List.forall₂_map_right_iff, List.forall₂_same]
      exact fun a _ => h a
    have hlines : (group name ((first :: rest).map line)).map String.toList
        = ("  <" ++ name ++ ">").toList :: (((first :: rest).map line).map String.toList
          ++ [("  </" ++ name ++ ">").toList]) := by
      simp only [group, List.map_append, List.map_cons, List.map_nil, List.cons_append]
    have htags : tagsOf (.cons ⟨name, []⟩ (leaves ((first :: rest).map element)) .nil)
        = .opening ⟨name, []⟩
          :: (tagsOf (leaves ((first :: rest).map element)) ++ [.closing name]) := rfl
    rw [hlines, htags, tagsOf_leaves]
    refine ⟨_, .cons (means_openingLine hname)
      (List.rel_append hmiddle (.cons (means_closingLine hname) .nil)), ?_⟩
    rw [List.flatten_cons, List.flatten_append, ← List.flatMap_def, ← List.map_eq_flatMap,
      ← Function.comp_def, ← List.map_map]
    rfl

/-- The lines of a document are the tags of its element. -/
theorem means_text (d : Document) :
    Means (text d).toList (tagsOf (.cons (tree d).root (tree d).below .nil)) := by
  have hdeclaration : Means "<?xml version='1.0' encoding='utf-8'?>".toList [] := by
    intro before
    -- The declaration is read over and leaves the reader as it was.
    rw [List.append_nil]
    rfl
  have hname : IsName "DirectedGraph".toList := by decide
  have hroot : Named (tree d).root := by
    refine ⟨hname, fun a ha => ?_⟩
    rw [List.mem_singleton.1 ha]
    decide
  have hopening := means_start hroot
  have hopen : ("<DirectedGraph" ++ attributeOf "xmlns" dialect ++ ">").toList
      = startOf (tree d).root ++ ['>'] := by
    simp [startOf, tree]
  rw [← hopen] at hopening
  have hclosing : Means "</DirectedGraph>".toList [.closing "DirectedGraph"] :=
    means_closing hname
  have hnodesName : IsName "Nodes".toList := by decide
  have hlinksName : IsName "Links".toList := by decide
  obtain ⟨nodes, hnodes, hnodesTags⟩ := means_group hnodesName means_nodeLine d.nodes
  obtain ⟨links, hlinks, hlinksTags⟩ := means_group hlinksName means_linkLine d.links
  have hlines := means_lines (.cons hdeclaration (.cons hopening
    (List.rel_append (List.rel_append hnodes hlinks) (.cons hclosing .nil))))
  have htext : (text d).toList = ['\n'].intercalate
      ("<?xml version='1.0' encoding='utf-8'?>".toList
        :: ("<DirectedGraph" ++ attributeOf "xmlns" dialect ++ ">").toList
        :: ((group "Nodes" (d.nodes.map nodeLine)).map String.toList
          ++ (group "Links" (d.links.map linkLine)).map String.toList
          ++ ["</DirectedGraph>".toList])) := by
    rw [text, String.toList_intercalate]
    simp
  have htags : tagsOf (.cons (tree d).root (tree d).below .nil)
      = .opening (tree d).root :: (tagsOf (tree d).below ++ [.closing "DirectedGraph"]) := rfl
  have hbelow : tagsOf (tree d).below = nodes.flatten ++ links.flatten := by
    rw [hnodesTags, hlinksTags]
    exact tagsOf_cons _ _ _
  rw [htext, htags, hbelow]
  simpa using hlines

end Dgml

/-- **Graph documents are read back from DGML**, whatever stands in their ids and labels: the
text is one element with the nodes and the links in it, in order, so different documents never
give the same text. -/
theorem Document.render_dgml_read_back (d : Document) (title : Option String) :
    (∃ text, d.render .dgml title = .ok text ∧ Xml.read? text = some (Dgml.tree d) ∧
        Dgml.document? (Dgml.tree d) = some d) ∧
      ∀ (e : Document) (other : Option String),
        d.render .dgml title = e.render .dgml other ↔ d = e := by
  have hread (d : Document) : Xml.read? (Dgml.text d) = some (Dgml.tree d) :=
    read?_of_means (Dgml.means_text d)
  refine ⟨⟨Dgml.text d, rfl, hread d, Dgml.document?_tree d⟩, fun e other => ⟨?_, ?_⟩⟩
  · intro h
    have htext : Dgml.text d = Dgml.text e := Except.ok.inj h
    have htree : some (Dgml.tree d) = some (Dgml.tree e) := by
      rw [← hread d, htext, hread e]
    have hdocument := Dgml.document?_tree d
    rw [Option.some.inj htree, Dgml.document?_tree] at hdocument
    exact (Option.some.inj hdocument).symm
  · rintro rfl
    rfl

end IncludeTrace.Graph
