/-
What can be told from the labels of a graph in Mermaid.

A quote in a label is written as a code, but a code that stands in a label already is written as
it is.  So the text tells a label only up to this: read with each code as a quote, two labels are
the same exactly if they are written the same.  What has neither a quote nor a code in it can be
told from every other label:

* `Mermaid.code`, `Mermaid.escaped`, `Mermaid.shown` — labels as they are written, and as they
  are shown;
* `shown_escaped`, `escaped_shown`, `escaped_eq_escaped_iff` — what is lost between the two;
* `shown_eq_self_iff`, `forall_shown_eq_iff` — the labels that are shown as they are, and those
  that nothing else is shown as;
* `nodeText_eq_iff`, `Document.render_mermaid_congr` — what is lost in a text;
* `Document.render_mermaid_eq_iff` — the documents that are written the same;
* `Document.render_mermaid_confuses` — labels that cannot be told apart.
-/
import IncludeTrace.Proofs.MermaidLines

namespace IncludeTrace.Graph

namespace Mermaid

/-! ### Labels -/

/-- What stands for a quote. -/
def code : List Char := "#quot;".toList

/-- A label as it is written. -/
def escaped (s : List Char) : List Char :=
  s.flatMap escapeChar

/-- A label as it is shown: each code is a quote. -/
def shown : List Char → List Char
  | '#' :: 'q' :: 'u' :: 'o' :: 't' :: ';' :: s => '"' :: shown s
  | c :: s => c :: shown s
  | [] => []

variable {s t : List Char} {c : Char}

theorem shown_code_append (s : List Char) : shown (code ++ s) = '"' :: shown s := by
  show shown ('#' :: 'q' :: 'u' :: 'o' :: 't' :: ';' :: s) = _
  rw [shown]

theorem shown_cons (h : ¬ code <+: c :: s) : shown (c :: s) = c :: shown s := by
  rw [shown]
  rintro t rfl rfl
  exact h ⟨t, rfl⟩

/-- A label is empty, or it starts with a code, or with a character that starts none. -/
theorem code_induction {motive : List Char → Prop} (s : List Char) (nil : motive [])
    (code : ∀ s, motive s → motive (code ++ s))
    (cons : ∀ c s, ¬ Mermaid.code <+: c :: s → motive s → motive (c :: s)) : motive s := by
  induction s using shown.induct with
  | case1 s ih => exact code s ih
  | case2 c s hnone ih =>
    refine cons c s ?_ ih
    rintro ⟨t, ht⟩
    cases ht
    exact hnone t rfl rfl
  | case3 => exact nil

theorem escaped_code_append (s : List Char) : escaped (code ++ s) = code ++ escaped s := by
  rw [escaped, List.flatMap_append]
  rfl

theorem escaped_quote_cons (s : List Char) : escaped ('"' :: s) = code ++ escaped s := rfl

theorem escaped_cons (h : c ≠ '"') (s : List Char) : escaped (c :: s) = c :: escaped s := by
  rw [escaped, List.flatMap_cons, escapeChar, if_neg h]
  rfl

theorem quote_not_mem_escaped (s : List Char) : '"' ∉ escaped s := by
  rw [escaped, List.mem_flatMap]
  rintro ⟨c, -, hmem⟩
  rw [escapeChar] at hmem
  split at hmem
  · exact absurd hmem (by decide)
  · next hc => exact hc (List.mem_singleton.1 hmem).symm

/-- What an escaped label starts with, unless it is the start of a code, the label starts with. -/
theorem prefix_of_prefix_escaped (ht : '#' ∉ t) (h : t <+: escaped s) : t <+: s := by
  -- Without a number sign the prefix ends before the first quote that is escaped.
  induction t generalizing s with
  | nil => exact List.nil_prefix
  | cons d t ih =>
    obtain ⟨hd, ht⟩ := not_or.1 (mt List.mem_cons.2 ht)
    cases s with
    | nil => exact absurd (List.prefix_nil.1 h) (List.cons_ne_nil d t)
    | cons c s =>
      by_cases hc : c = '"'
      · rw [hc, escaped_quote_cons] at h
        exact absurd (List.cons_prefix_cons.1 h).1.symm hd
      · rw [escaped_cons hc] at h
        obtain ⟨rfl, hrest⟩ := List.cons_prefix_cons.1 h
        exact List.cons_prefix_cons.2 ⟨rfl, ih ht hrest⟩

/-- A label is shown as the codes in it say, whether or not it was escaped. -/
theorem shown_escaped (s : List Char) : shown (escaped s) = shown s := by
  induction s using code_induction with
  | nil => rfl
  | code s ih => rw [escaped_code_append, shown_code_append, shown_code_append, ih]
  | cons c s hnone ih =>
    rw [shown_cons hnone]
    by_cases hc : c = '"'
    · rw [hc, escaped_quote_cons, shown_code_append, ih]
    · -- The character does not become the start of a code.
      have hstill : ¬ code <+: c :: escaped s := by
        intro h
        obtain ⟨hfirst, hrest⟩ := List.cons_prefix_cons.1 h
        have hinner : "quot;".toList <+: s := prefix_of_prefix_escaped (by decide) hrest
        exact hnone (List.cons_prefix_cons.2 ⟨hfirst, hinner⟩)
      rw [escaped_cons hc, shown_cons hstill, ih]

/-- A code is written as the quote that it shows. -/
theorem escaped_shown (s : List Char) : escaped (shown s) = escaped s := by
  induction s using code_induction with
  | nil => rfl
  | code s ih => rw [shown_code_append, escaped_quote_cons, escaped_code_append, ih]
  | cons c s hnone ih =>
    rw [shown_cons hnone]
    by_cases hc : c = '"'
    · rw [hc, escaped_quote_cons, escaped_quote_cons, ih]
    · rw [escaped_cons hc, escaped_cons hc, ih]

/-- Labels are written the same exactly if they are shown the same. -/
theorem escaped_eq_escaped_iff : escaped s = escaped t ↔ shown s = shown t := by
  constructor
  · intro h
    rw [← shown_escaped s, h, shown_escaped]
  · intro h
    rw [← escaped_shown s, h, escaped_shown]

/-- A label is shown as it is exactly if there is no code in it. -/
theorem shown_eq_self_iff (s : List Char) : shown s = s ↔ ¬ code <:+: s := by
  induction s using code_induction with
  | nil => exact iff_of_true rfl (by decide)
  | code s ih =>
    rw [shown_code_append]
    refine iff_of_false (fun h => ?_) fun h => h (List.prefix_append code s).isInfix
    exact absurd (List.cons.inj h).1 (by decide)
  | cons c s hnone ih =>
    rw [shown_cons hnone, List.cons.injEq, and_iff_right rfl, ih, List.infix_cons_iff,
      or_iff_right hnone]

/-- What is shown has a quote exactly if the label has one, or a code. -/
theorem quote_mem_shown_iff (s : List Char) : '"' ∈ shown s ↔ '"' ∈ s ∨ code <:+: s := by
  induction s using code_induction with
  | nil => decide
  | code s ih =>
    rw [shown_code_append]
    exact iff_of_true List.mem_cons_self (.inr (List.prefix_append code s).isInfix)
  | cons c s hnone ih =>
    rw [shown_cons hnone, List.mem_cons, List.mem_cons, ih, List.infix_cons_iff,
      or_iff_right hnone, or_assoc]

/-- A label can be confused with another one exactly if there is a quote or a code in it. -/
theorem forall_shown_eq_iff :
    (∀ t, shown t = shown s → t = s) ↔ '"' ∉ s ∧ ¬ code <:+: s := by
  constructor
  · intro h
    have hplain : ¬ code <:+: s := by
      rw [← shown_eq_self_iff]
      apply h
      rw [← escaped_eq_escaped_iff, escaped_shown]
    refine ⟨?_, hplain⟩
    -- The escaped label is another one that shows alike, unless there was nothing to escape.
    rw [← h (escaped s) (shown_escaped s)]
    exact quote_not_mem_escaped s
  · rintro ⟨hquote, hcode⟩ t ht
    -- Nothing in the other label can be shown as a quote either.
    have hother : ¬ ('"' ∈ t ∨ code <:+: t) := by
      rw [← quote_mem_shown_iff, ht, quote_mem_shown_iff, not_or]
      exact ⟨hquote, hcode⟩
    rw [← (shown_eq_self_iff s).2 hcode, ← ht]
    exact ((shown_eq_self_iff t).2 (not_or.1 hother).2).symm

/-! ### Texts -/

/-- A link finds one number for each of its ends. -/
theorem rightUnique_finds (nodes : List Node) : Relator.RightUnique (Finds nodes) := by
  rintro l ⟨source, target⟩ ⟨source', target'⟩ ⟨hsource, htarget⟩ ⟨hsource', htarget'⟩
  rw [hsource, Option.some.injEq] at hsource'
  rw [htarget, Option.some.injEq] at htarget'
  exact Prod.ext hsource' htarget'

/-- The lines of nodes of which the first has number `start`, each after a line break. -/
def nodeText (start : Nat) (nodes : List Node) : List Char :=
  ((nodeLines start nodes).map String.toList).flatMap ('\n' :: ·)

theorem intercalate_newline_cons (line : List Char) (rest : List (List Char)) :
    ['\n'].intercalate (line :: rest) = line ++ rest.flatMap ('\n' :: ·) := by
  induction rest generalizing line with
  | nil => rw [List.intercalate_singleton, List.flatMap_nil, List.append_nil]
  | cons next rest ih =>
    rw [List.intercalate_cons_of_ne_nil (List.cons_ne_nil next rest), ih, List.flatMap_cons,
      List.append_assoc]
    rfl

/-- What is written around the nodes does not depend on them. -/
theorem exists_toList_lines (title : Option String) (ends : List (Nat × Nat)) :
    ∃ front back, ∀ d, ("\n".intercalate (lines d title ends)).toList
      = front ++ nodeText 0 d.nodes ++ back := by
  obtain ⟨first, rest, hheader⟩ : ∃ first rest, header title = first :: rest := by
    cases title with
    | none => exact ⟨_, _, rfl⟩
    | some t => exact ⟨_, _, rfl⟩
  -- The header and the arrows depend on the title and the ends alone, not on the labels.
  refine ⟨first.toList ++ (rest.map String.toList).flatMap ('\n' :: ·),
    ((ends.map arrow).map String.toList).flatMap ('\n' :: ·), fun d => ?_⟩
  rw [String.toList_intercalate, lines, hheader, ← nodeLines_eq, List.map_append,
    List.map_append, List.map_cons, List.cons_append, List.cons_append]
  show ['\n'].intercalate _ = _
  rw [intercalate_newline_cons, List.flatMap_append, List.flatMap_append, ← List.append_assoc,
    ← List.append_assoc, nodeText]

theorem nodeText_cons (start : Nat) (n : Node) (nodes : List Node) :
    nodeText start (n :: nodes)
      = ('\n' :: ("    " ++ nodeName start ++ "[\"").toList)
        ++ (escaped n.label.toList ++ '"' :: ']' :: nodeText (start + 1) nodes) := by
  simp [nodeText, nodeLines, label, escaped]

theorem append_quote_inj {u v : List Char} (hs : '"' ∉ s) (ht : '"' ∉ t)
    (h : s ++ '"' :: u = t ++ '"' :: v) : s = t ∧ u = v := by
  induction s generalizing t with
  | nil =>
    cases t with
    | nil => exact ⟨rfl, (List.cons.inj h).2⟩
    | cons d t => exact absurd (List.mem_cons.2 (.inl (List.cons.inj h).1)) ht
  | cons c s ih =>
    cases t with
    | nil => exact absurd (List.mem_cons.2 (.inl (List.cons.inj h).1.symm)) hs
    | cons d t =>
      obtain ⟨rfl, hrest⟩ := List.cons.inj h
      obtain ⟨rfl, hend⟩ :=
        ih (List.not_mem_of_not_mem_cons hs) (List.not_mem_of_not_mem_cons ht) hrest
      exact ⟨rfl, hend⟩

/-- The lines of as many nodes are the same exactly if their labels are shown the same. -/
theorem nodeText_eq_iff {nodes others : List Node} (h : nodes.length = others.length)
    (start : Nat) :
    nodeText start nodes = nodeText start others ↔
      nodes.map (fun n => shown n.label.toList) = others.map fun n => shown n.label.toList := by
  induction nodes generalizing others start with
  | nil =>
    rw [List.eq_nil_of_length_eq_zero h.symm]
    exact iff_of_true rfl rfl
  | cons n nodes ih =>
    cases others with
    | nil => cases h
    | cons m others =>
      rw [nodeText_cons, nodeText_cons, List.append_right_inj, List.map_cons, List.map_cons,
        List.cons.injEq, ← ih (Nat.succ.inj h) (start + 1), ← escaped_eq_escaped_iff]
      constructor
      · intro heq
        obtain ⟨hlabel, hrest⟩ :=
          append_quote_inj (quote_not_mem_escaped _) (quote_not_mem_escaped _) heq
        exact ⟨hlabel, (List.cons.inj hrest).2⟩
      · rintro ⟨hlabel, hrest⟩
        rw [hlabel, hrest]

end Mermaid

namespace Document

/-- The labels of the nodes, as they are shown. -/
def shownLabels (d : Document) : List (List Char) :=
  d.nodes.map fun n => Mermaid.shown n.label.toList

/-- The links of a document find the same numbers in every document with its ids. -/
theorem finds_congr {d e : Document} (h : e.ids = d.ids) :
    Mermaid.Finds e.nodes = Mermaid.Finds d.nodes := by
  funext l ends
  rw [Mermaid.Finds, Mermaid.Finds, Mermaid.number?_congr h, Mermaid.number?_congr h]

/-- Documents with the same ids and links are written the same exactly if their labels are shown
the same. -/
theorem render_mermaid_congr {d e : Document} {title : Option String} {text : String}
    (hids : e.ids = d.ids) (hlinks : e.links = d.links)
    (h : d.render .mermaid title = .ok text) :
    e.render .mermaid title = .ok text ↔ e.shownLabels = d.shownLabels := by
  obtain ⟨ends, hends, rfl⟩ := Mermaid.render_eq_ok_iff.1 h
  have hlength : e.nodes.length = d.nodes.length := by
    simpa [ids] using congrArg List.length hids
  obtain ⟨front, back, hlines⟩ := Mermaid.exists_toList_lines (shownTitle title) ends
  rw [Mermaid.render_eq_ok_iff, finds_congr hids, hlinks, shownLabels, shownLabels,
    ← Mermaid.nodeText_eq_iff hlength 0]
  constructor
  · rintro ⟨found, hfound, htext⟩
    have hsame : ends = found :=
      List.right_unique_forall₂' (Mermaid.rightUnique_finds d.nodes) hends hfound
    rw [← String.toList_inj, ← hsame, hlines, hlines] at htext
    exact (List.append_cancel_left (List.append_cancel_right htext)).symm
  · intro hnodes
    refine ⟨ends, hends, ?_⟩
    rw [← String.toList_inj, hlines, hlines, hnodes]

/-- Nodes are those of their ids where no label is shown as another one is. -/
theorem nodes_eq_of_shown {nodes others : List Node}
    (hids : others.map Node.id = nodes.map Node.id)
    (hshown : others.map (fun n => Mermaid.shown n.label.toList)
      = nodes.map fun n => Mermaid.shown n.label.toList)
    (hlabels : ∀ n ∈ nodes, ∀ m ∈ others,
      Mermaid.shown m.label.toList = Mermaid.shown n.label.toList →
        m.label.toList = n.label.toList) : others = nodes := by
  induction nodes generalizing others with
  | nil => exact List.map_eq_nil_iff.1 hids
  | cons n nodes ih =>
    cases others with
    | nil => cases hids
    | cons m others =>
      obtain ⟨hid, hids⟩ := List.cons.inj hids
      obtain ⟨hlabel, hshown⟩ := List.cons.inj hshown
      have hfirst : m = n := by
        have hsame := hlabels n List.mem_cons_self m List.mem_cons_self hlabel
        obtain ⟨mid, mlabel⟩ := m
        obtain ⟨nid, nlabel⟩ := n
        rw [Node.mk.injEq]
        exact ⟨hid, String.toList_inj.1 hsame⟩
      rw [hfirst, ih hids hshown fun n hn m hm =>
        hlabels n (List.mem_cons_of_mem _ hn) m (List.mem_cons_of_mem _ hm)]

theorem eq_of_shownLabels {d e : Document} (hids : e.ids = d.ids) (hlinks : e.links = d.links)
    (hshown : e.shownLabels = d.shownLabels)
    (hlabels : ∀ n ∈ d.nodes, ∀ m ∈ e.nodes,
      Mermaid.shown m.label.toList = Mermaid.shown n.label.toList →
        m.label.toList = n.label.toList) : e = d := by
  have hnodes := nodes_eq_of_shown hids hshown hlabels
  obtain ⟨dnodes, dlinks⟩ := d
  obtain ⟨enodes, elinks⟩ := e
  rw [Document.mk.injEq]
  exact ⟨hnodes, hlinks⟩

/-- A label that is shown as another one is can be put in its place. -/
theorem exists_shownLabels_eq {d : Document} {n : Node} (hn : n ∈ d.nodes) {s : List Char}
    (hs : Mermaid.shown s = Mermaid.shown n.label.toList) :
    ∃ e, e.ids = d.ids ∧ e.links = d.links ∧ e.shownLabels = d.shownLabels ∧
      (e = d → s = n.label.toList) := by
  obtain ⟨before, after, hnodes⟩ := List.append_of_mem hn
  refine ⟨⟨before ++ ⟨n.id, String.ofList s⟩ :: after, d.links⟩, ?_, rfl, ?_, fun h => ?_⟩
  · simp [ids, hnodes]
  · simp [shownLabels, hnodes, hs]
  · have hsame := (congrArg nodes h).trans hnodes
    rw [List.append_right_inj, List.cons.injEq] at hsame
    rw [← hsame.1, String.toList_ofList]

/-- **In Mermaid, labels are told apart as far as they are shown.**  Of documents with the same ids
and links exactly those are written the same whose labels are the same once each code in them is
read as a quote.  So the text of a document tells its labels from all that hold no code, if they
hold none, but from all labels only if they hold no quote either. -/
theorem render_mermaid_eq_iff {d : Document} {title : Option String} {text : String}
    (h : d.render .mermaid title = .ok text) :
    (∀ e : Document, e.ids = d.ids → e.links = d.links →
      (e.render .mermaid title = .ok text ↔ e.shownLabels = d.shownLabels) ∧
      ((∀ n ∈ d.nodes ++ e.nodes, ¬ Mermaid.code <:+: n.label.toList) →
        e.render .mermaid title = .ok text → e = d)) ∧
    ((∀ e : Document, e.ids = d.ids → e.links = d.links →
        e.render .mermaid title = .ok text → e = d) ↔
      ∀ n ∈ d.nodes, '"' ∉ n.label.toList ∧ ¬ Mermaid.code <:+: n.label.toList) := by
  refine ⟨fun e hids hlinks => ⟨render_mermaid_congr hids hlinks h, fun hplain he => ?_⟩,
    fun hall n hn => ?_, fun hplain e hids hlinks he => ?_⟩
  · have hshown := (render_mermaid_congr hids hlinks h).1 he
    refine eq_of_shownLabels hids hlinks hshown fun n hn m hm hsame => ?_
    rwa [(Mermaid.shown_eq_self_iff _).2 (hplain m (List.mem_append_right _ hm)),
      (Mermaid.shown_eq_self_iff _).2 (hplain n (List.mem_append_left _ hn))] at hsame
  · refine Mermaid.forall_shown_eq_iff.1 fun s hs => ?_
    obtain ⟨e, hids, hlinks, hshown, hsame⟩ := exists_shownLabels_eq hn hs
    exact hsame (hall e hids hlinks ((render_mermaid_congr hids hlinks h).2 hshown))
  · have hshown := (render_mermaid_congr hids hlinks h).1 he
    exact eq_of_shownLabels hids hlinks hshown fun n hn m _ =>
      Mermaid.forall_shown_eq_iff.2 (hplain n hn) m.label.toList

/-- A quote is told from all labels without codes, but not from the code. -/
theorem render_mermaid_eq_iff_quote :
    let d : Document := ⟨[⟨"a", "\"a\".h"⟩, ⟨"b", "b.h"⟩], [⟨"a", "b"⟩]⟩
    let text := "graph LR\n    n0[\"#quot;a#quot;.h\"]\n    n1[\"b.h\"]\n    n0 --> n1"
    d.render .mermaid none = .ok text ∧
      ∃ e : Document, e.ids = d.ids ∧ e.links = d.links ∧ e.render .mermaid none = .ok text ∧
        e ≠ d := by
  intro d text
  have hrender : d.render .mermaid none = .ok text := by decide +kernel
  refine ⟨hrender, ?_⟩
  have hquote : ¬ ∀ n ∈ d.nodes, '"' ∉ n.label.toList ∧ ¬ Mermaid.code <:+: n.label.toList :=
    fun hplain => (hplain ⟨"a", "\"a\".h"⟩ List.mem_cons_self).1 (by decide)
  rw [← (render_mermaid_eq_iff hrender).2] at hquote
  push Not at hquote
  exact hquote

/-- Different labels can be written the same: a quote, and the code of one. -/
theorem render_mermaid_confuses :
    ¬ ∀ (d e : Document) (title : Option String) (text : String),
        (∀ n ∈ d.nodes ++ e.nodes, '\n' ∉ n.label.toList) → d.ids = e.ids → d.links = e.links →
        d.render .mermaid title = .ok text → e.render .mermaid title = .ok text →
          d.nodes.map Node.label = e.nodes.map Node.label := by
  intro h
  have hsame := h ⟨[⟨"a", "\""⟩], []⟩ ⟨[⟨"a", "#quot;"⟩], []⟩ none
    "graph LR\n    n0[\"#quot;\"]" (by decide) rfl rfl (by decide +kernel) (by decide +kernel)
  exact absurd hsame (by decide)

end Document

end IncludeTrace.Graph
