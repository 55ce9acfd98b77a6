/-
The document of a forest of includes is a forest again, with one node per file.

Going through the includes only ever adds a file that is no node yet, as an outermost one
or below a file that is a node already.  Everything else follows from that one step:

* `Includes` — who includes whom in a forest of includes;
* `Grows`, `addForest_grows` — what a document can grow by, and that it grows by nothing else;
* `Grown.step`, `grown_ofForest` — what each growth keeps, and so does the whole traversal;
* `IsForestOver`, `ofForest_isForestOver` — what is known about nodes, links, and the files
  that nobody includes.
-/
import Mathlib.Data.List.Nodup
import Mathlib.Logic.Relation
import IncludeTrace.Graph.Document
import IncludeTrace.Proofs.Preorder

namespace IncludeTrace.Graph

/-- The file in the first place, if there is one, includes the other one directly; the
outermost includes are in no file. -/
inductive Includes (f : Forest Include) : Option String → Include → Prop where
  | outermost {t : Tree Include} : t ∈ f.trees → Includes f none t.root
  | below {t u : Tree Include} :
      t ∈ f.subtrees → u ∈ t.below.trees → Includes f (some t.root.path) u.root

/-- The node of an include. -/
def Node.ofInclude (i : Include) : Node :=
  ⟨i.path, i.name⟩

namespace Document

/-- The files that are nodes, in order. -/
def ids (d : Document) : List String :=
  d.nodes.map Node.id

/-- The files that links lead to, in order. -/
def targets (d : Document) : List String :=
  d.links.map Link.target

/-- The nodes that no link leads to. -/
def roots (d : Document) : List Node :=
  d.nodes.filter fun n => n.id ∉ d.targets

theorem has_iff (d : Document) (id : String) : d.has id = true ↔ id ∈ d.ids := by
  simp only [has, ids, List.any_eq_true, List.mem_map, beq_iff_eq]

@[simp] theorem nodes_add (d : Document) (parent : Option String) (i : Include) :
    (d.add parent i).nodes = d.nodes ++ [Node.ofInclude i] := rfl

@[simp] theorem ids_add (d : Document) (parent : Option String) (i : Include) :
    (d.add parent i).ids = d.ids ++ [i.path] := by
  simp [ids, Node.ofInclude]

@[simp] theorem targets_add (d : Document) (parent : Option String) (i : Include) :
    (d.add parent i).targets = d.targets ++ (parent.map fun _ => i.path).toList := by
  cases parent <;> simp [targets, add]

theorem mem_links_add {d : Document} {parent : Option String} {i : Include} {l : Link} :
    l ∈ (d.add parent i).links ↔ l ∈ d.links ∨ ∃ p, parent = some p ∧ l = ⟨p, i.path⟩ := by
  cases parent <;> simp [add]

/-! ### Growth -/

/-- One more file becomes a node; the file that includes it is one already. -/
inductive Grows (f : Forest Include) (d : Document) : Document → Prop where
  | add {parent : Option String} {i : Include} :
      Includes f parent i → (∀ p, parent = some p → p ∈ d.ids) → i.path ∉ d.ids →
      Grows f d (d.add parent i)

/-- Nodes stay. -/
theorem ids_subset_of_grows {f : Forest Include} {d e : Document}
    (h : Relation.ReflTransGen (Grows f) d e) : d.ids ⊆ e.ids := by
  induction h with
  | refl => exact List.Subset.refl _
  | tail _ hstep ih =>
    obtain ⟨-, -, -⟩ := hstep
    rw [ids_add]
    exact List.Subset.trans ih (List.subset_append_left _ _)

/-- Going through a part of a forest makes the document grow, one file at a time. -/
theorem addForest_grows {f g : Forest Include} {parent : Option String} {d : Document}
    (hsub : ∀ t ∈ g.subtrees, t ∈ f.subtrees)
    (hin : ∀ t ∈ g.trees, Includes f parent t.root)
    (hparent : ∀ p, parent = some p → p ∈ d.ids) :
    Relation.ReflTransGen (Grows f) d (addForest parent g d) := by
  induction g generalizing parent d with
  | nil => exact .refl
  | cons i below beside ihb ihs =>
    have hsubBelow : ∀ t ∈ below.subtrees, t ∈ f.subtrees := fun t ht =>
      hsub t (List.mem_cons_of_mem _ (List.mem_append_left _ ht))
    have hsubBeside : ∀ t ∈ beside.subtrees, t ∈ f.subtrees := fun t ht =>
      hsub t (List.mem_cons_of_mem _ (List.mem_append_right _ ht))
    have hinBeside : ∀ t ∈ beside.trees, Includes f parent t.root := fun t ht =>
      hin t (List.mem_cons_of_mem _ ht)
    rw [addForest]
    split
    · -- A file that is listed already is passed over with all that is below it.
      exact ihs hsubBeside hinBeside hparent
    · next hnew =>
      rw [has_iff] at hnew
      have hadd : Grows f d (d.add parent i) := .add (hin _ List.mem_cons_self) hparent hnew
      -- What stands below is included by the file that was just added.
      have hbelow : Relation.ReflTransGen (Grows f) (d.add parent i)
          (addForest (some i.path) below (d.add parent i)) := by
        refine ihb hsubBelow (fun t ht => .below (hsub ⟨i, below⟩ List.mem_cons_self) ht) ?_
        rintro p ⟨⟩
        simp
      have hsoFar := Relation.ReflTransGen.head hadd hbelow
      exact hsoFar.trans (ihs hsubBeside hinBeside fun p hp =>
        ids_subset_of_grows hsoFar (hparent p hp))

theorem ofForest_grows (f : Forest Include) :
    Relation.ReflTransGen (Grows f) empty (ofForest f) :=
  addForest_grows (fun _ ht => ht) (fun _ ht => .outermost ht) fun _ hp => nomatch hp

/-! ### What growth keeps -/

/-- What is known about a document at each moment of the traversal. -/
structure Grown (f : Forest Include) (d : Document) : Prop where
  ids_nodup : d.ids.Nodup
  /-- The links follow the order of the nodes that they lead to. -/
  targets_sublist : d.targets.Sublist d.ids
  /-- The source of a link comes before its target. -/
  forward : ∀ l ∈ d.links, [l.source, l.target].Sublist d.ids
  /-- A node stands for an include, and is linked from the file that includes it. -/
  node : ∀ n ∈ d.nodes, ∃ parent i, Includes f parent i ∧ n = Node.ofInclude i ∧
    ∀ p, parent = some p → ⟨p, i.path⟩ ∈ d.links
  link : ∀ l ∈ d.links, ∃ i, Includes f (some l.source) i ∧ l.target = i.path

theorem grown_empty (f : Forest Include) : Grown f empty :=
  ⟨List.nodup_nil, List.Sublist.refl _, nofun, nofun, nofun⟩

/-- Every growth keeps what is known. -/
theorem Grown.step {f : Forest Include} {d e : Document} (h : Grown f d) (hstep : Grows f d e) :
    Grown f e := by
  obtain @⟨parent, i, hin, hparent, hnew⟩ := hstep
  refine ⟨?_, ?_, ?_, ?_, ?_⟩
  · rw [ids_add, ← List.concat_eq_append]
    exact h.ids_nodup.concat hnew
  · rw [ids_add, targets_add]
    refine h.targets_sublist.append ?_
    cases parent with
    | none => exact List.nil_sublist _
    | some p => exact List.Sublist.refl _
  · intro l hl
    rw [ids_add]
    rcases mem_links_add.1 hl with hl | ⟨p, hp, rfl⟩
    · exact (h.forward l hl).trans (List.sublist_append_left _ _)
    · -- The new link leads from an old node to the new one.
      exact (List.singleton_sublist.2 (hparent p hp)).append (List.Sublist.refl [i.path])
  · intro n hn
    rw [nodes_add, List.mem_append, List.mem_singleton] at hn
    rcases hn with hn | rfl
    · obtain ⟨q, j, hj, hnj, hlinks⟩ := h.node n hn
      exact ⟨q, j, hj, hnj, fun p hp => mem_links_add.2 (.inl (hlinks p hp))⟩
    · exact ⟨parent, i, hin, rfl, fun p hp => mem_links_add.2 (.inr ⟨p, hp, rfl⟩)⟩
  · intro l hl
    rcases mem_links_add.1 hl with hl | ⟨p, rfl, rfl⟩
    · exact h.link l hl
    · exact ⟨i, hin, rfl⟩

theorem grown_ofForest (f : Forest Include) : Grown f (ofForest f) := by
  have h : ∀ d, Relation.ReflTransGen (Grows f) empty d → Grown f d := by
    intro d hd
    induction hd with
    | refl => exact grown_empty f
    | tail _ hstep ih => exact ih.step hstep
  exact h _ (ofForest_grows f)

/-! ### Forests -/

/-- Where no item is repeated, the order of two of them is the order of their positions. -/
theorem idxOf_lt_idxOf {ids : List String} {a b : String} (hids : ids.Nodup)
    (h : [a, b].Sublist ids) : ids.idxOf a < ids.idxOf b := by
  induction ids with
  | nil => exact absurd h (by simp)
  | cons c ids ih =>
    rw [List.nodup_cons] at hids
    cases h with
    | cons _ h =>
      have hca : c ≠ a := fun hc => hids.1 (hc ▸ h.subset List.mem_cons_self)
      have hcb : c ≠ b := fun hc => hids.1 (hc ▸ h.subset (by simp))
      rw [List.idxOf_cons_ne _ hca, List.idxOf_cons_ne _ hcb]
      exact Nat.succ_lt_succ (ih hids.2 h)
    | cons_cons _ h =>
      have hab : a ≠ b := fun hab => hids.1 (hab ▸ List.singleton_sublist.1 h)
      rw [List.idxOf_cons_self, List.idxOf_cons_ne _ hab]
      exact Nat.succ_pos _

/-- Every node that no link leads to is a root, and each other node has its one link. -/
theorem length_links_add_length_roots {d : Document} (hids : d.ids.Nodup)
    (htargets : d.targets.Sublist d.ids) :
    d.links.length + d.roots.length = d.nodes.length := by
  have hlinked : (d.ids.filter (· ∈ d.targets)).Perm d.targets := by
    rw [List.perm_ext_iff_of_nodup (hids.filter _) (hids.sublist htargets)]
    intro id
    simpa using fun hid => htargets.subset hid
  have hlinks : (d.nodes.filter fun n => n.id ∈ d.targets).length = d.links.length := by
    rw [← List.length_map (f := Link.target), ← targets, ← hlinked.length_eq, ids,
      List.filter_map, List.length_map]
    rfl
  rw [← hlinks, roots, List.length_eq_length_filter_add (l := d.nodes) fun n => n.id ∈ d.targets]
  simp

/-- What makes a document a forest over the files of a forest of includes. -/
structure IsForestOver (d : Document) (f : Forest Include) : Prop where
  /-- No file is a node twice. -/
  ids_nodup : d.ids.Nodup
  source_mem : ∀ l ∈ d.links, l.source ∈ d.ids
  target_mem : ∀ l ∈ d.links, l.target ∈ d.ids
  /-- At most one link leads to a node. -/
  targets_nodup : d.targets.Nodup
  /-- The source of a link comes strictly before its target. -/
  forward : ∀ l ∈ d.links, d.ids.idxOf l.source < d.ids.idxOf l.target
  /-- The links are listed in the order of the nodes that they lead to. -/
  ordered : d.targets.Sublist d.ids
  /-- No way along the links comes back to where it started. -/
  acyclic : ∀ id, ¬ Relation.TransGen (fun a b => ⟨a, b⟩ ∈ d.links) id id
  count : d.links.length + d.roots.length = d.nodes.length
  /-- What no link leads to is an outermost include. -/
  root : ∀ n ∈ d.roots, ∃ t ∈ f.trees, n = ⟨t.root.path, t.root.name⟩
  node : ∀ n ∈ d.nodes, ∃ t ∈ f.subtrees, n = ⟨t.root.path, t.root.name⟩
  link : ∀ l ∈ d.links, ∃ t ∈ f.subtrees, ∃ u ∈ t.below.trees,
    l = ⟨t.root.path, u.root.path⟩

/-- **The document of a forest of includes is a forest over its files**, whatever files
recur in it, and wherever they do. -/
theorem ofForest_isForestOver (f : Forest Include) : (ofForest f).IsForestOver f := by
  have h := grown_ofForest f
  have hforward : ∀ l ∈ (ofForest f).links,
      (ofForest f).ids.idxOf l.source < (ofForest f).ids.idxOf l.target := fun l hl =>
    idxOf_lt_idxOf h.ids_nodup (h.forward l hl)
  refine
    { ids_nodup := h.ids_nodup
      source_mem := fun l hl => (h.forward l hl).subset (by simp)
      target_mem := fun l hl => (h.forward l hl).subset (by simp)
      targets_nodup := h.ids_nodup.sublist h.targets_sublist
      forward := hforward
      ordered := h.targets_sublist
      acyclic := ?_
      count := length_links_add_length_roots h.ids_nodup h.targets_sublist
      root := ?_
      node := ?_
      link := ?_ }
  · -- Along the links the position in the list of nodes grows.
    have hgrows : ∀ a b, Relation.TransGen (fun a b => ⟨a, b⟩ ∈ (ofForest f).links) a b →
        (ofForest f).ids.idxOf a < (ofForest f).ids.idxOf b := by
      intro a b hab
      induction hab with
      | single hl => exact hforward _ hl
      | tail _ hl ih => exact Nat.lt_trans ih (hforward _ hl)
    exact fun id hid => Nat.lt_irrefl _ (hgrows id id hid)
  · intro n hn
    rw [roots, List.mem_filter, decide_eq_true_eq] at hn
    obtain ⟨parent, i, hin, rfl, hlinks⟩ := h.node n hn.1
    cases hin with
    | outermost ht => exact ⟨_, ht, rfl⟩
    | below ht hu => exact absurd (List.mem_map_of_mem (hlinks _ rfl)) hn.2
  · intro n hn
    obtain ⟨parent, i, hin, rfl, -⟩ := h.node n hn
    cases hin with
    | outermost ht => exact ⟨_, Forest.mem_subtrees_of_mem_trees ht, rfl⟩
    | below ht hu =>
      exact ⟨_, Forest.mem_subtrees_of_below ht (Forest.mem_subtrees_of_mem_trees hu), rfl⟩
  · intro l hl
    obtain ⟨i, hin, htarget⟩ := h.link l hl
    generalize hsource : some l.source = source at hin
    cases hin with
    | outermost ht => exact absurd hsource (by simp)
    | below ht hu =>
      refine ⟨_, ht, _, hu, ?_⟩
      rw [← htarget, ← Option.some.inj hsource]

/-- A file that recurs below itself and beside itself is one node, with one link to it. -/
example :
    ofForest (.cons ⟨"/a.h", "a.h"⟩ (.cons ⟨"/b.h", "b.h"⟩ (.cons ⟨"/a.h", "a.h"⟩ .nil .nil) .nil)
        (.cons ⟨"/b.h", "b.h"⟩ (.cons ⟨"/c.h", "c.h"⟩ .nil .nil) .nil))
      = ⟨[⟨"/a.h", "a.h"⟩, ⟨"/b.h", "b.h"⟩], [⟨"/a.h", "/b.h"⟩]⟩ := by decide

end Document

end IncludeTrace.Graph
