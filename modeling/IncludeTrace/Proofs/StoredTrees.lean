/-
Trees that are built in place.

The nodes are kept in a store, where each is known by a number that it never changes, and a node
refers to its children by their numbers.  So a node can be reached from its parent and from anywhere
else at the same time, and a child that is hung below it is seen from everywhere.  Whether the nodes
of a store make up a tree has to be proved; `Spells` says which forest some of them stand for.

* `StoredNode`, `childrenIn`, `hang` — nodes in a store, and a new last child of one of them;
* `Spells` — the forest that stands at some numbers;
* `spells_unique`, `spells_congr` — there is one at most, and it depends on its own nodes only;
* `spells_concat`, `spells_hang` — a child that is hung below a node on the right edge is grafted
  onto the forest;
* `isChain_rightEdge` — on the right edge each node is the last child of the one above it.
-/
import Mathlib.Data.List.Chain
import Mathlib.Data.List.Nodup
import IncludeTrace.Proofs.GraftedForests

namespace IncludeTrace

/-- A node in a store: what it stands for, and the numbers of its children. -/
structure StoredNode (α : Type) where
  value : α
  children : List Nat
  deriving DecidableEq, Repr

namespace StoredNode

variable {α : Type}

/-- The children of the node with a number; a number that no node has comes without any. -/
def childrenIn (nodes : List (StoredNode α)) (i : Nat) : List Nat :=
  (nodes[i]?.map children).getD []

/-- The node with one more child, the last one. -/
def withChild (i : Nat) (n : StoredNode α) : StoredNode α :=
  { n with children := n.children ++ [i] }

/-- The store with a new node, which becomes the last child of `parent`. -/
def hang (nodes : List (StoredNode α)) (parent : Nat) (a : α) : List (StoredNode α) :=
  nodes.modify parent (withChild nodes.length) ++ [⟨a, []⟩]

/-- The nodes with these numbers are the roots of a forest.  Its values are the numbers of the nodes
together with what the nodes stand for. -/
inductive Spells (nodes : List (StoredNode α)) : List Nat → Forest (Nat × α) → Prop where
  | nil : Spells nodes [] .nil
  | cons {i : Nat} {a : α} {children ids : List Nat} {below beside : Forest (Nat × α)}
      (stored : nodes[i]? = some ⟨a, children⟩) (under : Spells nodes children below)
      (others : Spells nodes ids beside) : Spells nodes (i :: ids) (.cons (i, a) below beside)

/-- The numbers of the nodes of a forest, in preorder. -/
def numbers (f : Forest (Nat × α)) : List Nat :=
  f.values.map Prod.fst

variable {nodes : List (StoredNode α)} {ids : List Nat} {f : Forest (Nat × α)}

/-! ### New nodes -/

theorem length_hang (nodes : List (StoredNode α)) (parent : Nat) (a : α) :
    (hang nodes parent a).length = nodes.length + 1 := by
  rw [hang, List.length_append, List.length_modify, List.length_singleton]

theorem getElem?_hang_new (nodes : List (StoredNode α)) (parent : Nat) (a : α) :
    (hang nodes parent a)[nodes.length]? = some ⟨a, []⟩ := by
  have hlength : (nodes.modify parent (withChild nodes.length)).length = nodes.length :=
    List.length_modify _ _ _
  rw [hang, List.getElem?_append_right (Nat.le_of_eq hlength), hlength, Nat.sub_self]
  rfl

/-- The parent of the new node has one more child. -/
theorem getElem?_hang_parent {parent : Nat} {n : StoredNode α} (h : nodes[parent]? = some n)
    (a : α) : (hang nodes parent a)[parent]? = some (n.withChild nodes.length) := by
  obtain ⟨hlt, -⟩ := List.getElem?_eq_some_iff.1 h
  rw [hang, List.getElem?_append_left (by rwa [List.length_modify]), List.getElem?_modify_eq, h]
  rfl

/-- Every other node is as it was. -/
theorem getElem?_hang_other {parent i : Nat} (hne : i ≠ parent) (hlt : i < nodes.length) (a : α) :
    (hang nodes parent a)[i]? = nodes[i]? := by
  rw [hang, List.getElem?_append_left (by rwa [List.length_modify]),
    List.getElem?_modify_ne _ _ (Ne.symm hne)]

theorem childrenIn_hang_parent {parent : Nat} (h : parent < nodes.length) (a : α) :
    childrenIn (hang nodes parent a) parent = childrenIn nodes parent ++ [nodes.length] := by
  have hstored := List.getElem?_eq_getElem h
  rw [childrenIn, childrenIn, getElem?_hang_parent hstored, hstored]
  rfl

/-- The new node has no children, and those of every other node are as they were. -/
theorem childrenIn_hang_other {parent i : Nat} (hne : i ≠ parent) (a : α) :
    childrenIn (hang nodes parent a) i = childrenIn nodes i := by
  rcases Nat.lt_trichotomy i nodes.length with hlt | rfl | hgt
  · rw [childrenIn, childrenIn, getElem?_hang_other hne hlt]
  · rw [childrenIn, childrenIn, getElem?_hang_new, List.getElem?_eq_none (Nat.le_refl _)]
    rfl
  · have hnew : (hang nodes parent a).length ≤ i := (length_hang nodes parent a).le.trans hgt
    rw [childrenIn, childrenIn, List.getElem?_eq_none hnew, List.getElem?_eq_none hgt.le]

theorem childrenIn_of_getElem? {i : Nat} {n : StoredNode α} (h : nodes[i]? = some n) :
    childrenIn nodes i = n.children := by
  rw [childrenIn, h]
  rfl

/-! ### The forest at some numbers -/

theorem Spells.eq_nil_of_forest (h : Spells nodes ids .nil) : ids = [] := by
  cases h
  rfl

/-- The same numbers stand for one forest only. -/
theorem spells_unique {g : Forest (Nat × α)} (hf : Spells nodes ids f) (hg : Spells nodes ids g) :
    f = g := by
  induction hf generalizing g with
  | nil =>
    cases hg
    rfl
  | cons stored _ _ ihb ihs =>
    cases hg with
    | cons stored' under others =>
      rw [stored, Option.some.injEq, StoredNode.mk.injEq] at stored'
      obtain ⟨rfl, rfl⟩ := stored'
      rw [ihb under, ihs others]

/-- A forest stands as long as its own nodes are unchanged. -/
theorem spells_congr {nodes' : List (StoredNode α)} (h : Spells nodes ids f)
    (hsame : ∀ i ∈ numbers f, nodes'[i]? = nodes[i]?) : Spells nodes' ids f := by
  induction h with
  | nil => exact .nil
  | cons stored _ _ ihb ihs =>
    simp only [numbers, Forest.values, List.map_cons, List.map_append, List.forall_mem_cons,
      List.forall_mem_append] at hsame
    obtain ⟨hroot, hbelow, hbeside⟩ := hsame
    exact .cons (hroot.trans stored) (ihb hbelow) (ihs hbeside)

theorem spells_concat (h : Spells nodes ids f) {n : Nat} {a : α}
    (hnew : nodes[n]? = some ⟨a, []⟩) : Spells nodes (ids ++ [n]) (f.graft (n, a) 0) := by
  induction h with
  | nil => exact .cons hnew .nil .nil
  | cons stored under _ _ ihs =>
    rw [Forest.graft]
    exact .cons stored under ihs

/-- The values of the nodes of a forest are those in the store. -/
theorem Spells.getElem?_of_mem (h : Spells nodes ids f) {p : Nat × α} (hp : p ∈ f.values) :
    nodes[p.1]?.map value = some p.2 := by
  induction h with
  | nil => exact absurd hp List.not_mem_nil
  | cons stored _ _ ihb ihs =>
    rcases List.mem_cons.1 hp with rfl | hp
    · rw [stored]
      rfl
    · exact (List.mem_append.1 hp).elim ihb ihs

/-! ### The right edge -/

theorem mem_numbers_of_mem_rightEdge {i : Nat} (h : i ∈ f.rightEdge.map Prod.fst) :
    i ∈ numbers f :=
  (f.rightEdge_sublist_values.map Prod.fst).subset h

/-- The right edge starts at the last of the roots. -/
theorem Spells.head?_rightEdge (h : Spells nodes ids f) :
    (f.rightEdge.map Prod.fst).head? = ids.getLast? := by
  induction h with
  | nil => rfl
  | @cons i a children ids below beside _ _ others _ ihs =>
    cases beside with
    | nil =>
      rw [others.eq_nil_of_forest]
      rfl
    | cons b under others' =>
      rw [Forest.rightEdge, ihs]
      cases others with
      | cons _ _ _ => rw [List.getLast?_cons_cons]

/-- On the right edge each node is the last child of the one above it. -/
theorem isChain_rightEdge (h : Spells nodes ids f) :
    (f.rightEdge.map Prod.fst).IsChain fun outer inner =>
      (childrenIn nodes outer).getLast? = some inner := by
  induction h with
  | nil => exact .nil
  | @cons i a children ids below beside stored under _ ihb ihs =>
    cases beside with
    | nil =>
      rw [Forest.rightEdge, List.map_cons, List.isChain_cons]
      refine ⟨fun inner hinner => ?_, ihb⟩
      rw [childrenIn_of_getElem? stored, ← under.head?_rightEdge]
      exact hinner
    | cons b under' others' =>
      rw [Forest.rightEdge]
      exact ihs

/-- A child that is hung below a node on the right edge is grafted onto the forest. -/
theorem spells_hang (h : Spells nodes ids f) (hdistinct : (numbers f).Nodup)
    (hold : ∀ i ∈ numbers f, i < nodes.length) {depth parent : Nat} (a : α)
    (hparent : (f.rightEdge.map Prod.fst)[depth]? = some parent) :
    Spells (hang nodes parent a) ids (f.graft (nodes.length, a) (depth + 1)) := by
  induction h generalizing depth with
  | nil => cases hparent
  | @cons i b children ids below beside stored under others ihb ihs =>
    simp only [numbers, Forest.values, List.map_cons, List.map_append, List.nodup_cons,
      List.nodup_append, List.mem_append, not_or] at hdistinct
    obtain ⟨⟨hibelow, hibeside⟩, hbelow, hbeside, hapart⟩ := hdistinct
    simp only [numbers, Forest.values, List.map_cons, List.map_append, List.forall_mem_cons,
      List.forall_mem_append] at hold
    obtain ⟨hi, holdbelow, holdbeside⟩ := hold
    -- What does not hold the parent is as it was.
    have hkept : ∀ {ids : List Nat} {g : Forest (Nat × α)}, Spells nodes ids g →
        (∀ j ∈ numbers g, j < nodes.length) → parent ∉ numbers g →
        Spells (hang nodes parent a) ids g := fun hg hlt hnot =>
      spells_congr hg fun j hj =>
        getElem?_hang_other (ne_of_mem_of_not_mem hj hnot) (hlt j hj) a
    cases beside with
    | cons c under' others' =>
      -- The right edge goes through the trees beside.
      rw [Forest.rightEdge] at hparent
      have hmem := mem_numbers_of_mem_rightEdge (List.mem_of_getElem? hparent)
      have hne : i ≠ parent := (ne_of_mem_of_not_mem hmem hibeside).symm
      rw [Forest.graft]
      refine .cons ((getElem?_hang_other hne hi a).trans stored)
        (hkept under holdbelow fun hin => hapart _ hin _ hmem rfl) (ihs hbeside holdbeside hparent)
    | nil =>
      rw [Forest.rightEdge, List.map_cons] at hparent
      rw [Forest.graft, others.eq_nil_of_forest]
      cases depth with
      | zero =>
        -- The parent is this root.
        obtain rfl : i = parent := Option.some.inj hparent
        have hbelow' := hkept under holdbelow hibelow
        exact .cons (getElem?_hang_parent stored a)
          (spells_concat hbelow' (getElem?_hang_new nodes i a)) .nil
      | succ depth =>
        rw [List.getElem?_cons_succ] at hparent
        have hmem := mem_numbers_of_mem_rightEdge (List.mem_of_getElem? hparent)
        have hne : i ≠ parent := (ne_of_mem_of_not_mem hmem hibelow).symm
        exact .cons ((getElem?_hang_other hne hi a).trans stored)
          (ihb hbelow holdbelow hparent) .nil

end StoredNode

end IncludeTrace
