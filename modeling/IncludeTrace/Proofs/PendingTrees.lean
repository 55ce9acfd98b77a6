/-
Walks by way of a stack.

A walk keeps the trees that are still to be visited on a stack, the next one on top.  The trees
below a visited node come on top of those that were pending before, the first of them topmost, so
siblings of all levels lie on the stack at the same time.  What is still to be visited is always
what the pending trees list one after another, each in preorder, from the top of the stack to its
bottom; this carries the walk through to its end.

* `Visits`, `visits_iff` — the walk of a stack, and that there is exactly one;
* `VisitsAll`, `visitsAll_walk` — every node is visited once, in preorder, with its depth;
* `IncludeTree.walk_determines` — the walk of a tree tells the tree.
-/
import IncludeTrace.Proofs.Addresses
import IncludeTrace.Proofs.JsonOutputs

namespace IncludeTrace

namespace Forest

variable {α : Type}

/-! ### Stacks of pending trees -/

/-- The nodes that are visited from a stack of pending trees, the top of the stack last.  The tree
on top is taken off, its root is visited, and the trees below the root are put on the stack in
reverse, until nothing is left. -/
inductive Visits : List (Nat × Tree α) → List (Nat × α) → Prop where
  | done : Visits [] []
  | visit {stack : List (Nat × Tree α)} {depth : Nat} {t : Tree α} {nodes : List (Nat × α)}
      (rest : Visits (stack ++ (t.below.trees.map (depth + 1, ·)).reverse) nodes) :
      Visits (stack ++ [(depth, t)]) ((depth, t.root) :: nodes)

/-- A walk lists the pending trees from the top of the stack to its bottom. -/
theorem Visits.eq_walkPending {stack : List (Nat × Tree α)} {nodes : List (Nat × α)}
    (h : Visits stack nodes) : nodes = walkPending stack.reverse := by
  induction h with
  | done => rw [List.reverse_nil, walkPending]
  | visit _ ih =>
    rw [List.reverse_append, List.reverse_reverse] at ih
    rw [List.reverse_append, List.reverse_singleton, List.singleton_append, walkPending, ih]

/-- Every walk comes to an end. -/
theorem visits_walkPending (pending : List (Nat × Tree α)) :
    Visits pending.reverse (walkPending pending) := by
  induction pending using walkPending.induct with
  | case1 =>
    rw [walkPending]
    exact .done
  | case2 depth t pending ih =>
    rw [walkPending, List.reverse_cons]
    refine .visit ?_
    rwa [List.reverse_append] at ih

theorem visits_iff {stack : List (Nat × Tree α)} {nodes : List (Nat × α)} :
    Visits stack nodes ↔ nodes = walkPending stack.reverse := by
  refine ⟨Visits.eq_walkPending, ?_⟩
  rintro rfl
  have hends := visits_walkPending stack.reverse
  rwa [List.reverse_reverse] at hends

/-! ### All nodes of a forest -/

/-- What a list of nodes has to do with a forest whose trees are all visited, one after another. -/
structure VisitsAll (f : Forest α) (nodes : List (Nat × α)) : Prop where
  /-- A walk over the trees, the first one on top of the stack, ends with these nodes. -/
  visits : ∀ other, Visits (f.trees.map (0, ·)).reverse other ↔ other = nodes
  /-- A root comes before what is below it, and this before what is beside it. -/
  preorder : nodes = f.preorder
  /-- No place of the forest is listed twice. -/
  once : f.addresses.Nodup
  /-- No place is left out. -/
  everywhere : ∀ address, address ∈ f.addresses ↔ (f.at? address).isSome
  /-- The nodes are those at the places, and their depths the numbers of steps that lead there,
  less one. -/
  depths : f.addresses.map (fun p => (f.at? p).map fun t => (p.length - 1, t.root))
    = nodes.map some

theorem visitsAll_walk (f : Forest α) : f.VisitsAll f.walk where
  visits := fun other => by
    rw [visits_iff, List.reverse_reverse]
    rfl
  preorder := f.walk_eq_preorder
  once := f.nodup_addresses
  everywhere := fun _ => mem_addresses_iff
  depths := f.map_addresses_eq_walk

end Forest

namespace IncludeTree

/-- The depths, paths and names of the includes, in the order of the walk. -/
def walked (t : IncludeTree) : List (Nat × String × String) :=
  t.includes.walk.map fun p => (p.1, p.2.path, p.2.name)

theorem walked_inj {t u : IncludeTree} : t.walked = u.walked ↔ t.includes = u.includes := by
  have hentry : Function.Injective fun p : Nat × Include => (p.1, p.2.path, p.2.name) := by
    rintro ⟨depth, path, name⟩ ⟨depth', path', name'⟩ h
    simpa using h
  rw [walked, walked, (List.map_injective_iff.2 hentry).eq_iff, Forest.walk_eq_preorder,
    Forest.walk_eq_preorder, Forest.preorder_injective.eq_iff]

/-- **A tree is walked completely, and known from its walk.**  The walk by way of a stack ends, and
it visits every node below the root once, in preorder and with its depth; and two trees whose walks
show the same depths, paths and names have the same includes when they are written as JSON. -/
theorem walk_determines :
    (∀ t : IncludeTree, t.includes.VisitsAll t.includes.walk) ∧
      ∀ t u : IncludeTree,
        t.walked = u.walked ↔ includesJson t.includes = includesJson u.includes :=
  ⟨fun t => t.includes.visitsAll_walk, fun _ _ => walked_inj.trans includesJson_inj.symm⟩

end IncludeTree

end IncludeTrace
