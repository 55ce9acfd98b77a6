/-
Forests: ordered trees standing side by side, each node carrying a value.

* `Forest.preorder` — the values with their depths, each before what is below
  it and that before what stands beside it;
* `Forest.walk` — the same sequence, produced by taking node after node from a
  list of pending ones;
* `OpenForest` — a forest that is still growing along its right edge: the chain
  of latest nodes, each with the finished trees in front of it;
* `OpenForest.add`, `OpenForest.closed` — one more node at a given depth, and
  the forest as it stands.
-/

namespace IncludeTrace

/-- Trees side by side: the first one's root, what is below it, and the trees beside it. -/
inductive Forest (α : Type) where
  | nil
  | cons (root : α) (below beside : Forest α)
  deriving DecidableEq, Repr, Inhabited

/-- One tree of a forest. -/
structure Tree (α : Type) where
  root : α
  below : Forest α
  deriving DecidableEq, Repr, Inhabited

namespace Forest

variable {α β : Type}

/-- The trees of a forest, from left to right. -/
def trees : Forest α → List (Tree α)
  | nil => []
  | cons a below beside => ⟨a, below⟩ :: trees beside

/-- The forest of the given trees. -/
def ofTrees : List (Tree α) → Forest α
  | [] => nil
  | t :: ts => cons t.root t.below (ofTrees ts)

@[simp] theorem trees_ofTrees (ts : List (Tree α)) : (ofTrees ts).trees = ts := by
  induction ts with
  | nil => rfl
  | cons t ts ih => simp [ofTrees, trees, ih]

@[simp] theorem ofTrees_trees (f : Forest α) : ofTrees f.trees = f := by
  induction f with
  | nil => rfl
  | cons a below beside _ ih => simp [ofTrees, trees, ih]

/-- How many nodes a forest has. -/
def size : Forest α → Nat
  | nil => 0
  | cons _ below beside => 1 + size below + size beside

/-- How many levels a forest has. -/
def height : Forest α → Nat
  | nil => 0
  | cons _ below beside => max (1 + height below) (height beside)

/-- How many trees stand side by side. -/
def width : Forest α → Nat
  | nil => 0
  | cons _ _ beside => 1 + width beside

/-- The forest with every value replaced. -/
def map (f : α → β) : Forest α → Forest β
  | nil => nil
  | cons a below beside => cons (f a) (map f below) (map f beside)

/-- All nodes with their depths, counted from `depth`, each before the nodes below
it and these before the nodes beside it. -/
def preorderFrom (depth : Nat) : Forest α → List (Nat × α)
  | nil => []
  | cons a below beside =>
    (depth, a) :: (preorderFrom (depth + 1) below ++ preorderFrom depth beside)

/-- All nodes in preorder, the outermost ones at depth 0. -/
def preorder (f : Forest α) : List (Nat × α) :=
  preorderFrom 0 f

theorem length_preorderFrom (depth : Nat) (f : Forest α) :
    (preorderFrom depth f).length = f.size := by
  induction f generalizing depth with
  | nil => rfl
  | cons a below beside ihb ihs =>
    simp only [preorderFrom, size, List.length_cons, List.length_append, ihb, ihs]
    omega

/-- All subtrees in preorder. -/
def subtrees : Forest α → List (Tree α)
  | nil => []
  | cons a below beside => ⟨a, below⟩ :: (subtrees below ++ subtrees beside)

/-- How many nodes a list of pending trees has. -/
def pendingSize : List (Nat × Tree α) → Nat
  | [] => 0
  | (_, t) :: pending => 1 + t.below.size + pendingSize pending

theorem pendingSize_append (p q : List (Nat × Tree α)) :
    pendingSize (p ++ q) = pendingSize p + pendingSize q := by
  induction p with
  | nil => simp [pendingSize]
  | cons t p ih =>
    simp only [List.cons_append, pendingSize, ih]
    omega

theorem pendingSize_trees (depth : Nat) (f : Forest α) :
    pendingSize (f.trees.map (depth, ·)) = f.size := by
  induction f with
  | nil => rfl
  | cons a below beside _ ih => simp [trees, pendingSize, size, ih]

/-- Takes the first pending tree, and puts the trees below its root in front of
the others. -/
def walkPending : List (Nat × Tree α) → List (Nat × α)
  | [] => []
  | (depth, t) :: pending =>
    (depth, t.root) :: walkPending (t.below.trees.map (depth + 1, ·) ++ pending)
termination_by pending => pendingSize pending
decreasing_by
  rw [pendingSize_append, pendingSize_trees]
  simp only [pendingSize]
  omega

/-- All nodes with their depths, by way of a list of pending trees. -/
def walk (f : Forest α) : List (Nat × α) :=
  walkPending (f.trees.map (0, ·))

end Forest

/-- The latest node of a level, and the finished trees in front of it, latest first. -/
structure Rung (α : Type) where
  before : List (Tree α)
  head : α

/-- A forest under construction: the rungs of its right edge, deepest first. -/
structure OpenForest (α : Type) where
  rungs : List (Rung α)

/-- How a depth can fail to fit behind the depths before it. -/
inductive NestingFault where
  /-- More than one level deeper than the node before. -/
  | jump (previous depth : Nat)
  /-- One level down although there is no node yet. -/
  | orphan (depth : Nat)
  deriving DecidableEq, Repr

namespace NestingFault

/-- The fault in words. -/
def message : NestingFault → String
  | jump previous depth => s!"include depth jumps from {previous} to {depth}"
  | orphan depth => s!"include at depth {depth} has no enclosing file"

end NestingFault

namespace OpenForest

variable {α : Type}

/-- Nothing yet. -/
def empty : OpenForest α := ⟨[]⟩

/-- Finishes the deepest rungs until at most `keep` are left; `below` is what
stands under the deepest head, and the second part what does so afterwards. -/
def finish (keep : Nat) : List (Rung α) → Forest α → List (Rung α) × Forest α
  | [], below => ([], below)
  | r :: outer, below =>
    if outer.length < keep then (r :: outer, below)
    else finish keep outer (Forest.ofTrees (⟨r.head, below⟩ :: r.before).reverse)

/-- The forest as it stands. -/
def closed (f : OpenForest α) : Forest α :=
  (finish 0 f.rungs .nil).2

/-- One more node, the latest of its depth; it may go at most one level below
the node before it. -/
def add (f : OpenForest α) (depth : Nat) (a : α) : Except NestingFault (OpenForest α) :=
  if f.rungs.length < depth then
    .error (if depth = 1 then .orphan depth else .jump (f.rungs.length - 1) depth)
  else
    match finish (depth + 1) f.rungs .nil with
    | ([], _) => .ok ⟨[⟨[], a⟩]⟩
    | (r :: outer, below) =>
      if outer.length = depth then .ok ⟨⟨⟨r.head, below⟩ :: r.before, a⟩ :: outer⟩
      else .ok ⟨⟨[], a⟩ :: r :: outer⟩

end OpenForest

end IncludeTrace
