/-
The order in which the nodes of a forest are listed, and what it tells about the forest.

`Forest.preorder` lists all nodes with their depths.  Nothing of the forest is lost in
this list, and the lists that arise are exactly those in which the depth grows by at
most one from a node to the next:

* `NestedFrom`, `levelAfter` — such lists of depths, and how deep the next depth may be;
* `exists_first_deep` — a list of another kind has a first node that is too deep;
* `walk_eq_preorder` — the walk over pending trees lists the nodes in preorder;
* `preorder_injective` — a forest is determined by its preorder;
* `nestedFrom_preorder` — depths in preorder are nested;
* `values` — the values without their depths;
* `map_root_subtrees`, `mem_subtrees_of_below` — the subtrees in the same order, and those
  below one of them.
-/
import IncludeTrace.Forest

namespace IncludeTrace

/-! ### Nested depths -/

/-- Each depth is at most one more than the depth before it, and the first one is at
most `level`. -/
def NestedFrom : Nat → List Nat → Prop
  | _, [] => True
  | level, d :: ds => d ≤ level ∧ NestedFrom (d + 1) ds

/-- How deep the next depth may be behind `ds`, if the first could be `level`. -/
def levelAfter (level : Nat) (ds : List Nat) : Nat :=
  (ds.getLast?.map (· + 1)).getD level

@[simp] theorem levelAfter_nil (level : Nat) : levelAfter level [] = level := rfl

@[simp] theorem levelAfter_cons (level d : Nat) (ds : List Nat) :
    levelAfter level (d :: ds) = levelAfter (d + 1) ds := by
  rw [levelAfter, levelAfter, List.getLast?_cons]
  cases ds.getLast? <;> rfl

theorem nestedFrom_append (level : Nat) (ds es : List Nat) :
    NestedFrom level (ds ++ es) ↔
      NestedFrom level ds ∧ NestedFrom (levelAfter level ds) es := by
  induction ds generalizing level with
  | nil => simp [NestedFrom]
  | cons d ds ih =>
    simp only [List.cons_append, NestedFrom, levelAfter_cons]
    rw [ih (d + 1), and_assoc]

/-- In a nested list every depth fits behind the depths before it. -/
theorem le_levelAfter_of_nestedFrom {level d : Nat} {ds es : List Nat}
    (h : NestedFrom level (ds ++ d :: es)) : d ≤ levelAfter level ds :=
  ((nestedFrom_append level ds (d :: es)).1 h).2.1

/-- If the depths of some items are not nested, there is a first item that does not fit
behind the items before it. -/
theorem exists_first_deep {β : Type} (depth : β → Nat) {level : Nat} {xs : List β}
    (h : ¬ NestedFrom level (xs.map depth)) :
    ∃ before x after, xs = before ++ x :: after ∧ NestedFrom level (before.map depth) ∧
      levelAfter level (before.map depth) < depth x := by
  induction xs generalizing level with
  | nil => exact absurd trivial h
  | cons x xs ih =>
    by_cases hx : depth x ≤ level
    · -- The first item fits, so the one that does not is among the others.
      have hrest : ¬ NestedFrom (depth x + 1) (xs.map depth) := fun hxs => h ⟨hx, hxs⟩
      obtain ⟨before, y, after, rfl, hbefore, hy⟩ := ih hrest
      refine ⟨x :: before, y, after, rfl, ⟨hx, hbefore⟩, ?_⟩
      rw [List.map_cons, levelAfter_cons]
      exact hy
    · exact ⟨[], x, xs, rfl, trivial, by simpa using hx⟩

namespace Forest

variable {α β γ : Type}

theorem map_map (g : β → γ) (f : α → β) (t : Forest α) : (t.map f).map g = t.map (g ∘ f) := by
  induction t with
  | nil => rfl
  | cons a below beside ihb ihs =>
    simp only [map, ihb, ihs]
    rfl

theorem map_id (t : Forest α) : t.map id = t := by
  induction t with
  | nil => rfl
  | cons a below beside ihb ihs =>
    simp only [map, ihb, ihs]
    rfl

theorem eq_nil_of_map_eq_nil {f : α → β} {t : Forest α} (h : t.map f = .nil) : t = .nil := by
  cases t with
  | nil => rfl
  | cons a below beside => cases h

/-! ### Preorder -/

theorem preorderFrom_ofTrees_append (depth : Nat) (ts us : List (Tree α)) :
    preorderFrom depth (ofTrees (ts ++ us))
      = preorderFrom depth (ofTrees ts) ++ preorderFrom depth (ofTrees us) := by
  induction ts with
  | nil => rfl
  | cons t ts ih =>
    simp only [List.cons_append, ofTrees, preorderFrom, List.append_assoc]
    rw [ih]

theorem preorderFrom_map (f : α → β) (depth : Nat) (g : Forest α) :
    preorderFrom depth (g.map f) = (preorderFrom depth g).map (Prod.map id f) := by
  induction g generalizing depth with
  | nil => rfl
  | cons a below beside ihb ihs =>
    simp only [map, preorderFrom, List.map_cons, List.map_append]
    rw [ihb, ihs]
    rfl

/-- The preorder lists one tree after another, the root of each before what is below it. -/
theorem preorderFrom_eq_flatMap (depth : Nat) (f : Forest α) :
    preorderFrom depth f
      = f.trees.flatMap fun t => (depth, t.root) :: preorderFrom (depth + 1) t.below := by
  induction f with
  | nil => rfl
  | cons a below beside _ ih =>
    simp only [preorderFrom, trees, List.flatMap_cons, List.cons_append]
    rw [ih]

/-- Pending trees are listed one after another, each in preorder. -/
theorem walkPending_eq_flatMap (pending : List (Nat × Tree α)) :
    walkPending pending
      = pending.flatMap fun p => (p.1, p.2.root) :: preorderFrom (p.1 + 1) p.2.below := by
  induction pending using walkPending.induct with
  | case1 => simp [walkPending]
  | case2 depth t pending ih =>
    -- The trees below the root stand in front of the pending ones.
    rw [walkPending, ih, List.flatMap_append, List.flatMap_map, ← preorderFrom_eq_flatMap,
      List.flatMap_cons, List.cons_append]

/-- The walk over pending trees lists the nodes in preorder. -/
theorem walk_eq_preorder (f : Forest α) : f.walk = f.preorder := by
  rw [walk, walkPending_eq_flatMap, List.flatMap_map, preorder, preorderFrom_eq_flatMap]

theorem le_of_mem_preorderFrom {depth : Nat} {f : Forest α} {p : Nat × α}
    (h : p ∈ preorderFrom depth f) : depth ≤ p.1 := by
  induction f generalizing depth with
  | nil => exact absurd h List.not_mem_nil
  | cons a below beside ihb ihs =>
    rcases List.mem_cons.1 h with rfl | h
    · exact Nat.le_refl _
    · rcases List.mem_append.1 h with hb | hs
      · exact Nat.le_of_succ_le (ihb hb)
      · exact ihs hs

/-- What stands below a node and what stands beside it can be told apart by the depths. -/
theorem takeWhile_preorderFrom_append (depth : Nat) (below beside : Forest α) :
    (preorderFrom (depth + 1) below ++ preorderFrom depth beside).takeWhile (depth < ·.1)
      = preorderFrom (depth + 1) below := by
  have hbelow : ∀ p ∈ preorderFrom (depth + 1) below, decide (depth < p.1) = true :=
    fun p hp => decide_eq_true (le_of_mem_preorderFrom hp)
  rw [List.takeWhile_append_of_pos hbelow]
  cases beside with
  | nil => simp [preorderFrom]
  | cons a b s => simp [preorderFrom]

theorem preorderFrom_injective (depth : Nat) :
    Function.Injective (preorderFrom depth : Forest α → List (Nat × α)) := by
  intro f g h
  induction f generalizing depth g with
  | nil =>
    cases g with
    | nil => rfl
    | cons b below' beside' => exact absurd h (by simp [preorderFrom])
  | cons a below beside ihb ihs =>
    cases g with
    | nil => exact absurd h (by simp [preorderFrom])
    | cons b below' beside' =>
      simp only [preorderFrom, List.cons.injEq, Prod.mk.injEq, true_and] at h
      obtain ⟨rfl, hrest⟩ := h
      have hbelow : preorderFrom (depth + 1) below = preorderFrom (depth + 1) below' := by
        rw [← takeWhile_preorderFrom_append depth below beside, hrest,
          takeWhile_preorderFrom_append]
      rw [hbelow, List.append_right_inj] at hrest
      rw [ihb (depth + 1) hbelow, ihs depth hrest]

/-- A forest is determined by its preorder. -/
theorem preorder_injective : Function.Injective (preorder : Forest α → List (Nat × α)) :=
  preorderFrom_injective 0

/-- The depths of a preorder are nested, and so are they in front of depths that may
start anywhere from the depth of the forest on. -/
theorem nestedFrom_preorderFrom_append (f : Forest α) {depth level : Nat} {rest : List Nat}
    (hlevel : depth ≤ level) (hrest : ∀ l, depth ≤ l → NestedFrom l rest) :
    NestedFrom level ((preorderFrom depth f).map Prod.fst ++ rest) := by
  induction f generalizing depth level rest with
  | nil => exact hrest level hlevel
  | cons a below beside ihb ihs =>
    simp only [preorderFrom, List.map_cons, List.map_append, List.cons_append, List.append_assoc]
    refine ⟨hlevel, ihb (Nat.le_refl _) fun l hl => ?_⟩
    exact ihs (Nat.le_of_succ_le hl) hrest

/-- The depths of a preorder are nested. -/
theorem nestedFrom_preorder (f : Forest α) : NestedFrom 0 (f.preorder.map Prod.fst) := by
  have h : NestedFrom 0 (f.preorder.map Prod.fst ++ []) :=
    nestedFrom_preorderFrom_append f (Nat.le_refl 0) fun _ _ => trivial
  rwa [List.append_nil] at h

/-! ### Values and subtrees -/

/-- The values of a forest in preorder, without their depths. -/
def values : Forest α → List α
  | nil => []
  | cons a below beside => a :: (values below ++ values beside)

theorem map_snd_preorderFrom (depth : Nat) (f : Forest α) :
    (preorderFrom depth f).map Prod.snd = f.values := by
  induction f generalizing depth with
  | nil => rfl
  | cons a below beside ihb ihs =>
    simp only [preorderFrom, values, List.map_cons, List.map_append]
    rw [ihb, ihs]

theorem values_map (g : α → β) (f : Forest α) : (f.map g).values = f.values.map g := by
  induction f with
  | nil => rfl
  | cons a below beside ihb ihs =>
    simp only [map, values, List.map_cons, List.map_append]
    rw [ihb, ihs]

theorem values_eq_walk (f : Forest α) : f.values = f.walk.map Prod.snd := by
  rw [walk_eq_preorder, preorder, map_snd_preorderFrom]

theorem values_eq_map_root (f : Forest α) : f.values = f.subtrees.map Tree.root := by
  induction f with
  | nil => rfl
  | cons a below beside ihb ihs =>
    simp only [subtrees, values, List.map_cons, List.map_append]
    rw [ihb, ihs]

/-- The subtrees are listed in the order of the walk. -/
theorem map_root_subtrees (f : Forest α) : f.subtrees.map Tree.root = f.walk.map Prod.snd := by
  rw [← values_eq_map_root, values_eq_walk]

theorem mem_subtrees_of_mem_trees {t : Tree α} {f : Forest α} (h : t ∈ f.trees) :
    t ∈ f.subtrees := by
  induction f with
  | nil => exact absurd h List.not_mem_nil
  | cons a below beside _ ih =>
    rcases List.mem_cons.1 h with rfl | h
    · exact List.mem_cons_self
    · exact List.mem_cons_of_mem _ (List.mem_append_right _ (ih h))

/-- What stands below a subtree stands in the forest. -/
theorem mem_subtrees_of_below {s t : Tree α} {f : Forest α} (ht : t ∈ f.subtrees)
    (hs : s ∈ t.below.subtrees) : s ∈ f.subtrees := by
  induction f with
  | nil => exact absurd ht List.not_mem_nil
  | cons a below beside ihb ihs =>
    rcases List.mem_cons.1 ht with rfl | ht
    · exact List.mem_cons_of_mem _ (List.mem_append_left _ hs)
    · rcases List.mem_append.1 ht with ht | ht
      · exact List.mem_cons_of_mem _ (List.mem_append_left _ (ihb ht))
      · exact List.mem_cons_of_mem _ (List.mem_append_right _ (ihs ht))

end Forest

end IncludeTrace
