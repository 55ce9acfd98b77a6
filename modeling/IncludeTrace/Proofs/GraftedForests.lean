/-
The right edge of a forest, and nodes that are put there.

The right edge goes from the last tree to the last one of the trees below its root, and so on to
the node that comes last in preorder.  A node that is put as far to the right as it goes ends up
last in preorder, and below the part of the right edge that lies above its depth; so an open forest
with one more node is the forest from before with that node grafted on.

* `rightEdge`, `graft` — the roots on the right edge, and one more node at a depth;
* `preorderFrom_graft`, `rightEdge_graft` — what the new node does to preorder and right edge;
* `rightEdge_closed` — the heads of the rungs of an open forest are the right edge of the forest
  as it stands;
* `closed_add` — adding to an open forest is grafting.
-/
import IncludeTrace.Proofs.RightEdge

namespace IncludeTrace

namespace Forest

variable {α β : Type}

/-- The roots on the right edge, the outermost first: that of the last tree, then that of the last
tree below it, and so on. -/
def rightEdge : Forest α → List α
  | nil => []
  | cons a below nil => a :: rightEdge below
  | cons _ _ (cons b below beside) => rightEdge (cons b below beside)

/-- The forest with one more node at a depth, as far to the right as it goes. -/
def graft (a : α) : Nat → Forest α → Forest α
  | _, nil => cons a nil nil
  | 0, cons b below beside => cons b below (graft a 0 beside)
  | depth + 1, cons b below nil => cons b (graft a depth below) nil
  | depth + 1, cons b below (cons c under others) =>
    cons b below (graft a (depth + 1) (cons c under others))

theorem rightEdge_cons_of_ne_nil {beside : Forest α} (h : beside ≠ nil) (a : α)
    (below : Forest α) : (cons a below beside).rightEdge = beside.rightEdge := by
  cases beside with
  | nil => exact absurd rfl h
  | cons b under others => rw [rightEdge]

theorem cons_ne_nil (a : α) (below beside : Forest α) : cons a below beside ≠ nil := by
  intro h
  cases h

theorem graft_ne_nil (a : α) (depth : Nat) (f : Forest α) : f.graft a depth ≠ nil := by
  fun_cases graft <;> exact cons_ne_nil _ _ _

/-- Only the empty forest has no right edge. -/
theorem eq_nil_of_rightEdge_eq_nil {f : Forest α} (h : f.rightEdge = []) : f = nil := by
  fun_induction rightEdge f with
  | case1 => rfl
  | case2 a below _ => cases h
  | case3 a below b under others ih => cases ih h

theorem rightEdge_sublist_values (f : Forest α) : f.rightEdge.Sublist f.values := by
  fun_induction rightEdge f with
  | case1 => exact .slnil
  | case2 a below ih => exact (ih.trans (List.sublist_append_left _ _)).cons_cons a
  | case3 a below b under others ih => exact (ih.trans (List.sublist_append_right _ _)).cons a

theorem rightEdge_map (g : α → β) (f : Forest α) : (f.map g).rightEdge = f.rightEdge.map g := by
  fun_induction rightEdge f with
  | case1 => rfl
  | case2 a below ih => simp only [map, rightEdge, ih, List.map_cons]
  | case3 a below b under others ih =>
    rw [← ih]
    simp only [map, rightEdge]

theorem graft_map (g : α → β) (a : α) (depth : Nat) (f : Forest α) :
    (f.graft a depth).map g = (f.map g).graft (g a) depth := by
  fun_induction graft a depth f with
  | case1 depth => cases depth <;> rfl
  | case2 b below beside ih => simp only [map, graft, ih]
  | case3 depth b below ih => simp only [map, graft, ih]
  | case4 depth b below c under others ih => simp only [map, graft] at ih ⊢; rw [ih]

/-- A node that is grafted on comes last in preorder. -/
theorem preorderFrom_graft (a : α) {depth : Nat} {f : Forest α} (h : depth ≤ f.rightEdge.length)
    (start : Nat) :
    preorderFrom start (f.graft a depth) = preorderFrom start f ++ [(start + depth, a)] := by
  fun_induction graft a depth f generalizing start with
  | case1 depth =>
    rw [Nat.le_zero.1 h]
    rfl
  | case2 b below beside ih =>
    simp only [preorderFrom, ih (Nat.zero_le _), List.cons_append, List.append_assoc]
  | case3 depth b below ih =>
    have hbelow : depth ≤ below.rightEdge.length := Nat.le_of_succ_le_succ h
    simp only [preorderFrom, ih hbelow, List.append_nil, List.cons_append]
    rw [show start + 1 + depth = start + (depth + 1) by omega]
  | case4 depth b below c under others ih =>
    rw [rightEdge] at h
    rw [preorderFrom, ih h, ← List.append_assoc, ← List.cons_append]
    rfl

theorem values_graft (a : α) {depth : Nat} {f : Forest α} (h : depth ≤ f.rightEdge.length) :
    (f.graft a depth).values = f.values ++ [a] := by
  rw [← map_snd_preorderFrom 0, preorderFrom_graft a h, List.map_append, map_snd_preorderFrom]
  rfl

/-- A node that is grafted on ends the right edge, which is kept as far as it lies above. -/
theorem rightEdge_graft (a : α) {depth : Nat} {f : Forest α} (h : depth ≤ f.rightEdge.length) :
    (f.graft a depth).rightEdge = f.rightEdge.take depth ++ [a] := by
  fun_induction graft a depth f with
  | case1 depth =>
    rw [Nat.le_zero.1 h]
    rfl
  | case2 b below beside ih =>
    rw [rightEdge_cons_of_ne_nil (graft_ne_nil a 0 beside), ih (Nat.zero_le _)]
    rfl
  | case3 depth b below ih =>
    rw [rightEdge, ih (Nat.le_of_succ_le_succ h), rightEdge]
    rfl
  | case4 depth b below c under others ih =>
    rw [rightEdge] at h ⊢
    rw [rightEdge_cons_of_ne_nil (graft_ne_nil a (depth + 1) _), ih h]

theorem rightEdge_ofTrees_concat (ts : List (Tree α)) (t : Tree α) :
    (ofTrees (ts ++ [t])).rightEdge = t.root :: t.below.rightEdge := by
  induction ts with
  | nil => rfl
  | cons u ts ih =>
    have hsome : ofTrees (ts ++ [t]) ≠ nil := by
      cases ts <;> exact cons_ne_nil _ _ _
    rw [List.cons_append, ofTrees, rightEdge_cons_of_ne_nil hsome, ih]

end Forest

namespace OpenForest

open Forest

variable {α : Type}

/-- Rungs that are finished go on in the right edge of what stands below them. -/
theorem rightEdge_finish (rungs : List (Rung α)) (below : Forest α) :
    (finish 0 rungs below).2.rightEdge = (rungs.map Rung.head).reverse ++ below.rightEdge := by
  induction rungs generalizing below with
  | nil => rfl
  | cons r outer ih =>
    rw [finish, if_neg (Nat.not_lt_zero _), ih, List.reverse_cons, rightEdge_ofTrees_concat,
      List.map_cons, List.reverse_cons, List.append_assoc]
    rfl

/-- The heads of the rungs are the right edge of the forest as it stands. -/
theorem rightEdge_closed (f : OpenForest α) :
    f.closed.rightEdge = (f.rungs.map Rung.head).reverse := by
  rw [closed, rightEdge_finish, rightEdge, List.append_nil]

theorem length_rightEdge_closed (f : OpenForest α) : f.closed.rightEdge.length = f.level := by
  rw [rightEdge_closed, List.length_reverse, List.length_map, level]

/-- One more node in an open forest is grafted onto the forest as it stands. -/
theorem closed_add {f g : OpenForest α} {depth : Nat} {a : α} (h : f.add depth a = .ok g) :
    g.closed = f.closed.graft a depth := by
  have hfits : depth ≤ f.level := by
    refine Nat.le_of_not_lt fun hdeep => ?_
    rw [add_of_level_lt hdeep] at h
    cases h
  obtain ⟨g', hadd, -, hlist⟩ := add_of_le hfits a
  rw [hadd, Except.ok.injEq] at h
  subst h
  -- Both list the same nodes at the same depths.
  refine preorder_injective ?_
  rw [closed_preorder, hlist, Forest.preorder, preorderFrom_graft a, Nat.zero_add,
    ← Forest.preorder, closed_preorder]
  rwa [length_rightEdge_closed]

end OpenForest

end IncludeTrace
