/-
Growing a forest along its right edge.

An open forest lists its nodes in preorder just as a forest does, and the number of
its rungs is the greatest depth at which it accepts another node:

* `finish_preorder` — finishing rungs moves nodes into a forest and changes no list;
* `closed_preorder` — closing an open forest keeps its nodes and their depths;
* `add_of_le` — a node of a fitting depth is added at the end of the list;
* `add_of_level_lt` — a deeper one is refused.
-/
import IncludeTrace.Proofs.Preorder

namespace IncludeTrace

/-- What is wrong with a depth that is greater than `level`, the greatest that fits. -/
def NestingFault.beyond (level depth : Nat) : NestingFault :=
  if depth = 1 then .orphan depth else .jump (level - 1) depth

namespace OpenForest

open Forest

variable {α : Type}

/-- The greatest depth at which the next node may stand. -/
def level (f : OpenForest α) : Nat :=
  f.rungs.length

/-- The nodes on the rungs of a right edge and in front of them, in preorder. -/
def edgePreorder : List (Rung α) → List (Nat × α)
  | [] => []
  | r :: outer =>
    edgePreorder outer ++ preorderFrom outer.length (ofTrees r.before.reverse)
      ++ [(outer.length, r.head)]

/-- All nodes with their depths, in preorder. -/
def preorder (f : OpenForest α) : List (Nat × α) :=
  edgePreorder f.rungs

@[simp] theorem preorder_empty : (empty : OpenForest α).preorder = [] := rfl

theorem length_finish (keep : Nat) (rungs : List (Rung α)) (below : Forest α) :
    (finish keep rungs below).1.length = min keep rungs.length := by
  induction rungs generalizing below with
  | nil => rw [finish, List.length_nil, Nat.min_zero]
  | cons r outer ih =>
    rw [finish]
    split
    · next h =>
      rw [List.length_cons]
      omega
    · next h =>
      rw [ih, List.length_cons]
      omega

/-- Where there are no more rungs than are to be kept, nothing is finished. -/
theorem finish_of_le {keep : Nat} {rungs : List (Rung α)} (h : rungs.length ≤ keep)
    (below : Forest α) : finish keep rungs below = (rungs, below) := by
  cases rungs with
  | nil => rfl
  | cons r outer => exact if_pos h

/-- Finishing rungs neither loses nor moves a node. -/
theorem finish_preorder (keep : Nat) (rungs : List (Rung α)) (below : Forest α) :
    edgePreorder (finish keep rungs below).1
        ++ preorderFrom (finish keep rungs below).1.length (finish keep rungs below).2
      = edgePreorder rungs ++ preorderFrom rungs.length below := by
  induction rungs generalizing below with
  | nil => rfl
  | cons r outer ih =>
    rw [finish]
    split
    · rfl
    · -- The deepest rung becomes the last tree of the level above it.
      rw [ih, List.reverse_cons, preorderFrom_ofTrees_append]
      simp [edgePreorder, ofTrees, preorderFrom]

/-- Closing an open forest keeps its nodes and their depths. -/
theorem closed_preorder (f : OpenForest α) : f.closed.preorder = f.preorder := by
  have hlength := length_finish 0 f.rungs .nil
  have hlist := finish_preorder 0 f.rungs .nil
  rw [Nat.zero_min, List.length_eq_zero_iff] at hlength
  rw [hlength] at hlist
  simpa [closed, preorder, Forest.preorder, edgePreorder, preorderFrom] using hlist

/-- A node one level below the latest one starts a new rung. -/
theorem add_level (f : OpenForest α) (a : α) : f.add f.level a = .ok ⟨⟨[], a⟩ :: f.rungs⟩ := by
  have hfits : ¬ f.rungs.length < f.level := Nat.lt_irrefl _
  have hkept : f.rungs.length ≤ f.level + 1 := Nat.le_succ _
  rw [add, if_neg hfits, finish_of_le hkept]
  obtain ⟨rungs⟩ := f
  cases rungs with
  | nil => rfl
  | cons r outer => exact if_neg (by simp [level])

/-- A node further up finishes the rungs below its own, and takes the place of the head
there. -/
theorem add_of_lt_level {f : OpenForest α} {depth : Nat} (h : depth < f.level) (a : α) :
    ∃ r outer below, finish (depth + 1) f.rungs .nil = (r :: outer, below) ∧
      outer.length = depth ∧
      f.add depth a = .ok ⟨⟨⟨r.head, below⟩ :: r.before, a⟩ :: outer⟩ := by
  have hfits : ¬ f.rungs.length < depth := Nat.lt_asymm h
  have hlength : (finish (depth + 1) f.rungs .nil).1.length = depth + 1 :=
    (length_finish _ _ _).trans (Nat.min_eq_left h)
  rw [add, if_neg hfits]
  generalize finish (depth + 1) f.rungs .nil = kept at hlength ⊢
  obtain ⟨rungs, below⟩ := kept
  cases rungs with
  | nil => exact absurd hlength (Nat.zero_ne_add_one depth)
  | cons r outer =>
    have houter : outer.length = depth := Nat.succ.inj hlength
    exact ⟨r, outer, below, rfl, houter, if_pos houter⟩

/-- A node whose depth fits is accepted, and stands last. -/
theorem add_of_le {f : OpenForest α} {depth : Nat} (h : depth ≤ f.level) (a : α) :
    ∃ g, f.add depth a = .ok g ∧ g.level = depth + 1 ∧
      g.preorder = f.preorder ++ [(depth, a)] := by
  rcases Nat.lt_or_eq_of_le h with hlt | rfl
  · obtain ⟨r, outer, below, hfinish, rfl, hadd⟩ := add_of_lt_level hlt a
    have hlist := finish_preorder (outer.length + 1) f.rungs .nil
    rw [hfinish] at hlist
    refine ⟨_, hadd, rfl, ?_⟩
    -- The new head stands behind all that was on the finished rungs.
    simp only [preorderFrom, List.append_nil] at hlist
    rw [preorder, preorder, ← hlist]
    simp [edgePreorder, preorderFrom_ofTrees_append, ofTrees, preorderFrom]
  · refine ⟨_, add_level f a, rfl, ?_⟩
    simp [preorder, edgePreorder, ofTrees, preorderFrom, level]

/-- A node that is deeper than that is refused. -/
theorem add_of_level_lt {f : OpenForest α} {depth : Nat} (h : f.level < depth) (a : α) :
    f.add depth a = .error (.beyond f.level depth) :=
  if_pos h

end OpenForest

end IncludeTrace
