/-
Lists without their repetitions.

Where repetitions are left out of a list, each member stays where it occurs first.  A list is read
from its start, and a member is put at the end of what is kept unless it is known.

* `KeepsFirst`, `keepsFirst_eraseDups` — the first occurrences of a list, in their order;
* `keepNew`, `eraseDups_append_eq_foldl` — what is kept of further members.
-/
import Mathlib.Data.List.Basic
import Mathlib.Data.List.Induction

namespace IncludeTrace

variable {α : Type} [DecidableEq α]

/-- The members of a list, in the order in which they occur first in it. -/
structure KeepsFirst (whole kept : List α) : Prop where
  mem_iff : ∀ x, x ∈ kept ↔ x ∈ whole
  order : kept.Pairwise fun x y => whole.idxOf x < whole.idxOf y

theorem KeepsFirst.nodup {whole kept : List α} (h : KeepsFirst whole kept) : kept.Nodup :=
  h.order.imp fun hlt heq => absurd (congrArg whole.idxOf heq) (Nat.ne_of_lt hlt)

/-- A list with one more member, unless it is known. -/
def keepNew (kept : List α) (x : α) : List α :=
  if x ∈ kept then kept else kept ++ [x]

theorem keepNew_of_mem {kept : List α} {x : α} (h : x ∈ kept) : keepNew kept x = kept :=
  if_pos h

theorem keepNew_of_not_mem {kept : List α} {x : α} (h : x ∉ kept) :
    keepNew kept x = kept ++ [x] :=
  if_neg h

theorem eraseDups_concat (whole : List α) (x : α) :
    (whole ++ [x]).eraseDups = keepNew whole.eraseDups x := by
  rw [List.eraseDups_append]
  by_cases hx : x ∈ whole
  · rw [keepNew_of_mem (List.mem_eraseDups.2 hx)]
    simp [List.removeAll, hx]
  · rw [keepNew_of_not_mem fun h => hx (List.mem_eraseDups.1 h)]
    simp [List.removeAll, hx, List.eraseDups_cons]

theorem eraseDups_append_eq_foldl (whole more : List α) :
    (whole ++ more).eraseDups = more.foldl keepNew whole.eraseDups := by
  induction more generalizing whole with
  | nil => rw [List.append_nil, List.foldl_nil]
  | cons x more ih =>
    rw [List.append_cons, ih, eraseDups_concat, List.foldl_cons]

/-- Where repetitions are left out, the first occurrences are kept. -/
theorem keepsFirst_eraseDups (whole : List α) : KeepsFirst whole whole.eraseDups := by
  refine ⟨fun x => List.mem_eraseDups, ?_⟩
  -- From the back, because a member behind the others does not move their first occurrences.
  induction whole using List.reverseRecOn with
  | nil => exact List.Pairwise.nil
  | append_singleton whole x ih =>
    have hfront : ∀ y ∈ whole.eraseDups, (whole ++ [x]).idxOf y = whole.idxOf y := fun y hy =>
      List.idxOf_append_of_mem (List.mem_eraseDups.1 hy)
    have hkept : whole.eraseDups.Pairwise fun y z =>
        (whole ++ [x]).idxOf y < (whole ++ [x]).idxOf z :=
      ih.imp_of_mem fun {y z} hy hz hlt => by rwa [hfront y hy, hfront z hz]
    rw [eraseDups_concat]
    by_cases hx : x ∈ whole.eraseDups
    · rwa [keepNew_of_mem hx]
    · -- The last member is new, so it occurs first behind all others.
      rw [keepNew_of_not_mem hx, List.pairwise_append]
      refine ⟨hkept, List.pairwise_singleton _ _, fun y hy z hz => ?_⟩
      obtain rfl := List.mem_singleton.1 hz
      have hlast : (whole ++ [z]).idxOf z = whole.length := by
        rw [List.idxOf_append_of_notMem fun h => hx (List.mem_eraseDups.2 h)]
        simp
      rw [hfront y hy, hlast]
      exact List.idxOf_lt_length_of_mem (List.mem_eraseDups.1 hy)

end IncludeTrace
