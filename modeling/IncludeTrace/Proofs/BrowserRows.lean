/-
Rows show the items that they were made from.

Opening and closing rows changes nothing of what they show, and every include that a row
stands for is an include of the tree that the rows were made from:

* `map_item_planted`, `map_known_openAll`, `map_known_reveal` — what rows show;
* `le_and_lt_of_mem_planted`, `has_iff` — fresh rows are no rows that were there before;
* `mem_values_of_find?` — a path of positions leads to one of the rows;
* `mem_subtrees_of_mem_populate`, `eq_ofTree_of_mem_populate` — items stand for includes of
  the forest, and are made from these alone.
-/
import IncludeTrace.Proofs.PopulatedRows

namespace IncludeTrace.Browser

/-- What a row keeps when it is opened or closed. -/
def Row.known (r : Row) : Nat × Item :=
  (r.id, r.item)

namespace Rows

theorem map_item_planted (first : Nat) (items : Forest Item) :
    (planted first items).map Row.item = items := by
  induction items generalizing first with
  | nil => rfl
  | cons item below beside ihb ihs =>
    simp only [planted, Forest.map]
    rw [ihb, ihs]

theorem map_known_openAll (isOpen : Bool) (rows : Forest Row) :
    (openAll isOpen rows).map Row.known = rows.map Row.known := by
  rw [openAll, Forest.map_map]
  rfl

theorem map_known_reveal (id : Nat) (rows : Forest Row) :
    (reveal id rows).map Row.known = rows.map Row.known := by
  induction rows with
  | nil => rfl
  | cons r below beside ihb ihs =>
    simp only [reveal, Forest.map]
    rw [ihb, ihs]
    rfl

/-- Rows that are the same but for which of them are open show the same. -/
theorem map_item_of_known {rows others : Forest Row}
    (h : rows.map Row.known = others.map Row.known) : rows.map Row.item = others.map Row.item := by
  have hitem : Row.item = Prod.snd ∘ Row.known := rfl
  rw [hitem, ← Forest.map_map, h, Forest.map_map]

/-- Fresh rows have numbers of their own. -/
theorem le_and_lt_of_mem_planted {first : Nat} {items : Forest Item} {r : Row}
    (h : r ∈ (planted first items).values) : first ≤ r.id ∧ r.id < first + items.size := by
  induction items generalizing first with
  | nil => exact absurd h List.not_mem_nil
  | cons item below beside ihb ihs =>
    rw [Forest.size]
    rcases List.mem_cons.1 h with rfl | h
    · exact ⟨Nat.le_refl _, show first < _ by omega⟩
    · rcases List.mem_append.1 h with h | h
      · have hr := ihb h
        omega
      · have hr := ihs h
        omega

theorem has_iff {id : Nat} {rows : Forest Row} :
    has id rows = true ↔ ∃ r ∈ rows.values, r.id = id := by
  induction rows with
  | nil => simp [has, Forest.values]
  | cons r below beside ihb ihs =>
    simp only [has, Forest.values, Bool.or_eq_true, beq_iff_eq, ihb, ihs, List.mem_cons,
      List.mem_append, or_and_right, exists_or, exists_eq_left, or_assoc]

/-- A path of positions leads to one of the rows. -/
theorem mem_values_of_find? {path : List Nat} {rows : Forest Row} {r : Row}
    (h : find? path rows = some r) : r ∈ rows.values := by
  induction rows generalizing path with
  | nil => simp [find?] at h
  | cons first below beside ihb ihs =>
    match path with
    | [] => simp [find?] at h
    | 0 :: path =>
      rw [find?] at h
      split at h
      · cases h
        exact List.mem_cons_self
      · exact List.mem_cons_of_mem _ (List.mem_append_left _ (ihb h))
    | (k + 1) :: path =>
      rw [find?] at h
      exact List.mem_cons_of_mem _ (List.mem_append_right _ (ihs h))

end Rows

/-- An item stands for nothing, or it is the item of an include of the forest. -/
theorem file_or_ofTree_of_mem_populate {l : Limits} {depth count : Int} {f : Forest Include}
    {item : Item} (h : item ∈ (populate l depth f count).1.values) :
    item.file = none ∨ ∃ t ∈ f.subtrees, item = .ofTree t := by
  rw [Forest.values_eq_map_root] at h
  obtain ⟨shown, hshown, rfl⟩ := List.mem_map.1 h
  obtain ⟨p, hp⟩ := Forest.exists_at?_of_mem_subtrees hshown
  rcases file_or_placeholder_of_at? hp with ⟨t, ht, hroot⟩ | ⟨hnone, -⟩
  · exact .inr ⟨t, Forest.mem_subtrees_of_at? ht, hroot⟩
  · exact .inl hnone

variable {l : Limits} {depth count : Int} {f : Forest Include} {item : Item} {t : Tree Include}

/-- The include of an item is one of the forest that the items were made from. -/
theorem mem_subtrees_of_mem_populate (h : item ∈ (populate l depth f count).1.values)
    (ht : item.file = some t) : t ∈ f.subtrees := by
  rcases file_or_ofTree_of_mem_populate h with hnone | ⟨u, hu, rfl⟩
  · cases hnone.symm.trans ht
  · cases ht
    exact hu

theorem eq_ofTree_of_mem_populate (h : item ∈ (populate l depth f count).1.values)
    (ht : item.file = some t) : item = .ofTree t := by
  rcases file_or_ofTree_of_mem_populate h with hnone | ⟨u, -, rfl⟩
  · cases hnone.symm.trans ht
  · cases ht
    rfl

end IncludeTrace.Browser
