/-
When the browser says that includes are left out.

It says so twice, and the two are decided apart.  A row says so where a list of children breaks
off because the count has reached the limit; a message says so if the tree has more includes than
the limit.  Such a row is never there without the message.  But includes that are too deep are in
the message's number and never counted, so for a deep tree there can be the message and no such
row, and then fewer rows than the message tells of:

* `Item.tooDeep_ne_truncated` — what tells the two placeholders apart;
* `LeavesOut` — includes of which one comes after as many as there is room for;
* `length_reached`, `countP_populate` — how many rows stand for includes;
* `truncated_mem_populate_iff` — when a list breaks off;
* `Session.truncation_told` — the message and the row;
* `Session.truncation_told_deep` — a tree with the message alone.
-/
import IncludeTrace.Proofs.BrowsingPhases
import IncludeTrace.Proofs.RowLimits
import IncludeTrace.Proofs.TreeFigures

namespace IncludeTrace

namespace Browser

open Markup

/-! ### Placeholders -/

/-- The two kinds of placeholders can be told apart: one ends in an ellipsis, the other one in a
bracket. -/
theorem Item.tooDeep_ne_truncated (name : String) (greatest : Int) :
    Item.tooDeep name ≠ .truncated greatest := by
  intro h
  rw [tooDeep, truncated, placeholder, placeholder, mk.injEq] at h
  have hmarkup := congrArg String.toList h.1
  simp only [styled, String.toList_append, List.append_left_inj, List.append_right_inj] at hmarkup
  have hlast := congrArg List.getLast? hmarkup
  rw [List.getLast?_append_of_ne_nil _ (by decide),
    List.getLast?_append_of_ne_nil _ (by decide)] at hlast
  exact absurd hlast (by decide)

theorem Item.truncated_ne_ofTree (greatest : Int) (t : Tree Include) :
    Item.truncated greatest ≠ .ofTree t := by
  intro h
  have hfile : (Item.truncated greatest).file = (Item.ofTree t).file := congrArg Item.file h
  exact absurd hfile.symm (Option.some_ne_none t)

/-! ### Includes that come too late -/

/-- Of includes that are listed with their depths, one would get a row, as it is not below the
last level, but as many includes as there is room for stand in front of it above that level. -/
def LeavesOut (l : Limits) (room : Nat) (places : List (Nat × Include)) : Prop :=
  ∃ before p after, places = before ++ p :: after ∧ (p.1 : Int) ≤ l.levels ∧
    room ≤ before.countP fun q => (q.1 : Int) < l.levels

section LeavesOut

variable {l : Limits} {room : Nat} {p : Nat × Include} {places others : List (Nat × Include)}

theorem not_leavesOut_nil : ¬ LeavesOut l room [] := by
  rintro ⟨before, p, after, h, -, -⟩
  exact absurd h.symm (List.append_ne_nil_of_right_ne_nil before (List.cons_ne_nil p after))

theorem leavesOut_cons : LeavesOut l room (p :: places) ↔
    ((p.1 : Int) ≤ l.levels ∧ room = 0) ∨
      LeavesOut l (room - if (p.1 : Int) < l.levels then 1 else 0) places := by
  constructor
  · rintro ⟨before, q, after, h, hq, hroom⟩
    cases before with
    | nil =>
      cases h
      exact .inl ⟨hq, Nat.eq_zero_of_le_zero hroom⟩
    | cons r before =>
      cases h
      rw [List.countP_cons] at hroom
      refine .inr ⟨before, q, after, rfl, hq, ?_⟩
      simp only [decide_eq_true_eq] at hroom
      omega
  · rintro (⟨hp, rfl⟩ | ⟨before, q, after, rfl, hq, hroom⟩)
    · exact ⟨[], p, places, rfl, hp, Nat.zero_le _⟩
    · refine ⟨p :: before, q, after, rfl, hq, ?_⟩
      rw [List.countP_cons]
      simp only [decide_eq_true_eq]
      omega

theorem leavesOut_append : LeavesOut l room (places ++ others) ↔
    LeavesOut l room places ∨
      LeavesOut l (room - places.countP fun q => (q.1 : Int) < l.levels) others := by
  induction places generalizing room with
  | nil =>
    rw [List.nil_append, List.countP_nil, Nat.sub_zero, or_iff_right not_leavesOut_nil]
  | cons p places ih =>
    rw [List.cons_append, leavesOut_cons, leavesOut_cons, ih, or_assoc, List.countP_cons,
      Nat.sub_sub, Nat.add_comm]
    simp only [decide_eq_true_eq]

/-- Includes below the last level get no row anyway. -/
theorem not_leavesOut_of_deep (h : ∀ p ∈ places, l.levels < p.1) : ¬ LeavesOut l room places := by
  rintro ⟨before, p, after, rfl, hp, -⟩
  have hdeep := h p (List.mem_append_right _ List.mem_cons_self)
  omega

/-- If an include comes too late, the room is used up by others. -/
theorem LeavesOut.fills (h : LeavesOut l room places) :
    room ≤ places.countP (fun q => (q.1 : Int) < l.levels) ∧ room < places.length := by
  obtain ⟨before, p, after, rfl, -, hroom⟩ := h
  have hle := before.countP_le_length (p := fun q => decide ((q.1 : Int) < l.levels))
  rw [List.countP_append, List.length_append, List.length_cons]
  omega

/-- Of includes above the last level, one comes too late exactly if there are more than there is
room for. -/
theorem leavesOut_iff_of_high (h : ∀ p ∈ places, (p.1 : Int) < l.levels) :
    LeavesOut l room places ↔ room < places.length := by
  refine ⟨fun h => h.fills.2, fun hroom => ?_⟩
  refine ⟨places.take room, places[room], places.drop (room + 1), ?_, ?_, ?_⟩
  · rw [List.getElem_cons_drop, List.take_append_drop]
  · exact Int.le_of_lt (h _ (List.getElem_mem hroom))
  · rw [List.countP_eq_length.2, List.length_take_of_le (Nat.le_of_lt hroom)]
    exact fun p hp => decide_eq_true (h p (List.mem_of_mem_take hp))

end LeavesOut

/-! ### Rows of a forest -/

section Rows

variable {l : Limits} {depth : Nat} {count : Int} {f : Forest Include}

/-- The includes that are not too deep are the ones above the last level. -/
theorem length_reached (l : Limits) (depth : Nat) (f : Forest Include) :
    (reached l depth f).length
      = (f.preorderFrom depth).countP fun p => (p.1 : Int) < l.levels := by
  -- Both are counted over the levels alone, which addresses and preorder list in the same order.
  have hdepths := congrArg (List.countP fun n : Nat => decide ((n : Int) ≤ l.levels))
    (Forest.map_length_addresses_add depth f)
  rw [List.countP_map, List.countP_map] at hdepths
  rw [reached, ← List.countP_eq_length_filter]
  calc f.addresses.countP (fun p => decide ((depth : Int) + (p.length - 1 : Nat) < l.levels))
      = f.addresses.countP fun p => decide (((p.length + depth : Nat) : Int) ≤ l.levels) := by
        refine List.countP_congr fun p hp => ?_
        have hpos := List.length_pos_iff.2 (Forest.ne_nil_of_mem_addresses hp)
        simp only [decide_eq_true_eq]
        omega
    _ = (f.preorderFrom depth).countP fun p => decide (((p.1 + 1 : Nat) : Int) ≤ l.levels) :=
        hdepths
    _ = (f.preorderFrom depth).countP fun p => (p.1 : Int) < l.levels := by
        refine List.countP_congr fun p _ => ?_
        simp only [decide_eq_true_eq]
        omega

/-- The rows that stand for includes are as many as there is room for, or as there are includes
above the last level. -/
theorem countP_populate (l : Limits) (depth : Nat) (count : Int) (f : Forest Include) :
    (populate l depth f count).1.values.countP (·.file.isSome)
      = min (l.includes - count).toNat
          ((f.preorderFrom depth).countP fun p => (p.1 : Int) < l.levels) := by
  rw [← length_filed, filed_populate, List.length_take, length_reached]

/-- A list of children breaks off exactly if some include comes too late. -/
theorem truncated_mem_populate_iff (hdepth : (depth : Int) ≤ l.levels) :
    .truncated l.includes ∈ (populate l depth f count).1.values ↔
      LeavesOut l (l.includes - count).toNat (f.preorderFrom depth) := by
  induction f generalizing depth count with
  | nil => exact iff_of_false List.not_mem_nil not_leavesOut_nil
  | cons i below beside ihb ihs =>
    rw [Forest.preorderFrom, leavesOut_cons]
    rcases Int.lt_or_le count l.includes with hroom | hfull
    · obtain ⟨n, hn⟩ : ∃ n, (l.includes - count).toNat = n + 1 :=
        Nat.exists_eq_succ_of_ne_zero (by omega)
      rw [hn, or_iff_right fun h => Nat.succ_ne_zero n h.2, leavesOut_append]
      rcases Int.lt_or_le depth l.levels with hfits | hdeep
      · -- What is left for the includes beside is what those below have not used.
        have hinner : (l.includes - (count + 1)).toNat = n := by omega
        have hcount := count_populate l (depth + 1 : Nat) (count + 1) below
        rw [filed_populate, List.length_take, length_reached, hinner] at hcount
        have hrest : (l.includes - (populate l (depth + 1 : Nat) below (count + 1)).2).toNat
            = n - (below.preorderFrom (depth + 1)).countP
                fun p => (p.1 : Int) < l.levels := by
          omega
        rw [populate_fits hroom hfits, ← Int.natCast_succ, Forest.values, List.mem_cons,
          List.mem_append, ihb (by omega), ihs hdepth, hinner, hrest,
          if_pos hfits, Nat.add_sub_cancel,
          or_iff_right (Item.truncated_ne_ofTree l.includes ⟨i, below⟩)]
      · -- Nothing below is gone through, so it neither takes up room nor is left out.
        have hbelow : ∀ p ∈ below.preorderFrom (depth + 1), l.levels < p.1 := by
          intro p hp
          have hle := Forest.le_of_mem_preorderFrom hp
          omega
        have hnone : (below.preorderFrom (depth + 1)).countP (fun p => (p.1 : Int) < l.levels)
            = 0 := by
          refine List.countP_eq_zero.2 fun p hp hlt => ?_
          have hlt := of_decide_eq_true hlt
          have hle := hbelow p hp
          omega
        rw [populate_deep hroom hdeep, Forest.values, Forest.values, List.nil_append,
          List.mem_cons, or_iff_right (Item.tooDeep_ne_truncated i.name l.includes).symm,
          ihs hdepth, hn, or_iff_right (not_leavesOut_of_deep hbelow), hnone,
          if_neg (Int.not_lt.2 hdeep), Nat.sub_zero, Nat.sub_zero]
    · rw [populate_full hfull]
      exact iff_of_true (List.mem_singleton_self _) (.inl ⟨hdepth, by omega⟩)

end Rows

/-! ### Wide and deep trees -/

theorem preorderFrom_flat (i : Include) (n depth : Nat) :
    (flat i n).preorderFrom depth = List.replicate n (depth, i) := by
  induction n with
  | zero => rfl
  | succ n ih =>
    rw [flat, Forest.preorderFrom, ih]
    rfl

theorem preorderFrom_chain (i : Include) (n depth : Nat) (f : Forest Include) :
    (chain i n f).preorderFrom depth
      = (List.range' depth n).map (·, i) ++ f.preorderFrom (depth + n) := by
  induction n generalizing depth with
  | zero => rfl
  | succ n ih =>
    rw [chain, Forest.preorderFrom, ih, Forest.preorderFrom, List.append_nil, List.range'_succ,
      List.map_cons, List.cons_append, Nat.add_right_comm]
    rfl

/-- A deep tree that is wide on its last level. -/
theorem preorder_chain_flat (i : Include) (m n : Nat) :
    (chain i m (flat i n)).preorder
      = (List.range' 0 m).map (·, i) ++ List.replicate n (m, i) := by
  rw [Forest.preorder, preorderFrom_chain, preorderFrom_flat, Nat.zero_add]

theorem size_chain_flat (i : Include) (m n : Nat) : (chain i m (flat i n)).size = m + n := by
  rw [← Forest.length_preorderFrom 0, ← Forest.preorder, preorder_chain_flat, List.length_append,
    List.length_map, List.length_range', List.length_replicate]

theorem height_flat_le (i : Include) (n : Nat) : (flat i n).height ≤ 1 := by
  induction n with
  | zero => exact Nat.zero_le 1
  | succ n ih => exact Nat.max_le.2 ⟨Nat.le_refl 1, ih⟩

/-! ### The message -/

/-- The message that not all includes of a tree have rows. -/
def truncationNotice (t : IncludeTree) : Event :=
  .notify s!"Showing the first {Limits.usual.includes} of {t.count} includes" .warning 3

/-- The message is given exactly if there are too many includes, on whatever level. -/
theorem truncationNotice_mem_iff (s : Session) (t : IncludeTree) :
    truncationNotice t ∈ (s.step (.complete (.succeeded (some t)))).2 ↔
      5000 < t.includes.size := by
  show truncationNotice t ∈ Session.truncationWarning t ↔ _
  have hmany : Limits.usual.includes < (countNodes t.includes : Int) - 1 ↔
      5000 < t.includes.size := by
    rw [countNodes_eq]
    show (5000 : Int) < ↑(1 + t.includes.size) - 1 ↔ _
    omega
  rw [Session.truncationWarning]
  split
  · next h => exact iff_of_true (List.mem_singleton_self _) (hmany.1 h)
  · next h => exact iff_of_false List.not_mem_nil fun hlt => h (hmany.2 hlt)

/-- After a run with a tree, the rows show its items. -/
theorem items_of_succeeded (s : Session) (t : IncludeTree) :
    ((s.step (.complete (.succeeded (some t)))).1.rows.map Row.item).values
      = (populate .usual (0 : Nat) t.includes 0).1.values :=
  congrArg Forest.values (Rows.map_item_planted s.nextId _)

theorem high_iff {p : Nat × Include} :
    decide ((p.1 : Int) < Limits.usual.levels) = true ↔ decide (p.1 < 64) = true := by
  rw [decide_eq_true_eq, decide_eq_true_eq]
  exact Int.ofNat_lt

theorem countP_of_succeeded (s : Session) (t : IncludeTree) :
    ((s.step (.complete (.succeeded (some t)))).1.rows.map Row.item).values.countP
        (·.file.isSome)
      = min 5000 (t.includes.preorder.countP (·.1 < 64)) := by
  rw [items_of_succeeded, countP_populate, List.countP_congr fun _ _ => high_iff]
  rfl

theorem truncated_mem_of_succeeded_iff (s : Session) (t : IncludeTree) :
    .truncated 5000 ∈ ((s.step (.complete (.succeeded (some t)))).1.rows.map Row.item).values ↔
      LeavesOut .usual 5000 t.includes.preorder := by
  rw [items_of_succeeded]
  exact truncated_mem_populate_iff (by decide)

/-- Where no include is too deep, one comes too late exactly if there are too many. -/
theorem leavesOut_iff_of_height {f : Forest Include} (h : f.height ≤ 64) (room : Nat) :
    LeavesOut .usual room f.preorder ↔ room < f.size := by
  have hhigh : ∀ p ∈ f.preorder, (p.1 : Int) < Limits.usual.levels := by
    intro p hp
    have hlt := Forest.lt_of_mem_preorderFrom hp
    show (p.1 : Int) < 64
    omega
  rw [leavesOut_iff_of_high hhigh, Forest.preorder, Forest.length_preorderFrom]

/-- **A row that says that includes are left out is never there without the message.**  In every
session, when a run gives a tree: the message is given exactly if the tree has more than 5000
includes.  The row is there exactly if some include down to level 64 comes after 5000 that are
above it, and then 5000 includes have rows.  So where the tree has no more than 64 levels, the
message and the row go together; in a deeper tree, those below are in the number of the message
alone. -/
theorem Session.truncation_told (s : Session) (t : IncludeTree) :
    let r := s.step (.complete (.succeeded (some t)))
    let items := (r.1.rows.map Row.item).values
    (truncationNotice t ∈ r.2 ↔ 5000 < t.includes.size) ∧
    items.countP (·.file.isSome) = min 5000 (t.includes.preorder.countP (·.1 < 64)) ∧
    (.truncated 5000 ∈ items ↔ LeavesOut .usual 5000 t.includes.preorder) ∧
    (.truncated 5000 ∈ items →
      truncationNotice t ∈ r.2 ∧ items.countP (·.file.isSome) = 5000) ∧
    (t.includes.height ≤ 64 →
      (truncationNotice t ∈ r.2 ↔ .truncated 5000 ∈ items) ∧
      (truncationNotice t ∈ r.2 → items.countP (·.file.isSome) = 5000)) := by
  intro r items
  have hnotice := truncationNotice_mem_iff s t
  have hcount := countP_of_succeeded s t
  have hrow := truncated_mem_of_succeeded_iff s t
  -- One direction holds of every tree: the row comes only after the room is used up.
  have hfull : .truncated 5000 ∈ items →
      truncationNotice t ∈ r.2 ∧ items.countP (·.file.isSome) = 5000 := by
    intro h
    obtain ⟨hroom, hsize⟩ := (hrow.1 h).fills
    rw [Forest.preorder, Forest.length_preorderFrom] at hsize
    rw [List.countP_congr fun _ _ => high_iff] at hroom
    exact ⟨hnotice.2 hsize, hcount.trans (Nat.min_eq_left hroom)⟩
  refine ⟨hnotice, hcount, hrow, hfull, fun hheight => ?_⟩
  have hboth : truncationNotice t ∈ r.2 ↔ .truncated 5000 ∈ items := by
    rw [hnotice, hrow, leavesOut_iff_of_height hheight]
  exact ⟨hboth, fun h => (hfull (hboth.1 h)).2⟩

/-- Of 5001 includes side by side, 5000 have rows, and the message and the row say that there are
more. -/
theorem Session.truncation_told_wide :
    let i : Include := ⟨"a.h", "a.h"⟩
    let t : IncludeTree := ⟨flat i 5001, 5001, some "a.c"⟩
    let s := (Session.opened (some "a.c") (Disk.blank [] [])).after [.refresh]
    let r := s.step (.complete (.succeeded (some t)))
    let items := (r.1.rows.map Row.item).values
    t.includes.height ≤ 64 ∧
      truncationNotice t ∈ r.2 ∧ .truncated 5000 ∈ items ∧
      items.countP (·.file.isSome) = 5000 := by
  intro i t s r items
  have hsize : t.includes.size = 5001 := size_chain_flat i 0 5001
  have hheight : t.includes.height ≤ 64 := (height_flat_le i 5001).trans (by decide)
  obtain ⟨hnotice, -, -, -, htold⟩ := Session.truncation_told s t
  have hgiven := hnotice.2 (by omega)
  exact ⟨hheight, hgiven, (htold hheight).1.1 hgiven, (htold hheight).2 hgiven⟩

/-- Of a tree with 64 levels of one include and 4937 includes below them, 64 includes have rows.
The message tells of 5000, and there is no row that says so. -/
theorem Session.truncation_told_deep :
    let i : Include := ⟨"a", "a"⟩
    let t : IncludeTree := ⟨chain i 64 (flat i 4937), 5001, some "a.c"⟩
    let s := (Session.opened (some "a.c") (Disk.blank [] [])).after [.refresh]
    let r := s.step (.complete (.succeeded (some t)))
    let items := (r.1.rows.map Row.item).values
    t.count = t.includes.size ∧ truncationNotice t ∈ r.2 ∧ .truncated 5000 ∉ items ∧
      items.countP (·.file.isSome) = 64 := by
  intro i t s r items
  have hsize : t.includes.size = 5001 := size_chain_flat i 64 4937
  have hhigh : t.includes.preorder.countP (·.1 < 64) = 64 := by
    have hchain : ((List.range' 0 64).map (·, i)).countP (·.1 < 64) = 64 := by decide +kernel
    rw [preorder_chain_flat, List.countP_append, List.countP_replicate, hchain,
      if_neg (by decide)]
  refine ⟨by rw [hsize]; rfl, (truncationNotice_mem_iff s t).2 (by omega), fun h => ?_, ?_⟩
  · -- There would be 5000 includes above the last level.
    have hroom := ((truncated_mem_of_succeeded_iff s t).1 h).fills.1
    rw [List.countP_congr fun _ _ => high_iff, hhigh] at hroom
    omega
  · exact (countP_of_succeeded s t).trans (by rw [hhigh]; rfl)

end Browser

end IncludeTrace
