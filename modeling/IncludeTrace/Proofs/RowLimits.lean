/-
How many rows a forest gets.

Only rows that stand for an include are counted against the limit.  Where the count has reached
it, a list of children breaks off with one row that says so.  The count never goes back, so no
list that is opened later gets further than such a row, and on each level above the last one
there is at most one of them.  But on the last level every include has a row that says it is too
deep, as long as the count has room, and these rows are not counted:

* `bare` — the depths of the rows above the last level that stand for no include;
* `bare_eq_nil`, `nodup_bare` — there is none while the count has room, and then one on a level;
* `depths_populate`, `le_levels_of_mem_populate` — each row takes the place of an include, and
  none stands below the last level;
* `Capped`, `populate_capped` — the bounds on all rows but those on the last level;
* `populate_uncapped` — rows that are too deep go beyond the limit;
* `exists_size_populate` — there is no bound on them.
-/
import IncludeTrace.Proofs.PopulatedRows
import Mathlib.Data.List.Nodup
import Mathlib.Data.List.Perm.Subperm

namespace IncludeTrace.Browser

/-- The depths of the rows above the last level that stand for no include, where the outermost
rows are at a given depth. -/
def bare (l : Limits) (depth : Nat) (items : Forest Item) : List Nat :=
  ((items.preorderFrom depth).filter fun p =>
    p.2.file.isNone && decide ((p.1 : Int) < l.levels)).map Prod.fst

/-! ### Node by node -/

section Nodes

variable {l : Limits} {depth : Nat} {item : Item} {inner rest : Forest Item}

theorem bare_cons : bare l depth (.cons item inner rest)
    = (if item.file.isNone && decide ((depth : Int) < l.levels) then [depth] else [])
      ++ (bare l (depth + 1) inner ++ bare l depth rest) := by
  simp only [bare, Forest.preorderFrom, List.filter_cons, List.filter_append]
  split <;> simp

theorem bare_ofTree (t : Tree Include) : bare l depth (.cons (.ofTree t) inner rest)
    = bare l (depth + 1) inner ++ bare l depth rest :=
  bare_cons

theorem bare_tooDeep (h : l.levels ≤ depth) (name : String) :
    bare l depth (.cons (.tooDeep name) .nil rest) = bare l depth rest := by
  rw [bare_cons, decide_eq_false (Int.not_lt.2 h), Bool.and_false]
  rfl

theorem le_of_mem_bare {d : Nat} {items : Forest Item} (h : d ∈ bare l depth items) :
    depth ≤ d := by
  obtain ⟨p, hp, rfl⟩ := List.mem_map.1 h
  exact Forest.le_of_mem_preorderFrom (List.mem_filter.1 hp).1

theorem lt_of_mem_bare {d : Nat} {items : Forest Item} (h : d ∈ bare l depth items) :
    (d : Int) < l.levels := by
  obtain ⟨p, hp, rfl⟩ := List.mem_map.1 h
  have hboth := (List.mem_filter.1 hp).2
  rw [Bool.and_eq_true] at hboth
  exact of_decide_eq_true hboth.2

theorem length_filed (items : Forest Item) :
    (filed items).length = items.values.countP (·.file.isSome) := by
  induction items with
  | nil => rfl
  | cons item inner rest ihb ihs =>
    rw [filed_cons, Forest.values, List.countP_cons, List.countP_append, ← ihb, ← ihs]
    simp only [List.length_append, List.length_map]
    split
    · rw [List.length_singleton, Nat.add_comm]
    · rw [List.length_nil, Nat.zero_add, Nat.add_zero]

end Nodes

/-! ### Rows that say that includes are left out -/

section Truncations

variable {l : Limits} {depth : Nat} {count : Int} {f : Forest Include}

theorem count_le_populate (l : Limits) (depth count : Int) (f : Forest Include) :
    count ≤ (populate l depth f count).2 := by
  rw [count_populate]
  omega

/-- Where the count has reached the limit, there is one row at most. -/
theorem bare_sublist_of_full (h : l.includes ≤ count) :
    (bare l depth (populate l depth f count).1).Sublist [depth] := by
  cases f with
  | nil => exact List.nil_sublist _
  | cons i below beside =>
    rw [populate_full h, bare_cons]
    split
    · exact List.Sublist.refl _
    · exact List.nil_sublist _

/-- While the count has room, every row above the last level stands for an include. -/
theorem bare_eq_nil (h : (populate l depth f count).2 < l.includes) :
    bare l depth (populate l depth f count).1 = [] := by
  induction f generalizing depth count with
  | nil => rfl
  | cons i below beside ihb ihs =>
    have hroom : count < l.includes := Int.lt_of_le_of_lt (count_le_populate l depth count _) h
    rcases Int.lt_or_le depth l.levels with hfits | hdeep
    · rw [populate_fits hroom hfits, ← Int.natCast_succ] at h ⊢
      have hbelow := Int.lt_of_le_of_lt (count_le_populate l depth _ beside) h
      rw [bare_ofTree, ihb hbelow, ihs h, List.append_nil]
    · rw [populate_deep hroom hdeep] at h ⊢
      rw [bare_tooDeep hdeep, ihs h]

/-- On each level above the last one, at most one row stands for no include. -/
theorem nodup_bare (l : Limits) (depth : Nat) (f : Forest Include) (count : Int) :
    (bare l depth (populate l depth f count).1).Nodup := by
  induction f generalizing depth count with
  | nil => exact List.nodup_nil
  | cons i below beside ihb ihs =>
    rcases Int.lt_or_le count l.includes with hroom | hfull
    · rcases Int.lt_or_le depth l.levels with hfits | hdeep
      · rw [populate_fits hroom hfits, ← Int.natCast_succ, bare_ofTree]
        rcases Int.lt_or_le (populate l (depth + 1 : Nat) below (count + 1)).2 l.includes with
          hleft | hspent
        · -- Nothing is left out below.
          rw [bare_eq_nil hleft, List.nil_append]
          exact ihs depth _
        · -- Beside there is one such row at most, and those below are on deeper levels.
          have hone : (bare l depth (populate l depth beside _).1).Sublist [depth] :=
            bare_sublist_of_full hspent
          refine List.nodup_append.2 ⟨ihb (depth + 1) _, ihs depth _, ?_⟩
          intro d hd e he hde
          have hlow : depth + 1 ≤ d := le_of_mem_bare hd
          have hhigh : e = depth := List.mem_singleton.1 (hone.subset he)
          omega
      · rw [populate_deep hroom hdeep, bare_tooDeep hdeep]
        exact ihs depth count
    · exact (bare_sublist_of_full hfull).nodup (List.nodup_singleton depth)

end Truncations

/-! ### Levels -/

section Levels

variable {l : Limits} {depth : Nat} {count : Int} {f : Forest Include}

/-- Each row takes the place of an include. -/
theorem depths_populate (l : Limits) (depth : Nat) (f : Forest Include) (count : Int) :
    (((populate l depth f count).1.preorderFrom depth).map Prod.fst).Sublist
      ((f.preorderFrom depth).map Prod.fst) := by
  induction f generalizing depth count with
  | nil => exact List.Sublist.refl _
  | cons i below beside ihb ihs =>
    simp only [Forest.preorderFrom, List.map_cons, List.map_append]
    rcases Int.lt_or_le count l.includes with hroom | hfull
    · rcases Int.lt_or_le depth l.levels with hfits | hdeep
      · rw [populate_fits hroom hfits, ← Int.natCast_succ]
        simp only [Forest.preorderFrom, List.map_cons, List.map_append]
        exact ((ihb (depth + 1) _).append (ihs depth _)).cons_cons depth
      · rw [populate_deep hroom hdeep]
        simp only [Forest.preorderFrom, List.map_cons, List.nil_append]
        exact ((ihs depth count).trans (List.sublist_append_right _ _)).cons_cons depth
    · -- One row stands for all that is left, on the level where the room was used up.
      rw [populate_full hfull]
      exact (List.nil_sublist _).cons_cons depth

/-- No row stands below the last level, and those on it stand for no include. -/
theorem le_levels_of_mem_populate {p : Nat × Item} (hdepth : (depth : Int) ≤ max l.levels 0)
    (h : p ∈ (populate l depth f count).1.preorderFrom depth) :
    (p.1 : Int) ≤ max l.levels 0 ∧ (l.levels ≤ p.1 → p.2.file = none) := by
  induction f generalizing depth count with
  | nil => exact absurd h List.not_mem_nil
  | cons i below beside ihb ihs =>
    rcases Int.lt_or_le count l.includes with hroom | hfull
    · rcases Int.lt_or_le depth l.levels with hfits | hdeep
      · rw [populate_fits hroom hfits, ← Int.natCast_succ, Forest.preorderFrom] at h
        rcases List.mem_cons.1 h with rfl | h
        · exact ⟨hdepth, fun hle => absurd hfits (Int.not_lt.2 hle)⟩
        · rcases List.mem_append.1 h with h | h
          · exact ihb (by omega) h
          · exact ihs hdepth h
      · rw [populate_deep hroom hdeep, Forest.preorderFrom] at h
        rcases List.mem_cons.1 h with rfl | h
        · exact ⟨hdepth, fun _ => rfl⟩
        · exact ihs hdepth h
    · rw [populate_full hfull] at h
      rw [List.mem_singleton.1 h]
      exact ⟨hdepth, fun _ => rfl⟩

end Levels

/-! ### All rows -/

/-- How many nodes of a forest stand at a depth. -/
def nodesAt {α : Type} (depth : Nat) (f : Forest α) : Nat :=
  f.preorder.countP fun p => p.1 = depth

/-- Rows within the limits: all but those on the last level are bounded. -/
structure Capped (l : Limits) (f : Forest Include) (rows : Forest Item) : Prop where
  /-- No more rows stand for includes than there is room for. -/
  filed : rows.values.countP (·.file.isSome) ≤ l.includes.toNat
  /-- Each level above the last one has at most one row beside those. -/
  others : (bare l 0 rows).Nodup
  /-- Each row takes the place of an include. -/
  places : (rows.preorder.map Prod.fst).Sublist (f.preorder.map Prod.fst)
  /-- On the last level no row stands for an include, and below it there is none. -/
  last : ∀ p ∈ rows.preorder, p.1 ≤ l.levels.toNat ∧
    (p.1 = l.levels.toNat → p.2.file = none)

variable {l : Limits} {f : Forest Include} {rows : Forest Item}

theorem capped_populate (l : Limits) (f : Forest Include) :
    Capped l f (populate l 0 f 0).1 where
  filed := by
    rw [← length_filed, filed_populate, Int.sub_zero]
    exact List.length_take_le _ _
  others := nodup_bare l 0 f 0
  places := depths_populate l 0 f 0
  last := by
    intro p hp
    have hzero : ((0 : Nat) : Int) ≤ max l.levels 0 := Int.le_max_right _ _
    obtain ⟨hle, hnone⟩ := le_levels_of_mem_populate hzero hp
    exact ⟨by omega, fun heq => hnone (by omega)⟩

theorem Capped.length_bare_le (h : Capped l f rows) :
    (bare l 0 rows).length ≤ l.levels.toNat := by
  have hlevels : bare l 0 rows ⊆ List.range l.levels.toNat := by
    intro d hd
    have hlt := lt_of_mem_bare hd
    exact List.mem_range.2 (by omega)
  have hle := (List.subperm_of_subset h.others hlevels).length_le
  rwa [List.length_range] at hle

theorem Capped.nodesAt_le (h : Capped l f rows) (depth : Nat) :
    nodesAt depth rows ≤ nodesAt depth f := by
  have hmap {α : Type} (g : Forest α) :
      nodesAt depth g = (g.preorder.map Prod.fst).countP (· = depth) := by
    rw [List.countP_map]
    rfl
  rw [hmap, hmap]
  exact h.places.countP_le

/-- What is of one of three kinds is counted with one of them. -/
theorem length_le_of_three {α : Type} {p q r : α → Bool} {list : List α}
    (h : ∀ x ∈ list, p x = true ∨ q x = true ∨ r x = true) :
    list.length ≤ list.countP p + list.countP q + list.countP r := by
  induction list with
  | nil => exact Nat.zero_le _
  | cons x list ih =>
    have hx := h x List.mem_cons_self
    have hlist := ih fun y hy => h y (List.mem_cons_of_mem x hy)
    simp only [List.length_cons, List.countP_cons]
    rcases hx with hx | hx | hx
    · rw [if_pos hx]
      omega
    · rw [if_pos hx]
      omega
    · rw [if_pos hx]
      omega

/-- A row stands for an include, or is the one row of its level that does not, or is on the last
level. -/
theorem Capped.size_le (h : Capped l f rows) :
    rows.size ≤ l.includes.toNat + l.levels.toNat + nodesAt l.levels.toNat rows := by
  have hfiled : rows.preorder.countP (fun p => p.2.file.isSome)
      = rows.values.countP (·.file.isSome) := by
    rw [← Forest.map_snd_preorderFrom 0, List.countP_map]
    rfl
  have hbare : rows.preorder.countP
      (fun p => p.2.file.isNone && decide ((p.1 : Int) < l.levels)) ≤ l.levels.toNat := by
    have hlength := h.length_bare_le
    rwa [bare, List.length_map, ← List.countP_eq_length_filter] at hlength
  -- A row has a file, or stands above the last level without one, or is on the last level.
  have hkinds : ∀ p ∈ rows.preorder, p.2.file.isSome = true ∨
      (p.2.file.isNone && decide ((p.1 : Int) < l.levels)) = true ∨
      decide (p.1 = l.levels.toNat) = true := by
    intro p hp
    have hle := (h.last p hp).1
    cases hfile : p.2.file with
    | some t => exact .inl rfl
    | none =>
      rcases Int.lt_or_le p.1 l.levels with hlt | hdeep
      · exact .inr (.inl (by simpa using hlt))
      · exact .inr (.inr (decide_eq_true (by omega)))
  -- Each kind has its own bound, and the last one is what it is.
  have hsize : rows.size = rows.preorder.length := (Forest.length_preorderFrom 0 rows).symm
  have hthree := length_le_of_three hkinds
  have hroom := h.filed
  rw [hsize, nodesAt]
  omega

/-- **The limits bound all rows but those that are too deep.**  Beside the rows of the includes
that there is room for, each level above the last one has one row at most.  Each row takes the
place of an include, so if a single one stands on the last level, the levels down to this one add
no more than one row each. -/
theorem populate_capped (l : Limits) (f : Forest Include) :
    let rows := (populate l 0 f 0).1
    Capped l f rows ∧
      rows.size ≤ l.includes.toNat + l.levels.toNat + nodesAt l.levels.toNat rows ∧
      (nodesAt l.levels.toNat f ≤ 1 →
        rows.size ≤ l.includes.toNat + l.levels.toNat + 1) := by
  intro rows
  have hcapped : Capped l f rows := capped_populate l f
  have hsize := hcapped.size_le
  refine ⟨hcapped, hsize, fun hlast => ?_⟩
  have hle := hcapped.nodesAt_le l.levels.toNat
  omega

/-- With room for two includes above the second level, three lists break off, and no more rows
are possible. -/
theorem populate_capped_full :
    let f : Forest Include :=
      .cons ⟨"a", "a"⟩
        (.cons ⟨"b", "b"⟩ (.cons ⟨"c", "c"⟩ .nil .nil) (.cons ⟨"d", "d"⟩ .nil .nil))
        (.cons ⟨"e", "e"⟩ .nil (.cons ⟨"f", "f"⟩ .nil .nil))
    let rows := (populate ⟨2, 2⟩ 0 f 0).1
    nodesAt 2 f ≤ 1 ∧ rows.size ≤ 2 + 2 + 1 ∧ rows.size = 5 := by
  intro f rows
  have hlast : nodesAt 2 f ≤ 1 := by decide +kernel
  exact ⟨hlast, (populate_capped ⟨2, 2⟩ f).2.2 hlast, by decide +kernel⟩

/-- Four includes that are too deep have a row each, although there is room for two includes. -/
theorem populate_uncapped :
    let f : Forest Include :=
      .cons ⟨"a.h", "a.h"⟩ (.cons ⟨"b.h", "b.h"⟩ .nil (.cons ⟨"c.h", "c.h"⟩ .nil
        (.cons ⟨"d.h", "d.h"⟩ .nil (.cons ⟨"e.h", "e.h"⟩ .nil .nil)))) .nil
    let l : Limits := ⟨1, 2⟩
    ¬ ((populate l 0 f 0).1.size : Int) ≤ l.includes + l.levels + 1 := by
  decide +kernel

/-! ### No bound -/

/-- Includes side by side, with nothing below them. -/
def flat (i : Include) : Nat → Forest Include
  | 0 => .nil
  | n + 1 => .cons i .nil (flat i n)

/-- A chain of includes, each below the one before it, and a forest below the last one. -/
def chain (i : Include) : Nat → Forest Include → Forest Include
  | 0, f => f
  | n + 1, f => .cons i (chain i n f) .nil

theorem size_populate_flat {l : Limits} {depth count : Int} (hroom : count < l.includes)
    (hdeep : l.levels ≤ depth) (i : Include) (n : Nat) :
    (populate l depth (flat i n) count).1.size = n := by
  induction n with
  | zero => rfl
  | succ n ih =>
    rw [flat, populate_deep hroom hdeep, Forest.size, Forest.size, ih]
    omega

theorem size_populate_chain {l : Limits} {depth count : Int} {n : Nat} {f : Forest Include}
    (hroom : count + n ≤ l.includes) (hfits : depth + n ≤ l.levels) (i : Include) :
    (populate l depth (chain i n f) count).1.size
      = n + (populate l (depth + n) f (count + n)).1.size := by
  induction n generalizing depth count with
  | zero => simp [chain]
  | succ n ih =>
    rw [chain, populate_fits (by omega) (by omega), Forest.size, ih (by omega) (by omega)]
    rw [show depth + 1 + (n : Int) = depth + (n + 1 : Nat) by omega,
      show count + 1 + (n : Int) = count + (n + 1 : Nat) by omega]
    show 1 + _ + 0 = _
    omega

/-- Where the count still has room on the last level, as with the usual limits, no number bounds
the rows. -/
theorem exists_size_populate {l : Limits} (hlevels : 0 ≤ l.levels)
    (hroom : l.levels < l.includes) (n : Nat) :
    ∃ f, n ≤ (populate l 0 f 0).1.size := by
  let i : Include := ⟨"a.h", "a.h"⟩
  refine ⟨chain i l.levels.toNat (flat i n), ?_⟩
  have hall : (l.levels.toNat : Int) = l.levels := Int.toNat_of_nonneg hlevels
  rw [size_populate_chain (by omega) (by omega) i,
    size_populate_flat (by omega) (by omega) i n]
  exact Nat.le_add_left n _

end IncludeTrace.Browser
