/-
The rows are filled in preorder, as far as there is room for them.

One count goes through all levels.  Where it has reached the greatest number, only the list of
children at hand breaks off; the lists around it go on, but they find the count as it is and
break off at their next include.  So the items that stand for includes are the first ones of
the preorder, those too deep left out, and each of them is at the place of its include, because
placeholders take the places of includes as well.

* `filed`, `reached` — the addresses of items with an include, and of includes not too deep;
* `populate_full`, `populate_deep`, `populate_fits` — what becomes of one include;
* `count_populate` — each item with an include is counted, and nothing else is;
* `filed_populate` — there are as many as there is room for, and the first ones;
* `Placed`, `populate_fills` — each item stands where its include does.
-/
import IncludeTrace.Browser.Rows
import IncludeTrace.Proofs.Addresses
import Mathlib.Data.List.Basic

namespace IncludeTrace.Browser

/-- The addresses of the items that stand for an include, from top to bottom. -/
def filed (items : Forest Item) : List (List Nat) :=
  items.addresses.filter fun p => ((items.at? p).bind fun t => t.root.file).isSome

/-- The addresses of the includes that are not too deep, where the outermost ones are at a
given depth. -/
def reached (l : Limits) (depth : Int) (f : Forest Include) : List (List Nat) :=
  f.addresses.filter fun p => depth + (p.length - 1 : Nat) < l.levels

/-! ### Node by node -/

section Nodes

variable {item : Item} {inner rest : Forest Item}

theorem filed_cons : filed (.cons item inner rest)
    = (if item.file.isSome then [[0]] else [])
      ++ ((filed inner).map (0 :: ·) ++ (filed rest).map Forest.further) := by
  have hinner : ∀ p ∈ inner.addresses,
      (((Forest.cons item inner rest).at? (0 :: p)).bind fun t => t.root.file).isSome
        = ((inner.at? p).bind fun t => t.root.file).isSome := by
    intro p hp
    rw [Forest.at?_below (Forest.ne_nil_of_mem_addresses hp)]
  simp only [filed, Forest.addresses, List.filter_cons, List.filter_append, List.filter_map,
    Function.comp_def, Forest.at?_first, Forest.at?_further, Option.bind_some]
  rw [List.filter_congr hinner]
  split <;> rfl

theorem filed_nil : filed .nil = [] := rfl

theorem filed_placeholder (markup : String) :
    filed (.cons (.placeholder markup) .nil rest) = (filed rest).map Forest.further := by
  rw [filed_cons, filed_nil]
  rfl

theorem filed_ofTree (t : Tree Include) : filed (.cons (.ofTree t) inner rest)
    = [0] :: ((filed inner).map (0 :: ·) ++ (filed rest).map Forest.further) :=
  filed_cons

variable {l : Limits} {depth count : Int} {i : Include} {below beside : Forest Include}

theorem populate_full (h : l.includes ≤ count) : populate l depth (.cons i below beside) count
    = (.cons (.truncated l.includes) .nil .nil, count) := by
  rw [populate, if_pos h]

theorem populate_deep (h : count < l.includes) (hdeep : l.levels ≤ depth) :
    populate l depth (.cons i below beside) count
      = (.cons (.tooDeep i.name) .nil (populate l depth beside count).1,
          (populate l depth beside count).2) := by
  rw [populate, if_neg (Int.not_le.2 h), if_pos hdeep]

theorem populate_fits (h : count < l.includes) (hfits : depth < l.levels) :
    populate l depth (.cons i below beside) count
      = (.cons (.ofTree ⟨i, below⟩) (populate l (depth + 1) below (count + 1)).1
            (populate l depth beside (populate l (depth + 1) below (count + 1)).2).1,
          (populate l depth beside (populate l (depth + 1) below (count + 1)).2).2) := by
  rw [populate, if_neg (Int.not_le.2 h), if_neg (Int.not_le.2 hfits)]

theorem reached_cons (h : depth < l.levels) : reached l depth (.cons i below beside)
    = [0] :: ((reached l (depth + 1) below).map (0 :: ·)
      ++ (reached l depth beside).map Forest.further) := by
  have hbelow : ∀ p ∈ below.addresses,
      decide (depth + ((0 :: p).length - 1 : Nat) < l.levels)
        = decide (depth + 1 + (p.length - 1 : Nat) < l.levels) := by
    intro p hp
    have hpos := List.length_pos_iff.2 (Forest.ne_nil_of_mem_addresses hp)
    rw [List.length_cons]
    -- Addresses are not empty, so the two cut-off subtractions agree.
    congr 2
    omega
  simp only [reached, Forest.addresses, List.filter_cons, List.filter_append, List.filter_map,
    Function.comp_def, Forest.length_further]
  rw [List.filter_congr hbelow, if_pos (by simpa using h)]

theorem reached_eq_nil (h : l.levels ≤ depth) (f : Forest Include) : reached l depth f = [] := by
  rw [reached, List.filter_eq_nil_iff]
  intro p _ hp
  have hlt := of_decide_eq_true hp
  omega

end Nodes

/-! ### The whole forest -/

section Whole

variable (l : Limits) (depth count : Int) (f : Forest Include)

/-- Each item with an include is counted, and nothing else is. -/
theorem count_populate :
    (populate l depth f count).2 = count + (filed (populate l depth f count).1).length := by
  -- Along `populate`, in its three cases: no room is left, the level is too deep, or it fits.
  induction f generalizing depth count with
  | nil => exact (Int.add_zero count).symm
  | cons i below beside ihb ihs =>
    rcases Int.lt_or_le count l.includes with hroom | hfull
    · rcases Int.lt_or_le depth l.levels with hfits | hdeep
      · have hbelow := ihb (depth + 1) (count + 1)
        have hbeside := ihs depth (populate l (depth + 1) below (count + 1)).2
        rw [populate_fits hroom hfits, filed_ofTree, List.length_cons, List.length_append,
          List.length_map, List.length_map]
        omega
      · rw [populate_deep hroom hdeep, Item.tooDeep, filed_placeholder, List.length_map]
        exact ihs depth count
    · rw [populate_full hfull, Item.truncated, filed_placeholder]
      exact (Int.add_zero count).symm

/-- The items with an include stand where the first includes do that are not too deep, as many
as there is room for. -/
theorem filed_populate : filed (populate l depth f count).1
    = (reached l depth f).take (l.includes - count).toNat := by
  induction f generalizing depth count with
  | nil => exact List.take_nil.symm
  | cons i below beside ihb ihs =>
    rcases Int.lt_or_le count l.includes with hroom | hfull
    · rcases Int.lt_or_le depth l.levels with hfits | hdeep
      · -- What is left for the trees beside is what those below have not used.
        obtain ⟨n, hn⟩ : ∃ n, (l.includes - count).toNat = n + 1 :=
          Nat.exists_eq_succ_of_ne_zero (by omega)
        have hinner : (l.includes - (count + 1)).toNat = n := by omega
        have hcount := count_populate l (depth + 1) (count + 1) below
        rw [ihb, hinner, List.length_take] at hcount
        have hrest : (l.includes - (populate l (depth + 1) below (count + 1)).2).toNat
            = n - (reached l (depth + 1) below).length := by omega
        rw [populate_fits hroom hfits, filed_ofTree, ihb, ihs, hinner, hrest,
          reached_cons hfits, hn, List.take_succ_cons, List.take_append, List.length_map,
          List.map_take, List.map_take]
      · rw [populate_deep hroom hdeep, Item.tooDeep, filed_placeholder, ihs,
          reached_eq_nil hdeep, reached_eq_nil hdeep, List.take_nil]
        rfl
    · have hnone : (l.includes - count).toNat = 0 := by omega
      rw [populate_full hfull, Item.truncated, filed_placeholder, hnone, List.take_zero]
      rfl

end Whole

/-! ### Item by item -/

variable {l : Limits} {depth count : Int} {f : Forest Include} {p : List Nat}
  {shown : Tree Item}

/-- An item is the one of the include at its place, or it stands for nothing, and then nothing
hangs below it. -/
theorem file_or_placeholder_of_at? (h : (populate l depth f count).1.at? p = some shown) :
    (∃ t, f.at? p = some t ∧ shown.root = .ofTree t) ∨
      shown.root.file = none ∧ shown.below = .nil := by
  induction f generalizing depth count p with
  | nil => exact absurd (h.symm.trans (Forest.at?_nil p)) (Option.some_ne_none shown)
  | cons i below beside ihb ihs =>
    have hnone : ∀ q, ((.nil : Forest Item).at? q) ≠ some shown := by
      intro q hq
      exact Option.some_ne_none shown (hq.symm.trans (Forest.at?_nil q))
    rcases Int.lt_or_le count l.includes with hroom | hfull
    · rcases Int.lt_or_le depth l.levels with hfits | hdeep
      · rw [populate_fits hroom hfits] at h
        rcases Forest.at?_cons_cases h with ⟨rfl, rfl⟩ | ⟨q, hq, rfl, hat⟩ | ⟨q, rfl, hat⟩
        · exact .inl ⟨⟨i, below⟩, rfl, rfl⟩
        · rw [Forest.at?_below hq]
          exact ihb hat
        · rw [Forest.at?_further]
          exact ihs hat
      · rw [populate_deep hroom hdeep] at h
        -- A row in the place of an include has nothing below it, so only its own address is met.
        rcases Forest.at?_cons_cases h with ⟨rfl, rfl⟩ | ⟨q, -, rfl, hat⟩ | ⟨q, rfl, hat⟩
        · exact .inr ⟨rfl, rfl⟩
        · exact absurd hat (hnone q)
        · rw [Forest.at?_further]
          exact ihs hat
    · rw [populate_full hfull] at h
      rcases Forest.at?_cons_cases h with ⟨rfl, rfl⟩ | ⟨q, -, rfl, hat⟩ | ⟨q, rfl, hat⟩
      · exact .inr ⟨rfl, rfl⟩
      · exact absurd hat (hnone q)
      · exact absurd hat (hnone q)

/-- An item that stands for an include is made from the include at its place. -/
theorem exists_of_mem_filed (h : p ∈ filed (populate l depth f count).1) :
    ∃ t inner, f.at? p = some t ∧
      (populate l depth f count).1.at? p = some ⟨.ofTree t, inner⟩ := by
  obtain ⟨hmem, hfile⟩ := List.mem_filter.1 h
  obtain ⟨shown, -, hat⟩ := Forest.exists_at?_of_mem_addresses hmem
  rcases file_or_placeholder_of_at? hat with ⟨t, ht, hroot⟩ | ⟨hnone, -⟩
  · exact ⟨t, shown.below, ht, hroot ▸ hat⟩
  · simp [hat, hnone] at hfile

/-- What an item shows that stands for an include: it is made from the include at its own place,
rows may stand below it exactly if that include has others below it, and it hangs below the item
of the include's own parent, in the same place as the include. -/
structure Placed (f : Forest Include) (items : Forest Item) (p : List Nat) : Prop where
  item : ∃ t shown, f.at? p = some t ∧ items.at? p = some shown ∧ shown.root.file = some t ∧
    (shown.root.openable = true ↔ t.below ≠ .nil)
  parent : ∀ q k, q ≠ [] → p = q ++ [k] → ∃ t u shown row,
    f.at? q = some t ∧ t.below.trees[k]? = some u ∧
      items.at? q = some shown ∧ shown.root.file = some t ∧
      shown.below.trees[k]? = some row ∧ row.root.file = some u

theorem placed_of_mem_filed (h : p ∈ filed (populate l depth f count).1) :
    Placed f (populate l depth f count).1 p := by
  obtain ⟨u, inner, hu, hrow⟩ := exists_of_mem_filed h
  constructor
  · exact ⟨u, ⟨.ofTree u, inner⟩, hu, hrow, rfl, bne_iff_ne⟩
  · intro q k hq hp
    rw [hp, Forest.at?_append hq (List.cons_ne_nil _ _)] at hu hrow
    obtain ⟨t, ht, huk⟩ := Option.bind_eq_some_iff.1 hu
    obtain ⟨shown, hshown, hrowk⟩ := Option.bind_eq_some_iff.1 hrow
    -- The row above is not a placeholder, as something is filed below it.
    rcases file_or_placeholder_of_at? hshown with ⟨v, hv, hroot⟩ | ⟨-, hnil⟩
    · cases ht.symm.trans hv
      exact ⟨t, u, shown, ⟨.ofTree u, inner⟩, ht, huk, hshown, by rw [hroot]; rfl, hrowk, rfl⟩
    · rw [hnil, Forest.at?_nil] at hrowk
      exact absurd hrowk.symm (Option.some_ne_none _)

/-- From top to bottom, the includes that items stand for are the ones at the same places. -/
theorem filterMap_file_populate (l : Limits) (depth count : Int) (f : Forest Include) :
    (populate l depth f count).1.values.filterMap Item.file
      = (filed (populate l depth f count).1).filterMap f.at? := by
  have hfile : ∀ p ∈ filed (populate l depth f count).1,
      (((populate l depth f count).1.at? p).bind fun t => t.root.file) = f.at? p := by
    intro p hp
    obtain ⟨t, inner, ht, hat⟩ := exists_of_mem_filed hp
    rw [ht, hat]
    rfl
  calc (populate l depth f count).1.values.filterMap Item.file
      = (populate l depth f count).1.addresses.filterMap fun p =>
          ((populate l depth f count).1.at? p).bind fun t => t.root.file := by
        rw [Forest.values_eq_map_root, List.filterMap_map]
        exact Forest.filterMap_subtrees _ _
    _ = (filed (populate l depth f count).1).filterMap fun p =>
          ((populate l depth f count).1.at? p).bind fun t => t.root.file := by
        rw [filed, List.filterMap_filter]
        apply List.filterMap_congr
        intro p _
        cases h : ((populate l depth f count).1.at? p).bind fun t => t.root.file <;> rfl
    _ = (filed (populate l depth f count).1).filterMap f.at? := List.filterMap_congr hfile

/-- The rows of a forest stand for its first includes in preorder, those too deep left out, as
many as there is room for: they carry these includes in this order and at the same places, each
below the row of its parent, and the count has grown by their number. -/
theorem populate_fills (l : Limits) (depth count : Int) (f : Forest Include) :
    (populate l depth f count).1.values.filterMap Item.file
        = ((reached l depth f).take (l.includes - count).toNat).filterMap f.at? ∧
      filed (populate l depth f count).1
        = (reached l depth f).take (l.includes - count).toNat ∧
      (∀ p ∈ filed (populate l depth f count).1, Placed f (populate l depth f count).1 p) ∧
      (populate l depth f count).2 = count + (filed (populate l depth f count).1).length ∧
      f.addresses.map (fun p => (f.at? p).map fun t => (p.length - 1, t.root))
        = f.preorder.map some := by
  refine ⟨?_, filed_populate l depth count f, fun p hp => placed_of_mem_filed hp,
    count_populate l depth count f, ?_⟩
  · rw [filterMap_file_populate, filed_populate]
  · rw [Forest.map_addresses_eq_walk, Forest.walk_eq_preorder]

/-- With room for three includes on two levels, the third one in preorder is passed over as too
deep, and the fifth has no room. -/
example :
    (populate ⟨2, 3⟩ 0 (.cons ⟨"a", "a"⟩
      (.cons ⟨"b", "b"⟩ (.cons ⟨"c", "c"⟩ .nil .nil) (.cons ⟨"d", "d"⟩ .nil .nil))
      (.cons ⟨"e", "e"⟩ .nil .nil)) 0).1.values.map (fun item => item.file.map (·.root.name))
      = [some "a", some "b", none, some "d", none] := by
  decide +kernel

end IncludeTrace.Browser
