/-
Outlines are read back, whatever the names.

In front of a branch stand nothing but bars and blanks, so the first branch of a line is the one
that was drawn, even if the name behind it begins like a drawing.  The units in front of it
tell the depth, and as every include has a line of its own, depths and names of the whole walk
can be read off, and with them the forest.

* `Line`, `cut?` — a line taken apart at its first branch;
* `Outline.read?` — an outline read back, by a reader that knows nothing of how it was drawn;
* `lineAt`, `toList_outline` — the line of an include, told from its address;
* `cut?_append`, `take_drop_flatten` — what a reader finds in such a line;
* `Draws`, `Forest.outline_read_back` — the outline determines the tree.
-/
import IncludeTrace.Proofs.Addresses
import Mathlib.Data.List.Forall2

namespace IncludeTrace

/-! ### Reading -/

namespace Outline

/-- A line taken apart: what stands in front of the branch, whether it is the branch of a last
child, and what stands behind it. -/
structure Line where
  front : List Char
  isLast : Bool
  name : List Char
  deriving DecidableEq, Repr

/-- A line taken apart at the first branch in it. -/
def cut? : List Char → Option Line
  | [] => none
  | c :: s =>
    if (c :: s).take 4 = "├── ".toList then some ⟨[], false, (c :: s).drop 4⟩
    else if (c :: s).take 4 = "└── ".toList then some ⟨[], true, (c :: s).drop 4⟩
    else (cut? s).map fun l => { l with front := c :: l.front }

/-- How many units of four characters stand in front of the first branch, and the name behind. -/
def readLine? (line : List Char) : Option (Nat × String) :=
  (cut? line).map fun l => (l.front.length / 4, String.ofList l.name)

/-- The lines of a text, each of which has to end with a line break. -/
def lines? (text : String) : Option (List (List Char)) :=
  let pieces := text.toList.splitOn '\n'
  if pieces.getLast? = some [] then some pieces.dropLast else none

/-- The depths and names that an outline shows, one for each line. -/
def read? (text : String) : Option (List (Nat × String)) :=
  (lines? text).bind fun lines => lines.mapM readLine?

/-- Before any name the first branch is the one that follows characters of no branch. -/
theorem cut?_append {front : List Char} (h : ∀ c ∈ front, c ≠ '├' ∧ c ≠ '└') (isLast : Bool)
    (name : List Char) :
    cut? (front ++ ((branch isLast).toList ++ name)) = some ⟨front, isLast, name⟩ := by
  induction front with
  | nil => cases isLast <;> rfl
  | cons c front ih =>
    obtain ⟨hc, hfront⟩ := List.forall_mem_cons.1 h
    -- Nothing is cut off inside the front, since no branch begins with a character of it.
    have hbranch : ∀ s, (c :: s).take 4 ≠ "├── ".toList ∧ (c :: s).take 4 ≠ "└── ".toList := by
      intro s
      constructor
      · intro hs
        exact hc.1 (List.cons.inj hs).1
      · intro hs
        exact hc.2 (List.cons.inj hs).1
    rw [List.cons_append, cut?, if_neg (hbranch _).1, if_neg (hbranch _).2, ih hfront]
    rfl

/-- Of lines without line breaks nothing is lost in the printed text. -/
theorem lines?_printed {lines : List String} (h : ∀ l ∈ lines, '\n' ∉ l.toList) :
    lines? (printed lines) = some (lines.map String.toList) := by
  have hpieces : (printed lines).toList.splitOn '\n' = lines.map String.toList ++ [[]] := by
    induction lines with
    | nil => rfl
    | cons line lines ih =>
      obtain ⟨hline, hlines⟩ := List.forall_mem_cons.1 h
      have htext : (printed (line :: lines)).toList
          = line.toList ++ '\n' :: (printed lines).toList := by
        simp [printed, String.join_cons]
      rw [htext, List.splitOn_append_cons_self, List.splitOn_eq_singleton hline, ih hlines]
      rfl
  simp only [lines?, hpieces]
  -- The last line is ended too, so what follows it is empty and is dropped.
  rw [if_pos (by simp), List.dropLast_concat]

end Outline

open Outline

/-! ### The line of an include -/

namespace Forest

/-- The units in front of an include: for each include above it, whether one follows beside. -/
def unitsAt (f : Forest Include) (address : List Nat) : List (List Char) :=
  (List.range (address.length - 1)).map fun depth =>
    (continuation (!f.hasNext address depth)).toList

/-- The name of the include at an address. -/
def nameAt (f : Forest Include) (address : List Nat) : List Char :=
  ((f.at? address).map fun t => t.root.name.toList).getD []

/-- The line of the include at an address. -/
def lineAt (f : Forest Include) (address : List Nat) : List Char :=
  (f.unitsAt address).flatten
    ++ ((branch (!f.hasNext address (address.length - 1))).toList ++ f.nameAt address)

variable {i : Include} {below beside : Forest Include} {address : List Nat}

theorem lineAt_first :
    (cons i below beside).lineAt [0] = (branch beside.isNil).toList ++ i.name.toList := by
  have hnext : (cons i below beside).hasNext [0] 0 = !beside.isNil := hasNext_first []
  rw [lineAt, List.length_singleton, hnext, Bool.not_not]
  rfl

/-- Below an include the lines have one more unit in front. -/
theorem lineAt_below (h : address ≠ []) :
    (cons i below beside).lineAt (0 :: address)
      = (continuation beside.isNil).toList ++ below.lineAt address := by
  obtain ⟨n, hn⟩ : ∃ n, address.length = n + 1 :=
    Nat.exists_eq_succ_of_ne_zero (Nat.ne_of_gt (List.length_pos_iff.2 h))
  have hunits : (cons i below beside).unitsAt (0 :: address)
      = (continuation beside.isNil).toList :: below.unitsAt address := by
    rw [unitsAt, unitsAt, List.length_cons, hn, Nat.add_sub_cancel, Nat.add_sub_cancel,
      List.range_succ_eq_map, List.map_cons, List.map_map, hasNext_first, Bool.not_not]
    simp only [Function.comp_def, Nat.succ_eq_add_one, hasNext_below h]
  rw [lineAt, lineAt, hunits, List.flatten_cons, List.append_assoc, List.length_cons, hn,
    Nat.add_sub_cancel, Nat.add_sub_cancel, hasNext_below h, nameAt, nameAt, at?_below h]

theorem lineAt_further (address : List Nat) :
    (cons i below beside).lineAt (further address) = beside.lineAt address := by
  rw [lineAt, lineAt, unitsAt, unitsAt, nameAt, nameAt, at?_further]
  simp only [length_further, hasNext_further]

/-- The outline has the line of each include, in the order of the walk. -/
theorem toList_outline (units : String) (f : Forest Include) :
    (outline units false f).map String.toList
      = f.addresses.map fun p => units.toList ++ f.lineAt p := by
  -- On the forest, with any units in front: the lines of the children have one unit more there.
  induction f generalizing units with
  | nil => rfl
  | cons i below beside ihb ihs =>
    have hbelow : ∀ p ∈ below.addresses,
        units.toList ++ (cons i below beside).lineAt (0 :: p)
          = (units ++ continuation beside.isNil).toList ++ below.lineAt p := by
      intro p hp
      rw [lineAt_below (ne_nil_of_mem_addresses hp), String.toList_append, List.append_assoc]
    have hfirst : (units ++ branch beside.isNil ++ i.name ++ rawPart false i).toList
        = units.toList ++ (cons i below beside).lineAt [0] := by
      simp [rawPart, lineAt_first]
    simp only [outline, addresses, List.map_cons, List.map_append, List.map_map,
      Function.comp_def, lineAt_further]
    rw [List.map_congr_left hbelow, ihb, ihs, hfirst]

/-! ### What a reader finds -/

theorem length_continuation (isLast : Bool) : (continuation isLast).toList.length = 4 := by
  cases isLast <;> rfl

/-- The units in front of an include are of four characters each. -/
theorem length_of_mem_unitsAt {f : Forest Include} {unit : List Char}
    (h : unit ∈ f.unitsAt address) : unit.length = 4 := by
  obtain ⟨depth, -, rfl⟩ := List.mem_map.1 h
  exact length_continuation _

theorem ne_of_mem_continuation {isLast : Bool} {c : Char}
    (h : c ∈ (continuation isLast).toList) : c ≠ '├' ∧ c ≠ '└' := by
  cases isLast <;> simp [continuation] at h <;> rcases h with rfl | rfl <;> simp

/-- No branch begins in front of the branch of an include. -/
theorem ne_of_mem_unitsAt {f : Forest Include} {c : Char} (h : c ∈ (f.unitsAt address).flatten) :
    c ≠ '├' ∧ c ≠ '└' := by
  obtain ⟨unit, hunit, hc⟩ := List.mem_flatten.1 h
  obtain ⟨depth, -, rfl⟩ := List.mem_map.1 hunit
  exact ne_of_mem_continuation hc

/-- In a row of units of four characters every fourth column begins one. -/
theorem take_drop_flatten {units : List (List Char)} (h : ∀ unit ∈ units, unit.length = 4)
    (rest : List Char) {k : Nat} (hk : k < units.length) :
    ((units.flatten ++ rest).drop (4 * k)).take 4 = units[k] := by
  induction units generalizing k with
  | nil => exact absurd hk (Nat.not_lt_zero k)
  | cons unit units ih =>
    obtain ⟨hunit, hunits⟩ := List.forall_mem_cons.1 h
    rw [List.flatten_cons, List.append_assoc]
    cases k with
    | zero => rw [Nat.mul_zero, List.drop_zero, ← hunit, List.take_left, List.getElem_cons_zero]
    | succ k =>
      -- All units are of one length, which is why the address of a column is a multiple of it.
      have hsplit : 4 * (k + 1) = unit.length + 4 * k := by omega
      rw [hsplit, ← List.drop_drop, List.drop_left, ih hunits (Nat.lt_of_succ_lt_succ hk),
        List.getElem_cons_succ]

theorem length_flatten_unitsAt (f : Forest Include) (address : List Nat) :
    (f.unitsAt address).flatten.length = 4 * (address.length - 1) := by
  have hall : ∀ units : List (List Char), (∀ unit ∈ units, unit.length = 4) →
      units.flatten.length = 4 * units.length := by
    intro units h
    induction units with
    | nil => rfl
    | cons unit units ih =>
      obtain ⟨hunit, hunits⟩ := List.forall_mem_cons.1 h
      rw [List.flatten_cons, List.length_append, ih hunits, hunit, List.length_cons]
      omega
  rw [hall _ fun unit hunit => length_of_mem_unitsAt hunit, unitsAt, List.length_map,
    List.length_range]

/-- What the line of an include shows: in front of its branch a unit for each include above it,
a bar exactly if another one follows beside that, then the branch of a last child exactly if
none follows beside it, and then its name. -/
structure Draws (f : Forest Include) (address : List Nat) (line : List Char) : Prop where
  parts : ∃ t front, f.at? address = some t ∧ front.length = 4 * (address.length - 1) ∧
    cut? line = some ⟨front, !f.hasNext address (address.length - 1), t.root.name.toList⟩
  units : ∀ depth < address.length - 1, (line.drop (4 * depth)).take 4
    = if f.hasNext address depth then "│   ".toList else "    ".toList

theorem draws_lineAt {f : Forest Include} (h : address ∈ f.addresses) :
    f.Draws address (f.lineAt address) where
  parts := by
    obtain ⟨t, -, hat⟩ := exists_at?_of_mem_addresses h
    have hname : f.nameAt address = t.root.name.toList := by rw [nameAt, hat]; rfl
    refine ⟨t, (f.unitsAt address).flatten, hat, length_flatten_unitsAt f address, ?_⟩
    rw [lineAt, hname]
    exact cut?_append (fun c hc => ne_of_mem_unitsAt hc) _ _
  units := by
    intro depth hdepth
    have hlt : depth < (f.unitsAt address).length := by
      rwa [unitsAt, List.length_map, List.length_range]
    rw [lineAt, take_drop_flatten (fun unit hunit => length_of_mem_unitsAt hunit) _ hlt]
    simp only [unitsAt, List.getElem_map, List.getElem_range]
    cases f.hasNext address depth <;> rfl

theorem readLine?_of_draws {f : Forest Include} {line : List Char} (h : f.Draws address line) :
    readLine? line = (f.at? address).map fun t => (address.length - 1, t.root.name) := by
  obtain ⟨t, front, hat, hfront, hcut⟩ := h.parts
  rw [readLine?, hcut, hat, Option.map_some, Option.map_some, hfront, Nat.mul_div_cancel_left _
    (by decide), String.ofList_toList]

/-! ### The whole outline -/

/-- No line is broken where no name is. -/
theorem newline_not_mem_outline {f : Forest Include}
    (h : ∀ i ∈ f.values, '\n' ∉ i.name.toList) {units : String} (hunits : '\n' ∉ units.toList)
    {line : String} (hline : line ∈ outline units false f) : '\n' ∉ line.toList := by
  induction f generalizing units with
  | nil => exact absurd hline List.not_mem_nil
  | cons i below beside ihb ihs =>
    rw [values, List.forall_mem_cons, List.forall_mem_append] at h
    obtain ⟨hi, hbelow, hbeside⟩ := h
    rcases List.mem_cons.1 hline with rfl | hline
    · have hbranch : ∀ isLast, '\n' ∉ (branch isLast).toList := by decide
      simp [rawPart, hunits, hi, hbranch]
    · rcases List.mem_append.1 hline with hline | hline
      · have hcontinuation : ∀ isLast, '\n' ∉ (continuation isLast).toList := by decide
        exact ihb hbelow (by simp [hunits, hcontinuation]) hline
      · exact ihs hbeside hunits hline

theorem lines?_outline {f : Forest Include} (h : ∀ i ∈ f.values, '\n' ∉ i.name.toList) :
    lines? (printed (outline "" false f)) = some (f.addresses.map f.lineAt) := by
  rw [lines?_printed fun line hline => newline_not_mem_outline h (by decide) hline,
    toList_outline]
  rfl

theorem read?_outline {f : Forest Include} (h : ∀ i ∈ f.values, '\n' ∉ i.name.toList) :
    read? (printed (outline "" false f)) = some (f.walk.map (Prod.map id Include.name)) := by
  have hread : ∀ p ∈ f.addresses, readLine? (f.lineAt p)
      = Option.map (Prod.map id Include.name) ((f.at? p).map fun t => (p.length - 1, t.root)) := by
    intro p hp
    rw [readLine?_of_draws (draws_lineAt hp), Option.map_map]
    rfl
  -- A line alone tells its depth and its name; the order of the addresses is that of the walk.
  have hlines : (f.addresses.map f.lineAt).map readLine?
      = (f.walk.map (Prod.map id Include.name)).map some := by
    calc (f.addresses.map f.lineAt).map readLine?
        = (f.addresses.map fun p => (f.at? p).map fun t => (p.length - 1, t.root)).map
            (Option.map (Prod.map id Include.name)) := by
          rw [List.map_map, List.map_map]
          exact List.map_congr_left hread
      _ = (f.walk.map (Prod.map id Include.name)).map some := by
          rw [map_addresses_eq_walk, List.map_map, List.map_map]
          rfl
  have hid : ((f.addresses.map f.lineAt).map readLine?).mapM id
      = (f.addresses.map f.lineAt).mapM readLine? := by
    rw [List.mapM_map]
    rfl
  rw [read?, lines?_outline h, Option.bind_some, ← hid, hlines, List.mapM_map]
  exact (List.mapM_pure (f := id)).trans (by rw [List.map_id]; rfl)

/-- Forests whose outlines read the same have the same shape and the same names. -/
theorem map_name_injective_of_walk {f g : Forest Include}
    (h : g.walk.map (Prod.map id Include.name) = f.walk.map (Prod.map id Include.name)) :
    g.map Include.name = f.map Include.name := by
  apply preorder_injective
  rw [preorder, preorder, preorderFrom_map, preorderFrom_map]
  rwa [walk_eq_preorder, walk_eq_preorder] at h

/-- If no name has a line break in it, the outline determines the tree.  It has one line for each
include, in the order of the walk, with the branch of a last child exactly if nothing follows
beside the include, and with bars exactly where something follows beside one above it; depths and
names of the walk are read back from the lines, and no forest of another shape or with other names
has the same outline. -/
theorem outline_read_back (f : Forest Include) (h : ∀ i ∈ f.values, '\n' ∉ i.name.toList) :
    read? (printed (outline "" false f)) = some (f.walk.map (Prod.map id Include.name)) ∧
      (∀ g : Forest Include, (∀ i ∈ g.values, '\n' ∉ i.name.toList) →
        printed (outline "" false g) = printed (outline "" false f) →
        g.map Include.name = f.map Include.name) ∧
      f.addresses.map (fun p => (f.at? p).map fun t => (p.length - 1, t.root))
        = f.walk.map some ∧
      ∃ lines, lines? (printed (outline "" false f)) = some lines ∧
        List.Forall₂ f.Draws f.addresses lines := by
  refine ⟨read?_outline h, ?_, map_addresses_eq_walk f, f.addresses.map f.lineAt,
    lines?_outline h, ?_⟩
  · intro g hg hsame
    have hread := read?_outline hg
    rw [hsame, read?_outline h] at hread
    exact map_name_injective_of_walk (Option.some.inj hread).symm
  · rw [List.forall₂_map_right_iff, List.forall₂_same]
    intro p hp
    exact draws_lineAt hp

/-- Names that begin like drawings are read back as well. -/
theorem outline_read_back_drawings :
    (∀ i ∈ (Forest.cons (⟨"a", "├── a"⟩ : Include)
        (.cons ⟨"b", "│   b"⟩ .nil (.cons ⟨"c", "    └── c"⟩ .nil .nil))
        (.cons ⟨"d", ""⟩ .nil .nil)).values, '\n' ∉ i.name.toList) ∧
      read? "├── ├── a\n│   ├── │   b\n│   └──     └── c\n└── \n"
        = some [(0, "├── a"), (1, "│   b"), (1, "    └── c"), (0, "")] := by
  have hnames : ∀ i ∈ (Forest.cons (⟨"a", "├── a"⟩ : Include)
      (.cons ⟨"b", "│   b"⟩ .nil (.cons ⟨"c", "    └── c"⟩ .nil .nil))
      (.cons ⟨"d", ""⟩ .nil .nil)).values, '\n' ∉ i.name.toList := by simp [values]
  refine ⟨hnames, ?_⟩
  have hread := (outline_read_back _ hnames).1
  rw [walk_eq_preorder] at hread
  exact hread

end Forest

end IncludeTrace
