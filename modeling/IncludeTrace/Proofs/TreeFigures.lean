/-
The figures of a tree.

A tree is counted in several ways: its includes by the reader of the trace, its nodes by the
browser, and what stands directly and in all below a node, and how deep, by the panels.  All of it
can be read off the addresses of the nodes, which come in the order of the walk: what stands below
a node are the addresses that go on behind its own, and their lengths tell how deep it is.

* `largest` — the largest of some numbers;
* `length_addresses`, `map_length_addresses` — the addresses tell sizes and depths;
* `height_eq`, `width_eq` — the levels and the outermost nodes of a forest;
* `addressesBelow`, `addressesBelow_eq` — what stands below an address;
* `Browser.countNodes_eq`, `Browser.stats_eq` — what the counters of the browser arrive at;
* `Figures`, `TraceReader.figures_tree` — all figures of a tree and the notices it was read from.
-/
import IncludeTrace.Browser.Wording
import IncludeTrace.Proofs.Addresses
import IncludeTrace.Proofs.TraceTree

namespace IncludeTrace

/-- The largest of some numbers, and 0 if there are none. -/
def largest (ns : List Nat) : Nat :=
  ns.max?.getD 0

theorem largest_cons (n : Nat) (ns : List Nat) : largest (n :: ns) = max n (largest ns) := by
  rw [largest, largest, List.max?_cons]
  cases ns.max? with
  | none => exact (Nat.max_zero n).symm
  | some m => rfl

theorem largest_append (ms ns : List Nat) : largest (ms ++ ns) = max (largest ms) (largest ns) := by
  induction ms with
  | nil => exact (Nat.zero_max _).symm
  | cons m ms ih => rw [List.cons_append, largest_cons, largest_cons, ih, Nat.max_assoc]

theorem max_one_largest (ns : List Nat) :
    max 1 (largest (ns.map (· + 1))) = 1 + largest ns := by
  induction ns with
  | nil => rfl
  | cons n ns ih =>
    rw [List.map_cons, largest_cons, largest_cons]
    omega

namespace Forest

variable {α : Type}

/-! ### Sizes and depths -/

theorem map_length_addresses_add (depth : Nat) (f : Forest α) :
    f.addresses.map (fun p => p.length + depth) = (f.preorderFrom depth).map (·.1 + 1) := by
  induction f generalizing depth with
  | nil => rfl
  | cons a below beside ihb ihs =>
    have hbelow : ∀ p ∈ below.addresses, (0 :: p).length + depth = p.length + (depth + 1) := by
      intro p _
      rw [List.length_cons]
      omega
    simp only [addresses, preorderFrom, List.map_cons, List.map_append, List.map_map,
      Function.comp_def, length_further]
    rw [List.map_congr_left hbelow, ihb, ihs, List.length_singleton, Nat.add_comm]

/-- The length of an address is one more than the depth in the walk. -/
theorem map_length_addresses (f : Forest α) :
    f.addresses.map List.length = f.walk.map (·.1 + 1) := by
  rw [walk_eq_preorder]
  exact map_length_addresses_add 0 f

theorem length_addresses (f : Forest α) : f.addresses.length = f.size := by
  have h := congrArg List.length (map_length_addresses_add 0 f)
  rwa [List.length_map, List.length_map, length_preorderFrom] at h

theorem length_walk (f : Forest α) : f.walk.length = f.size := by
  rw [walk_eq_preorder, preorder, length_preorderFrom]

/-- A forest has as many levels as its longest address has steps. -/
theorem height_eq (f : Forest α) : f.height = largest (f.addresses.map List.length) := by
  induction f with
  | nil => rfl
  | cons a below beside ihb ihs =>
    -- Addresses get longer by a step on the way down, but not to the side.
    have hbelow : (below.addresses.map (0 :: ·)).map List.length
        = (below.addresses.map List.length).map (· + 1) := by
      rw [List.map_map, List.map_map]
      rfl
    have hbeside : (beside.addresses.map further).map List.length
        = beside.addresses.map List.length := by
      rw [List.map_map]
      exact List.map_congr_left fun p _ => length_further p
    rw [addresses, List.map_cons, List.map_append, largest_cons, largest_append, hbelow, hbeside,
      ← Nat.max_assoc, List.length_singleton, max_one_largest, ← ihb, ← ihs]
    rfl

/-- No node is deeper than the forest has levels. -/
theorem lt_of_mem_preorderFrom {α : Type} {depth : Nat} {f : Forest α} {p : Nat × α}
    (h : p ∈ f.preorderFrom depth) : p.1 < depth + f.height := by
  induction f generalizing depth with
  | nil => cases h
  | cons a below beside ihb ihs =>
    rw [height]
    rcases List.mem_cons.1 h with rfl | h
    · show depth < _
      omega
    · rcases List.mem_append.1 h with h | h
      · have hlt := ihb h
        omega
      · have hlt := ihs h
        omega

theorem countP_preorderFrom (depth : Nat) (f : Forest α) :
    (f.preorderFrom depth).countP (fun p => p.1 = depth) = f.width := by
  induction f with
  | nil => rfl
  | cons a below beside _ ihs =>
    have hbelow : (below.preorderFrom (depth + 1)).countP (fun p => p.1 = depth) = 0 := by
      rw [List.countP_eq_zero]
      intro p hp hdepth
      have hle := le_of_mem_preorderFrom hp
      have heq := of_decide_eq_true hdepth
      omega
    rw [preorderFrom, List.countP_cons, List.countP_append, hbelow, ihs]
    simp only [decide_true, if_true, width]
    omega

/-- The outermost nodes are those of depth 0. -/
theorem width_eq (f : Forest α) : f.width = f.walk.countP (fun p => p.1 = 0) := by
  rw [walk_eq_preorder]
  exact (countP_preorderFrom 0 f).symm

/-! ### What stands below an address -/

/-- The addresses of all that stands below an address. -/
def addressesBelow (f : Forest α) (address : List Nat) : List (List Nat) :=
  f.addresses.filter fun p => decide (GoesOn address p)

section Below

variable {a : α} {below beside : Forest α} {address : List Nat}

/-- What goes on behind an address stands below the first node, or it is one of the trees beside
it or below them. -/
theorem addressesBelow_cons (h : address ≠ []) : (cons a below beside).addressesBelow address
    = (below.addresses.filter fun p => decide (GoesOn address (0 :: p))).map (0 :: ·)
      ++ (beside.addresses.filter fun p => decide (GoesOn address (further p))).map further := by
  simp only [addressesBelow, addresses, List.filter_cons, List.filter_append, List.filter_map,
    Function.comp_def]
  rw [if_neg (by rw [decide_eq_true_iff]; exact not_goesOn_first h)]

theorem filter_further_eq_nil :
    (beside.addresses.filter fun p => decide (GoesOn (0 :: address) (further p))) = [] := by
  rw [List.filter_eq_nil_iff]
  exact fun p _ hp => not_goesOn_further (of_decide_eq_true hp)

theorem addressesBelow_first : (cons a below beside).addressesBelow [0]
    = below.addresses.map (0 :: ·) := by
  have hbelow : (below.addresses.filter fun p => decide (GoesOn [0] (0 :: p)))
      = below.addresses := by
    refine List.filter_eq_self.2 fun p hp => decide_eq_true (goesOn_below_iff.2 ?_)
    have hstart : [] <+: p := List.nil_prefix
    exact ⟨hstart, (ne_nil_of_mem_addresses hp).symm⟩
  rw [addressesBelow_cons (List.cons_ne_nil 0 []), hbelow, filter_further_eq_nil, List.map_nil,
    List.append_nil]

theorem addressesBelow_below (address : List Nat) :
    (cons a below beside).addressesBelow (0 :: address)
      = (below.addressesBelow address).map (0 :: ·) := by
  rw [addressesBelow_cons (List.cons_ne_nil 0 address), filter_further_eq_nil, List.map_nil,
    List.append_nil]
  simp only [goesOn_below_iff]
  rfl

theorem addressesBelow_further (h : address ≠ []) :
    (cons a below beside).addressesBelow (further address)
      = (beside.addressesBelow address).map further := by
  have hbelow :
      (below.addresses.filter fun p => decide (GoesOn (further address) (0 :: p))) = [] := by
    rw [List.filter_eq_nil_iff]
    exact fun p _ hp => further_not_goesOn h (of_decide_eq_true hp)
  rw [addressesBelow_cons (further_ne_nil h), hbelow, List.map_nil, List.nil_append]
  simp only [goesOn_further_iff h]
  rfl

end Below

/-- What stands below an address has the addresses of the trees there behind it. -/
theorem addressesBelow_eq {f : Forest α} {address : List Nat} {t : Tree α}
    (h : f.at? address = some t) :
    f.addressesBelow address = t.below.addresses.map (address ++ ·) := by
  induction f generalizing address with
  | nil => exact absurd (h.symm.trans (at?_nil address)) (Option.some_ne_none t)
  | cons a below beside ihb ihs =>
    rcases at?_cons_cases h with ⟨rfl, rfl⟩ | ⟨p, hp, rfl, hat⟩ | ⟨p, rfl, hat⟩
    · exact addressesBelow_first
    · rw [addressesBelow_below, ihb hat, List.map_map]
      rfl
    · have hp : p ≠ [] := by
        rintro rfl
        cases hat
      obtain ⟨k, p, rfl⟩ := List.exists_cons_of_ne_nil hp
      rw [addressesBelow_further hp, ihs hat, List.map_map]
      rfl

end Forest

/-! ### The counters of the browser -/

namespace Browser

theorem countNodesFrom_eq (count : Nat) (f : Forest Include) :
    countNodesFrom count f = count + f.size := by
  induction f generalizing count with
  | nil => rfl
  | cons i below beside ihb ihs =>
    rw [countNodesFrom, ihb, ihs, Forest.size]
    omega

/-- The node of the translation unit is counted too. -/
theorem countNodes_eq (f : Forest Include) : countNodes f = 1 + f.size :=
  countNodesFrom_eq 1 f

theorem tallyFrom_eq (total depth : Nat) (f : Forest Include) :
    tallyFrom total depth f = (total + f.size, max depth f.height) := by
  induction f generalizing total depth with
  | nil => rw [tallyFrom, Forest.size, Forest.height, Nat.max_zero, Nat.add_zero]
  | cons i below beside ihb ihs =>
    simp only [tallyFrom, ihb, ihs, Forest.size, Forest.height, Nat.zero_add, Nat.zero_max]
    rw [Nat.max_assoc, Nat.add_assoc]

theorem stats_eq (f : Forest Include) : stats f = ⟨f.width, f.size, f.height⟩ := by
  simp only [stats, tallyFrom_eq, Nat.zero_add, Nat.zero_max]

end Browser

/-- What the counts of a tree have to do with its walk and with the notices it was read from. -/
structure Figures (ns : List Notice) (t : IncludeTree) : Prop where
  /-- The includes counted while the trace is read, the nodes counted by the browser, and what
  the panel says stands below the translation unit are all that is walked. -/
  count : t.count = t.includes.walk.length
  nodes : Browser.countNodes t.includes = 1 + t.includes.walk.length
  size : t.includes.size = t.includes.walk.length
  total : (Browser.stats t.includes).total = t.includes.walk.length
  direct : (Browser.stats t.includes).direct = ns.countP fun n => n.depth = 0
  depth : (Browser.stats t.includes).depth = largest (ns.map fun n => n.depth + 1)
  /-- The figures of a node are those of the addresses behind its own. -/
  below : ∀ address u, t.includes.at? address = some u →
    (Browser.stats u.below).total = (t.includes.addressesBelow address).length ∧
    (Browser.stats u.below).depth
      = largest ((t.includes.addressesBelow address).map fun p => p.length - address.length)
  /-- The addresses stand for what is walked, and their lengths for the depths. -/
  walked : t.includes.addresses.map
      (fun p => (t.includes.at? p).map fun u => (p.length - 1, u.root)) = t.includes.walk.map some

namespace TraceReader

/-- **All counts of a tree agree**, and go back to the notices that it was read from. -/
theorem figures_tree {r : TraceReader} {text : String} {t : IncludeTree}
    (h : r.tree text = .ok t) : Figures (notices r.style text) t := by
  -- The walk is the list of the notices, so every figure of the walk is one of the notices.
  obtain ⟨hlist, hcount, -⟩ := (r.tree_eq_ok_iff_preorder text t).1 h
  have hwalk : t.includes.walk = (notices r.style text).map r.entry := by
    rw [Forest.walk_eq_preorder, hlist]
  have hsize := t.includes.length_walk
  have hstats := Browser.stats_eq t.includes
  refine ⟨?_, ?_, hsize.symm, ?_, ?_, ?_, ?_, t.includes.map_addresses_eq_walk⟩
  · rw [hcount, hwalk, List.length_map]
  · rw [Browser.countNodes_eq, hsize]
  · rw [hstats, hsize]
  · rw [hstats, Forest.width_eq, hwalk, List.countP_map]
    rfl
  · rw [hstats, Forest.height_eq, Forest.map_length_addresses, hwalk, List.map_map]
    rfl
  · intro address u hu
    have hlengths : (u.below.addresses.map (address ++ ·)).map (fun p => p.length - address.length)
        = u.below.addresses.map List.length := by
      rw [List.map_map]
      refine List.map_congr_left fun p _ => ?_
      rw [Function.comp_apply, List.length_append, Nat.add_sub_cancel_left]
    rw [Forest.addressesBelow_eq hu, hlengths, List.length_map, Browser.stats_eq]
    exact ⟨(Forest.length_addresses u.below).symm, Forest.height_eq u.below⟩

/-- Five includes on three levels, of which two stand outermost. -/
theorem figures_tree_nested :
    let r : TraceReader := ⟨.dotted, .unchanged, [], none⟩
    let text := ". a.h\n.. b.h\na.c\n... c.h\n.. d.h\n. e.h\n"
    let t : IncludeTree :=
      ⟨.cons ⟨"a.h", "a.h"⟩
        (.cons ⟨"b.h", "b.h"⟩ (.cons ⟨"c.h", "c.h"⟩ .nil .nil) (.cons ⟨"d.h", "d.h"⟩ .nil .nil))
        (.cons ⟨"e.h", "e.h"⟩ .nil .nil), 5, none⟩
    r.tree text = .ok t ∧ Figures (notices r.style text) t ∧
      Browser.stats t.includes = ⟨2, 5, 3⟩ := by
  intro r text t
  have htree : r.tree text = .ok t := by decide +kernel
  exact ⟨htree, figures_tree htree, by decide +kernel⟩

end TraceReader

end IncludeTrace
