/-
Addresses: where the nodes of a forest stand.

An address says for each level, from the outermost one down, how many trees stand in front of
the one to go into.  So the tree beside it, and its parent, can be told from an address alone,
and two forests can be compared place by place.

* `at?`, `addresses` — the tree at an address, and the addresses of all nodes in preorder;
* `map_at?_addresses`, `map_addresses_eq_walk` — the trees there are the subtrees in preorder,
  and the depth of a node is the length of its address less one;
* `mem_addresses_iff`, `nodup_addresses` — each place is listed once;
* `nextAt`, `hasNext` — the tree beside the one that an address passes at a depth;
* `GoesOn` — what stands below an address, and above it.
-/
import Mathlib.Data.List.Nodup
import IncludeTrace.Proofs.Preorder
import IncludeTrace.Trace.Outline

namespace IncludeTrace.Forest

variable {α : Type}

/-- The tree at an address; nothing stands at the empty one. -/
def at? (f : Forest α) : List Nat → Option (Tree α)
  | [] => none
  | [k] => f.trees[k]?
  | k :: l :: address => f.trees[k]?.bind fun t => t.below.at? (l :: address)

/-- The address one tree further on the outermost level. -/
def further : List Nat → List Nat
  | [] => []
  | k :: address => (k + 1) :: address

/-- The addresses of all nodes, in preorder. -/
def addresses : Forest α → List (List Nat)
  | nil => []
  | cons _ below beside => [0] :: (below.addresses.map (0 :: ·) ++ beside.addresses.map further)

variable {a : α} {below beside : Forest α} {address : List Nat}

theorem further_ne_nil (h : address ≠ []) : further address ≠ [] := by
  cases address with
  | nil => exact absurd rfl h
  | cons k address => exact List.cons_ne_nil _ _

theorem length_further (address : List Nat) : (further address).length = address.length := by
  cases address <;> rfl

theorem ne_nil_of_mem_addresses {f : Forest α} (h : address ∈ f.addresses) : address ≠ [] := by
  induction f generalizing address with
  | nil => exact absurd h List.not_mem_nil
  | cons a below beside ihb ihs =>
    rcases List.mem_cons.1 h with rfl | h
    · exact List.cons_ne_nil _ _
    · rcases List.mem_append.1 h with h | h
      · obtain ⟨p, -, rfl⟩ := List.mem_map.1 h
        exact List.cons_ne_nil _ _
      · obtain ⟨p, hp, rfl⟩ := List.mem_map.1 h
        exact further_ne_nil (ihs hp)

/-! ### The tree at an address -/

theorem at?_first : (cons a below beside).at? [0] = some ⟨a, below⟩ := rfl

theorem at?_below (h : address ≠ []) :
    (cons a below beside).at? (0 :: address) = below.at? address := by
  cases address with
  | nil => exact absurd rfl h
  | cons k address => rfl

theorem at?_further (address : List Nat) :
    (cons a below beside).at? (further address) = beside.at? address := by
  match address with
  | [] => rfl
  | [k] => rfl
  | k :: l :: address => rfl

theorem at?_nil (address : List Nat) : (nil : Forest α).at? address = none := by
  match address with
  | [] => rfl
  | [k] => rfl
  | k :: l :: address => rfl

/-- An address leads to the first tree, below its root, or to the trees beside it. -/
theorem at?_cons_cases {t : Tree α} (h : (cons a below beside).at? address = some t) :
    (address = [0] ∧ t = ⟨a, below⟩) ∨
      (∃ p, p ≠ [] ∧ address = 0 :: p ∧ below.at? p = some t) ∨
      ∃ p, address = further p ∧ beside.at? p = some t := by
  match address with
  | [] => cases h
  | [0] => exact .inl ⟨rfl, (Option.some.inj h).symm⟩
  | 0 :: k :: p => exact .inr (.inl ⟨k :: p, List.cons_ne_nil _ _, rfl, h⟩)
  | (k + 1) :: p =>
    rw [show (k + 1) :: p = further (k :: p) from rfl, at?_further] at h
    exact .inr (.inr ⟨k :: p, rfl, h⟩)

/-- An address that goes on leads on below the tree that it reaches first. -/
theorem at?_append {f : Forest α} {p q : List Nat} (hp : p ≠ []) (hq : q ≠ []) :
    f.at? (p ++ q) = (f.at? p).bind fun t => t.below.at? q := by
  obtain ⟨l, q, rfl⟩ := List.exists_cons_of_ne_nil hq
  match p with
  | [k] => rfl
  | k :: m :: p =>
    have ih : ∀ g : Forest α, g.at? (m :: p ++ l :: q)
        = (g.at? (m :: p)).bind fun t => t.below.at? (l :: q) :=
      fun g => at?_append (List.cons_ne_nil _ _) (List.cons_ne_nil _ _)
    show (f.trees[k]?.bind fun t => t.below.at? (m :: p ++ l :: q)) = _
    simp only [ih]
    exact (Option.bind_assoc _ _ _).symm

/-- The trees at the addresses are the subtrees. -/
theorem map_at?_addresses (f : Forest α) : f.addresses.map f.at? = f.subtrees.map some := by
  induction f with
  | nil => rfl
  | cons a below beside ihb ihs =>
    have hbelow : ∀ p ∈ below.addresses, (cons a below beside).at? (0 :: p) = below.at? p :=
      fun p hp => at?_below (ne_nil_of_mem_addresses hp)
    simp only [addresses, subtrees, List.map_cons, List.map_append, List.map_map,
      Function.comp_def, at?_first, at?_further]
    rw [List.map_congr_left hbelow, ihb, ihs]

/-- What is picked from the subtrees is picked at the addresses. -/
theorem filterMap_subtrees {β : Type} (g : Tree α → Option β) (f : Forest α) :
    f.subtrees.filterMap g = f.addresses.filterMap fun p => (f.at? p).bind g := by
  calc f.subtrees.filterMap g
      = (f.subtrees.map some).filterMap fun t => t.bind g := by
        rw [List.filterMap_map]
        rfl
    _ = f.addresses.filterMap fun p => (f.at? p).bind g := by
        rw [← map_at?_addresses, List.filterMap_map]
        rfl

theorem map_addresses_eq_preorderFrom (depth : Nat) (f : Forest α) :
    f.addresses.map (fun p => (f.at? p).map fun t => (depth + (p.length - 1), t.root))
      = (f.preorderFrom depth).map some := by
  induction f generalizing depth with
  | nil => rfl
  | cons a below beside ihb ihs =>
    -- No address is empty, so one step more is one level more, whatever `p.length - 1` cuts off.
    have hbelow : ∀ p ∈ below.addresses,
        ((cons a below beside).at? (0 :: p)).map (fun t => (depth + ((0 :: p).length - 1), t.root))
          = (below.at? p).map fun t => (depth + 1 + (p.length - 1), t.root) := by
      intro p hp
      have hsome := ne_nil_of_mem_addresses hp
      have hpos := List.length_pos_iff.2 hsome
      rw [at?_below hsome, List.length_cons]
      rw [show depth + (p.length + 1 - 1) = depth + 1 + (p.length - 1) by omega]
    simp only [addresses, preorderFrom, List.map_cons, List.map_append, List.map_map,
      Function.comp_def, at?_further, length_further]
    rw [List.map_congr_left hbelow, ihb, ihs]
    rfl

/-- The addresses come in the order of the walk, and their lengths tell the depths. -/
theorem map_addresses_eq_walk (f : Forest α) :
    f.addresses.map (fun p => (f.at? p).map fun t => (p.length - 1, t.root)) = f.walk.map some := by
  have h := map_addresses_eq_preorderFrom 0 f
  simp only [Nat.zero_add] at h
  rw [h, walk_eq_preorder, preorder]

/-- A tree stands at every address. -/
theorem exists_at?_of_mem_addresses {f : Forest α} (h : address ∈ f.addresses) :
    ∃ t ∈ f.subtrees, f.at? address = some t := by
  have hmem : f.at? address ∈ f.subtrees.map some := by
    rw [← map_at?_addresses]
    exact List.mem_map_of_mem h
  obtain ⟨t, ht, hat⟩ := List.mem_map.1 hmem
  exact ⟨t, ht, hat.symm⟩

theorem exists_at?_of_mem_subtrees {f : Forest α} {t : Tree α} (h : t ∈ f.subtrees) :
    ∃ address, f.at? address = some t := by
  have hmem : some t ∈ f.addresses.map f.at? := by
    rw [map_at?_addresses]
    exact List.mem_map_of_mem h
  obtain ⟨p, -, hp⟩ := List.mem_map.1 hmem
  exact ⟨p, hp⟩

theorem mem_subtrees_of_at? {f : Forest α} {t : Tree α} (h : f.at? address = some t) :
    t ∈ f.subtrees := by
  induction f generalizing address with
  | nil => exact absurd (h.symm.trans (at?_nil address)) (Option.some_ne_none t)
  | cons a below beside ihb ihs =>
    rcases at?_cons_cases h with ⟨-, rfl⟩ | ⟨p, -, -, hp⟩ | ⟨p, -, hp⟩
    · exact List.mem_cons_self
    · exact List.mem_cons_of_mem _ (List.mem_append_left _ (ihb hp))
    · exact List.mem_cons_of_mem _ (List.mem_append_right _ (ihs hp))

/-- The addresses are the places at which a tree stands. -/
theorem mem_addresses_iff {f : Forest α} : address ∈ f.addresses ↔ (f.at? address).isSome := by
  constructor
  · intro h
    obtain ⟨t, -, ht⟩ := exists_at?_of_mem_addresses h
    rw [ht, Option.isSome_some]
  · intro h
    obtain ⟨t, ht⟩ := Option.isSome_iff_exists.1 h
    clear h
    induction f generalizing address with
    | nil => exact absurd (ht.symm.trans (at?_nil address)) (Option.some_ne_none t)
    | cons a below beside ihb ihs =>
      rcases at?_cons_cases ht with ⟨rfl, -⟩ | ⟨p, -, rfl, hp⟩ | ⟨p, rfl, hp⟩
      · exact List.mem_cons_self
      · exact List.mem_cons_of_mem _ (List.mem_append_left _ (List.mem_map_of_mem (ihb hp)))
      · exact List.mem_cons_of_mem _ (List.mem_append_right _ (List.mem_map_of_mem (ihs hp)))

theorem cons_zero_ne_further (p q : List Nat) : 0 :: p ≠ further q := by
  cases q with
  | nil => exact List.cons_ne_nil 0 p
  | cons k q => exact fun h => Nat.succ_ne_zero k (List.cons.inj h).1.symm

theorem further_injective : Function.Injective further := by
  intro p q h
  cases p with
  | nil =>
    cases q with
    | nil => rfl
    | cons k q => cases h
  | cons k p =>
    cases q with
    | nil => cases h
    | cons l q =>
      obtain ⟨hkl, hpq⟩ := List.cons.inj h
      rw [Nat.succ.inj hkl, hpq]

/-- No place is listed twice. -/
theorem nodup_addresses (f : Forest α) : f.addresses.Nodup := by
  induction f with
  | nil => exact List.nodup_nil
  | cons a below beside ihb ihs =>
    rw [addresses, List.nodup_cons, List.nodup_append]
    -- The first step of an address tells whether it is of the root, below it or beside it.
    refine ⟨fun h => ?_, List.Nodup.map List.cons_injective ihb,
      List.Nodup.map further_injective ihs, ?_⟩
    · rcases List.mem_append.1 h with h | h
      · obtain ⟨p, hp, hfirst⟩ := List.mem_map.1 h
        exact ne_nil_of_mem_addresses hp (List.cons.inj hfirst).2
      · obtain ⟨q, -, hfirst⟩ := List.mem_map.1 h
        exact cons_zero_ne_further [] q hfirst.symm
    · intro p hp q hq
      obtain ⟨p, -, rfl⟩ := List.mem_map.1 hp
      obtain ⟨q, -, rfl⟩ := List.mem_map.1 hq
      exact cons_zero_ne_further p q

/-! ### Trees beside -/

/-- The address of the tree beside the one that an address passes at a depth. -/
def nextAt : List Nat → Nat → List Nat
  | [], _ => []
  | k :: _, 0 => [k + 1]
  | k :: address, depth + 1 => k :: nextAt address depth

/-- Whether a tree follows beside the one that an address passes at a depth. -/
def hasNext (f : Forest α) (address : List Nat) (depth : Nat) : Bool :=
  (f.at? (nextAt address depth)).isSome

theorem hasNext_first (address : List Nat) :
    (cons a below beside).hasNext (0 :: address) 0 = !beside.isNil := by
  cases beside <;> rfl

theorem hasNext_below (h : address ≠ []) (depth : Nat) :
    (cons a below beside).hasNext (0 :: address) (depth + 1) = below.hasNext address depth := by
  have hsome : nextAt address depth ≠ [] := by
    cases address with
    | nil => exact absurd rfl h
    | cons k address => cases depth <;> exact List.cons_ne_nil _ _
  rw [hasNext, hasNext, nextAt, at?_below hsome]

theorem hasNext_further (address : List Nat) (depth : Nat) :
    (cons a below beside).hasNext (further address) depth = beside.hasNext address depth := by
  have hnext : nextAt (further address) depth = further (nextAt address depth) := by
    cases address with
    | nil => rfl
    | cons k address => cases depth <;> rfl
  rw [hasNext, hasNext, hnext, at?_further]

/-! ### Above and below -/

/-- An address goes on behind another one. -/
def GoesOn (address p : List Nat) : Prop :=
  address <+: p ∧ address ≠ p

instance (address p : List Nat) : Decidable (GoesOn address p) :=
  inferInstanceAs (Decidable (_ ∧ _))

theorem not_goesOn_first {address : List Nat} (h : address ≠ []) : ¬ GoesOn address [0] := by
  rintro ⟨hstart, hne⟩
  rcases List.prefix_cons_iff.1 hstart with rfl | ⟨rest, rfl, hrest⟩
  · exact h rfl
  · rw [List.prefix_nil.1 hrest] at hne
    exact hne rfl

theorem goesOn_below_iff {address p : List Nat} :
    GoesOn (0 :: address) (0 :: p) ↔ GoesOn address p := by
  rw [GoesOn, GoesOn, List.cons_prefix_cons, ne_eq, List.cons.injEq]
  simp

theorem not_goesOn_further {address p : List Nat} : ¬ GoesOn (0 :: address) (further p) := by
  rintro ⟨hstart, -⟩
  cases p with
  | nil => exact absurd (List.prefix_nil.1 hstart) (List.cons_ne_nil _ _)
  | cons k p => exact absurd (List.cons_prefix_cons.1 hstart).1 (Nat.succ_ne_zero k).symm

theorem further_not_goesOn {address p : List Nat} (h : address ≠ []) :
    ¬ GoesOn (further address) (0 :: p) := by
  rintro ⟨hstart, -⟩
  obtain ⟨k, rest, rfl⟩ := List.exists_cons_of_ne_nil h
  exact absurd (List.cons_prefix_cons.1 hstart).1 (Nat.succ_ne_zero k)

theorem goesOn_further_iff {address p : List Nat} (h : address ≠ []) :
    GoesOn (further address) (further p) ↔ GoesOn address p := by
  obtain ⟨k, rest, rfl⟩ := List.exists_cons_of_ne_nil h
  cases p with
  | nil => simp [GoesOn, further]
  | cons l p => simp [GoesOn, further, List.cons_prefix_cons]

/-- What an address below the first node goes on behind is that node, or it is below it too. -/
theorem GoesOn.of_below {above p : List Nat} (h : GoesOn above (0 :: p)) (hsome : above ≠ []) :
    ∃ q, above = 0 :: q ∧ GoesOn q p := by
  rcases List.prefix_cons_iff.1 h.1 with rfl | ⟨q, rfl, -⟩
  · exact absurd rfl hsome
  · exact ⟨q, rfl, goesOn_below_iff.1 h⟩

/-- What an address beside the first node goes on behind is beside it too. -/
theorem GoesOn.of_further {above p : List Nat} (h : GoesOn above (Forest.further p))
    (hsome : above ≠ []) : ∃ q, q ≠ [] ∧ above = Forest.further q ∧ GoesOn q p := by
  obtain ⟨k, rest, rfl⟩ := List.exists_cons_of_ne_nil hsome
  cases k with
  | zero => exact absurd h not_goesOn_further
  | succ k =>
    have hq : k :: rest ≠ [] := List.cons_ne_nil k rest
    exact ⟨k :: rest, hq, rfl, (goesOn_further_iff hq).1 h⟩

end IncludeTrace.Forest
