/-
The stack of open files while a trace is read.

The tree of a trace can be built in place.  Its nodes are kept in a store, and a stack holds the
numbers of the files that are open, from the translation unit inwards.  A notice that goes one level
down opens the latest child of the innermost open file; one that stays or goes up closes files until
as many are left as its depth asks for; and the file it names becomes the last child of the one that
is innermost then.  Nothing but the numbers links the stack to the tree, which changes under it, so
it has to be kept up that the stack is the right edge of the tree without its last node.  This holds
at the start, a notice that fits takes it on to the tree with one more node grafted on, and with it
the tree that is built is the forest that `OpenForest` holds on its rungs.

* `TreeStore`, `TreeStore.add`, `TraceReader.grow` — the store with its stack, and the notices;
* `TreeStore.Tracks`, `Tracks.add_cases` — the invariant, and what one notice does to both;
* `TreeStore.Keeps`, `keeps_of_hang` — nothing that is in the tree is changed later on;
* `TraceReader.grow_cases`, `TraceReader.tree_eq_ok_iff_grow` — a whole run, and that it ends with
  the tree of the trace;
* `TraceReader.stack_follows_rightEdge` — where the stack is before and after every notice.
-/
import IncludeTrace.Proofs.StoredTrees
import IncludeTrace.Proofs.TraceTree

namespace IncludeTrace

open StoredNode

/-- A tree that is built in place, and the stack of its open nodes.  The root has the number 0, and
the stack always holds a node. -/
structure TreeStore (α : Type) where
  nodes : List (StoredNode α)
  /-- The innermost open node. -/
  top : Nat
  /-- The open nodes around it, from the inside out. -/
  outer : List Nat
  deriving DecidableEq, Repr

namespace TreeStore

variable {α : Type}

/-- A root and nothing below it. -/
def start (root : α) : TreeStore α :=
  ⟨[⟨root, []⟩], 0, []⟩

/-- The open nodes, from the outside in. -/
def stack (s : TreeStore α) : List Nat :=
  (s.top :: s.outer).reverse

/-- The children of a node, in their order. -/
def children (s : TreeStore α) (i : Nat) : List Nat :=
  childrenIn s.nodes i

/-- What a node stands for. -/
def value? (s : TreeStore α) (i : Nat) : Option α :=
  s.nodes[i]?.map StoredNode.value

/-- Opens the last child of the innermost open node, if a node of this depth goes below it. -/
def descend (s : TreeStore α) (depth : Nat) : Except NestingFault (TreeStore α) :=
  if depth < s.outer.length + 1 then .ok s
  else if s.outer.length + 1 < depth then .error (.jump s.outer.length depth)
  else
    match (s.children s.top).getLast? with
    | none => .error (.orphan depth)
    | some latest => .ok { s with top := latest, outer := s.top :: s.outer }

/-- Takes nodes from the top of a stack until at most `depth` are left below the one on top. -/
def popTo (depth top : Nat) : List Nat → Nat × List Nat
  | [] => (top, [])
  | next :: outer =>
    if depth < outer.length + 1 then popTo depth next outer else (top, next :: outer)

/-- Closes all open nodes that are too far in for a node of this depth. -/
def closeTo (s : TreeStore α) (depth : Nat) : TreeStore α :=
  { s with top := (popTo depth s.top s.outer).1, outer := (popTo depth s.top s.outer).2 }

/-- A new last child of the innermost open node. -/
def attach (s : TreeStore α) (a : α) : TreeStore α :=
  { s with nodes := hang s.nodes s.top a }

/-- One more node at the given depth. -/
def add (s : TreeStore α) (depth : Nat) (a : α) : Except NestingFault (TreeStore α) :=
  (s.descend depth).map fun t => (t.closeTo depth).attach a

variable {s s' : TreeStore α} {root a : α} {f : Forest (Nat × α)} {o : OpenForest α} {depth : Nat}

theorem length_stack (s : TreeStore α) : s.stack.length = s.outer.length + 1 := by
  rw [stack, List.length_reverse, List.length_cons]

theorem getLast?_stack (s : TreeStore α) : s.stack.getLast? = some s.top := by
  rw [stack, List.getLast?_reverse, List.head?_cons]

/-- What is left of a stack is its outer part. -/
theorem reverse_popTo (depth top : Nat) (outer : List Nat) :
    ((popTo depth top outer).1 :: (popTo depth top outer).2).reverse
      = (top :: outer).reverse.take (depth + 1) := by
  induction outer generalizing top with
  | nil => rw [popTo, List.reverse_singleton, List.take_succ_cons, List.take_nil]
  | cons next outer ih =>
    rw [popTo]
    split
    · next h =>
      have hshort : depth + 1 ≤ (next :: outer).reverse.length := by
        rw [List.length_reverse, List.length_cons]
        omega
      have hreverse : (top :: next :: outer).reverse = (next :: outer).reverse ++ [top] :=
        List.reverse_cons
      rw [ih, hreverse, List.take_append_of_le_length hshort]
    · next h =>
      refine (List.take_of_length_le ?_).symm
      rw [List.length_reverse, List.length_cons, List.length_cons]
      omega

theorem stack_closeTo (s : TreeStore α) (depth : Nat) :
    (s.closeTo depth).stack = s.stack.take (depth + 1) :=
  reverse_popTo depth s.top s.outer

/-! ### What is never changed -/

/-- What later nodes leave of a store: every node stands for what it stood for, new children come
behind the children that it had, and the nodes that were there have the parents that they had. -/
structure Keeps (s s' : TreeStore α) : Prop where
  size : s.nodes.length ≤ s'.nodes.length
  contents : ∀ (i : Nat) (n : StoredNode α), s.nodes[i]? = some n → ∃ newer,
    s'.nodes[i]? = some ⟨n.value, n.children ++ newer⟩ ∧ ∀ j ∈ newer, s.nodes.length ≤ j
  parents : ∀ i < s.nodes.length, ∀ p, i ∈ s'.children p ↔ i ∈ s.children p

theorem Keeps.refl (s : TreeStore α) : s.Keeps s where
  size := Nat.le_refl _
  contents := fun i n h => ⟨[], by rw [List.append_nil, h], fun _ hj => absurd hj List.not_mem_nil⟩
  parents := fun _ _ _ => Iff.rfl

theorem Keeps.trans {s'' : TreeStore α} (h : s.Keeps s') (h' : s'.Keeps s'') : s.Keeps s'' where
  size := h.size.trans h'.size
  contents := fun i n hn => by
    obtain ⟨newer, hi, hnewer⟩ := h.contents i n hn
    obtain ⟨newest, hi', hnewest⟩ := h'.contents i _ hi
    refine ⟨newer ++ newest, by rw [hi', List.append_assoc], fun j hj => ?_⟩
    exact (List.mem_append.1 hj).elim (hnewer j) fun hj => h.size.trans (hnewest j hj)
  parents := fun i hi p => (h'.parents i (hi.trans_le h.size) p).trans (h.parents i hi p)

/-- A new last child leaves all that was there. -/
theorem keeps_of_hang {parent : Nat} (hparent : parent < s.nodes.length)
    (h : s'.nodes = hang s.nodes parent a) : s.Keeps s' where
  size := by
    rw [h, length_hang]
    exact Nat.le_succ _
  contents := fun i n hn => by
    rw [h]
    by_cases hi : i = parent
    · subst hi
      refine ⟨[s.nodes.length], getElem?_hang_parent hn a, fun j hj => ?_⟩
      exact (List.mem_singleton.1 hj).ge
    · refine ⟨[], ?_, fun _ hj => absurd hj List.not_mem_nil⟩
      obtain ⟨hlt, -⟩ := List.getElem?_eq_some_iff.1 hn
      rw [getElem?_hang_other hi hlt, hn, List.append_nil]
  parents := fun i hi p => by
    rw [children, children, h]
    by_cases hp : p = parent
    · subst hp
      -- The only new child there is the new node.
      rw [childrenIn_hang_parent hparent, List.mem_append, List.mem_singleton]
      exact or_iff_left hi.ne
    · rw [childrenIn_hang_other hp]

/-! ### The right edge as the stack -/

/-- The store holds a tree, of which it has all nodes, numbered in the order of the walk. -/
def Holds (s : TreeStore α) (t : Tree α) : Prop :=
  ∃ f, Spells s.nodes [0] (.cons (0, t.root) f .nil) ∧
    0 :: numbers f = List.range s.nodes.length ∧ f.map Prod.snd = t.below

theorem Holds.unique {t u : Tree α} (ht : s.Holds t) (hu : s.Holds u) : t = u := by
  obtain ⟨root, below⟩ := t
  obtain ⟨root', below'⟩ := u
  obtain ⟨f, hf, -, hbelow⟩ := ht
  obtain ⟨g, hg, -, hbelow'⟩ := hu
  have hsame := spells_unique hf hg
  rw [Forest.cons.injEq, Prod.mk.injEq] at hsame
  obtain ⟨⟨-, rfl⟩, rfl, -⟩ := hsame
  rw [Tree.mk.injEq]
  exact ⟨rfl, hbelow.symm.trans hbelow'⟩

/-- The store has the nodes of a forest below the root, numbered in the order of the walk, and the
stack is the root and the right edge of that forest without its last node. -/
structure Grown (s : TreeStore α) (root : α) (f : Forest (Nat × α)) : Prop where
  spells : Spells s.nodes [0] (.cons (0, root) f .nil)
  numbered : 0 :: numbers f = List.range s.nodes.length
  path : s.stack = 0 :: (f.rightEdge.map Prod.fst).dropLast

theorem Grown.length_outer (h : s.Grown root f) : s.outer.length = f.rightEdge.length - 1 := by
  have hlength := congrArg List.length h.path
  rw [length_stack, List.length_cons, List.length_dropLast, List.length_map] at hlength
  exact Nat.succ.inj hlength

theorem Grown.isChain (h : s.Grown root f) :
    (0 :: f.rightEdge.map Prod.fst).IsChain fun outer inner =>
      (s.children outer).getLast? = some inner :=
  isChain_rightEdge h.spells

/-- Behind the innermost open node the right edge goes on with that node's last child. -/
theorem Grown.exists_latest (h : s.Grown root f) (hsome : f.rightEdge ≠ []) :
    ∃ latest, 0 :: f.rightEdge.map Prod.fst = s.stack ++ [latest] ∧
      (s.children s.top).getLast? = some latest := by
  have hnumbers : f.rightEdge.map Prod.fst ≠ [] := fun hnil => hsome (List.map_eq_nil_iff.1 hnil)
  have hsplit : 0 :: f.rightEdge.map Prod.fst
      = s.stack ++ [(f.rightEdge.map Prod.fst).getLast hnumbers] := by
    rw [h.path, List.cons_append, List.dropLast_concat_getLast]
  have hchain := h.isChain
  rw [hsplit, List.isChain_append] at hchain
  exact ⟨_, hsplit, hchain.2.2 s.top (getLast?_stack s) _ rfl⟩

/-- What is too deep for the right edge is refused. -/
theorem Grown.add_of_lt (h : s.Grown root f) (hdepth : f.rightEdge.length < depth) (a : α) :
    s.add depth a = .error (.beyond f.rightEdge.length depth) := by
  have houter := h.length_outer
  have hdescend : s.descend depth = .error (.beyond f.rightEdge.length depth) := by
    rw [descend, if_neg (by omega), NestingFault.beyond]
    by_cases hone : depth = 1
    · -- The tree is the root alone, and the root has no child to go into.
      have hedge : f.rightEdge = [] := List.length_eq_zero_iff.1 (by omega)
      obtain rfl := Forest.eq_nil_of_rightEdge_eq_nil hedge
      have htop : s.top = 0 := by
        have hlast := getLast?_stack s
        rw [h.path] at hlast
        exact (Option.some.inj hlast).symm
      have hleaf : s.children 0 = [] := by
        cases h.spells with
        | cons stored under _ =>
          rw [children, childrenIn_of_getElem? stored]
          exact under.eq_nil_of_forest
      rw [if_neg (by omega), htop, hleaf, if_pos hone]
      rfl
    · rw [if_pos (by omega), if_neg hone, houter]
  rw [add, hdescend]
  rfl

/-- Where a node fits, the open nodes that it goes below are on the right edge. -/
theorem Grown.exists_descend (h : s.Grown root f) (hdepth : depth ≤ f.rightEdge.length) :
    ∃ t inner, s.descend depth = .ok t ∧ t.nodes = s.nodes ∧ depth < t.stack.length ∧
      0 :: f.rightEdge.map Prod.fst = t.stack ++ inner := by
  have houter := h.length_outer
  by_cases hup : depth < s.outer.length + 1
  · obtain ⟨inner, hinner⟩ := List.dropLast_prefix (f.rightEdge.map Prod.fst)
    refine ⟨s, inner, if_pos hup, rfl, by rwa [length_stack], ?_⟩
    rw [h.path, List.cons_append, hinner]
  · -- The node goes below the latest one, which is opened first.
    have hsome : f.rightEdge ≠ [] := fun hnil => by
      rw [hnil, List.length_nil] at hdepth houter
      omega
    obtain ⟨latest, hedge, hlatest⟩ := h.exists_latest hsome
    have hstack : (⟨s.nodes, latest, s.top :: s.outer⟩ : TreeStore α).stack
        = s.stack ++ [latest] := List.reverse_cons
    refine ⟨⟨s.nodes, latest, s.top :: s.outer⟩, [], ?_, rfl, ?_, ?_⟩
    · rw [descend, if_neg hup, if_neg (by omega), hlatest]
    · rw [length_stack, List.length_cons]
      omega
    · rw [hstack, hedge, List.append_nil]

/-- What fits becomes the last child of the node that is one level above it on the right edge. -/
theorem Grown.exists_add (h : s.Grown root f) (hdepth : depth ≤ f.rightEdge.length) (a : α) :
    ∃ s', s.add depth a = .ok s' ∧ s'.nodes = hang s.nodes s'.top a ∧
      s'.stack = (0 :: f.rightEdge.map Prod.fst).take (depth + 1) := by
  obtain ⟨t, inner, hdescend, hnodes, hlong, hsplit⟩ := h.exists_descend hdepth
  refine ⟨(t.closeTo depth).attach a, ?_, ?_, ?_⟩
  · rw [add, hdescend]
    rfl
  · rw [← hnodes]
    rfl
  · rw [hsplit, List.take_append_of_le_length hlong]
    exact stack_closeTo t depth

/-- The node at the top is the one that the new node hangs below. -/
theorem getElem?_top (hdepth : depth ≤ f.rightEdge.length)
    (hstack : s'.stack = (0 :: f.rightEdge.map Prod.fst).take (depth + 1)) :
    (0 :: f.rightEdge.map Prod.fst)[depth]? = some s'.top := by
  have hlong : depth < (0 :: f.rightEdge.map Prod.fst).length := by
    rw [List.length_cons, List.length_map]
    omega
  have hlast := getLast?_stack s'
  rw [hstack, List.getLast?_take, if_neg (Nat.succ_ne_zero depth), Nat.add_sub_cancel,
    List.getElem?_eq_getElem hlong] at hlast
  rwa [List.getElem?_eq_getElem hlong]

/-- A node that fits is grafted onto the forest. -/
theorem Grown.graft (h : s.Grown root f) (hdepth : depth ≤ f.rightEdge.length)
    (hnodes : s'.nodes = hang s.nodes s'.top a)
    (hstack : s'.stack = (0 :: f.rightEdge.map Prod.fst).take (depth + 1)) :
    s'.Grown root (f.graft (s.nodes.length, a) depth) where
  spells := by
    have hnumbers : numbers (.cons (0, root) f .nil) = List.range s.nodes.length := by
      rw [← h.numbered, numbers, Forest.values, Forest.values, List.append_nil]
      rfl
    have hold : ∀ i ∈ numbers (.cons (0, root) f .nil), i < s.nodes.length := by
      rw [hnumbers]
      exact fun _ => List.mem_range.1
    have hdistinct : (numbers (.cons (0, root) f .nil)).Nodup := hnumbers ▸ List.nodup_range
    rw [hnodes]
    exact spells_hang h.spells hdistinct hold a (getElem?_top hdepth hstack)
  numbered := by
    rw [hnodes, length_hang, List.range_succ, ← h.numbered, numbers, Forest.values_graft _ hdepth,
      List.map_append]
    rfl
  path := by
    rw [hstack, Forest.rightEdge_graft _ hdepth, List.map_append, List.map_take,
      List.map_singleton, List.dropLast_concat, List.take_succ_cons]

/-! ### Beside the open forest -/

/-- The store has grown as the open forest has. -/
def Tracks (s : TreeStore α) (root : α) (o : OpenForest α) : Prop :=
  ∃ f, s.Grown root f ∧ f.map Prod.snd = o.closed

/-- How a store with its stack stands beside an open forest. -/
structure Mirrors (s : TreeStore α) (root : α) (o : OpenForest α) : Prop where
  /-- The stack begins with the root. -/
  outermost : s.stack.head? = some 0
  /-- Each further node on it is the last child of the one before it. -/
  lastChildren : s.stack.IsChain fun outer inner => (s.children outer).getLast? = some inner
  /-- The tree in the store is the root with the forest as it stands. -/
  holds : s.Holds ⟨root, o.closed⟩
  /-- Behind the root stand the heads of the rungs, all but the last one. -/
  heads : s.stack.tail.map s.value? = (o.rungs.map Rung.head).reverse.dropLast.map some

/-- What a node at some depth does to store and stack. -/
structure Attaches (s s' : TreeStore α) (depth : Nat) (a : α) : Prop where
  /-- The stack has one node more than the depth says. -/
  levels : s'.stack.length = depth + 1
  /-- The node comes with the next number, and without children. -/
  newNode : s'.nodes[s.nodes.length]? = some ⟨a, []⟩
  /-- It is the last child of the node on top of the stack, behind those that this one had. -/
  lastChild : s'.stack.getLast? = some s'.top ∧
    s'.children s'.top = s.children s'.top ++ [s.nodes.length]

theorem tracks_start (root : α) : (start root).Tracks root .empty :=
  ⟨.nil, ⟨.cons rfl .nil .nil, rfl, rfl⟩, rfl⟩

theorem Tracks.mirrors (h : s.Tracks root o) : s.Mirrors root o := by
  obtain ⟨f, hf, hforest⟩ := h
  have hpath := hf.path
  refine ⟨by rw [hpath]; rfl, ?_, ⟨f, hf.spells, hf.numbered, hforest⟩, ?_⟩
  · -- The stack is an outer part of the whole right edge.
    rw [hpath]
    refine hf.isChain.prefix ?_
    exact (List.prefix_cons_inj 0).2 (List.dropLast_prefix _)
  · have hvalue : ∀ p ∈ f.rightEdge.dropLast, s.value? p.1 = some p.2 := fun p hp => by
      have hedge : p ∈ f.rightEdge := (List.dropLast_sublist _).subset hp
      have hmem : p ∈ f.values := f.rightEdge_sublist_values.subset hedge
      exact hf.spells.getElem?_of_mem (List.mem_cons_of_mem _ (List.mem_append_left _ hmem))
    rw [← OpenForest.rightEdge_closed, ← hforest, Forest.rightEdge_map, hpath, List.tail_cons,
      ← List.map_dropLast, ← List.map_dropLast, List.map_map, List.map_map]
    exact List.map_congr_left hvalue

/-- One more node either fits both, and then nothing that was there is changed, or it is refused by
both for the same reason. -/
theorem Tracks.add_cases (h : s.Tracks root o) (depth : Nat) (a : α) :
    (∃ s' o', s.add depth a = .ok s' ∧ o.add depth a = .ok o' ∧ s'.Tracks root o' ∧
      s.Attaches s' depth a ∧ s.Keeps s') ∨
    ∃ fault, s.add depth a = .error fault ∧ o.add depth a = .error fault := by
  obtain ⟨f, hf, hforest⟩ := h
  have hlevel : f.rightEdge.length = o.level := by
    rw [← OpenForest.length_rightEdge_closed, ← hforest, Forest.rightEdge_map, List.length_map]
  rcases Nat.lt_or_ge f.rightEdge.length depth with hdeep | hfits
  · refine .inr ⟨.beyond f.rightEdge.length depth, hf.add_of_lt hdeep a, ?_⟩
    rw [hlevel] at hdeep ⊢
    exact OpenForest.add_of_level_lt hdeep a
  · obtain ⟨s', hadd, hnodes, hstack⟩ := hf.exists_add hfits a
    obtain ⟨o', hadd', -, -⟩ := OpenForest.add_of_le (hlevel ▸ hfits) a
    -- The node on top is one of those that are there already.
    have hmem : s'.top ∈ List.range s.nodes.length := by
      rw [← hf.numbered]
      refine List.cons_subset_cons 0 (fun _ => mem_numbers_of_mem_rightEdge) ?_
      exact List.mem_of_getElem? (getElem?_top hfits hstack)
    have htop : s'.top < s.nodes.length := List.mem_range.1 hmem
    refine .inl ⟨s', o', hadd, hadd', ⟨_, hf.graft hfits hnodes hstack, ?_⟩, ⟨?_, ?_, ?_⟩,
      keeps_of_hang htop hnodes⟩
    · rw [Forest.graft_map, hforest, OpenForest.closed_add hadd']
    · rw [hstack, List.length_take, List.length_cons, List.length_map]
      omega
    · rw [hnodes]
      exact getElem?_hang_new s.nodes s'.top a
    · refine ⟨getLast?_stack s', ?_⟩
      rw [children, children, hnodes, childrenIn_hang_parent htop]

theorem Tracks.exists_add (h : s.Tracks root o) (hadd : s.add depth a = .ok s') :
    ∃ o', o.add depth a = .ok o' ∧ s'.Tracks root o' ∧ s.Attaches s' depth a := by
  rcases h.add_cases depth a with ⟨t, o', hadd', hopen, htracks, hattaches, -⟩ | ⟨fault, hadd', -⟩
  · rw [hadd, Except.ok.injEq] at hadd'
    subst hadd'
    exact ⟨o', hopen, htracks, hattaches⟩
  · rw [hadd] at hadd'
    cases hadd'

end TreeStore

namespace TraceReader

/-- What stands at the root of the tree of a trace: the translation unit, which no notice names. -/
def translationUnit : Include := ⟨"", ""⟩

/-- The notices, put one after another into a store. -/
def grow (r : TraceReader) (s : TreeStore Include) :
    List Notice → Except MalformedTrace (TreeStore Include)
  | [] => .ok s
  | n :: rest =>
    match s.add n.depth (r.includeOf n) with
    | .error fault => .error ⟨fault, n.lineNumber, n.line⟩
    | .ok s => grow r s rest

variable (r : TraceReader) {s : TreeStore Include} {root : Include} {o : OpenForest Include}

/-- Notices either go into both the store and the open forest, and nothing that was there is
changed, or one of them is refused by both for the same reason. -/
theorem grow_cases (h : s.Tracks root o) (ns : List Notice) :
    (∃ s' o', r.grow s ns = .ok s' ∧ r.nest o ns = .ok o' ∧ s'.Tracks root o' ∧ s.Keeps s') ∨
    ∃ e, r.grow s ns = .error e ∧ r.nest o ns = .error e := by
  induction ns generalizing s o with
  | nil => exact .inl ⟨s, o, rfl, rfl, h, .refl s⟩
  | cons n ns ih =>
    rcases h.add_cases n.depth (r.includeOf n) with
      ⟨s', o', hadd, hadd', htracks, -, hkeeps⟩ | ⟨fault, hadd, hadd'⟩
    · simp only [grow, nest, hadd, hadd']
      rcases ih htracks with ⟨s'', o'', hgrow, hnest, htracks', hkeeps'⟩ | hrefused
      · exact .inl ⟨s'', o'', hgrow, hnest, htracks', hkeeps.trans hkeeps'⟩
      · exact .inr hrefused
    · simp only [grow, nest, hadd, hadd']
      exact .inr ⟨_, rfl, rfl⟩

/-- What was put into a store was put into the open forest too. -/
theorem exists_nest_of_grow {s' : TreeStore Include} {ns : List Notice} (h : s.Tracks root o)
    (hgrow : r.grow s ns = .ok s') :
    ∃ o', r.nest o ns = .ok o' ∧ s'.Tracks root o' ∧ s.Keeps s' := by
  rcases r.grow_cases h ns with ⟨t, o', hgrow', hnest, htracks, hkeeps⟩ | ⟨e, hgrow', -⟩
  · rw [hgrow, Except.ok.injEq] at hgrow'
    subst hgrow'
    exact ⟨o', hnest, htracks, hkeeps⟩
  · rw [hgrow] at hgrow'
    cases hgrow'

/-- The tree of a trace is the one that its notices build in a store. -/
theorem tree_eq_ok_iff_grow (text : String) (t : IncludeTree) :
    r.tree text = .ok t ↔
      ∃ s, r.grow (.start translationUnit) (notices r.style text) = .ok s ∧
        s.Holds ⟨translationUnit, t.includes⟩ ∧ t.count = (notices r.style text).length ∧
        t.source = r.source := by
  rcases r.grow_cases (TreeStore.tracks_start translationUnit) (notices r.style text) with
    ⟨s, o, hgrow, hnest, htracks, -⟩ | ⟨e, hgrow, hnest⟩
  · have htree : r.tree text = .ok ⟨o.closed, (notices r.style text).length, r.source⟩ := by
      simp only [tree_eq, hnest]
      rfl
    rw [htree, hgrow]
    constructor
    · rintro ⟨⟩
      exact ⟨s, rfl, htracks.mirrors.holds, rfl, rfl⟩
    · rintro ⟨s', ⟨⟩, hholds, hcount, hsource⟩
      -- One store holds one tree.
      have hincludes := (Tree.mk.inj (hholds.unique htracks.mirrors.holds)).2
      rw [← hincludes, ← hcount, ← hsource]
  · have htree : r.tree text = .error e := by
      simp only [tree_eq, hnest]
      rfl
    rw [htree, hgrow]
    constructor
    · rintro ⟨⟩
    · rintro ⟨s, ⟨⟩, -⟩

theorem tree_eq_error_iff_grow (text : String) (e : MalformedTrace) :
    r.tree text = .error e ↔
      r.grow (.start translationUnit) (notices r.style text) = .error e := by
  rcases r.grow_cases (TreeStore.tracks_start translationUnit) (notices r.style text) with
    ⟨s, o, hgrow, hnest, -, -⟩ | ⟨fault, hgrow, hnest⟩
  · simp only [tree_eq, hnest, hgrow, Except.map]
    constructor <;> rintro ⟨⟩
  · simp only [tree_eq, hnest, hgrow, Except.map, Except.error.injEq]

/-- **The open files are a path down the right edge of the tree that is being built.**  Building the
tree in a store, with a stack of open files, ends as reading the trace does: with the same tree or
the same complaint.  Behind any notices that were handled, such as the first ones of a text, the
stack goes from the root to the last child each time, down the right edge of the tree built so far.
The next notice, if it is handled, leaves this so; behind it the stack is one longer than its depth,
and the new node is the last child of the node on top.  And whatever follows, the nodes that are
there keep their parents, the order of their children and what they stand for. -/
theorem stack_follows_rightEdge (text : String) :
    (∀ t, r.tree text = .ok t ↔
      ∃ s, r.grow (.start translationUnit) (notices r.style text) = .ok s ∧
        s.Holds ⟨translationUnit, t.includes⟩ ∧ t.count = (notices r.style text).length ∧
        t.source = r.source) ∧
    (∀ e, r.tree text = .error e ↔
      r.grow (.start translationUnit) (notices r.style text) = .error e) ∧
    ∀ before s, r.grow (.start translationUnit) before = .ok s →
      ∃ o, r.nest .empty before = .ok o ∧ s.Mirrors translationUnit o ∧
        (∀ n s', s.add n.depth (r.includeOf n) = .ok s' →
          ∃ o', r.nest .empty (before ++ [n]) = .ok o' ∧ s'.Mirrors translationUnit o' ∧
            s.Attaches s' n.depth (r.includeOf n)) ∧
        ∀ between s', r.grow s between = .ok s' → s.Keeps s' := by
  refine ⟨r.tree_eq_ok_iff_grow text, r.tree_eq_error_iff_grow text, fun before s hs => ?_⟩
  obtain ⟨o, hnest, htracks, -⟩ := r.exists_nest_of_grow (TreeStore.tracks_start _) hs
  refine ⟨o, hnest, htracks.mirrors, fun n s' hs' => ?_, fun between s' hs' => ?_⟩
  · obtain ⟨o', hadd, htracks', hattaches⟩ := htracks.exists_add hs'
    refine ⟨o', ?_, htracks'.mirrors, hattaches⟩
    rw [nest_append, hnest]
    simp only [Except.bind, nest, hadd]
  · obtain ⟨-, -, -, hkeeps⟩ := r.exists_nest_of_grow htracks hs'
    exact hkeeps

/-- A notice that goes up three levels: three files are closed, and the root gets its second
child. -/
theorem stack_follows_rightEdge_up :
    let r : TraceReader := ⟨.dotted, .unchanged, [], none⟩
    let before := notices .dotted ". a.h\n.. b.h\n... c.h\n.... d.h\n"
    let n : Notice := ⟨0, "e.h", 5, ". e.h"⟩
    let unit : Include := ⟨"", ""⟩
    let s : TreeStore Include := ⟨[⟨unit, [1]⟩, ⟨⟨"a.h", "a.h"⟩, [2]⟩, ⟨⟨"b.h", "b.h"⟩, [3]⟩,
      ⟨⟨"c.h", "c.h"⟩, [4]⟩, ⟨⟨"d.h", "d.h"⟩, []⟩], 3, [2, 1, 0]⟩
    let s' : TreeStore Include := ⟨[⟨unit, [1, 5]⟩, ⟨⟨"a.h", "a.h"⟩, [2]⟩, ⟨⟨"b.h", "b.h"⟩, [3]⟩,
      ⟨⟨"c.h", "c.h"⟩, [4]⟩, ⟨⟨"d.h", "d.h"⟩, []⟩, ⟨⟨"e.h", "e.h"⟩, []⟩], 0, []⟩
    r.grow (.start unit) before = .ok s ∧ s.add n.depth (r.includeOf n) = .ok s' ∧
      s.Attaches s' n.depth (r.includeOf n) ∧ s.Keeps s' ∧
      ∃ o', r.nest .empty (before ++ [n]) = .ok o' ∧ s'.Mirrors unit o' := by
  intro r before n unit s s'
  have hs : r.grow (.start unit) before = .ok s := by decide +kernel
  have hadd : s.add n.depth (r.includeOf n) = .ok s' := by decide +kernel
  have hs' : r.grow s [n] = .ok s' := by decide +kernel
  obtain ⟨o, -, -, hnext, hlater⟩ := (r.stack_follows_rightEdge "").2.2 before s hs
  obtain ⟨o', hnest, hmirrors, hattaches⟩ := hnext n s' hadd
  exact ⟨hs, hadd, hattaches, hlater [n] s' hs', o', hnest, hmirrors⟩

end TraceReader

end IncludeTrace
