/-
The files of a forest that the document keeps.

The traversal leaves out a file that is a node already together with everything below it,
so a file can be missed that occurs only there.  It is not where no file is included below
itself, and where a file that is included again brings nothing that it did not bring the
first time:

* `NoSelfInclusion`, `Guarded` — these two conditions;
* `Lists` — a document whose nodes are the files of a list of includes, each as it occurs
  first;
* `path_mem_of_passed` — below a file that was passed, nothing new is left;
* `nodes_ofForest` — the nodes are the files of the walk, in order of first occurrence.
-/
import IncludeTrace.Proofs.DocumentForest
import IncludeTrace.Proofs.FirstOccurrences

namespace IncludeTrace.Graph

/-- The files that an include includes directly. -/
def childPaths (t : Tree Include) : List String :=
  t.below.trees.map (·.root.path)

/-- No file is included below itself. -/
def NoSelfInclusion (f : Forest Include) : Prop :=
  ∀ t ∈ f.subtrees, ∀ s ∈ t.below.subtrees, s.root.path ≠ t.root.path

instance (f : Forest Include) : Decidable (NoSelfInclusion f) :=
  inferInstanceAs (Decidable (∀ t ∈ f.subtrees, ∀ s ∈ t.below.subtrees, s.root.path ≠ t.root.path))

/-- Wherever a file is included, it includes only files that it included where the walk met
it first. -/
def Guarded (f : Forest Include) : Prop :=
  ∀ t ∈ f.subtrees, ∀ first ∈ f.subtrees.find? (·.root.path == t.root.path),
    ∀ path ∈ childPaths t, path ∈ childPaths first

instance (f : Forest Include) : Decidable (Guarded f) :=
  inferInstanceAs (Decidable (∀ t ∈ f.subtrees,
    ∀ first ∈ f.subtrees.find? (·.root.path == t.root.path),
      ∀ path ∈ childPaths t, path ∈ childPaths first))

namespace Document

/-! ### Documents that list includes -/

/-- The nodes are the files of some includes in order of first occurrence, each labelled
with its name there. -/
structure Lists (d : Document) (is : List Include) : Prop where
  ids_eq : d.ids = (is.map Include.path).eraseDups
  label : ∀ n ∈ d.nodes, (is.find? (·.path == n.id)).map Include.name = some n.label

theorem Lists.mem_ids_iff {d : Document} {is : List Include} (h : d.Lists is) (path : String) :
    path ∈ d.ids ↔ path ∈ is.map Include.path := by
  rw [h.ids_eq, List.mem_eraseDups]

/-- The labels stay, whatever follows. -/
theorem Lists.label_append {d : Document} {is : List Include} (h : d.Lists is)
    (js : List Include) :
    ∀ n ∈ d.nodes, ((is ++ js).find? (·.path == n.id)).map Include.name = some n.label := by
  intro n hn
  obtain ⟨i, hi, hname⟩ := Option.map_eq_some_iff.1 (h.label n hn)
  rw [List.find?_append, hi, Option.some_or, Option.map_some, hname]

/-- A new file is listed at the end. -/
theorem Lists.add {d : Document} {is : List Include} (h : d.Lists is) (parent : Option String)
    {i : Include} (hnew : i.path ∉ d.ids) : (d.add parent i).Lists (is ++ [i]) := by
  have hpath : i.path ∉ is.map Include.path := fun hi => hnew ((h.mem_ids_iff _).2 hi)
  constructor
  · rw [ids_add, List.map_append, List.map_singleton, eraseDups_concat, ← h.ids_eq,
      keepNew_of_not_mem hnew]
  · intro n hn
    rw [nodes_add, List.mem_append, List.mem_singleton] at hn
    rcases hn with hn | rfl
    · exact h.label_append [i] n hn
    · have hnone : is.find? (·.path == i.path) = none := by
        rw [List.find?_eq_none]
        intro j hj hji
        exact hpath (eq_of_beq hji ▸ List.mem_map_of_mem hj)
      simp [Node.ofInclude, List.find?_append, hnone]

/-- Files that are nodes already add nothing. -/
theorem Lists.append_known {d : Document} {is js : List Include} (h : d.Lists is)
    (hknown : ∀ j ∈ js, j.path ∈ d.ids) : d.Lists (is ++ js) := by
  refine ⟨?_, h.label_append js⟩
  have hremoved : (js.map Include.path).removeAll (is.map Include.path) = [] := by
    simpa [List.removeAll, h.mem_ids_iff] using hknown
  rw [List.map_append, List.eraseDups_append, hremoved, ← h.ids_eq, List.eraseDups_nil,
    List.append_nil]

/-! ### What was passed -/

/-- Of each include that was passed, everything directly below was passed as well, unless
its file does not occur in what is still ahead. -/
def Completed (passed : List (Tree Include)) (ahead : Forest Include) : Prop :=
  ∀ v ∈ passed, (∀ s ∈ ahead.subtrees, s.root.path ≠ v.root.path) ∨
    ∀ c ∈ v.below.trees, c ∈ passed

variable {f g : Forest Include} {passed later : List (Tree Include)}

/-- A file that was passed has brought all its files. -/
theorem childPaths_mem_of_passed (hguard : Guarded f) (hsplit : f.subtrees = passed ++ later)
    (hdone : Completed passed g) {t : Tree Include} (htf : t ∈ f.subtrees)
    (htg : t ∈ g.subtrees) (ht : t.root.path ∈ passed.map (·.root.path)) :
    ∀ path ∈ childPaths t, path ∈ passed.map (·.root.path) := by
  obtain ⟨first, hfirst⟩ : ∃ v, passed.find? (·.root.path == t.root.path) = some v := by
    obtain ⟨v, hv, hvt⟩ := List.mem_map.1 ht
    rw [← Option.isSome_iff_exists, List.find?_isSome]
    exact ⟨v, hv, beq_of_eq hvt⟩
  have hsame : first.root.path = t.root.path := eq_of_beq (List.find?_some hfirst :)
  have hfind : f.subtrees.find? (·.root.path == t.root.path) = some first := by
    rw [hsplit, List.find?_append, hfirst, Option.some_or]
  intro path hpath
  rcases hdone first (List.mem_of_find?_eq_some hfirst) with hahead | hall
  · -- The file lies ahead, so its first occurrence is complete.
    exact absurd hsame.symm (hahead t htg)
  · obtain ⟨c, hc, rfl⟩ := List.mem_map.1 (hguard t htf first hfind path hpath)
    exact List.mem_map_of_mem (hall c hc)

/-- Below files that were passed, no new file is left. -/
theorem path_mem_of_passed (hguard : Guarded f) (hsplit : f.subtrees = passed ++ later)
    (hdone : Completed passed g) {h : Forest Include} (hhf : ∀ s ∈ h.subtrees, s ∈ f.subtrees)
    (hhg : ∀ s ∈ h.subtrees, s ∈ g.subtrees)
    (hroots : ∀ t ∈ h.trees, t.root.path ∈ passed.map (·.root.path)) :
    ∀ s ∈ h.subtrees, s.root.path ∈ passed.map (·.root.path) := by
  induction h with
  | nil => exact nofun
  | cons i below beside ihb ihs =>
    -- The guard says of a file that was passed that all it includes was passed then, too.
    have hi : i.path ∈ passed.map (·.root.path) := hroots ⟨i, below⟩ List.mem_cons_self
    have hbelow : ∀ t ∈ below.trees, t.root.path ∈ passed.map (·.root.path) := fun t ht =>
      childPaths_mem_of_passed (t := ⟨i, below⟩) hguard hsplit hdone (hhf _ List.mem_cons_self)
        (hhg _ List.mem_cons_self) hi _ (List.mem_map_of_mem ht)
    intro s hs
    rcases List.mem_cons.1 hs with rfl | hs
    · exact hi
    · rcases List.mem_append.1 hs with hs | hs
      · exact ihb (fun t ht => hhf t (List.mem_cons_of_mem _ (List.mem_append_left _ ht)))
          (fun t ht => hhg t (List.mem_cons_of_mem _ (List.mem_append_left _ ht))) hbelow s hs
      · exact ihs (fun t ht => hhf t (List.mem_cons_of_mem _ (List.mem_append_right _ ht)))
          (fun t ht => hhg t (List.mem_cons_of_mem _ (List.mem_append_right _ ht)))
          (fun t ht => hroots t (List.mem_cons_of_mem _ ht)) s hs

theorem Completed.beside {i : Include} {below beside : Forest Include}
    (h : Completed passed (.cons i below beside)) :
    Completed (passed ++ ⟨i, below⟩ :: below.subtrees) beside := by
  intro v hv
  rcases List.mem_append.1 hv with hv | hv
  · exact (h v hv).imp
      (fun hne s hs => hne s (List.mem_cons_of_mem _ (List.mem_append_right _ hs)))
      (fun hall c hc => List.mem_append_left _ (hall c hc))
  · refine .inr fun c hc => List.mem_append_right _ (List.mem_cons_of_mem _ ?_)
    rcases List.mem_cons.1 hv with rfl | hv
    · exact Forest.mem_subtrees_of_mem_trees hc
    · exact Forest.mem_subtrees_of_below hv (Forest.mem_subtrees_of_mem_trees hc)

theorem Completed.below {i : Include} {below beside : Forest Include}
    (h : Completed passed (.cons i below beside))
    (hself : ∀ s ∈ below.subtrees, s.root.path ≠ i.path) :
    Completed (passed ++ [⟨i, below⟩]) below := by
  intro v hv
  rcases List.mem_append.1 hv with hv | hv
  · exact (h v hv).imp
      (fun hne s hs => hne s (List.mem_cons_of_mem _ (List.mem_append_left _ hs)))
      (fun hall c hc => List.mem_append_left _ (hall c hc))
  · rw [List.mem_singleton] at hv
    subst hv
    exact .inl hself

/-! ### The traversal -/

/-- A file that is a node already can be left out together with everything below it. -/
theorem Lists.pass_known {d : Document} {i : Include} {below beside : Forest Include}
    (hd : d.Lists (passed.map Tree.root)) (hguard : Guarded f)
    (hsplit : f.subtrees = passed ++ ((Forest.cons i below beside).subtrees ++ later))
    (hdone : Completed passed (.cons i below beside)) (hi : i.path ∈ d.ids) :
    d.Lists ((passed ++ ⟨i, below⟩ :: below.subtrees).map Tree.root) := by
  have hnode : ∀ path, path ∈ d.ids ↔ path ∈ passed.map (·.root.path) := by
    intro path
    rw [hd.mem_ids_iff, List.map_map]
    rfl
  -- The tree that is left out, alone.
  have htree : (Forest.cons i below .nil).subtrees = ⟨i, below⟩ :: below.subtrees := by
    simp [Forest.subtrees]
  have hahead : ∀ s ∈ (Forest.cons i below .nil).subtrees,
      s ∈ (Forest.cons i below beside).subtrees := by
    intro s hs
    rw [htree] at hs
    exact List.mem_append_left beside.subtrees hs
  have hwhole : ∀ s ∈ (Forest.cons i below .nil).subtrees, s ∈ f.subtrees := by
    intro s hs
    rw [hsplit]
    exact List.mem_append_right _ (List.mem_append_left _ (hahead s hs))
  have hroots : ∀ t ∈ (Forest.cons i below .nil).trees,
      t.root.path ∈ passed.map (·.root.path) := by
    intro t ht
    rw [List.mem_singleton.1 ht]
    exact (hnode i.path).1 hi
  have hknown := path_mem_of_passed hguard hsplit hdone hwhole hahead hroots
  rw [List.map_append]
  refine hd.append_known fun j hj => ?_
  obtain ⟨s, hs, rfl⟩ := List.mem_map.1 hj
  rw [hnode]
  exact hknown s (htree ▸ hs)

/-- The document keeps listing what was passed. -/
theorem addForest_lists (hself : NoSelfInclusion f) (hguard : Guarded f)
    {parent : Option String} {d : Document}
    (hsplit : f.subtrees = passed ++ (g.subtrees ++ later)) (hdone : Completed passed g)
    (hd : d.Lists (passed.map Tree.root)) :
    (addForest parent g d).Lists ((passed ++ g.subtrees).map Tree.root) := by
  induction g generalizing parent d passed later with
  | nil =>
    rw [Forest.subtrees, List.append_nil]
    exact hd
  | cons i below beside ihb ihs =>
    have hlist : passed ++ (Forest.cons i below beside).subtrees
        = (passed ++ ⟨i, below⟩ :: below.subtrees) ++ beside.subtrees := by
      simp [Forest.subtrees]
    have hbeside : f.subtrees
        = (passed ++ ⟨i, below⟩ :: below.subtrees) ++ (beside.subtrees ++ later) := by
      simp [hsplit, Forest.subtrees]
    rw [hlist, addForest]
    -- Either way the traversal goes on beside the include.
    split
    · next hi =>
      rw [has_iff] at hi
      exact ihs hbeside hdone.beside (hd.pass_known hguard hsplit hdone hi)
    · next hi =>
      rw [has_iff] at hi
      refine ihs hbeside hdone.beside ?_
      have hadd : (d.add parent i).Lists ((passed ++ [Tree.mk i below]).map Tree.root) := by
        rw [List.map_append]
        exact hd.add parent hi
      have hbelow : f.subtrees
          = (passed ++ [⟨i, below⟩]) ++ (below.subtrees ++ (beside.subtrees ++ later)) := by
        simp [hsplit, Forest.subtrees]
      have hmem : ⟨i, below⟩ ∈ f.subtrees := by
        rw [hsplit]
        exact List.mem_append_right _ List.mem_cons_self
      have hlists : (addForest (some i.path) below (d.add parent i)).Lists
          (((passed ++ [Tree.mk i below]) ++ below.subtrees).map Tree.root) :=
        ihb hbelow (hdone.below (hself ⟨i, below⟩ hmem)) hadd
      rwa [List.append_assoc] at hlists

/-- **On guarded forests no file is lost.**  If no file is included below itself, and no
file includes anything that it did not include where it was met first, then the nodes are
the files of the walk in order of first occurrence, each labelled with its name there. -/
theorem nodes_ofForest (f : Forest Include) (hself : NoSelfInclusion f) (hguard : Guarded f) :
    (ofForest f).nodes.map Node.id = (f.walk.map (·.2.path)).eraseDups ∧
      ∀ n ∈ (ofForest f).nodes,
        (f.walk.find? (·.2.path == n.id)).map (·.2.name) = some n.label := by
  have hempty : empty.Lists (([] : List (Tree Include)).map Tree.root) := ⟨rfl, nofun⟩
  have hsplit : f.subtrees = [] ++ (f.subtrees ++ []) := by simp
  have h : (ofForest f).Lists (([] ++ f.subtrees).map Tree.root) :=
    addForest_lists hself hguard hsplit nofun hempty
  rw [List.nil_append, Forest.map_root_subtrees] at h
  refine ⟨?_, fun n hn => ?_⟩
  · have hids := h.ids_eq
    rwa [List.map_map] at hids
  · have hlabel := h.label n hn
    rwa [List.find?_map, Option.map_map] at hlabel

/-- A file that comes back twice under other names, once without the file that it includes. -/
theorem nodes_ofForest_recurring :
    let f : Forest Include :=
      .cons ⟨"/a.h", "a.h"⟩ (.cons ⟨"/b.h", "b.h"⟩ (.cons ⟨"/c.h", "c.h"⟩ .nil .nil) .nil)
        (.cons ⟨"/b.h", "x/b.h"⟩ .nil
          (.cons ⟨"/d.h", "d.h"⟩ (.cons ⟨"/b.h", "b.h"⟩ (.cons ⟨"/c.h", "y/c.h"⟩ .nil .nil) .nil)
            .nil))
    NoSelfInclusion f ∧ Guarded f ∧
      (ofForest f).nodes.map Node.id = (f.walk.map (·.2.path)).eraseDups ∧
      ∀ n ∈ (ofForest f).nodes,
        (f.walk.find? (·.2.path == n.id)).map (·.2.name) = some n.label := by
  intro f
  have hself : NoSelfInclusion f := by decide +kernel
  have hguard : Guarded f := by decide +kernel
  exact ⟨hself, hguard, nodes_ofForest f hself hguard⟩

end Document

end IncludeTrace.Graph
