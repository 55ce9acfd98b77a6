/-
The forest that a graph document stands for.

Nothing is lost between the forest that the traversal keeps and the two lists that it writes:
the nodes that no link leads to stand side by side, and below each file stand the files that
the links from it lead to.

* `Unfolds` — what a forest has to do with the lists of a document;
* `Sprouts.eq` — a document unfolds to at most one forest;
* `Document.append`, `exists_append` — the traversal adds the nodes and the links of a forest in
  which no file recurs, and of the whole forest if none recurs there;
* `unfolds_append_empty` — such a forest is what its document unfolds to;
* `ofForest_unfolds` — so exporting, unfolding and exporting again changes nothing.
-/
import IncludeTrace.Proofs.DocumentForest

namespace IncludeTrace.Graph

/-- The nodes of the outermost includes. -/
def topNodes (f : Forest Include) : List Node :=
  f.trees.map fun t => .ofInclude t.root

/-- The nodes of all includes, in preorder. -/
def nodesOf (f : Forest Include) : List Node :=
  f.values.map .ofInclude

/-- The paths of all includes, in preorder. -/
def pathsOf (f : Forest Include) : List String :=
  f.values.map Include.path

/-- The links to all includes, in preorder; `parent` includes the outermost ones. -/
def linksOf (parent : Option String) : Forest Include → List Link
  | .nil => []
  | .cons i below beside =>
    (parent.map (⟨·, i.path⟩)).toList ++ linksOf (some i.path) below ++ linksOf parent beside

namespace Document

/-- The nodes that the links from a file lead to, in the order of the links. -/
def childNodes (d : Document) (id : String) : List Node :=
  (d.links.filter (·.source = id)).filterMap fun l => d.nodes.find? (·.id = l.target)

/-- Below each include of a forest stand the files that the links from its file lead to. -/
def Sprouts (d : Document) (f : Forest Include) : Prop :=
  ∀ t ∈ f.subtrees, topNodes t.below = d.childNodes t.root.path

/-- A forest is what a document stands for: its outermost includes are the nodes that no link
leads to, and below each include stand the targets of its links, all in the order of the
document. -/
structure Unfolds (d : Document) (f : Forest Include) : Prop where
  outermost : topNodes f = d.roots
  below : d.Sprouts f

instance (d : Document) (f : Forest Include) : Decidable (d.Unfolds f) :=
  decidable_of_iff (topNodes f = d.roots ∧
      ∀ t ∈ f.subtrees, topNodes t.below = d.childNodes t.root.path)
    ⟨fun ⟨h₁, h₂⟩ => ⟨h₁, h₂⟩, fun h => ⟨h.outermost, h.below⟩⟩

/-! ### One forest at most -/

theorem Sprouts.below {d : Document} {i : Include} {below beside : Forest Include}
    (h : d.Sprouts (.cons i below beside)) : d.Sprouts below := fun t ht =>
  h t (List.mem_cons_of_mem _ (List.mem_append_left _ ht))

theorem Sprouts.beside {d : Document} {i : Include} {below beside : Forest Include}
    (h : d.Sprouts (.cons i below beside)) : d.Sprouts beside := fun t ht =>
  h t (List.mem_cons_of_mem _ (List.mem_append_right _ ht))

/-- The outermost includes determine what is below them. -/
theorem Sprouts.eq {d : Document} {f g : Forest Include} (hf : d.Sprouts f) (hg : d.Sprouts g)
    (h : topNodes f = topNodes g) : f = g := by
  induction f generalizing g with
  | nil =>
    cases g with
    | nil => rfl
    | cons j below' beside' => cases h
  | cons i below beside ihb ihs =>
    cases g with
    | nil => cases h
    | cons j below' beside' =>
      obtain ⟨hroot, hbeside⟩ := List.cons_eq_cons.1 h
      -- A node holds the path and the name, which is all that there is to an include.
      obtain ⟨hpath, hname⟩ := Node.mk.inj hroot
      have hij : i = j := by
        cases i
        cases j
        cases hpath
        cases hname
        rfl
      subst hij
      have hbelow : topNodes below = topNodes below' :=
        (hf _ List.mem_cons_self).trans (hg _ List.mem_cons_self).symm
      rw [ihb hf.below hg.below hbelow, ihs hf.beside hg.beside hbeside]

theorem Unfolds.eq {d : Document} {f g : Forest Include} (hf : d.Unfolds f) (hg : d.Unfolds g) :
    f = g :=
  hf.below.eq hg.below (hf.outermost.trans hg.outermost.symm)

/-! ### What the traversal adds -/

/-- The document with the nodes and the links of a forest. -/
def append (d : Document) (parent : Option String) (f : Forest Include) : Document :=
  ⟨d.nodes ++ nodesOf f, d.links ++ linksOf parent f⟩

theorem ids_append (d : Document) (parent : Option String) (f : Forest Include) :
    (d.append parent f).ids = d.ids ++ pathsOf f := by
  simp only [ids, append, nodesOf, pathsOf, List.map_append, List.map_map]
  rfl

theorem append_nil (d : Document) (parent : Option String) : d.append parent .nil = d := by
  simp [append, nodesOf, linksOf, Forest.values]

theorem append_cons (d : Document) (parent : Option String) (i : Include)
    (below beside : Forest Include) :
    d.append parent (.cons i below beside)
      = ((d.add parent i).append (some i.path) below).append parent beside := by
  simp [append, add, nodesOf, linksOf, Forest.values, Node.ofInclude]

/-- The traversal of a forest adds the nodes and the links of a part of it in which no file
recurs, and of all of it if no file recurs there. -/
theorem exists_append (f : Forest Include) (parent : Option String) {d : Document}
    (hd : d.ids.Nodup) :
    ∃ g, addForest parent f d = d.append parent g ∧ (d.ids ++ pathsOf g).Nodup ∧
      ((d.ids ++ pathsOf f).Nodup → g = f) := by
  -- What carries the induction is that no file is a node twice: what is added below an include
  -- counts as known beside it.
  induction f generalizing parent d with
  | nil =>
    refine ⟨.nil, (append_nil d parent).symm, ?_, fun _ => rfl⟩
    simpa [pathsOf, Forest.values] using hd
  | cons i below beside ihb ihs =>
    rw [addForest]
    split
    · next hhas =>
      -- A file that is a node already is left out with all that is below it.
      obtain ⟨g, hadd, hnodup, -⟩ := ihs parent hd
      refine ⟨g, hadd, hnodup, fun hall => ?_⟩
      have hdisjoint := (List.nodup_append.1 hall).2.2
      exact absurd rfl (hdisjoint _ ((has_iff d _).1 hhas) i.path List.mem_cons_self)
    · next hnew =>
      rw [has_iff] at hnew
      have hone : (d.add parent i).ids.Nodup := by
        rw [ids_add, ← List.concat_eq_append]
        exact hd.concat hnew
      obtain ⟨gb, hbelow, hnodupb, hallb⟩ := ihb (some i.path) hone
      rw [← ids_append _ (some i.path)] at hnodupb
      obtain ⟨gs, hbeside, hnodups, halls⟩ := ihs parent hnodupb
      refine ⟨.cons i gb gs, ?_, ?_, fun hall => ?_⟩
      · rw [hbelow, hbeside, append_cons]
      · rwa [← ids_append _ parent, ← append_cons, ids_append] at hnodups
      · have hsplit : d.ids ++ pathsOf (.cons i below beside)
            = (d.add parent i).ids ++ pathsOf below ++ pathsOf beside := by
          simp [pathsOf, Forest.values]
        rw [hsplit] at hall
        have hgb : gb = below := hallb (List.nodup_append.1 hall).1
        subst hgb
        rw [halls (by rwa [ids_append])]

/-! ### The lists of a forest in which no file recurs -/

theorem pathsOf_cons (i : Include) (below beside : Forest Include) :
    pathsOf (.cons i below beside) = i.path :: (pathsOf below ++ pathsOf beside) := by
  simp [pathsOf, Forest.values]

theorem root_mem_values {f : Forest Include} {t : Tree Include} (h : t ∈ f.subtrees) :
    t.root ∈ f.values := by
  rw [Forest.values_eq_map_root]
  exact List.mem_map_of_mem h

theorem path_mem_pathsOf {f : Forest Include} {t : Tree Include} (h : t ∈ f.subtrees) :
    t.root.path ∈ pathsOf f :=
  List.mem_map_of_mem (root_mem_values h)

/-- Links start at the files of the forest, or at the file that includes it. -/
theorem source_of_mem_linksOf {parent : Option String} {f : Forest Include} {l : Link}
    (h : l ∈ linksOf parent f) : parent = some l.source ∨ l.source ∈ pathsOf f := by
  induction f generalizing parent with
  | nil => exact absurd h List.not_mem_nil
  | cons i below beside ihb ihs =>
    rw [pathsOf_cons, List.mem_cons, List.mem_append]
    rw [linksOf, List.mem_append, List.mem_append] at h
    rcases h with (h | h) | h
    · obtain ⟨p, hp, rfl⟩ := Option.map_eq_some_iff.1 (Option.mem_toList.1 h)
      exact .inl hp
    · rcases ihb h with hp | hp
      · exact .inr (.inl (Option.some.inj hp).symm)
      · exact .inr (.inr (.inl hp))
    · exact (ihs h).imp id fun hp => .inr (.inr hp)

theorem filter_linksOf_eq_nil {parent : Option String} {f : Forest Include} {path : String}
    (hparent : parent ≠ some path) (hpath : path ∉ pathsOf f) :
    (linksOf parent f).filter (·.source = path) = [] := by
  rw [List.filter_eq_nil_iff]
  intro l hl hsource
  obtain rfl := of_decide_eq_true hsource
  exact (source_of_mem_linksOf hl).elim hparent hpath

/-- The links from the file that includes a forest lead to its outermost includes. -/
theorem filter_linksOf_parent {path : String} {f : Forest Include} (h : path ∉ pathsOf f) :
    (linksOf (some path) f).filter (·.source = path)
      = f.trees.map fun t => ⟨path, t.root.path⟩ := by
  induction f with
  | nil => rfl
  | cons i below beside _ ihs =>
    rw [pathsOf_cons, List.mem_cons, List.mem_append, not_or, not_or] at h
    obtain ⟨hi, hbelow, hbeside⟩ := h
    have hinner : some i.path ≠ some path := fun hp => hi (Option.some.inj hp).symm
    rw [linksOf, List.filter_append, List.filter_append, filter_linksOf_eq_nil hinner hbelow,
      ihs hbeside]
    simp [Forest.trees]

/-- The links from a file lead to the includes directly below it. -/
theorem filter_linksOf {parent : Option String} {f : Forest Include} (hf : (pathsOf f).Nodup)
    {t : Tree Include} (ht : t ∈ f.subtrees) (hparent : parent ≠ some t.root.path) :
    (linksOf parent f).filter (·.source = t.root.path)
      = t.below.trees.map fun u => ⟨t.root.path, u.root.path⟩ := by
  induction f generalizing parent with
  | nil => exact absurd ht List.not_mem_nil
  | cons i below beside ihb ihs =>
    rw [pathsOf_cons, List.nodup_cons, List.mem_append, not_or, List.nodup_append] at hf
    obtain ⟨⟨hib, his⟩, hbelow, hbeside, hdisjoint⟩ := hf
    have hlink : ((parent.map (Link.mk · i.path)).toList).filter (·.source = t.root.path) = [] := by
      cases parent with
      | none => rfl
      | some p => simpa using hparent
    rw [linksOf, List.filter_append, List.filter_append, hlink, List.nil_append]
    rcases List.mem_cons.1 ht with rfl | ht
    · rw [filter_linksOf_parent hib, filter_linksOf_eq_nil hparent his, List.append_nil]
    · rcases List.mem_append.1 ht with ht | ht
      · -- The file lies below `i`, so no link beside `i` starts at it.
        have hpath := path_mem_pathsOf ht
        have hi : some i.path ≠ some t.root.path := fun hp => hib (Option.some.inj hp ▸ hpath)
        rw [ihb hbelow ht hi, filter_linksOf_eq_nil hparent, List.append_nil]
        exact fun hp => hdisjoint _ hpath _ hp rfl
      · have hpath := path_mem_pathsOf ht
        have hi : some i.path ≠ some t.root.path := fun hp => his (Option.some.inj hp ▸ hpath)
        rw [ihs hbeside ht hparent, filter_linksOf_eq_nil hi, List.nil_append]
        exact fun hp => hdisjoint _ hp _ hpath rfl

/-- Where no file recurs, every include is found by its path. -/
theorem find?_ofInclude {is : List Include} (h : (is.map Include.path).Nodup) {i : Include}
    (hi : i ∈ is) : (is.map Node.ofInclude).find? (·.id = i.path) = some (.ofInclude i) := by
  induction is with
  | nil => exact absurd hi List.not_mem_nil
  | cons j is ih =>
    rw [List.map_cons, List.nodup_cons] at h
    rw [List.map_cons, List.find?_cons]
    rcases List.mem_cons.1 hi with rfl | hi
    · simp [Node.ofInclude]
    · have hj : j.path ≠ i.path := fun hji => h.1 (hji ▸ List.mem_map_of_mem hi)
      simpa [Node.ofInclude, hj] using ih h.2 hi

theorem map_target_linksOf_some (path : String) (f : Forest Include) :
    (linksOf (some path) f).map Link.target = pathsOf f := by
  induction f generalizing path with
  | nil => rfl
  | cons i below beside ihb ihs =>
    rw [linksOf, List.map_append, List.map_append, ihb, ihs, pathsOf_cons]
    rfl

theorem target_of_mem_linksOf {parent : Option String} {f : Forest Include} {l : Link}
    (h : l ∈ linksOf parent f) : l.target ∈ pathsOf f := by
  induction f generalizing parent with
  | nil => exact absurd h List.not_mem_nil
  | cons i below beside ihb ihs =>
    rw [pathsOf_cons, List.mem_cons, List.mem_append]
    rw [linksOf, List.mem_append, List.mem_append] at h
    rcases h with (h | h) | h
    · obtain ⟨p, -, rfl⟩ := Option.map_eq_some_iff.1 (Option.mem_toList.1 h)
      exact .inl rfl
    · exact .inr (.inl (ihb h))
    · exact .inr (.inr (ihs h))

/-- Exactly the outermost includes are what no link leads to. -/
theorem filter_nodesOf {f : Forest Include} (hf : (pathsOf f).Nodup) :
    (nodesOf f).filter (fun n => n.id ∉ (linksOf none f).map Link.target) = topNodes f := by
  induction f with
  | nil => rfl
  | cons i below beside _ ihs =>
    rw [pathsOf_cons, List.nodup_cons, List.mem_append, not_or, List.nodup_append] at hf
    obtain ⟨⟨hib, his⟩, -, hbeside, hdisjoint⟩ := hf
    have hnodes : nodesOf (.cons i below beside)
        = .ofInclude i :: (nodesOf below ++ nodesOf beside) := by
      simp [nodesOf, Forest.values]
    have htargets : (linksOf none (.cons i below beside)).map Link.target
        = pathsOf below ++ (linksOf none beside).map Link.target := by
      simp [linksOf, map_target_linksOf_some]
    have houter {path : String} (hpath : path ∉ pathsOf beside) :
        path ∉ (linksOf none beside).map Link.target := by
      intro hmem
      obtain ⟨l, hl, rfl⟩ := List.mem_map.1 hmem
      exact hpath (target_of_mem_linksOf hl)
    have hroot : i.path ∉ pathsOf below ++ (linksOf none beside).map Link.target := by
      rw [List.mem_append, not_or]
      exact ⟨hib, houter his⟩
    -- A link leads to everything below `i`, and none of that stands beside `i` again.
    have hnone : (nodesOf below).filter (fun n =>
        n.id ∉ pathsOf below ++ (linksOf none beside).map Link.target) = [] := by
      rw [List.filter_eq_nil_iff]
      intro n hn
      obtain ⟨j, hj, rfl⟩ := List.mem_map.1 hn
      have hpath : j.path ∈ pathsOf below := List.mem_map_of_mem hj
      simp [Node.ofInclude, hpath]
    have hsame : (nodesOf beside).filter (fun n =>
          n.id ∉ pathsOf below ++ (linksOf none beside).map Link.target)
        = (nodesOf beside).filter fun n => n.id ∉ (linksOf none beside).map Link.target := by
      refine List.filter_congr fun n hn => ?_
      obtain ⟨j, hj, rfl⟩ := List.mem_map.1 hn
      have hpath : j.path ∉ pathsOf below := fun hp =>
        hdisjoint _ hp _ (List.mem_map_of_mem hj) rfl
      simp [Node.ofInclude, hpath]
    rw [hnodes, htargets, List.filter_cons_of_pos (by simpa [Node.ofInclude] using hroot),
      List.filter_append, hnone, hsame, ihs hbeside]
    rfl

/-- A forest in which no file recurs is what its document stands for. -/
theorem unfolds_append_empty {f : Forest Include} (hf : (pathsOf f).Nodup) :
    (empty.append none f).Unfolds f := by
  constructor
  · rw [roots, targets, append, empty, List.nil_append, List.nil_append, filter_nodesOf hf]
  · intro t ht
    have hfind : ∀ u ∈ t.below.trees,
        (nodesOf f).find? (·.id = u.root.path) = some (.ofInclude u.root) := fun u hu =>
      find?_ofInclude hf (root_mem_values
        (Forest.mem_subtrees_of_below ht (Forest.mem_subtrees_of_mem_trees hu)))
    rw [childNodes, append, empty, List.nil_append, List.nil_append,
      filter_linksOf hf ht (by simp), List.filterMap_map, topNodes,
      ← List.filterMap_eq_map]
    exact List.filterMap_congr fun u hu => (hfind u hu).symm

/-- **The document of a forest determines the exported forest.**  Exactly one forest is what
the document stands for, and its document is the same again; if no file recurs, it is the
forest that was exported. -/
theorem ofForest_unfolds (f : Forest Include) :
    ∃ g, (∀ h, (ofForest f).Unfolds h ↔ h = g) ∧ ofForest g = ofForest f ∧
      ((f.walk.map (·.2.path)).Nodup → g = f) := by
  have hpaths : f.walk.map (·.2.path) = empty.ids ++ pathsOf f := by
    rw [pathsOf, Forest.values_eq_walk, List.map_map]
    rfl
  have hempty : empty.ids.Nodup := List.nodup_nil
  obtain ⟨g, hf, hnodup, hall⟩ := exists_append f none hempty
  -- The kept forest holds each file once, so the traversal keeps all of it.
  obtain ⟨g', hg, -, hsame⟩ := exists_append g none hempty
  have hunfolds : (ofForest f).Unfolds g := by
    rw [ofForest, hf]
    exact unfolds_append_empty hnodup
  refine ⟨g, fun h => ⟨fun hh => hh.eq hunfolds, fun hh => hh ▸ hunfolds⟩, ?_, fun hdistinct => ?_⟩
  · rw [ofForest, ofForest, hf, hg, hsame hnodup]
  · rw [hpaths] at hdistinct
    exact hall hdistinct

/-- Of a file that recurs below itself and beside itself one include is left. -/
example :
    (ofForest (.cons ⟨"/a.h", "a.h"⟩ (.cons ⟨"/b.h", "b.h"⟩ (.cons ⟨"/a.h", "a.h"⟩ .nil .nil) .nil)
        (.cons ⟨"/b.h", "x/b.h"⟩ .nil .nil))).Unfolds
      (.cons ⟨"/a.h", "a.h"⟩ (.cons ⟨"/b.h", "b.h"⟩ .nil .nil) .nil) := by decide +kernel

end Document

end IncludeTrace.Graph
