/-
What a search finds beside the files that it is asked for.

Rows are searched, and not includes.  So a match need not stand for an include: a row that says
that there are none, or that some are left out, is searched like the others.  And what is searched
of an include are its label and its path put together, so that a query can lie across both, or be
in a label alone that is not the name.  In a tree that is wholly shown, under its names, and for a
query without a blank, every match is an include with the query in its name or its path:

* `Drawn`, `drawn_of_mem_populate` — what the items of a forest can be;
* `Stray`, `Mirrors` — rows that stand for no include, and the rows of a tree;
* `Session.mirrors_after` — in every session the rows are those of the tree;
* `Session.sorts_found` — what is found, and when it is what was asked for;
* `Session.sorts_found_fails` — a match that stands for nothing.
-/
import IncludeTrace.Proofs.SearchedRows
import IncludeTrace.Proofs.TruncatedRows

namespace IncludeTrace

/-- An include has a query in its name or its path, if letter case does not count. -/
def Include.Answers (query : String) (i : Include) : Prop :=
  Text.lower query.toList <:+: Text.lower i.name.toList ∨
    Text.lower query.toList <:+: Text.lower i.path.toList

namespace Browser

/-! ### Items -/

/-- No more is counted than there are includes. -/
theorem populate_le_count_add (l : Limits) (depth : Nat) (count : Int) (f : Forest Include) :
    (populate l depth f count).2 ≤ count + f.size := by
  have hle : (f.preorderFrom depth).countP (fun p => (p.1 : Int) < l.levels) ≤ f.size := by
    rw [← Forest.length_preorderFrom depth]
    exact List.countP_le_length
  rw [count_populate, length_filed, countP_populate]
  omega

/-- What an item can be that is made of certain includes: that of one of them, or of one that is
too deep, or the one after which a list breaks off, if there are more than there is room for. -/
inductive Drawn (l : Limits) (trees : List (Tree Include)) (places : List (Nat × Include))
    (most : Int) : Item → Prop where
  | ofTree {t : Tree Include} (ht : t ∈ trees) : Drawn l trees places most (.ofTree t)
  | tooDeep {p : Nat × Include} (hp : p ∈ places) (hdeep : l.levels ≤ p.1) :
    Drawn l trees places most (.tooDeep p.2.name)
  | truncated (hmany : l.includes < most) : Drawn l trees places most (.truncated l.includes)

theorem Drawn.mono {l : Limits} {trees trees' : List (Tree Include)}
    {places places' : List (Nat × Include)} {most most' : Int} {item : Item}
    (h : Drawn l trees places most item) (htrees : trees ⊆ trees') (hplaces : places ⊆ places')
    (hmost : most ≤ most') : Drawn l trees' places' most' item := by
  cases h with
  | ofTree ht => exact .ofTree (htrees ht)
  | tooDeep hp hdeep => exact .tooDeep (hplaces hp) hdeep
  | truncated hmany => exact .truncated (Int.lt_of_lt_of_le hmany hmost)

theorem drawn_of_mem_populate {l : Limits} {depth : Nat} {count : Int} {f : Forest Include}
    {item : Item} (h : item ∈ (populate l depth f count).1.values) :
    Drawn l f.subtrees (f.preorderFrom depth) (count + f.size) item := by
  induction f generalizing depth count with
  | nil => cases h
  | cons i below beside ihb ihs =>
    rw [Forest.subtrees, Forest.preorderFrom, Forest.size]
    have hbeside {others more : List (Nat × Include)} : others ⊆ (depth, i) :: (more ++ others) :=
      List.subset_cons_of_subset _ (List.subset_append_right _ _)
    have htrees {first : Tree Include} {others more : List (Tree Include)} :
        others ⊆ first :: (more ++ others) :=
      List.subset_cons_of_subset _ (List.subset_append_right _ _)
    -- The cases are those of the recursion: room and depth left, too deep, no room left.
    rcases Int.lt_or_le count l.includes with hroom | hfull
    · rcases Int.lt_or_le depth l.levels with hfits | hdeep
      · rw [populate_fits hroom hfits, ← Int.natCast_succ] at h
        rcases List.mem_cons.1 h with rfl | h
        · exact .ofTree List.mem_cons_self
        · rcases List.mem_append.1 h with h | h
          · exact (ihb h).mono (List.subset_cons_of_subset _ (List.subset_append_left _ _))
              (List.subset_cons_of_subset _ (List.subset_append_left _ _)) (by omega)
          · -- The rows beside start at the count that those below leave.
            have hcount := populate_le_count_add l depth.succ (count + 1) below
            exact (ihs h).mono htrees hbeside (by omega)
      · rw [populate_deep hroom hdeep] at h
        rcases List.mem_cons.1 h with rfl | h
        · exact .tooDeep (p := (depth, i)) List.mem_cons_self hdeep
        · exact (ihs h).mono htrees hbeside (by omega)
    · rw [populate_full hfull] at h
      rw [List.mem_singleton.1 h]
      exact .truncated (by omega)

/-- The rows that stand for no include: one where there is no tree, one for an include below the
last level, and one where a list breaks off, which happens in no tree of 5000 includes. -/
inductive Stray (tree : Option IncludeTree) : Item → Prop where
  | noIncludes (hnone : tree = none) : Stray tree .noIncludes
  | tooDeep {t : IncludeTree} {p : Nat × Include} (htree : tree = some t)
    (hp : p ∈ t.includes.preorder) (hdeep : 64 ≤ p.1) : Stray tree (.tooDeep p.2.name)
  | truncated {t : IncludeTree} (htree : tree = some t) (hmany : 5000 < t.includes.size) :
    Stray tree (.truncated 5000)

variable {tree : Option IncludeTree} {item : Item}

theorem Stray.file_eq_none (h : Stray tree item) : item.file = none := by
  cases h <;> rfl

/-- A tree that is wholly shown has only rows of includes. -/
theorem not_stray {t : IncludeTree} (hsize : t.includes.size ≤ 5000)
    (hheight : t.includes.height ≤ 64) : ¬ Stray (some t) item := by
  intro h
  cases h with
  | noIncludes hnone => cases hnone
  | tooDeep htree hp hdeep =>
    cases htree
    have hlt := Forest.lt_of_mem_preorderFrom hp
    omega
  | truncated htree hmany =>
    cases htree
    omega

/-! ### Rows -/

section Rows

variable {query : String} {r : Row}

/-- A query is in the label of a row. -/
def Row.Labelled (query : String) (r : Row) : Prop :=
  Text.lower query.toList <:+: Text.lower r.item.label.toList

/-- How the row of an include can match a query: the include has the query in its name or its
path, or the row has it across both texts, or in a label that is not the name. -/
def Row.MatchesFor (query : String) (r : Row) (u : Tree Include) : Prop :=
  u.root.Answers query ∨ r.Bridges query ∨ r.item.label ≠ u.root.name ∧ r.Labelled query

theorem matchesFor_of_ofTree {u : Tree Include} (hitem : r.item = .ofTree u)
    (h : r.Shows query ∨ r.Bridges query) : r.MatchesFor query u := by
  rcases h with (hlabel | ⟨t, hfile, hpath⟩) | hbridges
  · -- A label that shows the query is the name with the query in it, or another text.
    by_cases hname : r.item.label = u.root.name
    · rw [hname] at hlabel
      exact .inl (.inl hlabel)
    · exact .inr (.inr ⟨hname, hlabel⟩)
  · rw [hitem] at hfile
    cases hfile
    exact .inl (.inr hpath)
  · exact .inr (.inl hbridges)

theorem labelled_of_no_file (hfile : r.item.file = none) (h : r.Shows query ∨ r.Bridges query) :
    r.Labelled query := by
  rcases h with (hlabel | ⟨t, hsome, -⟩) | ⟨t, u, v, hsome, -⟩
  · exact hlabel
  · cases hfile.symm.trans hsome
  · cases hfile.symm.trans hsome

end Rows

/-! ### Sessions -/

/-- Items are those of a tree, and without one there is at most the item that says so. -/
def Mirrors : Option IncludeTree → Forest Item → Prop
  | some t, items => items = (populate .usual (0 : Nat) t.includes 0).1
  | none, items => items = .nil ∨ items = .cons .noIncludes .nil .nil

/-- An item is that of an include of the tree, or it stands for none. -/
theorem Mirrors.cases {items : Forest Item} (h : Mirrors tree items) (hitem : item ∈ items.values) :
    (∃ t, tree = some t ∧ ∃ u ∈ t.includes.subtrees, item = .ofTree u) ∨ Stray tree item := by
  cases tree with
  | none =>
    rcases h with rfl | rfl
    · cases hitem
    · rw [List.mem_singleton.1 hitem]
      exact .inr (.noIncludes rfl)
  | some t =>
    -- The usual limits turn what an item can be into the three kinds of stray rows.
    obtain rfl : items = _ := h
    have hdrawn := drawn_of_mem_populate hitem
    cases hdrawn with
    | ofTree hu => exact .inl ⟨t, rfl, _, hu, rfl⟩
    | tooDeep hp hdeep => exact .inr (.tooDeep rfl hp (Int.ofNat_le.1 hdeep))
    | truncated hmany =>
      refine .inr (.truncated rfl (Int.ofNat_lt.1 ?_))
      rwa [Int.zero_add] at hmany

namespace Session

variable {s : Session}

theorem mirrors_step (h : Mirrors s.tree (s.rows.map Row.item)) (a : Action) :
    Mirrors (s.step a).1.tree ((s.step a).1.rows.map Row.item) := by
  by_cases hrefresh : a = .refresh
  · subst hrefresh
    cases hloading : s.loading with
    | true =>
      have hquiet : s.Quiet .nothing (s.step .refresh) := quiet_refresh hloading
      rw [hquiet.tree, Rows.map_item_of_known hquiet.rows]
      exact h
    | false =>
      rw [step, refresh, if_neg (by simp [hloading])]
      exact .inl rfl
  · cases hends : a.endsRun with
    | false =>
      have hquiet := s.quiet_step hrefresh hends
      rw [hquiet.tree, Rows.map_item_of_known hquiet.rows]
      exact h
    | true =>
      -- The rows are planted anew by every way in which a run can end.
      obtain ⟨t, rfl⟩ | rfl | ⟨error, rfl⟩ := Action.cases_of_endsRun hends
      · exact Rows.map_item_planted s.nextId _
      · exact .inr (Rows.map_item_planted s.nextId _)
      · exact .inr (Rows.map_item_planted s.nextId _)

/-- After any actions, the rows are those of the tree. -/
theorem mirrors_after (h : Mirrors s.tree (s.rows.map Row.item)) (actions : List Action) :
    Mirrors (s.after actions).tree ((s.after actions).rows.map Row.item) := by
  induction actions generalizing s with
  | nil => exact h
  | cons a actions ih => exact ih (mirrors_step h a)

theorem mirrors_opened (title : Option String) (disk : Disk) :
    Mirrors (opened title disk).tree ((opened title disk).rows.map Row.item) :=
  .inl rfl

/-- What a search finds are the rows in which the query is found. -/
theorem mem_found_iff {a : Action} {query : String} (ha : s.errand a = .lookFor query) {r : Row} :
    r ∈ (s.step a).1.found ↔ r ∈ s.rows.values ∧ (r.Shows query ∨ r.Bridges query) := by
  rw [(lookedFor_step ha).found, Rows.matching, List.mem_filter, Forest.preorder,
    Forest.map_snd_preorderFrom, Rows.contains_haystack_iff_bridges]

/-- A search leaves the tree alone. -/
theorem tree_step_of_lookFor {a : Action} {query : String} (ha : s.errand a = .lookFor query) :
    (s.step a).1.tree = s.tree := by
  have hrefresh : a ≠ .refresh := by
    rintro rfl
    cases ha
  have hends : a.endsRun = false := by
    rw [Bool.eq_false_iff]
    intro hends
    obtain ⟨t, rfl⟩ | rfl | ⟨error, rfl⟩ := Action.cases_of_endsRun hends <;> cases ha
  exact (s.quiet_step hrefresh hends).tree

/-- A match stands for an include of the tree, or for none, and then shows the query. -/
theorem cases_of_match {query : String} {r : Row} (h : Mirrors s.tree (s.rows.map Row.item))
    (hrow : r ∈ s.rows.values) (hmatch : r.Shows query ∨ r.Bridges query) :
    (∃ t, s.tree = some t ∧ ∃ u ∈ t.includes.subtrees,
        r.item = .ofTree u ∧ r.MatchesFor query u) ∨
      Stray s.tree r.item ∧ r.Labelled query := by
  have hitem : r.item ∈ (s.rows.map Row.item).values := by
    rw [Forest.values_map]
    exact List.mem_map_of_mem hrow
  rcases h.cases hitem with ⟨t, ht, u, hu, hof⟩ | hstray
  · exact .inl ⟨t, ht, u, hu, hof, matchesFor_of_ofTree hof hmatch⟩
  · exact .inr ⟨hstray, labelled_of_no_file hstray.file_eq_none hmatch⟩

/-- **Not every match is a file that was asked for.**  In every session, a search finds the rows
that show the query, and those in which it lies across label and path.  Each of them stands for an
include of the tree, which has the query in its name or its path, or across label and path, or in
a label that is not the name; or it stands for no include, and shows the query in its label.  Where
the tree is wholly shown, under its names, and the query has no blank, every match stands for an
include with the query in its name or its path. -/
theorem sorts_found (title : Option String) (disk : Disk) (actions : List Action) {a : Action}
    {query : String} (ha : ((opened title disk).after actions).errand a = .lookFor query) :
    let s := (opened title disk).after actions
    let found := (s.step a).1.found
    (s.step a).1.tree = s.tree ∧
    (∀ r, r ∈ found ↔ r ∈ s.rows.values ∧ (r.Shows query ∨ r.Bridges query)) ∧
    (∀ r ∈ found,
      (∃ t, s.tree = some t ∧ ∃ u ∈ t.includes.subtrees,
        r.item = .ofTree u ∧ r.MatchesFor query u) ∨
      Stray s.tree r.item ∧ r.Labelled query) ∧
    ∀ t, s.tree = some t → t.includes.size ≤ 5000 → t.includes.height ≤ 64 →
      (∀ u ∈ t.includes.subtrees, (Item.ofTree u).label = u.root.name) →
        ' ' ∉ query.toList →
          ∀ r ∈ found, ∃ u ∈ t.includes.subtrees, r.item = .ofTree u ∧ u.root.Answers query := by
  intro s found
  have hmirrors : Mirrors s.tree (s.rows.map Row.item) :=
    mirrors_after (mirrors_opened title disk) actions
  have hfound : ∀ r, r ∈ found ↔ r ∈ s.rows.values ∧ (r.Shows query ∨ r.Bridges query) :=
    fun r => mem_found_iff ha
  have hsorts := fun r (hr : r ∈ found) =>
    cases_of_match hmirrors ((hfound r).1 hr).1 ((hfound r).1 hr).2
  refine ⟨tree_step_of_lookFor ha, hfound, hsorts, ?_⟩
  intro t htree hsize hheight hlabels hquery r hr
  rcases hsorts r hr with ⟨t', ht', u, hu, hof, hmatch⟩ | ⟨hstray, -⟩
  · cases htree.symm.trans ht'
    refine ⟨u, hu, hof, ?_⟩
    rcases hmatch with hanswers | hbridges | ⟨hother, -⟩
    · exact hanswers
    · -- Without a blank nothing bridges, and every label is the name.
      exact absurd hbridges (Rows.not_bridges hquery)
    · exact absurd ((congrArg Item.label hof).trans (hlabels u hu)) hother
  · rw [htree] at hstray
    exact absurd hstray (not_stray hsize hheight)

/-- Blanks around a typed query do not count, nor does letter case. -/
theorem sorts_found_typed :
    let tree : IncludeTree := ⟨.cons ⟨"lib/a.h", "a.h"⟩ (.cons ⟨"lib/b.h", "b.h"⟩ .nil .nil) .nil,
      2, some "a.c"⟩
    let s := (opened (some "a.c") (Disk.blank [] [])).after
      [.refresh, .complete (.succeeded (some tree)), .search]
    let found := (s.step (.submit " B.H " true)).1.found
    s.errand (.submit " B.H " true) = .lookFor "B.H" ∧
      found.map (fun r => r.item.label) = ["b.h"] ∧
      ∀ r ∈ found, ∃ u ∈ tree.includes.subtrees, r.item = .ofTree u ∧ u.root.Answers "B.H" := by
  intro tree s found
  have hlook : s.errand (.submit " B.H " true) = .lookFor "B.H" := by decide +kernel
  obtain ⟨-, -, -, hanswers⟩ := sorts_found (some "a.c") (Disk.blank [] [])
    [.refresh, .complete (.succeeded (some tree)), .search] hlook
  subst found s
  refine ⟨hlook, by decide +kernel, hanswers tree rfl (by decide) (by decide) ?_ (by decide)⟩
  decide +kernel

/-- The row that says that there are no includes matches a query. -/
theorem sorts_found_fails :
    let s := (opened (some "a.c") (Disk.blank [] [])).after
      [.refresh, .complete (.succeeded none)]
    s.errand (.query (some "no")) = .lookFor "no" ∧
      ¬ ∀ r ∈ (s.step (.query (some "no"))).1.found, ∃ t, s.tree = some t ∧
        ∃ u ∈ t.includes.subtrees, r.item = .ofTree u ∧ u.root.Answers "no" := by
  intro s
  refine ⟨by decide +kernel, fun h => ?_⟩
  have hfound : (⟨0, .noIncludes, false⟩ : Row) ∈ (s.step (.query (some "no"))).1.found := by
    decide +kernel
  obtain ⟨t, htree, -⟩ := h _ hfound
  cases htree

end Session

end Browser

end IncludeTrace
