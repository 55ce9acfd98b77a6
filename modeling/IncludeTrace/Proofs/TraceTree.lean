/-
The tree of a trace.

Reading a trace puts its notices into an open forest, one after another, so what has
been read is always the preorder of the forest that stands:

* `nest`, `tree_eq` — the reading without its count, and the tree by it;
* `nest_of_nested` — nested notices are all accepted, and end up in the order and at the
  depths in which they were read;
* `tree_of_nested`, `tree_of_deep` — a trace gives a tree, or its first notice that is too
  deep is reported;
* `tree_eq_ok_iff_walk` — the tree of a trace is the one tree that is walked as the trace
  is read;
* `tree_fails_at_first_deep` — when a trace gives no tree, and what is said about it.
-/
import IncludeTrace.Trace.Tree
import IncludeTrace.Proofs.NoticeLines
import IncludeTrace.Proofs.RightEdge

namespace IncludeTrace

/-! ### Nesting notices -/

namespace TraceReader

/-- The place that a notice takes in the walk of the tree. -/
def entry (r : TraceReader) (n : Notice) : Nat × Include :=
  (n.depth, r.includeOf n)

/-- The notices, put one after another into an open forest. -/
def nest (r : TraceReader) (f : OpenForest Include) :
    List Notice → Except MalformedTrace (OpenForest Include)
  | [] => .ok f
  | n :: rest =>
    match f.add n.depth (r.includeOf n) with
    | .error fault => .error ⟨fault, n.lineNumber, n.line⟩
    | .ok f => nest r f rest

/-- What is counted on the way is the number of the notices. -/
theorem nestCounted_eq (r : TraceReader) (f : OpenForest Include) (count : Nat)
    (ns : List Notice) :
    r.nestCounted f count ns = (r.nest f ns).map fun g => (g, count + ns.length) := by
  induction ns generalizing f count with
  | nil => rfl
  | cons n ns ih =>
    simp only [nestCounted, nest]
    cases f.add n.depth (r.includeOf n) with
    | error fault => rfl
    | ok g =>
      show r.nestCounted g (count + 1) ns = _
      rw [ih, List.length_cons, Nat.add_assoc, Nat.add_comm 1]

theorem tree_eq (r : TraceReader) (text : String) :
    r.tree text = (r.nest .empty (notices r.style text)).map fun f =>
      ⟨f.closed, (notices r.style text).length, r.source⟩ := by
  rw [tree, nestCounted_eq, Nat.zero_add]
  cases r.nest .empty (notices r.style text) <;> rfl

theorem nest_append (r : TraceReader) (f : OpenForest Include) (xs ys : List Notice) :
    r.nest f (xs ++ ys) = (r.nest f xs).bind fun g => r.nest g ys := by
  induction xs generalizing f with
  | nil => rfl
  | cons n xs ih =>
    simp only [List.cons_append, nest]
    cases f.add n.depth (r.includeOf n) with
    | error fault => rfl
    | ok g => exact ih g

/-- Nested notices are all accepted.  The list of what stands in the forest grows by the
notices, each at its own depth. -/
theorem nest_of_nested (r : TraceReader) {f : OpenForest Include} {ns : List Notice}
    (h : NestedFrom f.level (ns.map Notice.depth)) :
    ∃ g, r.nest f ns = .ok g ∧ g.level = levelAfter f.level (ns.map Notice.depth) ∧
      g.preorder = f.preorder ++ ns.map r.entry := by
  induction ns generalizing f with
  | nil => exact ⟨f, rfl, rfl, (List.append_nil _).symm⟩
  | cons n ns ih =>
    obtain ⟨hn, hns⟩ := h
    obtain ⟨f', hadd, hlevel, hlist⟩ := OpenForest.add_of_le hn (r.includeOf n)
    rw [← hlevel] at hns
    obtain ⟨g, hnest, hlevel', hlist'⟩ := ih hns
    refine ⟨g, ?_, ?_, ?_⟩
    · simp only [nest, hadd]
      exact hnest
    · rw [hlevel', hlevel, List.map_cons, levelAfter_cons]
    · rw [hlist', hlist, List.map_cons, List.append_assoc, entry]
      rfl

/-- A notice that is too deep behind nested ones is the end of the reading. -/
theorem nest_of_deep (r : TraceReader) {f : OpenForest Include} {before : List Notice}
    {n : Notice} (after : List Notice) (h : NestedFrom f.level (before.map Notice.depth))
    (hn : levelAfter f.level (before.map Notice.depth) < n.depth) :
    r.nest f (before ++ n :: after)
      = .error ⟨.beyond (levelAfter f.level (before.map Notice.depth)) n.depth,
          n.lineNumber, n.line⟩ := by
  obtain ⟨g, hnest, hlevel, -⟩ := r.nest_of_nested h
  rw [← hlevel] at hn ⊢
  rw [nest_append, hnest]
  simp only [Except.bind, nest, OpenForest.add_of_level_lt hn]

/-! ### Trees -/

/-- Nested notices give a tree, which is walked as they are read. -/
theorem tree_of_nested (r : TraceReader) {text : String}
    (h : NestedFrom 0 ((notices r.style text).map Notice.depth)) :
    ∃ f : Forest Include, f.preorder = (notices r.style text).map r.entry ∧
      r.tree text = .ok ⟨f, (notices r.style text).length, r.source⟩ := by
  obtain ⟨g, hnest, -, hlist⟩ := r.nest_of_nested (f := .empty) h
  refine ⟨g.closed, ?_, ?_⟩
  · rw [OpenForest.closed_preorder, hlist, OpenForest.preorder_empty, List.nil_append]
  · simp only [tree_eq, hnest]
    rfl

/-- The first notice that is too deep is reported. -/
theorem tree_of_deep (r : TraceReader) {text : String} {before after : List Notice}
    {n : Notice} (hsplit : notices r.style text = before ++ n :: after)
    (h : NestedFrom 0 (before.map Notice.depth))
    (hn : levelAfter 0 (before.map Notice.depth) < n.depth) :
    r.tree text
      = .error ⟨.beyond (levelAfter 0 (before.map Notice.depth)) n.depth,
          n.lineNumber, n.line⟩ := by
  have hnest := r.nest_of_deep (f := .empty) after h hn
  simp only [tree_eq, hsplit, hnest]
  rfl

/-- The tree of a trace is the one tree whose preorder is the list of its notices. -/
theorem tree_eq_ok_iff_preorder (r : TraceReader) (text : String) (t : IncludeTree) :
    r.tree text = .ok t ↔
      t.includes.preorder = (notices r.style text).map r.entry ∧
        t.count = (notices r.style text).length ∧ t.source = r.source := by
  constructor
  · intro h
    by_cases hnested : NestedFrom 0 ((notices r.style text).map Notice.depth)
    · obtain ⟨f, hf, htree⟩ := r.tree_of_nested hnested
      rw [htree, Except.ok.injEq] at h
      subst h
      exact ⟨hf, rfl, rfl⟩
    · obtain ⟨before, n, after, hsplit, hbefore, hn⟩ := exists_first_deep Notice.depth hnested
      rw [r.tree_of_deep hsplit hbefore hn] at h
      exact absurd h (by simp)
  · rintro ⟨hlist, hcount, hsource⟩
    -- The depths of a preorder are nested, so there is a tree; and no other has its preorder.
    have hnested := Forest.nestedFrom_preorder t.includes
    have hdepths : t.includes.preorder.map Prod.fst
        = (notices r.style text).map Notice.depth := by
      rw [hlist, List.map_map]
      rfl
    rw [hdepths] at hnested
    obtain ⟨f, hf, htree⟩ := r.tree_of_nested hnested
    have hforest : f = t.includes := Forest.preorder_injective (hf.trans hlist.symm)
    rw [htree, hforest, ← hcount, ← hsource]

/-- **The tree of a trace is walked as the trace is read.**  There is a tree exactly if
some tree with the count and the source of the trace has this walk, and then it is that
one: each notice at its own depth, in the order of the lines, with its path and the name
it is shown by. -/
theorem tree_eq_ok_iff_walk (r : TraceReader) (text : String) (t : IncludeTree) :
    r.tree text = .ok t ↔
      t.includes.walk = (notices r.style text).map (fun n =>
          (n.depth, ⟨n.path, (displayName? r.mode r.bases n.path).getD n.path⟩)) ∧
        t.count = (notices r.style text).length ∧ t.source = r.source := by
  rw [tree_eq_ok_iff_preorder, Forest.walk_eq_preorder]
  rfl

/-! ### Traces without a tree -/

/-- A notice goes more than one level below the notice in front of it; the first notice
goes below the outermost level. -/
def TooDeep (before : List Notice) (n : Notice) : Prop :=
  match before.getLast? with
  | some m => m.depth + 1 < n.depth
  | none => 0 < n.depth

/-- What is said about a notice that is too deep behind the notices before it. -/
def complaint (before : List Notice) (n : Notice) : String :=
  let jumpFrom (previous : Nat) := s!"include depth jumps from {previous} to {n.depth}"
  match before.getLast? with
  | some m => jumpFrom m.depth
  | none => if n.depth = 1 then "include at depth 1 has no enclosing file" else jumpFrom 0

theorem tooDeep_iff (before : List Notice) (n : Notice) :
    TooDeep before n ↔ levelAfter 0 (before.map Notice.depth) < n.depth := by
  rw [TooDeep, levelAfter, List.getLast?_map]
  cases before.getLast? <;> rfl

/-- Notices are nested exactly if none of them is too deep. -/
theorem nestedFrom_iff_not_tooDeep (ns : List Notice) :
    NestedFrom 0 (ns.map Notice.depth) ↔
      ∀ before n after, ns = before ++ n :: after → ¬ TooDeep before n := by
  constructor
  · rintro h before n after rfl
    rw [List.map_append, List.map_cons] at h
    rw [tooDeep_iff, Nat.not_lt]
    exact le_levelAfter_of_nestedFrom h
  · intro h
    refine Classical.byContradiction fun hnested => ?_
    obtain ⟨before, n, after, hsplit, -, hn⟩ := exists_first_deep Notice.depth hnested
    exact h before n after hsplit ((tooDeep_iff before n).2 hn)

theorem message_beyond {before : List Notice} {n : Notice} (h : TooDeep before n) :
    (NestingFault.beyond (levelAfter 0 (before.map Notice.depth)) n.depth).message
      = complaint before n := by
  rw [NestingFault.beyond, levelAfter, List.getLast?_map, complaint]
  rw [TooDeep] at h
  cases hlast : before.getLast? with
  | none =>
    by_cases hn : n.depth = 1
    · have horphan : (NestingFault.orphan 1).message
          = "include at depth 1 has no enclosing file" := by decide +kernel
      simp only [if_pos hn]
      rw [hn, horphan]
    · simp only [if_neg hn]
      rfl
  | some m =>
    -- Behind a notice, depth 1 is never too deep.
    rw [hlast] at h
    have hn : n.depth ≠ 1 := by
      simp only at h
      omega
    rw [if_neg hn]
    rfl

/-- The first notice of a text is the only one of which it is said that no file encloses
it. -/
theorem eq_nil_of_complaint_eq {before : List Notice} {n : Notice}
    (h : complaint before n = "include at depth 1 has no enclosing file") : before = [] := by
  rw [complaint] at h
  cases hlast : before.getLast? with
  | none => exact List.getLast?_eq_none_iff.1 hlast
  | some m =>
    -- The two messages differ behind their first word.
    rw [hlast] at h
    have hword := congrArg (fun s : String => s.toList[8]?) h
    simp only [String.toList_append, List.append_assoc] at hword
    rw [List.getElem?_append_left (by decide)] at hword
    exact absurd hword (by decide)

/-- What an error says about a notice of a text that stands behind the notices `before`. -/
structure Blames (e : MalformedTrace) (style : NoticeStyle) (text : String)
    (before : List Notice) (n : Notice) : Prop where
  /-- The line of the notice is named by its number among the lines of the text, counted
  from 1, and by its characters up to the carriage returns at its end. -/
  line : ∃ i line returns, (text.toList.splitOn '\n')[i]? = some line ∧
    style.read? line = some (n.depth, n.path.toList) ∧ e.lineNumber = i + 1 ∧
    line = e.line.toList ++ List.replicate returns '\r' ∧ e.line.toList.getLast? ≠ some '\r'
  /-- It is the line that the notice was read from. -/
  source : n.lineNumber = e.lineNumber ∧ n.line = e.line
  /-- The message compares the depth of the notice with that of the notice in front. -/
  message : e.message = s!"line {e.lineNumber}: {complaint before n}"
  /-- Only of the very first notice of a text is it said that no file encloses it. -/
  orphan : e.fault.message = "include at depth 1 has no enclosing file" → before = []

theorem blames_of_mem {style : NoticeStyle} {text : String} {before : List Notice}
    {n : Notice} {fault : NestingFault} (hn : n ∈ notices style text)
    (hfault : fault.message = complaint before n) :
    Blames ⟨fault, n.lineNumber, n.line⟩ style text before n := by
  obtain ⟨i, line, hline, hnotice⟩ := mem_notices_iff.1 hn
  obtain ⟨hread, hnumber, htext⟩ := NoticeStyle.notice?_eq_some.1 hnotice
  obtain ⟨k, hreturns⟩ := NoticeStyle.exists_eq_append_returns line
  refine ⟨⟨i, line, k, hline, hread, hnumber, ?_, ?_⟩, ⟨rfl, rfl⟩, ?_, fun h => ?_⟩
  · rw [htext, String.toList_ofList]
    exact hreturns
  · rw [htext, String.toList_ofList]
    exact NoticeStyle.getLast?_withoutReturns line
  · rw [MalformedTrace.message, hfault]
  · exact eq_nil_of_complaint_eq (hfault ▸ h)

/-- **A trace has no tree exactly if one of its notices is too deep**, and then the first
such notice is blamed. -/
theorem tree_fails_at_first_deep (r : TraceReader) (text : String) :
    ((∃ e, r.tree text = .error e) ↔
      ∃ before n after, notices r.style text = before ++ n :: after ∧ TooDeep before n) ∧
    ∀ e, r.tree text = .error e →
      ∃ before n after, notices r.style text = before ++ n :: after ∧ TooDeep before n ∧
        (∀ earlier m between, before = earlier ++ m :: between → ¬ TooDeep earlier m) ∧
        Blames e r.style text before n := by
  by_cases hnested : NestedFrom 0 ((notices r.style text).map Notice.depth)
  · obtain ⟨f, -, htree⟩ := r.tree_of_nested hnested
    rw [htree]
    refine ⟨⟨?_, ?_⟩, ?_⟩
    · rintro ⟨e, he⟩
      cases he
    · rintro ⟨before, n, after, hsplit, hn⟩
      exact absurd hn ((nestedFrom_iff_not_tooDeep _).1 hnested before n after hsplit)
    · intro e he
      cases he
  · obtain ⟨before, n, after, hsplit, hbefore, hn⟩ := exists_first_deep Notice.depth hnested
    have hdeep : TooDeep before n := (tooDeep_iff before n).2 hn
    have hmem : n ∈ notices r.style text := hsplit ▸ List.mem_append_right _ List.mem_cons_self
    have hblames := blames_of_mem hmem (message_beyond hdeep)
    rw [r.tree_of_deep hsplit hbefore hn]
    refine ⟨⟨fun _ => ⟨before, n, after, hsplit, hdeep⟩, fun _ => ⟨_, rfl⟩⟩, ?_⟩
    rintro e ⟨⟩
    exact ⟨before, n, after, hsplit, hdeep, (nestedFrom_iff_not_tooDeep before).1 hbefore,
      hblames⟩

/-- A jump over a level, behind two notices and a line that is none. -/
theorem tree_fails_at_jump :
    let r : TraceReader := ⟨.dotted, .unchanged, [], none⟩
    let e : MalformedTrace := ⟨.jump 1 3, 4, ".... d.h"⟩
    let text := ". a.h\n.. b.h\nc.c\n.... d.h\r\n"
    r.tree text = .error e ∧
      ∃ before n after, notices r.style text = before ++ n :: after ∧ TooDeep before n ∧
        (∀ earlier m between, before = earlier ++ m :: between → ¬ TooDeep earlier m) ∧
        Blames e r.style text before n := by
  have htree : (⟨.dotted, .unchanged, [], none⟩ : TraceReader).tree
      ". a.h\n.. b.h\nc.c\n.... d.h\r\n" = .error ⟨.jump 1 3, 4, ".... d.h"⟩ := by rfl
  exact ⟨htree, (tree_fails_at_first_deep _ _).2 _ htree⟩

end TraceReader

end IncludeTrace
