/-
Traces that are read one behind the other.

A line break keeps the lines of two texts apart, so the notices of both together are those of
the first and then those of the second, further down.  What has been read of a trace is never
changed by what follows:

* `notices_joined` — the notices of two texts with a line break in between;
* `tree_joined` — a fault in the first text stays as it is, the includes of the first text
  come first in every tree, and two trees put together are the tree of both texts.
-/
import IncludeTrace.Proofs.Interleaving

namespace IncludeTrace

theorem noticesFrom_add (style : NoticeStyle) (k number : Nat) (lines : List (List Char)) :
    noticesFrom style (number + k) lines
      = (noticesFrom style number lines).map (Notice.renumber (· + k)) := by
  induction lines generalizing number with
  | nil => rfl
  | cons line lines ih =>
    have hline : style.notice? (number + k) line
        = (style.notice? number line).map (Notice.renumber (· + k)) := by
      rw [NoticeStyle.notice?, NoticeStyle.notice?, Option.map_map]
      rfl
    rw [noticesFrom_cons, noticesFrom_cons, Nat.add_right_comm, ih, hline, List.map_append]
    cases style.notice? number line <;> rfl

/-- Behind the notices of the first text come those of the second, moved down by its lines. -/
theorem notices_joined (style : NoticeStyle) (first second : String) :
    notices style (first ++ "\n" ++ second)
      = notices style first ++ (notices style second).map
          (Notice.renumber (· + (first.toList.splitOn '\n').length)) := by
  have htext : (first ++ "\n" ++ second).toList = first.toList ++ '\n' :: second.toList := by
    simp
  rw [notices, htext, List.splitOn_append_cons_self, noticesFrom_append, noticesFrom_add]
  rfl

namespace TraceReader

variable {r : TraceReader} {first second : String}

theorem map_entry_joined (r : TraceReader) (first second : String) :
    (notices r.style (first ++ "\n" ++ second)).map r.entry
      = (notices r.style first).map r.entry ++ (notices r.style second).map r.entry := by
  rw [notices_joined, List.map_append, List.map_map]
  rfl

/-- The first text is read before the second one. -/
theorem tree_joined_of_error {e : MalformedTrace} (h : r.tree first = .error e) :
    r.tree (first ++ "\n" ++ second) = .error e := by
  have hnest : r.nest .empty (notices r.style first) = .error e := by
    rw [tree_eq] at h
    cases hf : r.nest .empty (notices r.style first) with
    | error e' =>
      rw [hf] at h
      cases h
      rfl
    | ok f =>
      rw [hf] at h
      cases h
  simp only [tree_eq, notices_joined, nest_append, hnest]
  rfl

/-- Every tree of both texts starts with a tree of the first one. -/
theorem exists_tree_of_joined {t : IncludeTree} (h : r.tree (first ++ "\n" ++ second) = .ok t) :
    ∃ t₁, r.tree first = .ok t₁ ∧ t₁.includes.walk <+: t.includes.walk := by
  cases hfirst : r.tree first with
  | error e =>
    rw [tree_joined_of_error hfirst] at h
    cases h
  | ok t₁ =>
    refine ⟨t₁, rfl, ?_⟩
    rw [Forest.walk_eq_preorder, Forest.walk_eq_preorder,
      ((tree_eq_ok_iff_preorder r _ _).1 h).1, ((tree_eq_ok_iff_preorder r _ _).1 hfirst).1,
      map_entry_joined]
    exact List.prefix_append _ _

/-- The trees of both texts stand side by side. -/
theorem tree_joined_of_ok {t₁ t₂ : IncludeTree} (h₁ : r.tree first = .ok t₁)
    (h₂ : r.tree second = .ok t₂) :
    r.tree (first ++ "\n" ++ second)
      = .ok ⟨.ofTrees (t₁.includes.trees ++ t₂.includes.trees), t₁.count + t₂.count,
          r.source⟩ := by
  obtain ⟨hlist₁, hcount₁, -⟩ := (tree_eq_ok_iff_preorder r _ _).1 h₁
  obtain ⟨hlist₂, hcount₂, -⟩ := (tree_eq_ok_iff_preorder r _ _).1 h₂
  rw [tree_eq_ok_iff_preorder]
  refine ⟨?_, ?_, rfl⟩
  · rw [map_entry_joined, ← hlist₁, ← hlist₂, Forest.preorder,
      Forest.preorderFrom_ofTrees_append, Forest.ofTrees_trees, Forest.ofTrees_trees,
      Forest.preorder, Forest.preorder]
  · rw [hcount₁, hcount₂, notices_joined, List.length_append, List.length_map, Int.natCast_add]

/-- **Traces compose.**  A trace that is followed by another one fails where it fails alone;
what is read of it is the beginning of what is read of both; and where both have a tree, the
outermost includes of the one and then those of the other are the tree of both. -/
theorem tree_joined (r : TraceReader) (first second : String) :
    (∀ e, r.tree first = .error e → r.tree (first ++ "\n" ++ second) = .error e) ∧
    (∀ t, r.tree (first ++ "\n" ++ second) = .ok t →
      ∃ t₁, r.tree first = .ok t₁ ∧ t₁.includes.walk <+: t.includes.walk) ∧
    ∀ t₁ t₂, r.tree first = .ok t₁ → r.tree second = .ok t₂ →
      ∃ t, r.tree (first ++ "\n" ++ second) = .ok t ∧
        t.includes.trees = t₁.includes.trees ++ t₂.includes.trees ∧
        t.count = t₁.count + t₂.count := by
  refine ⟨fun e he => tree_joined_of_error he, fun t ht => exists_tree_of_joined ht, ?_⟩
  intro t₁ t₂ h₁ h₂
  exact ⟨_, tree_joined_of_ok h₁ h₂, Forest.trees_ofTrees _, rfl⟩

/-- A text that has no tree of its own can still continue a trace. -/
example :
    let r : TraceReader := ⟨.dotted, .unchanged, [], none⟩
    r.tree ".. b.h" = .error ⟨.orphan 1, 1, ".. b.h"⟩ ∧
      r.tree (". a.h" ++ "\n" ++ ".. b.h")
        = .ok ⟨.cons ⟨"a.h", "a.h"⟩ (.cons ⟨"b.h", "b.h"⟩ .nil .nil) .nil, 2, none⟩ :=
  ⟨rfl, rfl⟩

end TraceReader

end IncludeTrace
