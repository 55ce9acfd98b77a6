/-
Traces that were written for a forest.

A compiler announces the includes of a forest in preorder, one line each.  Reading what it
wrote gives the forest back:

* `lineOf`, `written` — the line of one include, and the trace of a forest of paths;
* `Writable` — the paths that a line can hold;
* `read?_lineOf` — depth and path are read back from a line;
* `tree_written` — the forest is read back from its trace.
-/
import Mathlib.Data.List.Basic
import IncludeTrace.Proofs.NoticeGrammar
import IncludeTrace.Proofs.TraceTree

namespace IncludeTrace

/-! ### Lines -/

namespace NoticeStyle

/-- The line that announces a file. -/
def lineOf (style : NoticeStyle) (depth : Nat) (path : List Char) : List Char :=
  match style with
  | marked marker => marker.toList ++ (List.replicate depth ' ' ++ path)
  | dotted => List.replicate (depth + 1) '.' ++ ' ' :: path

/-- Lines in this style do not break. -/
def Unbroken : NoticeStyle → Prop
  | marked marker => '\n' ∉ marker.toList
  | dotted => True

instance (style : NoticeStyle) : Decidable style.Unbroken :=
  match style with
  | marked marker => inferInstanceAs (Decidable ('\n' ∉ marker.toList))
  | dotted => isTrue trivial

/-- A path that can be announced in a line.  Behind a marker it does not start with a
space, which would count as nesting. -/
structure Writable (style : NoticeStyle) (path : String) : Prop where
  nonempty : path.toList ≠ []
  unbroken : '\n' ∉ path.toList
  returnless : path.toList.getLast? ≠ some '\r'
  unindented : style ≠ dotted → path.toList.head? ≠ some ' '

instance (style : NoticeStyle) (path : String) : Decidable (style.Writable path) :=
  decidable_of_iff (path.toList ≠ [] ∧ '\n' ∉ path.toList ∧ path.toList.getLast? ≠ some '\r' ∧
      (style ≠ dotted → path.toList.head? ≠ some ' '))
    ⟨fun ⟨h₁, h₂, h₃, h₄⟩ => ⟨h₁, h₂, h₃, h₄⟩,
      fun h => ⟨h.nonempty, h.unbroken, h.returnless, h.unindented⟩⟩

theorem getLast?_lineOf {path : List Char} (h : path ≠ []) (style : NoticeStyle) (depth : Nat) :
    (style.lineOf depth path).getLast? = path.getLast? := by
  have happend : ∀ s : List Char, (s ++ path).getLast? = path.getLast? := fun s =>
    List.getLast?_append_of_ne_nil s h
  cases style with
  | marked marker => rw [lineOf, ← List.append_assoc, happend]
  | dotted => rw [lineOf, ← List.singleton_append, ← List.append_assoc, happend]

theorem newline_not_mem_lineOf {style : NoticeStyle} {path : String} (hstyle : style.Unbroken)
    (h : style.Writable path) (depth : Nat) : '\n' ∉ style.lineOf depth path.toList := by
  have hpath := h.unbroken
  cases style with
  | marked marker =>
    have hmarker : '\n' ∉ marker.toList := hstyle
    simp [lineOf, hmarker, hpath]
  | dotted => simp [lineOf, hpath]

/-- What is written for an include is a notice of it. -/
theorem isNotice_lineOf {style : NoticeStyle} {path : String} (h : style.Writable path)
    (depth : Nat) : style.IsNotice (style.lineOf depth path.toList) depth path.toList := by
  cases style with
  | marked marker =>
    -- The marker stands at the start, and nothing can come before that.
    have hfirst : Text.FirstAt marker.toList (lineOf (marked marker) depth path.toList) []
        (List.replicate depth ' ' ++ path.toList) := ⟨rfl, fun _ _ _ => Nat.zero_le _⟩
    exact .marked hfirst (h.unindented NoticeStyle.noConfusion) h.nonempty
  | dotted => exact .dotted h.nonempty

/-- Depth and path are read back from a line. -/
theorem read?_lineOf {style : NoticeStyle} {path : String} (h : style.Writable path)
    (depth : Nat) : style.read? (style.lineOf depth path.toList) = some (depth, path.toList) := by
  have hreturns : withoutReturns (style.lineOf depth path.toList)
      = style.lineOf depth path.toList := by
    refine Text.trimEndBy_eq_self fun c hc => ?_
    rw [getLast?_lineOf h.nonempty] at hc
    refine beq_eq_false_iff_ne.2 ?_
    rintro rfl
    exact h.returnless hc
  rw [read?_eq_some_iff_isNotice, hreturns]
  · exact isNotice_lineOf h depth
  · rintro rfl
    have hdots : Unbroken .dotted := trivial
    rw [hreturns]
    exact newline_not_mem_lineOf hdots h depth

end NoticeStyle

/-! ### Traces -/

open NoticeStyle

/-- The trace of a forest of paths: the lines of its nodes in preorder. -/
def written (style : NoticeStyle) (f : Forest String) : String :=
  String.ofList (['\n'].intercalate (f.preorder.map fun p => style.lineOf p.1 p.2.toList))

/-- What is written for each node is what is read. -/
theorem noticesFrom_lines {style : NoticeStyle} {ps : List (Nat × String)}
    (h : ∀ p ∈ ps, style.Writable p.2) (number : Nat) :
    (noticesFrom style number (ps.map fun p => style.lineOf p.1 p.2.toList)).map
        (fun n => (n.depth, n.path)) = ps := by
  induction ps generalizing number with
  | nil => rfl
  | cons p ps ih =>
    have hp := h p List.mem_cons_self
    have hps := ih (fun q hq => h q (List.mem_cons_of_mem _ hq)) (number + 1)
    rw [List.map_cons, noticesFrom_cons, notice?, read?_lineOf hp, List.map_append, hps]
    simp

/-- The notices of a trace that was written for a forest are its nodes in preorder. -/
theorem notices_written {style : NoticeStyle} {f : Forest String} (hstyle : style.Unbroken)
    (h : ∀ p ∈ f.preorder, style.Writable p.2) :
    (notices style (written style f)).map (fun n => (n.depth, n.path)) = f.preorder := by
  rw [notices, written, String.toList_ofList]
  cases hlist : f.preorder with
  | nil =>
    -- Nothing is written, which is read as one empty line.
    have hread : style.notice? 1 [] = none := by
      rw [notice?, read?_nil]
      rfl
    simp [noticesFrom_cons, hread]
  | cons p ps =>
    rw [hlist] at h
    rw [List.splitOn_intercalate]
    · exact noticesFrom_lines h 1
    · intro line hline
      obtain ⟨q, hq, rfl⟩ := List.mem_map.1 hline
      exact newline_not_mem_lineOf hstyle (h q hq) q.1
    · exact List.cons_ne_nil _ _

namespace TraceReader

/-- **A forest is read back from its trace**, in either style, whatever its shape is and
however its paths are to be shown. -/
theorem tree_written (r : TraceReader) (f : Forest String) (hstyle : r.style.Unbroken)
    (h : ∀ p ∈ f.preorder, r.style.Writable p.2) :
    ∃ t, r.tree (written r.style f) = .ok t ∧ t.count = f.size ∧
      t.includes.map Include.path = f := by
  have hnotices := notices_written hstyle h
  let shown (path : String) : Include := ⟨path, (displayName? r.mode r.bases path).getD path⟩
  have hentries : (f.map shown).preorder = (notices r.style (written r.style f)).map r.entry := by
    rw [Forest.preorder, Forest.preorderFrom_map, ← Forest.preorder, ← hnotices, List.map_map]
    rfl
  have hcount : (notices r.style (written r.style f)).length = f.size := by
    rw [← Forest.length_preorderFrom 0 f, ← Forest.preorder, ← hnotices, List.length_map]
  refine ⟨⟨f.map shown, f.size, r.source⟩, ?_, rfl, ?_⟩
  · rw [tree_eq_ok_iff_preorder, hcount]
    exact ⟨hentries, rfl, rfl⟩
  · rw [Forest.map_map]
    exact Forest.map_id f

/-- The marker, dots, spaces and a carriage return may stand in the paths. -/
theorem tree_written_marker_in_path :
    let f : Forest String := .cons "a.h" (.cons ".. b\r.h" .nil .nil) (.cons "m: c" .nil .nil)
    let r : TraceReader := ⟨.marked "m: ", .shortest, ["/inc"], none⟩
    r.style.Unbroken ∧ (∀ p ∈ f.preorder, r.style.Writable p.2) ∧
      ∃ t, r.tree (written r.style f) = .ok t ∧ t.count = f.size ∧
        t.includes.map Include.path = f := by
  intro f r
  have hstyle : r.style.Unbroken := by decide
  have hpaths : ∀ p ∈ f.preorder, r.style.Writable p.2 := by decide
  exact ⟨hstyle, hpaths, tree_written r f hstyle hpaths⟩

end TraceReader

end IncludeTrace
