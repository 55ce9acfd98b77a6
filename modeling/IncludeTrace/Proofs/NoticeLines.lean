/-
Lines and the notices that are read from them.

Every line is read on its own, and what is reported with a notice is where its line
stands and the line itself:

* `exists_eq_append_returns`, `getLast?_withoutReturns` — a reported line is the line of
  the text up to its last character that is not a carriage return;
* `read?_append_returns` — carriage returns at the end of a line are not read;
* `noticesFrom_append` — the notices of some lines and then those of the others;
* `mem_notices_iff` — the notices of a text are those of its lines.
-/
import IncludeTrace.Trace.Notice
import IncludeTrace.Proofs.TextPieces

namespace IncludeTrace

/-! ### What is cut off the end of a line -/

namespace NoticeStyle

theorem exists_eq_append_returns (line : List Char) :
    ∃ k, line = withoutReturns line ++ List.replicate k '\r' := by
  obtain ⟨t, hline, ht⟩ := Text.exists_eq_trimEndBy_append (· == '\r') line
  refine ⟨t.length, ?_⟩
  have hreturns : t = List.replicate t.length '\r' :=
    List.eq_replicate_of_mem fun c hc => eq_of_beq (ht c hc)
  rw [← hreturns]
  exact hline

theorem getLast?_withoutReturns (line : List Char) :
    (withoutReturns line).getLast? ≠ some '\r' := by
  intro h
  exact Bool.noConfusion (Text.getLast?_trimEndBy h)

theorem withoutReturns_append_returns (line : List Char) (k : Nat) :
    withoutReturns (line ++ List.replicate k '\r') = withoutReturns line :=
  Text.trimEndBy_append_replicate rfl line k

/-- Carriage returns at the end of a line are not read. -/
theorem read?_append_returns (style : NoticeStyle) (line : List Char) (k : Nat) :
    style.read? (line ++ List.replicate k '\r') = style.read? line := by
  simp only [read?, withoutReturns_append_returns]

/-- An empty line is no notice. -/
theorem read?_nil (style : NoticeStyle) : style.read? [] = none := by
  cases style with
  | marked marker =>
    -- What stands behind the marker is empty, or the marker is missing.
    cases hmarker : marker.toList <;>
      simp [read?, withoutReturns, Text.trimEndBy, readMarked?, hmarker, Text.cutAt?,
        Text.dropStart?]
  | dotted => rfl

/-! ### The notices of a list of lines -/

/-- The notice on a line with the given number. -/
def notice? (style : NoticeStyle) (number : Nat) (line : List Char) : Option Notice :=
  (style.read? line).map fun found =>
    ⟨found.1, String.ofList found.2, number, String.ofList (withoutReturns line)⟩

theorem notice?_eq_some {style : NoticeStyle} {number : Nat} {line : List Char} {n : Notice} :
    style.notice? number line = some n ↔
      style.read? line = some (n.depth, n.path.toList) ∧ n.lineNumber = number ∧
        n.line = String.ofList (withoutReturns line) := by
  rw [notice?, Option.map_eq_some_iff]
  constructor
  · rintro ⟨found, hfound, rfl⟩
    refine ⟨?_, rfl, rfl⟩
    rw [hfound, String.toList_ofList]
  · rintro ⟨hread, hnumber, hline⟩
    refine ⟨_, hread, ?_⟩
    rw [String.ofList_toList, ← hnumber, ← hline]

end NoticeStyle

open NoticeStyle

@[simp] theorem noticesFrom_nil (style : NoticeStyle) (number : Nat) :
    noticesFrom style number [] = [] := rfl

theorem noticesFrom_cons (style : NoticeStyle) (number : Nat) (line : List Char)
    (lines : List (List Char)) :
    noticesFrom style number (line :: lines)
      = (style.notice? number line).toList ++ noticesFrom style (number + 1) lines := by
  rw [noticesFrom, notice?]
  cases style.read? line <;> rfl

theorem noticesFrom_append (style : NoticeStyle) (number : Nat) (xs ys : List (List Char)) :
    noticesFrom style number (xs ++ ys)
      = noticesFrom style number xs ++ noticesFrom style (number + xs.length) ys := by
  induction xs generalizing number with
  | nil => rfl
  | cons x xs ih =>
    rw [List.cons_append, noticesFrom_cons, noticesFrom_cons, ih, List.append_assoc,
      List.length_cons, Nat.add_right_comm, Nat.add_assoc]

/-- Lines that are no notices add none. -/
theorem noticesFrom_of_unread {style : NoticeStyle} {lines : List (List Char)}
    (h : ∀ line ∈ lines, style.read? line = none) (number : Nat) :
    noticesFrom style number lines = [] := by
  induction lines generalizing number with
  | nil => rfl
  | cons line lines ih =>
    have hline : style.notice? number line = none := by
      rw [notice?, h line List.mem_cons_self]
      rfl
    rw [noticesFrom_cons, hline, ih fun l hl => h l (List.mem_cons_of_mem _ hl)]
    rfl

theorem mem_noticesFrom_iff {style : NoticeStyle} {number : Nat} {lines : List (List Char)}
    {n : Notice} :
    n ∈ noticesFrom style number lines ↔
      ∃ i line, lines[i]? = some line ∧ style.notice? (number + i) line = some n := by
  induction lines generalizing number with
  | nil => simp
  | cons line lines ih =>
    rw [noticesFrom_cons, List.mem_append, Option.mem_toList, ih]
    constructor
    · rintro (h | ⟨i, l, hl, h⟩)
      · exact ⟨0, line, rfl, h⟩
      · refine ⟨i + 1, l, hl, ?_⟩
        rwa [Nat.add_right_comm] at h
    · rintro ⟨i, l, hl, h⟩
      rcases i with _ | i
      · left
        cases hl
        exact h
      · right
        refine ⟨i, l, hl, ?_⟩
        rwa [Nat.add_right_comm]

/-- The notices of a text are those of its lines, each with the number of its line. -/
theorem mem_notices_iff {style : NoticeStyle} {text : String} {n : Notice} :
    n ∈ notices style text ↔
      ∃ i line, (text.toList.splitOn '\n')[i]? = some line ∧
        style.notice? (i + 1) line = some n := by
  rw [notices, mem_noticesFrom_iff]
  simp only [Nat.add_comm]

end IncludeTrace
