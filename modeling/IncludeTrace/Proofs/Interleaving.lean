/-
Traces with other output in between.

A trace comes mixed with whatever else was printed, and its lines may end in carriage
returns.  Neither has an influence on the tree:

* `Chatter`, `Interleaving` — lines that are no notices, and where they are put in;
* `noticesFrom_linesFrom` — the notices stay the same up to the numbers of their lines;
* `tree_interleaved` — so does the tree, and so does the error up to its line number.
-/
import IncludeTrace.Proofs.TraceTree

namespace IncludeTrace

/-- A line that is no notice. -/
structure Chatter (style : NoticeStyle) where
  line : List Char
  unread : style.read? line = none
  unbroken : '\n' ∉ line

/-- What is added to a text: other lines in front of each line, which is given by how many
lines of the text stand above it, other lines at the end of the text, and carriage returns
at the end of each line. -/
structure Interleaving (style : NoticeStyle) where
  inFront : Nat → List (Chatter style)
  atEnd : List (Chatter style)
  returns : Nat → Nat

/-- The notice with another line number. -/
def Notice.renumber (number : Nat → Nat) (n : Notice) : Notice :=
  { n with lineNumber := number n.lineNumber }

/-- The error with another line number. -/
def MalformedTrace.renumber (number : Nat → Nat) (e : MalformedTrace) : MalformedTrace :=
  { e with lineNumber := number e.lineNumber }

namespace Interleaving

variable {style : NoticeStyle}

/-- The lines of a text with what is added to them; above them stand `above` lines of the
text. -/
def linesFrom (c : Interleaving style) (above : Nat) : List (List Char) → List (List Char)
  | [] => c.atEnd.map Chatter.line
  | line :: lines =>
    (c.inFront above).map Chatter.line
      ++ (line ++ List.replicate (c.returns above) '\r') :: c.linesFrom (above + 1) lines

/-- The text with what is added to it. -/
def mixed (c : Interleaving style) (text : String) : String :=
  String.ofList (['\n'].intercalate (c.linesFrom 0 (text.toList.splitOn '\n')))

/-- How many lines are put in before the line with the given number. -/
def insertedBefore (c : Interleaving style) : Nat → Nat
  | 0 => 0
  | above + 1 => c.insertedBefore above + (c.inFront above).length

/-- The number that a line of the text has afterwards. -/
def moved (c : Interleaving style) (number : Nat) : Nat :=
  number + c.insertedBefore number

theorem unread_of_mem {cs : List (Chatter style)} {line : List Char}
    (h : line ∈ cs.map Chatter.line) : style.read? line = none := by
  obtain ⟨c, -, rfl⟩ := List.mem_map.1 h
  exact c.unread

theorem unbroken_of_mem {cs : List (Chatter style)} {line : List Char}
    (h : line ∈ cs.map Chatter.line) : '\n' ∉ line := by
  obtain ⟨c, -, rfl⟩ := List.mem_map.1 h
  exact c.unbroken

theorem notice?_append_returns (line : List Char) (number : Nat → Nat) (i k : Nat) :
    style.notice? (number i) (line ++ List.replicate k '\r')
      = (style.notice? i line).map (Notice.renumber number) := by
  rw [NoticeStyle.notice?, NoticeStyle.notice?, NoticeStyle.read?_append_returns,
    NoticeStyle.withoutReturns_append_returns, Option.map_map]
  rfl

/-- The added lines hold no notice, and the notices of the others only move down. -/
theorem noticesFrom_linesFrom (c : Interleaving style) (above : Nat)
    (lines : List (List Char)) :
    noticesFrom style (above + c.insertedBefore above + 1) (c.linesFrom above lines)
      = (noticesFrom style (above + 1) lines).map (Notice.renumber c.moved) := by
  induction lines generalizing above with
  | nil => exact noticesFrom_of_unread (fun line h => unread_of_mem h) _
  | cons line lines ih =>
    -- Behind the lines in front of it, the line stands where `moved` puts it.
    have hnumber : above + c.insertedBefore above + 1 + (c.inFront above).length
        = c.moved (above + 1) := by
      rw [moved, insertedBefore]
      omega
    have hnext : c.moved (above + 1) + 1
        = above + 1 + c.insertedBefore (above + 1) + 1 := rfl
    rw [linesFrom, noticesFrom_append, noticesFrom_of_unread fun line h => unread_of_mem h,
      List.nil_append, List.length_map, hnumber, noticesFrom_cons, noticesFrom_cons,
      notice?_append_returns, hnext, ih, List.map_append]
    cases style.notice? (above + 1) line <;> rfl

theorem newline_not_mem_of_mem_linesFrom (c : Interleaving style) {above : Nat}
    {lines : List (List Char)} (h : ∀ line ∈ lines, '\n' ∉ line) :
    ∀ line ∈ c.linesFrom above lines, '\n' ∉ line := by
  induction lines generalizing above with
  | nil => exact fun line hline => unbroken_of_mem hline
  | cons line lines ih =>
    intro l hl
    rw [linesFrom, List.mem_append, List.mem_cons] at hl
    rcases hl with hl | rfl | hl
    · exact unbroken_of_mem hl
    · have hline := h line List.mem_cons_self
      simp [hline]
    · exact ih (fun m hm => h m (List.mem_cons_of_mem _ hm)) l hl

theorem notices_mixed (c : Interleaving style) (text : String) :
    notices style (c.mixed text) = (notices style text).map (Notice.renumber c.moved) := by
  have hlines : ∀ line ∈ text.toList.splitOn '\n', '\n' ∉ line := fun line h =>
    Text.not_mem_of_mem_splitOn h
  have hsome : c.linesFrom 0 (text.toList.splitOn '\n') ≠ [] := by
    cases hsplit : text.toList.splitOn '\n' with
    | nil => exact absurd hsplit (List.splitOn_ne_nil _ _)
    | cons line lines => simp [linesFrom]
  rw [notices, notices, mixed, String.toList_ofList, List.splitOn_intercalate _
    (c.newline_not_mem_of_mem_linesFrom hlines) hsome]
  exact c.noticesFrom_linesFrom 0 _

end Interleaving

namespace TraceReader

/-- Line numbers have no influence on the forest. -/
theorem nest_renumber (r : TraceReader) (number : Nat → Nat) (f : OpenForest Include)
    (ns : List Notice) :
    r.nest f (ns.map (Notice.renumber number))
      = (r.nest f ns).mapError (MalformedTrace.renumber number) := by
  induction ns generalizing f with
  | nil => rfl
  | cons n ns ih =>
    have hadd : f.add (n.renumber number).depth (r.includeOf (n.renumber number))
        = f.add n.depth (r.includeOf n) := rfl
    simp only [List.map_cons, nest, hadd]
    cases f.add n.depth (r.includeOf n) with
    | error fault => rfl
    | ok g => exact ih g

/-- **Other output and carriage returns are invisible.**  With them in between, a trace
gives the same tree; and where it gives none, the same fault on the same line, which has
moved down by the number of the lines put in before it. -/
theorem tree_interleaved (r : TraceReader) (c : Interleaving r.style) (text : String) :
    r.tree (c.mixed text)
      = (r.tree text).mapError fun e =>
          ⟨e.fault, e.lineNumber + c.insertedBefore e.lineNumber, e.line⟩ := by
  simp only [tree_eq, c.notices_mixed, nest_renumber, List.length_map]
  cases r.nest .empty (notices r.style text) <;> rfl

/-- A line put in before the second one moves the fault there one line down. -/
example :
    let r : TraceReader := ⟨.dotted, .unchanged, [], none⟩
    let other : Chatter r.style := ⟨"c.c".toList, by decide, by decide⟩
    let c : Interleaving r.style := ⟨fun above => if above = 1 then [other] else [], [], fun _ => 1⟩
    c.mixed ". a.h\n... b.h" = ". a.h\r\nc.c\n... b.h\r" ∧
      r.tree (c.mixed ". a.h\n... b.h") = .error ⟨.jump 0 2, 3, "... b.h"⟩ :=
  ⟨by decide +kernel, by rfl⟩

end TraceReader

end IncludeTrace
