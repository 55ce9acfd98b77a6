/-
The notices of two streams that are read as one text.

What a compiler prints on its two channels is put together without anything in between, so the
last line of the output and the first line of the errors become one line.  All other lines are
read as they are in their own streams:

* `noted`, `noted_append` — the notices of two texts put together are those of the two texts,
  but for the line at the seam;
* `seam_of_ended` — a line break at the end of the first text keeps the lines apart;
* `ofCompiler_reads_streams` — the walk of the tree of a run, the seam included;
* `ofCompiler_merges_lines` — a file name that a message of the compiler becomes a part of.
-/
import IncludeTrace.Proofs.TracedRuns

namespace IncludeTrace

/-! ### Lines of texts put together -/

/-- What stands behind the last line break. -/
def lastLine (text : String) : List Char :=
  (text.toList.splitOn '\n').getLast?.getD []

/-- What stands in front of the first line break. -/
def firstLine (text : String) : List Char :=
  (text.toList.splitOn '\n').head?.getD []

namespace Text

/-- The last piece of one text and the first piece of the next are put together. -/
theorem exists_splitOn_append (c : Char) (s : List Char) :
    ∃ init last, s.splitOn c = init ++ [last] ∧
      ∀ t first rest, t.splitOn c = first :: rest →
        (s ++ t).splitOn c = init ++ (last ++ first) :: rest := by
  induction s with
  | nil => exact ⟨[], [], List.splitOn_nil c, fun t first rest ht => ht⟩
  | cons d s ih =>
    obtain ⟨init, last, hs, happend⟩ := ih
    by_cases hd : (d == c) = true
    · refine ⟨[] :: init, last, ?_, fun t first rest ht => ?_⟩
      · rw [List.splitOn_cons_eq_if_modifyHead, if_pos hd, hs]
        rfl
      · rw [List.cons_append, List.splitOn_cons_eq_if_modifyHead, if_pos hd,
          happend t first rest ht]
        rfl
    · -- The character joins the first piece, which is the last one if there is no other.
      cases init with
      | nil =>
        refine ⟨[], d :: last, ?_, fun t first rest ht => ?_⟩
        · rw [List.splitOn_cons_eq_if_modifyHead, if_neg hd, hs]
          rfl
        · rw [List.cons_append, List.splitOn_cons_eq_if_modifyHead, if_neg hd,
            happend t first rest ht]
          rfl
      | cons piece init =>
        refine ⟨(d :: piece) :: init, last, ?_, fun t first rest ht => ?_⟩
        · rw [List.splitOn_cons_eq_if_modifyHead, if_neg hd, hs]
          rfl
        · rw [List.cons_append, List.splitOn_cons_eq_if_modifyHead, if_neg hd,
            happend t first rest ht]
          rfl

end Text

/-! ### Notices of texts put together -/

namespace NoticeStyle

/-- Depth and path of one line, if it is a notice. -/
def entry? (style : NoticeStyle) (line : List Char) : Option (Nat × String) :=
  (style.read? line).map (Prod.map id String.ofList)

theorem entry?_nil (style : NoticeStyle) : style.entry? [] = none := by
  rw [NoticeStyle.entry?, read?_nil]
  rfl

theorem filterMap_entry?_cons (style : NoticeStyle) (line : List Char)
    (lines : List (List Char)) :
    (line :: lines).filterMap style.entry?
      = (style.entry? line).toList ++ lines.filterMap style.entry? := by
  rw [List.filterMap_cons]
  cases style.entry? line <;> rfl

theorem filterMap_entry?_singleton (style : NoticeStyle) (line : List Char) :
    [line].filterMap style.entry? = (style.entry? line).toList :=
  (filterMap_entry?_cons style line []).trans (List.append_nil _)

end NoticeStyle

/-- Depths and paths of the notices of a text. -/
def noted (style : NoticeStyle) (text : String) : List (Nat × String) :=
  (notices style text).map fun n => (n.depth, n.path)

theorem noted_eq_filterMap (style : NoticeStyle) (text : String) :
    noted style text = (text.toList.splitOn '\n').filterMap style.entry? := by
  have hlines : ∀ (number : Nat) (lines : List (List Char)),
      (noticesFrom style number lines).map (fun n => (n.depth, n.path))
        = lines.filterMap style.entry? := by
    intro number lines
    induction lines generalizing number with
    | nil => rfl
    | cons line lines ih =>
      rw [noticesFrom_cons, List.map_append, ih, NoticeStyle.filterMap_entry?_cons,
        NoticeStyle.notice?, NoticeStyle.entry?]
      cases style.read? line <;> rfl
  exact hlines 1 _

/-- Of two texts put together, the notices are those of the two texts, but for the line at
the seam. -/
theorem noted_append (style : NoticeStyle) (first second : String) :
    ∃ before after,
      noted style first = before ++ (style.entry? (lastLine first)).toList ∧
      noted style second = (style.entry? (firstLine second)).toList ++ after ∧
      noted style (first ++ second)
        = before ++ (style.entry? (lastLine first ++ firstLine second)).toList ++ after := by
  obtain ⟨init, last, hfirst, happend⟩ := Text.exists_splitOn_append '\n' first.toList
  obtain ⟨line, rest, hsecond⟩ := List.exists_cons_of_ne_nil
    (List.splitOn_ne_nil '\n' second.toList)
  have hlast : lastLine first = last := by
    rw [lastLine, hfirst, List.getLast?_concat]
    rfl
  have hline : firstLine second = line := by
    rw [firstLine, hsecond]
    rfl
  rw [hlast, hline]
  refine ⟨init.filterMap style.entry?, rest.filterMap style.entry?, ?_, ?_, ?_⟩
  · rw [noted_eq_filterMap, hfirst, List.filterMap_append, NoticeStyle.filterMap_entry?_singleton]
  · rw [noted_eq_filterMap, hsecond, NoticeStyle.filterMap_entry?_cons]
  · rw [noted_eq_filterMap, String.toList_append, happend _ _ _ hsecond, List.filterMap_append,
      NoticeStyle.filterMap_entry?_cons, List.append_assoc]

/-- A line break at the end of the first text keeps the lines apart, and so do empty texts. -/
theorem seam_of_ended (style : NoticeStyle) {first second : String}
    (h : first = "" ∨ second = "" ∨ first.toList.getLast? = some '\n') :
    (style.entry? (lastLine first ++ firstLine second)).toList
      = (style.entry? (lastLine first)).toList ++ (style.entry? (firstLine second)).toList := by
  -- In each of the three cases one side of the seam is blank, and a blank line is no notice.
  have hended : lastLine first = [] ∨ firstLine second = [] := by
    rcases h with rfl | rfl | h
    · exact .inl rfl
    · exact .inr rfl
    · left
      obtain ⟨s, hs⟩ := List.getLast?_eq_some_iff.1 h
      rw [lastLine, hs, List.splitOn_append_cons_self, List.splitOn_nil, List.getLast?_concat]
      rfl
  rcases hended with h | h
  · rw [h, List.nil_append, NoticeStyle.entry?_nil]
    rfl
  · rw [h, List.append_nil, NoticeStyle.entry?_nil]
    exact (List.append_nil _).symm

/-! ### The two channels of a compiler -/

namespace Surroundings

open Compiler

/-- The includes that are found in a text are its notices. -/
theorem walk_of_familyReader {s : Surroundings} {f : Family} {source : String}
    {includeDirs : List String} {mode : DisplayMode} {text : String} {t : IncludeTree}
    (h : (s.familyReader f source includeDirs mode).tree text = .ok t) :
    (t.includes.walk.map fun p => (p.1, p.2.path))
      = noted (f.style NoticeStyle.usualMarker) text := by
  rw [((TraceReader.tree_eq_ok_iff_walk _ text t).1 h).1, List.map_map]
  rfl

/-- Surroundings in which every compiler prints the same. -/
def printing (output errors : String) (status : Int) : Surroundings where
  folder := "/work"
  searchPath := ""
  disk := .blank [] []
  input := ""
  compiler := fun _ => .completed (some output) (some errors) status

/-- **Only the line at the seam can be misread.**  The includes of a run are the notices on the
output channel and then those on the error channel, each channel read on its own, but for the
line in which the last one of the output and the first one of the errors are put together; so
they are these notices exactly if that line is read as its two parts are, as it is whenever the
output ends with a line break. -/
theorem ofCompiler_reads_streams {s : Surroundings} {compiler source : String}
    {includeDirs extra : List String} {mode : DisplayMode} {timeout : Timeout}
    {output errors : Option String} {status : Int} {t : IncludeTree}
    (hrun : s.compiler (.tracing compiler source includeDirs (extra.map some) timeout)
      = .completed output errors status)
    (htree : (s.ofCompiler compiler source includeDirs extra mode timeout).value = some t) :
    let style := (family compiler).style NoticeStyle.usualMarker
    let first := output.getD ""
    let second := errors.getD ""
    let walked := t.includes.walk.map fun p => (p.1, p.2.path)
    let seam := style.entry? (lastLine first ++ firstLine second)
    let apart := (style.entry? (lastLine first)).toList ++ (style.entry? (firstLine second)).toList
    (∃ before after, noted style first = before ++ (style.entry? (lastLine first)).toList ∧
      noted style second = (style.entry? (firstLine second)).toList ++ after ∧
      walked = before ++ seam.toList ++ after) ∧
    (walked = noted style first ++ noted style second ↔ seam.toList = apart) ∧
    (first = "" ∨ second = "" ∨ first.toList.getLast? = some '\n' → seam.toList = apart) := by
  intro style first second walked seam apart
  obtain ⟨text, hprinted, -, hread⟩ := value_ofCompiler_eq_some_iff.1 htree
  rw [hrun, Ending.printed?, Option.some.injEq] at hprinted
  have hwalked : walked = noted style (first ++ second) := by
    have h := walk_of_familyReader hread
    rwa [← hprinted] at h
  obtain ⟨before, after, hfirst, hsecond, hboth⟩ := noted_append style first second
  refine ⟨⟨before, after, hfirst, hsecond, hwalked.trans hboth⟩, ?_, seam_of_ended style⟩
  -- Both lists have the same ends, so they are equal exactly if they agree at the seam.
  have happart : noted style first ++ noted style second = before ++ apart ++ after := by
    simp only [hfirst, hsecond, apart, List.append_assoc]
  rw [hwalked, hboth, happart, List.append_left_inj, List.append_right_inj]

/-- Two nested notices on the output channel, and one more on the other. -/
theorem ofCompiler_reads_streams_ended :
    let output := "Note: including file: a.h\r\nNote: including file:  b.h\n"
    let errors := "Note: including file: c.h\nc.h(1): error"
    let s := printing output errors 2
    let t : IncludeTree := ⟨.cons ⟨"a.h", "a.h"⟩ (.cons ⟨"b.h", "b.h"⟩ .nil .nil)
      (.cons ⟨"c.h", "c.h"⟩ .nil .nil), 3, some "a.c"⟩
    let style := (family "cl").style NoticeStyle.usualMarker
    s.compiler (.tracing "cl" "a.c" [] [] (.whole 5)) = .completed (some output) (some errors) 2 ∧
      (s.ofCompiler "cl" "a.c" [] [] .unchanged (.whole 5)).value = some t ∧
      output.toList.getLast? = some '\n' ∧
      (t.includes.walk.map fun p => (p.1, p.2.path))
        = noted style output ++ noted style errors := by
  intro output errors s t style
  have hrun : s.compiler (.tracing "cl" "a.c" [] [] (.whole 5))
      = .completed (some output) (some errors) 2 := rfl
  have htree : (s.ofCompiler "cl" "a.c" [] [] .unchanged (.whole 5)).value = some t := by
    decide +kernel
  have hended : output.toList.getLast? = some '\n' := by decide +kernel
  obtain ⟨-, hwalk, hseam⟩ := ofCompiler_reads_streams hrun htree
  exact ⟨hrun, htree, hended, hwalk.2 (hseam (.inr (.inr hended)))⟩

/-- A name at the very end of the output takes up the message on the other channel. -/
theorem ofCompiler_merges_lines :
    let output := "Note: including file: a.h"
    let errors := "a.c: error\n"
    let s := printing output errors 1
    let t : IncludeTree := ⟨.cons ⟨"a.ha.c: error", "a.ha.c: error"⟩ .nil .nil, 1, some "a.c"⟩
    let style := (family "clang-cl").style NoticeStyle.usualMarker
    (s.ofCompiler "clang-cl" "a.c" [] [] .shortestAvoidingUp (.whole 300)).value = some t ∧
      noted style output ++ noted style errors = [(0, "a.h")] ∧
      (t.includes.walk.map fun p => (p.1, p.2.path))
        ≠ noted style output ++ noted style errors := by
  decide +kernel

end Surroundings

end IncludeTrace
