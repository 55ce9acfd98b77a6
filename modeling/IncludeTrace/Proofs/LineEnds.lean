/-
Traces in files.

Where a trace is read from a file, the ends of its lines are translated first: a carriage return in
front of a line feed goes, and every other one becomes a line feed of its own.  Where it is read as
it stands, carriage returns are cut off the ends of the lines.  Of a run of carriage returns at the
end of a line the first way leaves empty lines behind, and these are no notices.  So the two ways
agree as long as carriage returns stand nowhere else.

* `ReturnsEndLines` — carriage returns stand at the ends of lines only;
* `entriesIn_newline`, `entriesIn_return` — the notices of a text, line by line;
* `entriesIn_universalNewlines` — translated, a text has the same notices;
* `ofFile_eq_ofText` — the tree of a file that holds a text is the tree of the text.
-/
import IncludeTrace.Proofs.JoinedStreams
import IncludeTrace.Proofs.LoadedTrees
import IncludeTrace.Proofs.NoticeGrammar
import IncludeTrace.Proofs.Utf8Reading

namespace IncludeTrace

/-! ### Carriage returns at the ends of lines -/

/-- What follows are carriage returns, and then the end of the line or of the text. -/
def EndsLine (s : List Char) : Prop :=
  ∃ k, s = List.replicate k '\r' ∨ ∃ rest, s = List.replicate k '\r' ++ '\n' :: rest

/-- Every carriage return stands in a run of them directly before a line feed or the end of the
text. -/
def ReturnsEndLines (s : List Char) : Prop :=
  ∀ before after, s = before ++ '\r' :: after → EndsLine after

theorem endsLine_iff {s : List Char} :
    EndsLine s ↔ s.dropWhile (· == '\r') = [] ∨ (s.dropWhile (· == '\r')).head? = some '\n' := by
  constructor
  · rintro ⟨k, rfl | ⟨rest, rfl⟩⟩
    · exact .inl (List.dropWhile_eq_nil_iff.2 fun c hc => beq_of_eq (List.eq_of_mem_replicate hc))
    · right
      rw [Text.dropWhile_replicate_append (by simp)]
      rfl
  · intro h
    have hrun := (Text.run_eq_iff (c := '\r') (s := s)).1 ⟨rfl, rfl⟩
    generalize s.dropWhile (· == '\r') = t at h hrun
    refine ⟨(s.takeWhile (· == '\r')).length, ?_⟩
    rcases h with rfl | h
    · left
      rw [List.append_nil] at hrun
      exact hrun.1
    · obtain ⟨rest, rfl⟩ := List.head?_eq_some_iff.1 h
      exact .inr ⟨rest, hrun.1⟩

instance (s : List Char) : Decidable (EndsLine s) :=
  decidable_of_iff _ endsLine_iff.symm

theorem returnsEndLines_cons {c : Char} {s : List Char} :
    ReturnsEndLines (c :: s) ↔ (c = '\r' → EndsLine s) ∧ ReturnsEndLines s := by
  constructor
  · intro h
    refine ⟨fun hc => h [] s (by rw [hc]; rfl), fun before after hs => ?_⟩
    exact h (c :: before) after (congrArg (c :: ·) hs)
  · rintro ⟨hfirst, hrest⟩ before after hs
    cases before with
    | nil =>
      obtain ⟨rfl, rfl⟩ := List.cons.inj hs
      exact hfirst rfl
    | cons d before => exact hrest before after (List.cons.inj hs).2

instance decidableReturnsEndLines : (s : List Char) → Decidable (ReturnsEndLines s)
  | [] => isTrue fun before after h => absurd h (by simp)
  | c :: s =>
    have := decidableReturnsEndLines s
    decidable_of_iff _ returnsEndLines_cons.symm

/-! ### Notices line by line -/

/-- Depths and paths of the notices of a text. -/
def entriesIn (style : NoticeStyle) (s : List Char) : List (Nat × String) :=
  (s.splitOn '\n').filterMap style.entry?

variable {style : NoticeStyle} {line s : List Char}

theorem entry?_append_returns (style : NoticeStyle) (line : List Char) (k : Nat) :
    style.entry? (line ++ List.replicate k '\r') = style.entry? line := by
  rw [NoticeStyle.entry?, NoticeStyle.entry?, NoticeStyle.read?_append_returns]

theorem entriesIn_newline (h : '\n' ∉ line) (rest : List Char) :
    entriesIn style (line ++ '\n' :: rest)
      = (style.entry? line).toList ++ entriesIn style rest := by
  rw [entriesIn, List.splitOn_append_cons_self_of_not_mem h, NoticeStyle.filterMap_entry?_cons,
    entriesIn]

theorem entriesIn_line (h : '\n' ∉ line) : entriesIn style line = (style.entry? line).toList := by
  rw [entriesIn, List.splitOn_eq_singleton h, NoticeStyle.filterMap_entry?_singleton]

theorem entry?_returns (style : NoticeStyle) (k : Nat) :
    style.entry? (List.replicate k '\r') = none := by
  have h := entry?_append_returns style [] k
  rwa [List.nil_append, NoticeStyle.entry?_nil] at h

/-- An empty line adds no notice. -/
theorem entriesIn_newline_cons (rest : List Char) :
    entriesIn style ('\n' :: rest) = entriesIn style rest := by
  have h : entriesIn style ([] ++ '\n' :: rest)
      = (style.entry? []).toList ++ entriesIn style rest :=
    entriesIn_newline List.not_mem_nil rest
  rwa [List.nil_append, NoticeStyle.entry?_nil] at h

/-- A carriage return at the end of a line might as well be a line feed. -/
theorem entriesIn_return (hline : '\n' ∉ line) {rest : List Char} (h : EndsLine rest) :
    entriesIn style (line ++ '\r' :: rest)
      = (style.entry? line).toList ++ entriesIn style rest := by
  have hreturns : ∀ k, '\n' ∉ List.replicate k '\r' := fun k hmem =>
    absurd (List.eq_of_mem_replicate hmem) (by decide)
  have hlonger : ∀ k, '\n' ∉ line ++ List.replicate k '\r' := fun k hmem =>
    (List.mem_append.1 hmem).elim hline (hreturns k)
  obtain ⟨k, rfl | ⟨rest, rfl⟩⟩ := h
  · rw [← List.replicate_succ, entriesIn_line (hlonger _), entry?_append_returns,
      entriesIn_line (hreturns k), entry?_returns]
    exact (List.append_nil _).symm
  · rw [← List.cons_append, ← List.replicate_succ, ← List.append_assoc,
      entriesIn_newline (hlonger _), entry?_append_returns, entriesIn_newline (hreturns k),
      entry?_returns]
    rfl

/-- Behind the start of a line, a translated text has the same notices. -/
theorem entriesIn_append_universalNewlines (hline : '\n' ∉ line) (h : ReturnsEndLines s) :
    entriesIn style (line ++ Text.universalNewlines s) = entriesIn style (line ++ s) := by
  have hnil : '\n' ∉ ([] : List Char) := List.not_mem_nil
  induction s using Text.universalNewlines.induct generalizing line with
  | case1 rest ih =>
    obtain ⟨hends, hrest⟩ := returnsEndLines_cons.1 h
    have hsame := ih hnil (returnsEndLines_cons.1 hrest).2
    rw [Text.universalNewlines, entriesIn_newline hline, entriesIn_return hline (hends rfl)]
    -- The line feed behind the carriage return ends an empty line.
    exact congrArg _ (hsame.trans (entriesIn_newline_cons rest).symm)
  | case2 rest hfeed ih =>
    obtain ⟨hends, hrest⟩ := returnsEndLines_cons.1 h
    have hsame := ih hnil hrest
    rw [Text.universalNewlines, entriesIn_newline hline, entriesIn_return hline (hends rfl)]
    · exact congrArg _ hsame
    · exact hfeed
  | case3 c rest hcrlf hreturn ih =>
    have hrest := (returnsEndLines_cons.1 h).2
    rw [Text.universalNewlines]
    · by_cases hc : c = '\n'
      · have hsame := ih hnil hrest
        rw [hc, entriesIn_newline hline, entriesIn_newline hline]
        exact congrArg _ hsame
      · have hlonger : '\n' ∉ line ++ [c] := fun hmem =>
          (List.mem_append.1 hmem).elim hline fun hmem => hc (List.mem_singleton.1 hmem).symm
        have hsame := ih hlonger hrest
        rwa [← List.append_cons, ← List.append_cons] at hsame
    · exact hcrlf
    · exact hreturn
  | case4 => rfl

/-- Translated, a text has the same notices. -/
theorem entriesIn_universalNewlines (h : ReturnsEndLines s) :
    entriesIn style (Text.universalNewlines s) = entriesIn style s :=
  entriesIn_append_universalNewlines List.not_mem_nil h

theorem universalNewlines_eq_nil_iff : Text.universalNewlines s = [] ↔ s = [] := by
  unfold Text.universalNewlines
  split <;> simp

/-! ### Trees -/

namespace TraceReader

/-- Texts with the same notices have the same tree, if they have one. -/
theorem tree_eq_ok_iff_of_noted {r : TraceReader} {text other : String}
    (h : noted r.style text = noted r.style other) (t : IncludeTree) :
    r.tree text = .ok t ↔ r.tree other = .ok t := by
  have hentries : (notices r.style text).map r.entry = (notices r.style other).map r.entry := by
    have hshown : ∀ ns : List Notice, ns.map r.entry = (ns.map fun n => (n.depth, n.path)).map
        fun p => (p.1, ⟨p.2, (displayName? r.mode r.bases p.2).getD p.2⟩) := by
      intro ns
      rw [List.map_map]
      rfl
    rw [hshown, hshown]
    exact congrArg _ h
  have hcount : (notices r.style text).length = (notices r.style other).length := by
    have hlength := congrArg List.length h
    rwa [noted, noted, List.length_map, List.length_map] at hlength
  rw [tree_eq_ok_iff_preorder, tree_eq_ok_iff_preorder, hentries, hcount]

end TraceReader

namespace Surroundings

variable {s : Surroundings}

theorem value_ofText_congr {r : Request} {text other : String}
    (hempty : text = "" ↔ other = "") (hnoted : noted r.style text = noted r.style other) :
    (s.ofText r (some text)).value = (s.ofText r (some other)).value := by
  refine Option.ext fun t => ?_
  rw [value_ofText_eq_some_iff, value_ofText_eq_some_iff, ne_eq, hempty]
  exact and_congr_right fun _ => TraceReader.tree_eq_ok_iff_of_noted hnoted t

theorem value_ofFile_of_readText {r : Request} {path : Location} {text : String}
    (h : s.disk.readText path = .ok text) :
    (s.ofFile r path).value = .ok (s.ofText r (some text)).value := by
  simp only [ofFile, textIn, h]
  rfl

/-- **A trace gives the same tree from a file as from a text.**  If carriage returns stand only at
the ends of the lines, alone or several of them, then the tree of a file that holds a text in UTF-8
is the tree of the text, however it is to be read, and there is none in the one case if there is
none in the other. -/
theorem ofFile_eq_ofText {path : Location} {text : String}
    (hfile : s.disk.read path = .ok (Text.Utf8.encode text.toList))
    (hreturns : ReturnsEndLines text.toList) (r : Request) :
    (s.ofFile r path).value = .ok (s.ofText r (some text)).value := by
  have hread : s.disk.readText path
      = .ok (String.ofList (Text.universalNewlines text.toList)) := by
    rw [Disk.readText, hfile]
    show Except.ok (String.ofList (Text.universalNewlines (Text.Utf8.decode _))) = _
    rw [Text.Utf8.decode_encode]
  rw [value_ofFile_of_readText hread]
  refine congrArg Except.ok (value_ofText_congr ?_ ?_)
  · rw [← String.toList_eq_nil_iff, String.toList_ofList, universalNewlines_eq_nil_iff,
      String.toList_eq_nil_iff]
  · rw [noted_eq_filterMap, noted_eq_filterMap, String.toList_ofList]
    exact entriesIn_universalNewlines hreturns

/-- Several carriage returns at the end of a line, one at the end of the text, and a path that is
not plain in UTF-8. -/
theorem ofFile_eq_ofText_returns :
    let text := ". a.h\r\r\n.. ü.h\r\n\n. €.h\r"
    let disk := (Disk.blank ["work"] []).withFile ["work", "t"] (Text.Utf8.encode text.toList)
    let s : Surroundings :=
      { folder := "/work", searchPath := "", disk := disk, input := "",
        compiler := fun _ => .completed none none 0 }
    let r : Request := ⟨some "a.c", [], .dotted, .unchanged⟩
    let t : IncludeTree := ⟨.cons ⟨"a.h", "a.h"⟩ (.cons ⟨"ü.h", "ü.h"⟩ .nil .nil)
      (.cons ⟨"€.h", "€.h"⟩ .nil .nil), 3, some "a.c"⟩
    s.disk.read (.spelled "t") = .ok (Text.Utf8.encode text.toList) ∧
      ReturnsEndLines text.toList ∧ (s.ofText r (some text)).value = some t ∧
      (s.ofFile r (.spelled "t")).value = .ok (s.ofText r (some text)).value := by
  intro text disk s r t
  have hfile : s.disk.read (.spelled "t") = .ok (Text.Utf8.encode text.toList) := by
    decide +kernel
  have hreturns : ReturnsEndLines text.toList := by decide +kernel
  exact ⟨hfile, hreturns, by decide +kernel, ofFile_eq_ofText hfile hreturns r⟩

end Surroundings

end IncludeTrace
