/-
Graphs on the output channel and in files.

A graph is printed by one piece of code and written to a file by another, and the second
could choose the format by the name of the file.  Both start from the same tree, because a
load does not look at the file that is to be written; and both end in one rendering.  But not
every text that can be printed can be encoded for a file:

* `Settings.Obtains.output` — the tree is the same with and without a file;
* `readCommandLine_append_output` — a command line that names a file, and the same one
  without it;
* `PrintsGraph`, `WritesGraph` — what becomes of the text of a graph in either case;
* `respond_writes_printed` — the text is one and the same;
* `respond_writes_printed_fails` — a title that is printed and not written.
-/
import IncludeTrace.Proofs.CommandOutcomes

namespace IncludeTrace

open IncludeTrace.Graph (Document Format)

namespace Settings

variable {x : Settings} {s : Surroundings} {t : IncludeTree}

/-- The file that is to be written does not matter to the tree. -/
theorem Obtains.output (h : x.Obtains s t) (output : Option String) :
    ({ x with output := output } : Settings).Obtains s t := by
  obtain ⟨r, text, hsupplies, htree⟩ := h
  refine ⟨r, text, ?_, htree⟩
  cases hsupplies with
  | printed hmode hfile hthere hcompiler hdirectories hprints =>
    exact .printed hmode hfile hthere hcompiler hdirectories hprints
  | traced hmode hfile htrace hdialect hoffers hsome hrequest =>
    exact .traced hmode hfile htrace hdialect hoffers hsome hrequest

end Settings

/-- A command line that names a file, and the same one without it. -/
theorem readCommandLine_append_output {args : List String} {x : Settings}
    {spelling file : String} (hdashes : "--" ∉ args) (h : readCommandLine args = .ok (.graph, x))
    (hspelling : spelling ∈ Switch.output.spellings) (hfile : file.toList.head? ≠ some '-') :
    readCommandLine (args ++ [spelling, file])
      = .ok (.graph, { x with output := some file }) :=
  readCommandLine_append hdashes h (by decide) (by decide) rfl hspelling hfile rfl

/-- What a command leaves behind that is to print the text of a graph: it does, or the output
channel objects to the text. -/
inductive PrintsGraph (s : Surroundings) (text : String) (r : Report) : Prop
  | printed (htaken : s.output.objection text = none) (hcode : r.outcome = .finished 0)
      (houtput : r.output = text ++ "\n") (hdisk : r.disk = s.disk)
  | refused {objection : String} (hrefused : s.output.objection text = some objection)
      (hcode : r.outcome = .broken (.blank (.channel objection))) (houtput : r.output = "")
      (hdisk : r.disk = s.disk)

/-- What a command leaves behind that is to write the text of a graph to a place: a file with that
text, or an empty one if the text cannot be encoded. -/
inductive WritesGraph (s : Surroundings) (format : Format) (place : Place) (text : String)
    (r : Report) : Prop
  | written (hencodable : Graph.Encodable s.standIns format text) (hcode : r.outcome = .finished 0)
      (houtput : r.output = "")
      (hdisk : s.disk.Rewritten r.disk place (Text.Utf8.encode text.toList))
  | emptied {fault : Text.EncodeFault} (hencodable : ¬ Graph.Encodable s.standIns format text)
      (hcode : r.outcome = .broken (.blank (.bytes fault))) (houtput : r.output = "")
      (hdisk : s.disk.Rewritten r.disk place [])

/-- **A file holds what is printed without it, if it can be encoded.**  Where there is a tree and
a file can be written, the graph goes to that one file, to the last character as it is printed
else, in the chosen format and not in the one that the name of the file asks for.  A text in DOT
or Mermaid in which a character stands in for a byte leaves the file empty. -/
theorem respond_writes_printed {bare args : List String} {x : Settings} {s : Surroundings}
    {t : IncludeTree} {format : Format} {file : String} {place : Place}
    (hbare : readCommandLine bare = .ok (.graph, x)) (hnone : x.output = none)
    (hargs : readCommandLine args = .ok (.graph, { x with output := some file }))
    (hfile : file ≠ "") (ht : x.Obtains s t) (hformat : x.format = some format)
    (hplace : s.disk.WritesAt (.spelled file) place) :
    ∃ text, (Document.ofForest t.includes).render format x.graphTitle = .ok text ∧
      PrintsGraph s text (respond s bare) ∧
      WritesGraph s format place text (respond s args) := by
  let y : Settings := { x with output := some file }
  have hbareFile : x.outputFile = none := by rw [Settings.outputFile, hnone]; rfl
  have hargsFile : y.outputFile = some file :=
    Option.filter_eq_some_iff.2 ⟨rfl, by simpa using hfile⟩
  have hty : y.Obtains s t := ht.output (some file)
  have hrespondBare : respond s bare = x.showGraph s := by rw [respond, hbare]; rfl
  have hrespondArgs : respond s args = y.showGraph s := by rw [respond, hargs]; rfl
  obtain ⟨text, htext, hprint⟩ := x.printGraph_eq s (x.load s).journal t format
  -- The title does not depend on the file either.
  have htexty : (Document.ofForest t.includes).render format y.graphTitle = .ok text := htext
  refine ⟨text, htext, ?_, ?_⟩
  · rw [hrespondBare, Settings.showGraph_eq_printGraph ht hformat hbareFile, hprint]
    cases hobjection : s.output.objection text with
    | none =>
      rw [Settings.printing_of_taken _ hobjection]
      exact .printed hobjection rfl rfl rfl
    | some objection =>
      rw [Settings.printing_of_objection _ hobjection]
      exact .refused hobjection rfl rfl rfl
  · rw [hrespondArgs, Settings.showGraph_eq_writeGraph hty hformat hargsFile]
    by_cases hencodable : Graph.Encodable s.standIns format text
    · obtain ⟨journal, -, hwrite⟩ :=
        Settings.writeGraph_of_encodable (y.load s).journal htexty hplace hencodable
      rw [hwrite]
      exact .written hencodable rfl rfl (Disk.rewritten_withBytes hplace _)
    · obtain ⟨fault, hwrite⟩ :=
        Settings.writeGraph_of_not_encodable (y.load s).journal htexty hplace hencodable
      rw [hwrite]
      exact .emptied hencodable rfl rfl (Disk.rewritten_withBytes hplace [])

/-- The trace itself is the file, and its name asks for another format. -/
theorem respond_writes_printed_over_trace :
    let bare := ["graph", "a.json", "--dialect", "gcc", "-f", "dot"]
    let s := { Surroundings.bare with
      disk := Surroundings.bare.disk.withFile ["work", "a.json"]
        (Text.Utf8.encode ". b.h\n".toList) }
    ∃ text, (respond s bare).output = text ++ "\n" ∧
      s.disk.Rewritten (respond s (bare ++ ["-o", "a.json"])).disk ["work", "a.json"]
        (Text.Utf8.encode text.toList) := by
  intro bare s
  let t : IncludeTree := ⟨.cons ⟨"b.h", "b.h"⟩ .nil .nil, 1, none⟩
  let x : Settings := { trace := some "a.json", dialect := some .gcc, format := some .dot }
  have hread : readCommandLine bare = .ok (.graph, x) := rfl
  have ht : x.Obtains s t := Settings.load_eq_some_iff.1 rfl
  have hplace : s.disk.WritesAt (.spelled "a.json") ["work", "a.json"] :=
    ⟨by decide +kernel, by decide +kernel⟩
  have hspelling : "-o" ∈ Switch.output.spellings := by decide
  have hnamed := readCommandLine_append_output (by decide) hread hspelling
    (show "a.json".toList.head? ≠ some '-' by decide)
  obtain ⟨text, -, hprints, hwrites⟩ :=
    respond_writes_printed hread rfl hnamed (by decide) ht rfl hplace
  -- No character stands in for a byte, and the channel takes every text.
  have hencodable : Graph.Encodable s.standIns .dot text := .inr fun _ _ => rfl
  refine ⟨text, ?_, ?_⟩
  · cases hprints with
    | printed _ _ houtput => exact houtput
    | refused hrefused => cases hrefused
  · cases hwrites with
    | written _ _ _ hdisk => exact hdisk
    | emptied hnot => exact absurd hencodable hnot

/-- A title in which a character stands in for a byte is printed, but not written. -/
theorem respond_writes_printed_fails :
    let bare := ["graph", "t.log", "--source", "caf\uFDE9.c", "--dialect", "gcc", "-f", "dot"]
    let s := { Surroundings.bare with
      disk := Surroundings.bare.disk.withFile ["work", "t.log"]
        (Text.Utf8.encode ". a.h\n".toList)
      standIns := fun c => if c = '\uFDE9' then some 0xE9 else none }
    let text := "digraph includes \x7b\n    label=\"caf\uFDE9.c includes\";\n    labelloc=t;\n"
      ++ "    rankdir=LR;\n    node [shape=box, style=rounded, fontname=\"sans-serif\"];\n"
      ++ "    \"a.h\" [label=\"a.h\"];\n\x7d"
    (respond s bare).output = text ++ "\n" ∧
      (respond s (bare ++ ["-o", "g.dot"])).disk.at? ["work", "g.dot"] = some (.file []) := by
  decide +kernel

end IncludeTrace
