/-
How the commands end that need a tree.

Showing a tree and writing a graph do one thing with what was loaded, and where there is no
tree they do the same: nothing is printed, no file is touched, the user is told, and the exit
code is 1.  What a command leaves behind is therefore looked at in four cases, and not along
the many ways in which a load can fail:

* `Command.complaint` — the words that the user is left with;
* `Settings.printing_cases` — texts that are printed, until the output channel objects to one;
* `Settings.writeGraph_of_encodable`, `writeGraph_of_not_encodable`,
  `writeGraph_of_not_writesAt` — what becomes of a graph that is to be written;
* `Settings.Delivers`, `Settings.Leaves` — when a command succeeds with a tree, and what is left
  behind by one that breaks off in the middle;
* `Settings.run_cases` — the four cases;
* `Answers`, `respond_answers` — the exit code, the output, the files, the words to the user
  and the compiler runs of a command line;
* `respond_answers_fails` — a source file whose name is too long breaks a command down.
-/
import IncludeTrace.Proofs.CommandLines
import IncludeTrace.Proofs.LoadedTrees

namespace IncludeTrace

open IncludeTrace.Graph (Document Format)

/-! ### What is said and started -/

namespace Journal

theorem spoken_append (shown : LogDisplay) (j k : Journal) :
    spoken shown (j ++ k) = spoken shown j ++ spoken shown k := by
  simp [spoken]

theorem spoken_say (shown : LogDisplay) (text : String) :
    spoken shown [.say text] = text ++ "\n" := by
  simp [spoken, spokenEntry]

end Journal

/-- The words in which a command tells that there is no tree. -/
def Command.complaint : Command → String
  | .tree | .browse => "No include tree could be built."
  | .graph => "There is no include tree to save!"

namespace Settings

variable {x : Settings} {s : Surroundings} {place : Place} {file : String}

/-! ### Printing -/

/-- Texts are all printed, or those before the first one to which the output channel objects. -/
theorem printing_cases (x : Settings) (s : Surroundings) (journal : Journal)
    (texts : List String) :
    ((∀ text ∈ texts, s.output.objection text = none) ∧
      x.printing s journal texts
        = ⟨.finished 0, printed texts, journal, x.shown, s.disk, none⟩) ∨
    ∃ before text after objection, texts = before ++ text :: after ∧
      (∀ other ∈ before, s.output.objection other = none) ∧
      s.output.objection text = some objection ∧
      x.printing s journal texts
        = ⟨.broken (.blank (.channel objection)), printed before, journal, x.shown, s.disk,
            none⟩ := by
  cases hfirst : texts.findSome? s.output.objection with
  | none =>
    have htaken := List.findSome?_eq_none_iff.1 hfirst
    have hall : texts.takeWhile (fun text => (s.output.objection text).isNone) = texts :=
      List.takeWhile_eq_self_iff.2 fun text h => Option.isNone_iff_eq_none.2 (htaken text h)
    refine .inl ⟨htaken, ?_⟩
    simp only [printing, hfirst, hall]
  | some objection =>
    obtain ⟨before, text, after, htexts, htext, hbefore⟩ := List.findSome?_eq_some_iff.1 hfirst
    -- What has been printed by then is the texts in front of the first that is objected to.
    have hsome : (texts.takeWhile fun text => (s.output.objection text).isNone) = before := by
      have hall : ∀ other ∈ before, (s.output.objection other).isNone = true := fun other h =>
        Option.isNone_iff_eq_none.2 (hbefore other h)
      rw [htexts, List.takeWhile_append_of_pos hall, List.takeWhile_cons_of_neg (by simp [htext]),
        List.append_nil]
    refine .inr ⟨before, text, after, objection, htexts, hbefore, htext, ?_⟩
    simp only [printing, hfirst, hsome]

theorem printing_of_taken {text : String} (journal : Journal)
    (h : s.output.objection text = none) :
    x.printing s journal [text] = ⟨.finished 0, text ++ "\n", journal, x.shown, s.disk, none⟩ := by
  simp [printing, h, printed]

theorem printing_of_objection {text objection : String} (journal : Journal)
    (h : s.output.objection text = some objection) :
    x.printing s journal [text]
      = brokenDown s journal x.shown (.blank (.channel objection)) := by
  simp [printing, h, printed, brokenDown]

/-! ### The graph of a tree -/

theorem printGraph_eq (x : Settings) (s : Surroundings) (before : Journal) (t : IncludeTree)
    (format : Format) :
    ∃ text, (Document.ofForest t.includes).render format x.graphTitle = .ok text ∧
      x.printGraph s before t format
        = x.printing s (before ++ (Document.ofForest t.includes).remark) [text] := by
  obtain ⟨text, htext⟩ := Document.exists_render_ofForest t.includes format x.graphTitle
  refine ⟨text, htext, ?_⟩
  simp only [printGraph, htext]

section Writing

variable {t : IncludeTree} {format : Format} {text : String}

/-- A graph is written in the chosen format, whatever its file is called. -/
theorem writeGraph_of_encodable (before : Journal)
    (htext : (Document.ofForest t.includes).render format x.graphTitle = .ok text)
    (h : s.disk.WritesAt (.spelled file) place)
    (hencodable : Graph.Encodable s.standIns format text) :
    ∃ journal, journal.started = [] ∧ x.writeGraph s before t format file
      = ⟨.finished 0, "", before ++ journal, x.shown,
          s.disk.withBytes place (Text.Utf8.encode text.toList), none⟩ := by
  rw [← Graph.chosenFormat_some format (.spelled file)] at htext
  have hexport := Graph.exporting_of_encoded t htext h (Graph.encoderFor_of_encodable hencodable)
  refine ⟨(Document.ofForest t.includes).remark
    ++ Graph.writeRemark (.spelled file) (some format)
    ++ [.say ("Graph written to: " ++ file)], rfl, ?_⟩
  simp only [writeGraph, hexport, List.append_assoc]

/-- Its file is left empty where its text does not become bytes. -/
theorem writeGraph_of_not_encodable (before : Journal)
    (htext : (Document.ofForest t.includes).render format x.graphTitle = .ok text)
    (h : s.disk.WritesAt (.spelled file) place)
    (hencodable : ¬ Graph.Encodable s.standIns format text) :
    ∃ fault, x.writeGraph s before t format file
      = ⟨.broken (.blank (.bytes fault)), "", before ++ (Document.ofForest t.includes).remark,
          x.shown, s.disk.withBytes place [], none⟩ := by
  obtain ⟨fault, hfault⟩ := Graph.encoderFor_of_not_encodable hencodable
  rw [← Graph.chosenFormat_some format (.spelled file)] at htext
  have hexport := Graph.exporting_of_unencoded t htext h hfault
  exact ⟨fault, by simp only [writeGraph, hexport, Breakdown.ofWriteFault]⟩

theorem writeGraph_of_not_writesAt (x : Settings) (before : Journal) (t : IncludeTree)
    (format : Format) (h : ∀ place, ¬ s.disk.WritesAt (.spelled file) place) :
    ∃ fault, x.writeGraph s before t format file
      = brokenDown s (before ++ (Document.ofForest t.includes).remark) x.shown
          (.notWritten fault) := by
  obtain ⟨fault, hfault, -⟩ := Disk.exists_filePlace_eq_error h
  refine ⟨.disk fault (.spelled file), ?_⟩
  simp only [writeGraph, Graph.exporting_of_refused t hfault, Breakdown.ofWriteFault, brokenDown]

end Writing

theorem showTree_eq_printing {t : IncludeTree} (h : x.Obtains s t) :
    x.showTree s = x.printing s (x.load s).journal (x.treeTexts t) := by
  simp only [showTree, load_eq_some_iff.2 h]

theorem showGraph_eq_printGraph {t : IncludeTree} {format : Format} (h : x.Obtains s t)
    (hformat : x.format = some format) (hfile : x.outputFile = none) :
    x.showGraph s = x.printGraph s (x.load s).journal t format := by
  simp only [showGraph, load_eq_some_iff.2 h, hformat, hfile]

theorem showGraph_eq_writeGraph {t : IncludeTree} {format : Format} (h : x.Obtains s t)
    (hformat : x.format = some format) (hfile : x.outputFile = some file) :
    x.showGraph s = x.writeGraph s (x.load s).journal t format file := by
  simp only [showGraph, load_eq_some_iff.2 h, hformat, hfile]

/-! ### The ways in which a command ends -/

/-- A command succeeds with a tree: all its texts are printed, or its graph is, or its graph can
be written to the file that was named. -/
inductive Delivers (x : Settings) (s : Surroundings) (t : IncludeTree) : Command → Prop
  | shown (htaken : ∀ text ∈ x.treeTexts t, s.output.objection text = none) : Delivers x s t .tree
  | printed {format : Format} {text : String} (hformat : x.format = some format)
      (hfile : x.outputFile = none)
      (htext : (Document.ofForest t.includes).render format x.graphTitle = .ok text)
      (htaken : s.output.objection text = none) : Delivers x s t .graph
  | written {format : Format} {file text : String} {place : Place}
      (hformat : x.format = some format) (hfile : x.outputFile = some file)
      (htext : (Document.ofForest t.includes).render format x.graphTitle = .ok text)
      (hplace : s.disk.WritesAt (.spelled file) place)
      (hencodable : Graph.Encodable s.standIns format text) : Delivers x s t .graph

/-- What is left behind, on the output channel and on the disk, by a command that breaks off
with a tree: nothing, or the texts before one that the channel does not take, or an empty file. -/
inductive Leaves (x : Settings) (s : Surroundings) (t : IncludeTree) :
    Command → String → Disk → Prop
  | nothing {command : Command} : Leaves x s t command "" s.disk
  | texts {before after : List String} {text objection : String}
      (htexts : x.treeTexts t = before ++ text :: after)
      (htaken : ∀ other ∈ before, s.output.objection other = none)
      (hrefused : s.output.objection text = some objection) :
      Leaves x s t .tree (printed before) s.disk
  | emptied {format : Format} {file text : String} {place : Place} {disk : Disk}
      (hformat : x.format = some format) (hfile : x.outputFile = some file)
      (htext : (Document.ofForest t.includes).render format x.graphTitle = .ok text)
      (hplace : s.disk.WritesAt (.spelled file) place)
      (hencodable : ¬ Graph.Encodable s.standIns format text)
      (hdisk : s.disk.Rewritten disk place []) : Leaves x s t .graph "" disk

section Delivering

variable {t : IncludeTree} {format : Format} {text : String}

theorem delivers_iff_of_printed (hformat : x.format = some format) (hfile : x.outputFile = none)
    (htext : (Document.ofForest t.includes).render format x.graphTitle = .ok text) :
    x.Delivers s t .graph ↔ s.output.objection text = none := by
  refine ⟨fun h => ?_, .printed hformat hfile htext⟩
  cases h with
  | printed hsame _ hother htaken =>
    cases hformat.symm.trans hsame
    cases htext.symm.trans hother
    exact htaken
  | written _ hsome => exact nomatch hfile.symm.trans hsome

theorem delivers_iff_of_written (hformat : x.format = some format)
    (hfile : x.outputFile = some file)
    (htext : (Document.ofForest t.includes).render format x.graphTitle = .ok text) :
    x.Delivers s t .graph ↔ (∃ place, s.disk.WritesAt (.spelled file) place) ∧
      Graph.Encodable s.standIns format text := by
  refine ⟨fun h => ?_, fun ⟨⟨_, hplace⟩, hencodable⟩ =>
    .written hformat hfile htext hplace hencodable⟩
  cases h with
  | printed _ hnone => exact nomatch hfile.symm.trans hnone
  | written hsame hsome hother hplace hencodable =>
    cases hformat.symm.trans hsame
    cases hfile.symm.trans hsome
    cases htext.symm.trans hother
    exact ⟨⟨_, hplace⟩, hencodable⟩

end Delivering

/-- A command that has a tree succeeds with it, or breaks off. -/
inductive Treats (x : Settings) (s : Surroundings) (t : IncludeTree) (command : Command)
    (r : Report) : Prop
  | succeeded (hdelivers : x.Delivers s t command) (hcode : r.outcome = .finished 0)
      (hstarted : r.journal.started = (x.load s).journal.started)
  | interrupted {b : Breakdown} (hnot : ¬ x.Delivers s t command) (hcode : r.outcome = .broken b)
      (hleaves : x.Leaves s t command r.output r.disk)
      (hstarted : r.journal.started = (x.load s).journal.started)

theorem treats_tree {t : IncludeTree} (h : x.Obtains s t) :
    x.Treats s t .tree (x.showTree s) := by
  rw [showTree_eq_printing h]
  obtain ⟨htaken, hprinting⟩ | ⟨before, text, after, objection, htexts, hbefore, hrefused,
    hprinting⟩ := x.printing_cases s (x.load s).journal (x.treeTexts t)
  · rw [hprinting]
    exact .succeeded (.shown htaken) rfl rfl
  · rw [hprinting]
    refine .interrupted (fun hdelivers => ?_) rfl (.texts htexts hbefore hrefused) rfl
    cases hdelivers with
    | shown htaken =>
      have htext := htaken text (by rw [htexts]; simp)
      exact nomatch hrefused.symm.trans htext

/-- A remark on a document says nothing about a compiler. -/
theorem started_append_remark (journal : Journal) (d : Document) :
    (journal ++ d.remark).started = journal.started := by
  rw [Journal.started_append]
  exact List.append_nil _

theorem treats_printed_graph {t : IncludeTree} {format : Format} (h : x.Obtains s t)
    (hformat : x.format = some format) (hfile : x.outputFile = none) :
    x.Treats s t .graph (x.showGraph s) := by
  obtain ⟨text, htext, hprint⟩ := x.printGraph_eq s (x.load s).journal t format
  rw [showGraph_eq_printGraph h hformat hfile, hprint]
  have hdelivers := delivers_iff_of_printed (s := s) hformat hfile htext
  cases hobjection : s.output.objection text with
  | none =>
    rw [printing_of_taken _ hobjection]
    exact .succeeded (hdelivers.2 hobjection) rfl (started_append_remark _ _)
  | some objection =>
    rw [printing_of_objection _ hobjection]
    refine .interrupted (fun h => ?_) rfl .nothing (started_append_remark _ _)
    exact nomatch hobjection.symm.trans (hdelivers.1 h)

theorem treats_written_graph {t : IncludeTree} {format : Format} (h : x.Obtains s t)
    (hformat : x.format = some format) (hfile : x.outputFile = some file) :
    x.Treats s t .graph (x.showGraph s) := by
  obtain ⟨text, htext⟩ := Document.exists_render_ofForest t.includes format x.graphTitle
  rw [showGraph_eq_writeGraph h hformat hfile]
  have hdelivers := delivers_iff_of_written (s := s) hformat hfile htext
  by_cases hplaces : ∃ place, s.disk.WritesAt (.spelled file) place
  · obtain ⟨place, hplace⟩ := hplaces
    by_cases hencodable : Graph.Encodable s.standIns format text
    · obtain ⟨journal, hstarted, hwrite⟩ :=
        writeGraph_of_encodable (x.load s).journal htext hplace hencodable
      rw [hwrite]
      refine .succeeded (hdelivers.2 ⟨⟨place, hplace⟩, hencodable⟩) rfl ?_
      rw [Journal.started_append, hstarted, List.append_nil]
    · -- The file is open by then, and empty.
      obtain ⟨fault, hwrite⟩ :=
        writeGraph_of_not_encodable (x.load s).journal htext hplace hencodable
      rw [hwrite]
      exact .interrupted (fun h => hencodable (hdelivers.1 h).2) rfl
        (.emptied hformat hfile htext hplace hencodable (Disk.rewritten_withBytes hplace []))
        (started_append_remark _ _)
  · obtain ⟨fault, hwrite⟩ :=
      x.writeGraph_of_not_writesAt (x.load s).journal t format (not_exists.1 hplaces)
    rw [hwrite]
    exact .interrupted (fun h => hplaces (hdelivers.1 h).1) rfl .nothing
      (started_append_remark _ _)

theorem treats_graph {t : IncludeTree} (h : x.Obtains s t) :
    x.Treats s t .graph (x.showGraph s) := by
  cases hformat : x.format with
  | none =>
    have hshow : x.showGraph s = brokenDown s (x.load s).journal x.shown (.blank .format) := by
      simp only [showGraph, load_eq_some_iff.2 h, hformat]
    rw [hshow]
    -- Both ways to deliver a graph need a format.
    refine .interrupted (fun hdelivers => ?_) rfl .nothing rfl
    cases hdelivers with
    | printed hsome => exact nomatch hformat.symm.trans hsome
    | written hsome => exact nomatch hformat.symm.trans hsome
  | some format =>
    cases hfile : x.outputFile with
    | none => exact treats_printed_graph h hformat hfile
    | some file => exact treats_written_graph h hformat hfile

/-- A tree is shown or written, or the command breaks off with it, or the load breaks down, or
there is no tree. -/
theorem run_cases (x : Settings) (s : Surroundings) {command : Command}
    (hcommand : command ≠ .browse) :
    (∃ t, x.Obtains s t ∧ x.Treats s t command (x.run s command)) ∨
    (∃ b, x.Stuck s b ∧ x.run s command = brokenDown s (x.load s).journal x.shown b) ∨
    ((∀ t, ¬ x.Obtains s t) ∧ (∀ b, ¬ x.Stuck s b) ∧
      x.run s command = x.withoutTree s (x.load s).journal command.complaint) := by
  rcases hvalue : (x.load s).value with b | _ | t
  · refine .inr (.inl ⟨b, load_eq_error_iff.1 hvalue, ?_⟩)
    cases command with
    | tree => simp only [run, showTree, hvalue]
    | graph => simp only [run, showGraph, hvalue]
    | browse => exact absurd rfl hcommand
  · refine .inr (.inr ⟨fun t ht => ?_, fun b hb => ?_, ?_⟩)
    · exact nomatch hvalue.symm.trans (load_eq_some_iff.2 ht)
    · exact nomatch hvalue.symm.trans (load_eq_error_iff.2 hb)
    · cases command with
      | tree => simp only [run, showTree, hvalue, Command.complaint]
      | graph => simp only [run, showGraph, hvalue, Command.complaint]
      | browse => exact absurd rfl hcommand
  · have hobtains : x.Obtains s t := load_eq_some_iff.1 hvalue
    refine .inl ⟨t, hobtains, ?_⟩
    cases command with
    | tree => exact treats_tree hobtains
    | graph => exact treats_graph hobtains
    | browse => exact absurd rfl hcommand

end Settings

/-! ### Command lines -/

/-- What a command that needs a tree leaves behind. -/
structure Answers (x : Settings) (s : Surroundings) (command : Command) (r : Report) : Prop where
  /-- The exit code is 1 exactly where there is no tree and the load did not break down. -/
  one_iff : r.outcome = .finished 1 ↔ (∀ t, ¬ x.Obtains s t) ∧ ∀ b, ¬ x.Stuck s b
  /-- It is 0 exactly where there is a tree and the command succeeds with it. -/
  zero_iff : r.outcome = .finished 0 ↔ ∃ t, x.Obtains s t ∧ x.Delivers s t command
  stuck : ∀ b, x.Stuck s b → r.outcome = .broken b
  broken_iff : (∃ b, r.outcome = .broken b) ↔
    (∃ b, x.Stuck s b) ∨ ∃ t, x.Obtains s t ∧ ¬ x.Delivers s t command
  /-- Without a tree nothing is printed, and no file is touched. -/
  untouched : (∀ t, ¬ x.Obtains s t) → r.output = "" ∧ r.disk = s.disk
  /-- With a tree and without success there are few things that can be left behind. -/
  leaves : ∀ t, x.Obtains s t → r.outcome ≠ .finished 0 → x.Leaves s t command r.output r.disk
  complaint : r.outcome = .finished 1 →
    ∃ before, r.errors = before ++ (command.complaint ++ "\n")
  /-- One compiler run is started at most, and only for a file to compile that is there. -/
  started : r.journal.started = [] ∨
    ∃ file compiler, x.compile = some file ∧ s.disk.HoldsFile (.spelled file) ∧
      r.journal.started = [x.compilerRun compiler file]

namespace Settings

variable {x : Settings} {s : Surroundings}

theorem compile_of_compileFile {file : String} (h : x.compileFile = some file) :
    x.compile = some file :=
  (Option.filter_eq_some_iff.1 h).1

theorem started_run {r : Report} (h : r.journal.started = (x.load s).journal.started) :
    r.journal.started = [] ∨
      ∃ file compiler, x.compile = some file ∧ s.disk.HoldsFile (.spelled file) ∧
        r.journal.started = [x.compilerRun compiler file] := by
  rw [h]
  obtain hnone | ⟨compiler, file, hfile, hthere, -, hstarted⟩ := x.started_load s
  · exact .inl hnone
  · exact .inr ⟨file, compiler, compile_of_compileFile hfile, hthere, hstarted⟩

/-- A tree excludes every breakdown of the load, and every other tree. -/
theorem answers_of_treats {t : IncludeTree} {command : Command} {r : Report}
    (ht : x.Obtains s t) (h : x.Treats s t command r) : Answers x s command r := by
  -- No other tree is obtained and nothing is stuck, which settles all but the report itself.
  have hunstuck := not_stuck_of_obtains ht
  have hunique : ∀ u, x.Obtains s u → u = t := fun u hu => hu.unique ht
  have huntouched : (∀ u, ¬ x.Obtains s u) → r.output = "" ∧ r.disk = s.disk := fun hnone =>
    absurd ht (hnone t)
  cases h with
  | succeeded hdelivers hcode hstarted =>
    refine ⟨iff_of_false (by simp [hcode]) fun h => h.1 t ht, iff_of_true hcode ⟨t, ht, hdelivers⟩,
      fun b hb => absurd hb (hunstuck b), iff_of_false (by simp [hcode]) ?_, huntouched,
      fun u hu hnot => absurd hcode hnot, fun hone => ?_, started_run hstarted⟩
    · rintro (⟨b, hb⟩ | ⟨u, hu, hnot⟩)
      · exact hunstuck b hb
      · exact hnot (hunique u hu ▸ hdelivers)
    · simp [hcode] at hone
  | interrupted hnot hcode hleaves hstarted =>
    refine ⟨iff_of_false (by simp [hcode]) fun h => h.1 t ht, iff_of_false (by simp [hcode]) ?_,
      fun b hb => absurd hb (hunstuck b), iff_of_true ⟨_, hcode⟩ (.inr ⟨t, ht, hnot⟩), huntouched,
      fun u hu _ => hunique u hu ▸ hleaves, fun hone => ?_, started_run hstarted⟩
    · rintro ⟨u, hu, hdelivers⟩
      exact hnot (hunique u hu ▸ hdelivers)
    · simp [hcode] at hone

theorem run_answers (x : Settings) (s : Surroundings) {command : Command}
    (hcommand : command ≠ .browse) : Answers x s command (x.run s command) := by
  obtain ⟨t, ht, htreats⟩ | ⟨b, hstuck, hrun⟩ | ⟨hnone, hunstuck, hrun⟩ := x.run_cases s hcommand
  · exact answers_of_treats ht htreats
  · have hnone : ∀ t, ¬ x.Obtains s t := fun t ht => not_stuck_of_obtains ht b hstuck
    have hcode : (x.run s command).outcome = .broken b := by rw [hrun, brokenDown]
    refine ⟨iff_of_false (by simp [hcode]) fun h => h.2 b hstuck,
      iff_of_false (by simp [hcode]) fun ⟨t, ht, _⟩ => hnone t ht, fun c hc => ?_,
      iff_of_true ⟨b, hcode⟩ (.inl ⟨b, hstuck⟩), fun _ => ?_, fun t ht => absurd ht (hnone t),
      fun hone => ?_, started_run (by rw [hrun, brokenDown])⟩
    · rw [hcode, hstuck.unique hc]
    · rw [hrun]
      exact ⟨rfl, rfl⟩
    · simp [hcode] at hone
  · have hcode : (x.run s command).outcome = .finished 1 := by rw [hrun, withoutTree]
    refine ⟨iff_of_true hcode ⟨hnone, hunstuck⟩,
      iff_of_false (by simp [hcode]) fun ⟨t, ht, _⟩ => hnone t ht,
      fun b hb => absurd hb (hunstuck b), iff_of_false (by simp [hcode]) ?_, fun _ => ?_,
      fun t ht => absurd ht (hnone t), fun _ => ?_, started_run ?_⟩
    · rintro (⟨b, hb⟩ | ⟨t, ht, -⟩)
      · exact hunstuck b hb
      · exact hnone t ht
    · rw [hrun]
      exact ⟨rfl, rfl⟩
    · refine ⟨Journal.spoken x.shown (x.load s).journal, ?_⟩
      rw [hrun, withoutTree, Report.errors, Journal.spoken_append, Journal.spoken_say]
    · rw [hrun, withoutTree, Journal.started_append]
      exact List.append_nil _

end Settings

/-- **A command that needs a tree has one, or tells that there is none, and touches nothing.**
The exit code is 1 exactly where no tree can be built, unless the load breaks down; then
nothing is printed and written, and the user is told.  With a tree the exit code is 0, unless
the tree cannot be printed or its graph cannot be written. -/
theorem respond_answers {args : List String} {command : Command} {x : Settings}
    (s : Surroundings) (hread : readCommandLine args = .ok (command, x))
    (hcommand : command ≠ .browse) : Answers x s command (respond s args) := by
  rw [respond, hread]
  exact x.run_answers s hcommand

/-- Surroundings in which there is nothing but a directory. -/
def Surroundings.bare : Surroundings :=
  { folder := "/work", searchPath := "", disk := .blank ["work"] [], input := ""
    compiler := fun _ => .notFound }

theorem respond_answers_missing :
    readCommandLine ["graph", "build.log", "-f", "dot", "-o", "a.json"] = .ok (.graph,
        { trace := some "build.log", format := some .dot, output := some "a.json" }) ∧
      Answers { trace := some "build.log", format := some .dot, output := some "a.json" }
        .bare .graph (respond .bare ["graph", "build.log", "-f", "dot", "-o", "a.json"]) :=
  ⟨rfl, respond_answers .bare rfl (by decide)⟩

/-- A source file whose name is too long breaks a command down, although no tree is built. -/
theorem respond_answers_fails :
    let file := String.ofList (List.replicate 256 'g')
    readCommandLine ["tree", "-c", file] = .ok (.tree, { compile := some file }) ∧
      (∀ t, ¬ Settings.Obtains { compile := some file } .bare t) ∧
      ∀ code, (respond .bare ["tree", "-c", file]).outcome ≠ .finished code := by
  intro file
  have hlist : file.toList = List.replicate 256 'g' := String.toList_ofList
  have hhead : file.toList.head? ≠ some '-' := by
    rw [hlist]
    decide
  have hplain : readCommandLine ["tree"] = .ok (.tree, {}) := rfl
  have hspelling : "-c" ∈ Switch.compile.spellings := by decide
  have hread : readCommandLine ["tree", "-c", file] = .ok (.tree, { compile := some file }) := by
    have happend := readCommandLine_append (by decide) hplain (by decide) (by decide) rfl
      hspelling hhead rfl
    exact happend
  -- By its length, since comparing the texts character by character would unfold all of them.
  have hne : ∀ other : String, other.toList.length < 256 → file ≠ other := by
    rintro other hother rfl
    rw [hlist] at hother
    exact absurd hother (by decide +kernel)
  have hspelled : Location.spelled file = ⟨.posix, "", [file]⟩ := by
    refine Location.spelled_of_name (hne "" (by decide)) (hne "." (by decide)) ?_
    rw [hlist]
    decide +kernel
  have hlong : Surroundings.bare.disk.find (Location.spelled file) = .error .tooLong := by
    have hnull : '\x00' ∉ file.toList := by
      rw [hlist]
      decide +kernel
    refine Disk.find_eq_tooLong_of_name (Location.clean_spelled hnull) (by rw [hspelled]) ?_ ?_
    · rw [Disk.byteCount, hlist]
      decide +kernel
    · rw [hspelled]
      decide +kernel
  have hstuck : Settings.Stuck { compile := some file } .bare (.notRead .tooLong (.spelled file)) :=
    .source rfl (Option.filter_eq_some_iff.2 ⟨rfl, by simpa using hne "" (by decide)⟩) hlong
  refine ⟨hread, fun t ht => Settings.not_stuck_of_obtains ht _ hstuck, fun code hcode => ?_⟩
  have hbroken := (Settings.run_answers { compile := some file } .bare
    (show Command.tree ≠ .browse by decide)).stuck _ hstuck
  rw [respond, hread] at hcode
  exact nomatch hbroken.symm.trans hcode

end IncludeTrace
