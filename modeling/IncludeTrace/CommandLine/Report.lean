/-
Running the commands.

* `Outcome` — how a command ends: with an exit code, or by a fault that nobody catches;
* `Report` — everything that a command leaves behind: what it printed, its journal,
  the disk, and what there is to browse;
* `Settings.showTree`, `showGraph`, `browse` — what each command does with its tree;
* `respond` — the report of a whole command line.
-/
import IncludeTrace.CommandLine.Arguments
import IncludeTrace.CommandLine.Help
import IncludeTrace.CommandLine.Loading
import IncludeTrace.Trace.Outline

namespace IncludeTrace

/-- How a command ends. -/
inductive Outcome where
  /-- With an exit code that the command chose. -/
  | finished (code : Nat)
  /-- With an exit code, before any command was run. -/
  | stopped (code : Nat)
  /-- By a fault. -/
  | broken (fault : Breakdown)

/-- What there is to browse: a title, the tree of the first run, and that as JSON. -/
structure Browsing where
  title : Option String
  tree : Option IncludeTree
  json : Json

/-- Everything that a command leaves behind. -/
structure Report where
  outcome : Outcome
  output : String
  journal : Journal
  shown : LogDisplay
  disk : Disk
  browsing : Option Browsing

namespace Report

/-- The text on the error channel. -/
def errors (r : Report) : String :=
  r.journal.spoken r.shown

end Report

namespace Settings

/-- The file that a graph is to be written to, if there is one. -/
def outputFile (x : Settings) : Option String :=
  x.output.filter (· != "")

/-- The files that the settings name. -/
def files (x : Settings) : List Location :=
  ([x.compileFile, x.trace.filter (· != "-"), x.outputFile].filterMap id).map Location.spelled

/-- The short name of what is traced: the last segment, whichever separator it has. -/
def inputName (x : Settings) : Option String :=
  let named :=
    match x.compileFile, x.sourceFile with
    | some file, _ => some file
    | none, some file => some file
    | none, none => x.trace.filter fun file => file != "" && file != "-"
  named.map fun file => (Location.parseWindows file.toList).name

/-- The title of a graph. -/
def graphTitle (x : Settings) : Option String :=
  if x.noTitle then none else (x.inputName.filter (· != "")).map (· ++ " includes")

/-- Which log lines a command shows. -/
def shown (x : Settings) : LogDisplay :=
  ⟨if x.verbose then .debug else .warning, true⟩

/-- The tree as JSON, where a blank source shows as an empty list. -/
def treeJson (x : Settings) (tree : IncludeTree) : Json :=
  match x.compileFile, x.source with
  | none, some none => tree.jsonFrom (.arr [])
  | _, _ => tree.json

/-- The texts that show a tree, as they are printed one after the other. -/
def treeTexts (x : Settings) (tree : IncludeTree) : List String :=
  if x.json then [(x.treeJson tree).text]
  else
    (x.inputName.filter (· != "")).toList ++ outline "" x.raw tree.includes
      ++ [s!"\n{tree.count} include(s)"]

/-- The report of a command that could not get a tree. -/
def withoutTree (x : Settings) (s : Surroundings) (journal : Journal) (complaint : String) :
    Report :=
  ⟨.finished 1, "", journal ++ [.say complaint], x.shown, s.disk, none⟩

/-- The report of a command that broke down before it changed or printed anything. -/
def brokenDown (s : Surroundings) (journal : Journal) (shown : LogDisplay) (b : Breakdown) :
    Report :=
  ⟨.broken b, "", journal, shown, s.disk, none⟩

/-- The report of a command that prints texts, one after the other: at the first one that the
output channel does not take it breaks down, and the others stay printed. -/
def printing (x : Settings) (s : Surroundings) (journal : Journal) (texts : List String) : Report :=
  let output := printed (texts.takeWhile fun text => (s.output.objection text).isNone)
  match texts.findSome? s.output.objection with
  | none => ⟨.finished 0, output, journal, x.shown, s.disk, none⟩
  | some objection =>
    ⟨.broken (.blank (.channel objection)), output, journal, x.shown, s.disk, none⟩

/-- Shows the tree. -/
def showTree (x : Settings) (s : Surroundings) : Report :=
  let loaded := x.load s
  match loaded.value with
  | .error b => brokenDown s loaded.journal x.shown b
  | .ok none => x.withoutTree s loaded.journal "No include tree could be built."
  | .ok (some tree) => x.printing s loaded.journal (x.treeTexts tree)

/-- Writes the graph of a tree to a file. -/
def writeGraph (x : Settings) (s : Surroundings) (before : Journal) (tree : IncludeTree)
    (format : Graph.Format) (file : String) : Report :=
  let exported := Graph.exporting (Graph.encoderFor s.standIns) s.disk (some tree)
    (some (Location.spelled file)) (some format) x.graphTitle
  let journal := before ++ exported.journal
  match exported.result with
  | .ok _ =>
    ⟨.finished 0, "", journal ++ [.say ("Graph written to: " ++ file)], x.shown, exported.disk,
      none⟩
  | .error fault => ⟨.broken (.ofWriteFault fault), "", journal, x.shown, exported.disk, none⟩

/-- Prints the graph of a tree. -/
def printGraph (x : Settings) (s : Surroundings) (before : Journal) (tree : IncludeTree)
    (format : Graph.Format) : Report :=
  let d := Graph.Document.ofForest tree.includes
  let journal := before ++ d.remark
  match d.render format x.graphTitle with
  | .ok text => x.printing s journal [text]
  | .error e => brokenDown s journal x.shown (.notWritten (.missingNode e.id))

/-- Prints the graph, or writes it to a file. -/
def showGraph (x : Settings) (s : Surroundings) : Report :=
  let loaded := x.load s
  match loaded.value, x.format, x.outputFile with
  | .error b, _, _ => brokenDown s loaded.journal x.shown b
  | .ok none, _, _ => x.withoutTree s loaded.journal "There is no include tree to save!"
  | .ok (some _), none, _ => brokenDown s loaded.journal x.shown (.blank .format)
  | .ok (some tree), some format, some file => x.writeGraph s loaded.journal tree format file
  | .ok (some tree), some format, none => x.printGraph s loaded.journal tree format

/-- Gets the tree that is to be browsed; warnings are shown without their severity. -/
def browse (x : Settings) (s : Surroundings) : Report :=
  let loaded := x.load s
  match loaded.value with
  | .error b => brokenDown s loaded.journal ⟨.warning, false⟩ b
  | .ok tree =>
    ⟨.finished 0, "", loaded.journal, ⟨.warning, false⟩, s.disk,
      some ⟨x.inputName, tree, (tree.map x.treeJson).getD .null⟩⟩

/-- Runs a command. -/
def run (x : Settings) (s : Surroundings) : Command → Report
  | .tree => x.showTree s
  | .graph => x.showGraph s
  | .browse => x.browse s

end Settings

/-- The report of a command line that runs no command. -/
def Stop.report (s : Surroundings) : Stop → Report
  | .help scope =>
    ⟨.stopped 0, printed (Help.help scope), [], ⟨.warning, false⟩, s.disk, none⟩
  | .version => ⟨.stopped 0, printed [Help.version], [], ⟨.warning, false⟩, s.disk, none⟩
  | .fault scope f =>
    ⟨.stopped 2, "",
      (Help.usage scope ++ [Help.programName scope ++ ": error: " ++ f.message]).map .say,
      ⟨.warning, false⟩, s.disk, none⟩

/-- The report of a command line. -/
def respond (s : Surroundings) (args : List String) : Report :=
  match readCommandLine args with
  | .ok (command, x) => x.run s command
  | .error stop => stop.report s

end IncludeTrace
