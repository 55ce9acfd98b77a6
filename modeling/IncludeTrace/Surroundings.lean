/-
The surroundings of an operation, and the ways of getting an include tree in them:
from a text, from a file, or from a compiler run.

* `Surroundings` — working directory, search path, disk, compiler, and the input and output
  channels;
* `Request` — how a trace is to be read and which directories shorten its names;
* `Surroundings.ofText`, `ofFile`, `ofSource` — the tree, if there is one, and the
  journal.  What goes wrong is noted, and there is no tree; the faults that are not put up
  with are a null character in the name of a file, and a run that cannot be carried out;
* `Surroundings.ofCompiler` — the tree of a source file where no such fault occurs.
-/
import IncludeTrace.Compiler.Run
import IncludeTrace.Disk
import IncludeTrace.Path.Bases
import IncludeTrace.Text.Encoding
import IncludeTrace.Trace.Tree

namespace IncludeTrace

/-- What is on an input channel: a text, or bytes that are none, with the words in which a
decoder complains of them. -/
inductive Input where
  | text (s : String)
  | undecodable (complaint : String)
  deriving DecidableEq, Repr

instance : Coe String Input := ⟨.text⟩

/-- An output channel: what it has against a text that is printed, if anything.  Some channels
know only the characters of their own language, but texts in ASCII pass through all of them. -/
structure Channel where
  objection : String → Option String
  ascii : ∀ text : String, Text.IsAscii text.toList → objection text = none

/-- The channel that takes every text. -/
def Channel.free : Channel := ⟨fun _ => none, fun _ _ => rfl⟩

/-- Everything outside of an operation that it can see. -/
structure Surroundings where
  folder : String
  searchPath : String
  disk : Disk
  input : Input
  compiler : Invocation → Compiler.Ending
  /-- The characters that stand in for bytes of the command line. -/
  standIns : Text.StandIns := Text.noStandIns
  output : Channel := .free

/-- How the trace of a translation unit is to be read. -/
structure Request where
  source : Option String
  includeDirs : List String
  style : NoticeStyle
  mode : DisplayMode

/-- A result, and what was noted on the way to it. -/
structure Noted (α : Type) where
  value : α
  journal : Journal

/-- The same, with another result. -/
def Noted.map {α β : Type} (f : α → β) (n : Noted α) : Noted β :=
  ⟨f n.value, n.journal⟩

namespace Surroundings

/-- The reader that a request asks for. -/
def reader (s : Surroundings) (r : Request) : TraceReader where
  style := r.style
  mode := r.mode
  bases := baseDirectories s.folder (some s.searchPath) r.source r.includeDirs
  source := r.source

/-- No tree, because there is no text. -/
def withoutText : Noted (Option IncludeTree) :=
  ⟨none, [.log .warning "No compiler output to parse"]⟩

/-- The tree of a text. -/
def ofText (s : Surroundings) (r : Request) (text : Option String) : Noted (Option IncludeTree) :=
  match text.filter (· != "") with
  | none => withoutText
  | some text =>
    let reader := s.reader r
    match reader.tree text with
    | .ok tree => ⟨some tree, reader.log text⟩
    | .error e =>
      ⟨none, reader.log text
        ++ [.log .error ("Malformed include trace, discarding result: " ++ e.message)]⟩

/-- The text in a file, if it can be read. -/
def textIn (s : Surroundings) (path : Location) : Noted (Except DiskFault (Option String)) :=
  match s.disk.readText path with
  | .ok text => ⟨.ok (some text), []⟩
  | .error .nullCharacter => ⟨.error .nullCharacter, []⟩
  | .error fault =>
    ⟨.ok none, [.log .error s!"Cannot read trace {path.text}: {fault.message path}"]⟩

/-- The tree of the text in a file. -/
def ofFile (s : Surroundings) (r : Request) (path : Location) :
    Noted (Except DiskFault (Option IncludeTree)) :=
  let found := s.textIn path
  match found.value with
  | .ok (some text) => (s.ofText r (some text)).map .ok
  | .ok none => found.map fun _ => .ok none
  | .error fault => found.map fun _ => .error fault

/-- What a compiler prints, if there is anything to read. -/
def printedBy (s : Surroundings) (run : Invocation) :
    Noted (Except LaunchFault (Option String)) :=
  let ending := s.compiler run
  let noted := Compiler.captureJournal run ending
  match Compiler.capture run ending with
  | .ok text => ⟨.ok (some text), noted⟩
  | .error (.raised fault) => ⟨.error fault, noted⟩
  | .error fault => ⟨.ok none, noted ++ [.log .error fault.message]⟩

/-- The tree of what a compiler prints. -/
def ofRun (s : Surroundings) (run : Invocation) (r : Request) :
    Noted (Except LaunchFault (Option IncludeTree)) :=
  let found := s.printedBy run
  match found.value with
  | .ok (some text) =>
    let traced := s.ofText r (some text)
    ⟨.ok traced.value, found.journal ++ traced.journal⟩
  | .ok none => ⟨.ok none, found.journal⟩
  | .error fault => ⟨.error fault, found.journal⟩

/-- How the notices of a compiler about a source file are to be read. -/
def compilerRequest (compiler source : String) (includeDirs : List String)
    (mode : DisplayMode) : Request :=
  ⟨some source, includeDirs, (Compiler.family compiler).style NoticeStyle.usualMarker, mode⟩

/-- The tree of what a compiler prints about a source file. -/
def ofSource (s : Surroundings) (compiler source : String) (includeDirs extra : List String)
    (mode : DisplayMode) (timeout : Timeout) : Noted (Except LaunchFault (Option IncludeTree)) :=
  s.ofRun (Invocation.tracing compiler source includeDirs (extra.map some) timeout)
    (compilerRequest compiler source includeDirs mode)

/-- The tree of what a compiler prints about a source file, for whoever takes no tree from a
run that cannot be carried out. -/
def ofCompiler (s : Surroundings) (compiler source : String) (includeDirs extra : List String)
    (mode : DisplayMode) (timeout : Timeout) : Noted (Option IncludeTree) :=
  (s.ofSource compiler source includeDirs extra mode timeout).map fun value =>
    value.toOption.join

end Surroundings

end IncludeTrace
