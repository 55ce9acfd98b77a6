/-
Getting the tree that a command works on.

* `Absent`, `Breakdown` — what can be missing, and the faults that nobody catches;
* `Settings.load` — the tree that the settings ask for, from a compiler, the input
  channel or a file.

What goes wrong is noted, and there is no tree.  But a switch that was left blank breaks the
command down where its value is needed, and so does a compiler run that cannot be carried out,
or an input that is no text.
-/
import IncludeTrace.CommandLine.Settings
import IncludeTrace.Graph.Export
import IncludeTrace.Surroundings

namespace IncludeTrace

/-- What can be missing where it is needed. -/
inductive Absent where
  /-- The word that chooses a mode, a dialect or a format: its switch was left blank. -/
  | mode
  | dialect
  | format
  /-- The text that another switch was to give. -/
  | text (s : Switch)
  /-- The ending of a compiler run that could not be carried out. -/
  | ending (fault : LaunchFault)
  /-- A text on the input channel, with the complaint about what is there. -/
  | input (complaint : String)
  /-- The bytes of a graph, whose file is open and empty by then. -/
  | bytes (fault : Text.EncodeFault)
  /-- A channel that takes what is to be printed, with its objection. -/
  | channel (objection : String)

/-- The lack in words. -/
def Absent.message : Absent → String
  | mode => "[] is not a valid PathMode"
  | dialect => "[] is not a valid TraceDialect"
  | format => "[] is not a valid GraphFormat"
  | text .includeDir => "expected string or bytes-like object, got 'list'"
  | text .compiler => "expected str, bytes or os.PathLike object, not list"
  | text _ => "must be str, not list"
  | ending fault => fault.message
  | input complaint => complaint
  | bytes fault => fault.message
  | channel objection => objection

/-- A fault that nobody catches. -/
inductive Breakdown where
  | notWritten (fault : Graph.ExportFault)
  | notRead (fault : DiskFault) (path : Location)
  /-- Something is needed that is not there. -/
  | blank (what : Absent)

/-- The fault in words. -/
def Breakdown.message : Breakdown → String
  | notWritten fault => fault.message
  | notRead fault path => fault.message path
  | blank what => what.message

/-- The fault by which the writing of a graph breaks off. -/
def Breakdown.ofWriteFault : Graph.WriteFault Text.EncodeFault → Breakdown
  | .refused fault => notWritten fault
  | .unencoded fault => blank (.bytes fault)

namespace Settings

/-- The file to be compiled, if there is one. -/
def compileFile (x : Settings) : Option String :=
  x.compile.filter (· != "")

/-- The source file, if there is one. -/
def sourceFile (x : Settings) : Option String :=
  x.source.join.filter (· != "")

/-- The include directories, unless one of them was left blank. -/
def directories? (x : Settings) : Option (List String) :=
  if x.includeDirs.all (·.isSome) then some (x.includeDirs.filterMap id) else none

/-- What a load comes to, and what was noted on the way to it. -/
abbrev Loaded := Noted (Except Breakdown (Option IncludeTree))

/-- No tree, for a reason that the user is told. -/
def refused (reason : String) : Loaded :=
  ⟨.ok none, [.say reason]⟩

/-- A breakdown without anything noted. -/
def brokenBy (b : Breakdown) : Loaded :=
  ⟨.error b, []⟩

/-- The tree of a compiler run.  The compiler takes a blank directory for a name, but no
path can be shortened by it. -/
def loadRun (x : Settings) (s : Surroundings) (mode : DisplayMode) (compiler file : String) :
    Loaded :=
  let words := x.includeDirs.map (·.getD "[]")
  let run := Invocation.tracing compiler file words x.compilerArgs x.timeout
  match x.directories? with
  | some directories =>
    (s.ofRun run (Surroundings.compilerRequest compiler file directories mode)).map
      (Except.mapError fun fault => .blank (.ending fault))
  | none =>
    (s.printedBy run).map fun
      | .ok (some _) => .error (.blank (.text .includeDir))
      | .ok none => .ok none
      | .error fault => .error (.blank (.ending fault))

/-- The tree of a source file. -/
def loadSource (x : Settings) (s : Surroundings) (mode : DisplayMode) (file : String) : Loaded :=
  let path := Location.spelled file
  match s.disk.look path, x.compiler with
  | .error fault, _ => brokenBy (.notRead fault path)
  | .ok (some (.file _)), some compiler => x.loadRun s mode compiler file
  | .ok (some (.file _)), none => brokenBy (.blank (.text .compiler))
  | .ok _, _ => refused ("Can't trace includes, not a compilable file: " ++ file)

/-- How the settings want a trace to be read. -/
def request (x : Settings) (mode : DisplayMode) (dialect : Compiler.Family) :
    Except Breakdown Request :=
  match x.directories?, dialect, x.marker with
  | none, _, _ => .error (.blank (.text .includeDir))
  | some _, .msvc, none => .error (.blank (.text .marker))
  | some directories, dialect, marker =>
    .ok ⟨x.source.join, directories, dialect.style (marker.getD ""), mode⟩

/-- The tree of a text; where there is nothing to read, it does not matter how. -/
def loadText (x : Settings) (s : Surroundings) (mode : DisplayMode)
    (dialect : Compiler.Family) (text : String) : Loaded :=
  match x.request mode dialect with
  | .ok r => (s.ofText r (some text)).map .ok
  | .error b => if text = "" then Surroundings.withoutText.map .ok else brokenBy b

/-- The tree of a trace. -/
def loadTrace (x : Settings) (s : Surroundings) (mode : DisplayMode)
    (dialect : Compiler.Family) (trace : String) : Loaded :=
  if trace = "-" then
    match s.input with
    | .text input => x.loadText s mode dialect (String.ofList (Text.universalNewlines input.toList))
    | .undecodable complaint => brokenBy (.blank (.input complaint))
  else
    let path := Location.spelled trace
    let found := s.textIn path
    match found.value with
    | .ok (some text) => x.loadText s mode dialect text
    | .ok none => found.map fun _ => .ok none
    | .error fault => found.map fun _ => .error (.notRead fault path)

/-- The tree that the settings ask for. -/
def load (x : Settings) (s : Surroundings) : Loaded :=
  match x.mode, x.compileFile, x.trace, x.dialect with
  | none, _, _, _ => brokenBy (.blank .mode)
  | some mode, some file, _, _ => x.loadSource s mode file
  | some _, none, none, _ => refused "Specify a trace file (or - for stdin) or --compile SOURCE."
  | some _, none, some _, none => brokenBy (.blank .dialect)
  | some mode, none, some trace, some dialect => x.loadTrace s mode dialect trace

end Settings

end IncludeTrace
