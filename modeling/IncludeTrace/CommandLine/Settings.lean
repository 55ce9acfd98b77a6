/-
The commands of the program, the switches they know, and what the switches set.

* `Command` — show a tree, write a graph, or browse;
* `Switch` — the options, with their spellings;
* `Settings` — the values that a command works with;
* `given` — what a switch is given: two dashes are never a value, so a switch that has
  nothing else is left blank.
-/
import IncludeTrace.Graph.Format

namespace IncludeTrace

/-- What the program is asked to do. -/
inductive Command where
  | tree
  | graph
  | browse
  deriving DecidableEq, Repr, Inhabited

namespace Command

/-- The commands in the order in which they are offered. -/
def all : List Command := [tree, graph, browse]

/-- The word by which a command is chosen. -/
def word : Command → String
  | tree => "tree"
  | graph => "graph"
  | browse => "tui"

/-- The command that a word chooses. -/
def ofWord? (word : String) : Option Command :=
  all.find? (·.word == word)

@[simp] theorem ofWord?_word (c : Command) : ofWord? c.word = some c := by
  cases c <;> decide

end Command

/-- The options of the program and of its commands. -/
inductive Switch where
  | help
  | version
  | compile
  | source
  | includeDir
  | compiler
  | compilerArg
  | timeout
  | dialect
  | marker
  | mode
  | verbose
  | raw
  | json
  | format
  | output
  | noTitle
  deriving DecidableEq, Repr

namespace Switch

/-- How a switch can be spelled. -/
def spellings : Switch → List String
  | help => ["-h", "--help"]
  | version => ["--version"]
  | compile => ["-c", "--compile"]
  | source => ["--source"]
  | includeDir => ["-I", "--include"]
  | compiler => ["--compiler"]
  | compilerArg => ["-X", "--compiler-arg"]
  | timeout => ["--timeout"]
  | dialect => ["--dialect"]
  | marker => ["--marker"]
  | mode => ["-m", "--mode"]
  | verbose => ["-v", "--verbose"]
  | raw => ["--raw"]
  | json => ["--json"]
  | format => ["-f", "--format"]
  | output => ["-o", "--output"]
  | noTitle => ["--no-title"]

/-- Whether a switch wants a value. -/
def takesValue : Switch → Bool
  | help | version | verbose | raw | json | noTitle => false
  | _ => true

/-- The name of a switch in messages. -/
def label (s : Switch) : String :=
  "/".intercalate s.spellings

/-- The switches that every command knows. -/
def shared : List Switch :=
  [help, compile, source, includeDir, compiler, compilerArg, timeout, dialect, marker, mode,
    verbose]

/-- The switches of a command, or of the program itself. -/
def known : Option Command → List Switch
  | none => [help, version]
  | some .tree => shared ++ [raw, json]
  | some .graph => shared ++ [format, output, noTitle]
  | some .browse => shared

end Switch

/-- What a switch is given by a text.  Two dashes right behind a switch, as in `-m--`, are dropped,
and the switch is given nothing.  Readers of command lines differ here: this is what older ones do,
while newer ones take the dashes for a value like any other. -/
def given (text : String) : Option String :=
  if text = "--" then none else some text

/-- What a command works with.  A switch that was left blank has set its field to none;
for `source` this is told apart from never having been set. -/
structure Settings where
  trace : Option String := none
  compile : Option String := none
  source : Option (Option String) := none
  includeDirs : List (Option String) := []
  compiler : Option String := some Compiler.usual
  compilerArgs : List (Option String) := []
  timeout : Timeout := .usual
  dialect : Option Compiler.Family := some .msvc
  marker : Option String := some NoticeStyle.usualMarker
  mode : Option DisplayMode := some .shortestAvoidingUp
  verbose : Bool := false
  raw : Bool := false
  json : Bool := false
  format : Option Graph.Format := some .dgml
  output : Option String := none
  noTitle : Bool := false

end IncludeTrace
