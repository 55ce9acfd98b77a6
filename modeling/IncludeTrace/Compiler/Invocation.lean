/-
Compiler invocations: which compiler is called with which arguments.

* `Family` — compilers with the options of `cl`, and those with the options of
  `gcc`; the name of the executable decides;
* `Family.style` — the notices that a family prints, where a localised compiler
  may use a marker of its own;
* `command` — the arguments of a run that checks the syntax of one source file
  and names every file it opens;
* `Invocation` — a command with the circumstances in which it runs.
-/
import IncludeTrace.Decimal.Seconds
import IncludeTrace.Path.Location
import IncludeTrace.Trace.Notice

namespace IncludeTrace

namespace Compiler

/-- A family of compilers that take the same options. -/
inductive Family where
  | msvc
  | gcc
  deriving DecidableEq, Repr, Inhabited

/-- The compiler that is called unless another one is named. -/
def usual : String := "cl"

/-- A text without one ending, if it has it. -/
def withoutEnding (ending s : List Char) : List Char :=
  if ending.isSuffixOf s then s.take (s.length - ending.length) else s

/-- The family of a compiler, by the last segment of its name, in any case and
with or without `.exe`. -/
def family (compiler : String) : Family :=
  let name := (Location.parseWindows compiler.toList).name
  let base := withoutEnding ".exe".toList (Text.lower name.toList)
  if base = "cl".toList ∨ base = "clang-cl".toList then .msvc else .gcc

namespace Family

/-- The families in the order in which they are offered. -/
def all : List Family := [msvc, gcc]

/-- The word by which a family is chosen. -/
def word : Family → String
  | msvc => "msvc"
  | gcc => "gcc"

/-- The family that a word chooses. -/
def ofWord? (word : String) : Option Family :=
  all.find? (·.word == word)

@[simp] theorem ofWord?_word (f : Family) : ofWord? f.word = some f := by
  cases f <;> decide

/-- The notices that a family prints. -/
def style (marker : String) : Family → NoticeStyle
  | msvc => .marked marker
  | gcc => .dotted

/-- The options that ask for a syntax check and for notices. -/
def options : Family → List String
  | msvc => ["/nologo", "/showIncludes", "/Zs"]
  | gcc => ["-H", "-fsyntax-only"]

/-- The option that adds an include directory. -/
def includeOption : Family → String → String
  | msvc, directory => "/I" ++ directory
  | gcc, directory => "-I" ++ directory

end Family

/-- The words in front of the extra arguments and the source. -/
def opening (compiler : String) (includeDirs : List String) : List String :=
  let f := family compiler
  compiler :: f.options ++ includeDirs.map f.includeOption

/-- The command that traces the includes of `source`. -/
def command (compiler source : String) (includeDirs extra : List String) : List String :=
  opening compiler includeDirs ++ extra ++ [source]

end Compiler

/-- A command to be run: its words, of which one that was left blank is none, how long
it may take, and where it runs. -/
structure Invocation where
  words : List (Option String)
  timeout : Timeout
  folder : Option String

namespace Invocation

/-- The run that traces the includes of `source`. -/
def tracing (compiler source : String) (includeDirs : List String)
    (extra : List (Option String)) (timeout : Timeout) : Invocation :=
  ⟨(Compiler.opening compiler includeDirs).map some ++ extra ++ [some source], timeout, none⟩

/-- Without blanks, the words of a run are those of the command. -/
theorem words_tracing (compiler source : String) (includeDirs extra : List String)
    (timeout : Timeout) :
    (tracing compiler source includeDirs (extra.map some) timeout).words
      = (Compiler.command compiler source includeDirs extra).map some := by
  simp [tracing, Compiler.command]

end Invocation

end IncludeTrace
