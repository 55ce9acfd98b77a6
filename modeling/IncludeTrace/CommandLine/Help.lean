/-
What the program tells about itself: usages, helps and its version.

A usage is the first part of a help; a fault in the arguments is reported behind it.
-/
import IncludeTrace.CommandLine.Settings

namespace IncludeTrace.Help

/-- The name of the program, with the command if one was chosen. -/
def programName : Option Command → String
  | none => "inctree"
  | some command => "inctree " ++ command.word

/-- The lines that show how a command, or the program, is called. -/
def usage : Option Command → List String
  | none => [
    "usage: inctree [-h] [--version] \x7btree,graph,tui\x7d ..."]
  | some .tree => [
    "usage: inctree tree [-h] [-c SOURCE] [--source FILE] [-I DIR]",
    "                    [--compiler COMPILER] [-X ARG] [--timeout TIMEOUT]",
    "                    [--dialect \x7bmsvc,gcc\x7d] [--marker MARKER]",
    "                    [-m \x7bunchanged,shortest,shortest-avoid-up-steps,absolute\x7d]",
    "                    [-v] [--raw] [--json]",
    "                    [trace]"]
  | some .graph => [
    "usage: inctree graph [-h] [-c SOURCE] [--source FILE] [-I DIR]",
    "                     [--compiler COMPILER] [-X ARG] [--timeout TIMEOUT]",
    "                     [--dialect \x7bmsvc,gcc\x7d] [--marker MARKER]",
    "                     [-m \x7bunchanged,shortest,shortest-avoid-up-steps,absolute\x7d]",
    "                     [-v] [-f \x7bdgml,dot,mermaid,json\x7d] [-o FILE] [--no-title]",
    "                     [trace]"]
  | some .browse => [
    "usage: inctree tui [-h] [-c SOURCE] [--source FILE] [-I DIR]",
    "                   [--compiler COMPILER] [-X ARG] [--timeout TIMEOUT]",
    "                   [--dialect \x7bmsvc,gcc\x7d] [--marker MARKER]",
    "                   [-m \x7bunchanged,shortest,shortest-avoid-up-steps,absolute\x7d]",
    "                   [-v]",
    "                   [trace]"]

/-- What a command, or the program, is for. -/
def purpose : Option Command → String
  | none => "Explore C/C++ include hierarchies from compiler include traces."
  | some .tree => "Rebuild and display the nested include tree from a compiler trace."
  | some .graph => "Export the include tree as a directed graph, one node per file."
  | some .browse => "Browse the include tree interactively; refresh re-runs the trace."

/-- The lines about the words and switches of the program itself. -/
def programLines : List String := [
  "positional arguments:",
  "  \x7btree,graph,tui\x7d  Available commands",
  "    tree            Show the include tree of a translation unit",
  "    graph           Export the include graph (DGML/DOT/Mermaid/JSON)",
  "    tui             Launch the interactive terminal UI",
  "",
  "options:",
  "  -h, --help        show this help message and exit",
  "  --version         show program's version number and exit"]

/-- The lines about the switches that every command knows. -/
def sharedLines : List String := [
  "positional arguments:",
  "  trace                 Build log containing the include trace (- for stdin)",
  "",
  "options:",
  "  -h, --help            show this help message and exit",
  "  -c SOURCE, --compile SOURCE",
  "                        Compile SOURCE with include tracing instead of reading",
  "                        a trace",
  "  --source FILE         Translation unit the trace belongs to (its directory",
  "                        shortens names)",
  "  -I DIR, --include DIR",
  "                        Include directory, used to shorten names and passed to",
  "                        the compiler (can be repeated)",
  "  --compiler COMPILER   Compiler used with --compile (default: cl)",
  "  -X ARG, --compiler-arg ARG",
  "                        Extra argument for the compiler (can be repeated)",
  "  --timeout TIMEOUT     Seconds to wait for the compiler (default: 300)",
  "  --dialect \x7bmsvc,gcc\x7d  Trace format: msvc (/showIncludes) or gcc (-H)",
  "                        (default: msvc)",
  "  --marker MARKER       Include notice text for localized MSVC output",
  "  -m \x7bunchanged,shortest,shortest-avoid-up-steps,absolute\x7d, --mode \x7bunchanged,shortest,shortest-avoid-up-steps,absolute\x7d",
  "                        How include paths are displayed (default: shortest-",
  "                        avoid-up-steps)",
  "  -v, --verbose         Enable debug logging"]

/-- The lines about the switches of one command. -/
def ownLines : Command → List String
  | .tree => [
    "  --raw                 Also show the path exactly as the compiler reported it",
    "  --json                Output as JSON"]
  | .graph => [
    "  -f \x7bdgml,dot,mermaid,json\x7d, --format \x7bdgml,dot,mermaid,json\x7d",
    "                        Output format (default: dgml)",
    "  -o FILE, --output FILE",
    "                        Output file (default: stdout)",
    "  --no-title            Don't include a title in DOT/Mermaid output"]
  | .browse => []

/-- The lines about everything that can be typed behind a command, or the program. -/
def argumentLines : Option Command → List String
  | none => programLines
  | some command => sharedLines ++ ownLines command

/-- The help of a command, or of the program. -/
def help (scope : Option Command) : List String :=
  usage scope ++ ["", purpose scope, ""] ++ argumentLines scope

/-- The version of the program. -/
def version : String := "inctree 0.1.0"

end IncludeTrace.Help
