/-
Include trees: who includes whom, as far as a trace tells.

* `Include`, `IncludeTree` — one include event, and the forest of them;
* `TraceReader` — in which style notices are written and how paths are shown;
* `TraceReader.tree` — the include tree of a text, or the first notice that is
  nested deeper than the notice before it allows;
* `TraceReader.log` — what is worth noting while that tree is built.
-/
import IncludeTrace.Forest
import IncludeTrace.Journal
import IncludeTrace.Path.Display
import IncludeTrace.Trace.Notice

namespace IncludeTrace

/-- One include event: the file as the compiler named it, and the name it is shown by. -/
structure Include where
  path : String
  name : String
  deriving DecidableEq, Repr, Inhabited

/-- The includes of a translation unit, how many there are said to be, and the
unit's source file. -/
structure IncludeTree where
  includes : Forest Include
  count : Int
  source : Option String
  deriving DecidableEq, Repr, Inhabited

/-- A notice that no nesting of files can account for. -/
structure MalformedTrace where
  fault : NestingFault
  lineNumber : Nat
  line : String
  deriving DecidableEq, Repr

/-- The complaint about a malformed trace. -/
def MalformedTrace.message (e : MalformedTrace) : String :=
  s!"line {e.lineNumber}: {e.fault.message}"

/-- How a trace is to be read. -/
structure TraceReader where
  style : NoticeStyle
  mode : DisplayMode
  bases : List String
  source : Option String

namespace TraceReader

/-- The include that a notice stands for; without a display name it is shown by its path. -/
def includeOf (r : TraceReader) (n : Notice) : Include :=
  ⟨n.path, (displayName? r.mode r.bases n.path).getD n.path⟩

/-- The notices, put one after another into an open forest, and counted from `count` on. -/
def nestCounted (r : TraceReader) (f : OpenForest Include) (count : Nat) :
    List Notice → Except MalformedTrace (OpenForest Include × Nat)
  | [] => .ok (f, count)
  | n :: rest =>
    match f.add n.depth (r.includeOf n) with
    | .error fault => .error ⟨fault, n.lineNumber, n.line⟩
    | .ok f => nestCounted r f (count + 1) rest

/-- The include tree that a text describes. -/
def tree (r : TraceReader) (text : String) : Except MalformedTrace IncludeTree :=
  (r.nestCounted .empty 0 (notices r.style text)).map fun (f, count) =>
    ⟨f.closed, count, r.source⟩

/-- What is noted about one notice. -/
def remark (r : TraceReader) (n : Notice) : Journal :=
  if r.mode.isRelative && (displayName? r.mode r.bases n.path).isNone then
    [.log .debug s!"No base directory contains {n.path}"]
  else []

/-- What is noted while a text is read: the remarks on the notices up to the
malformed one, and the number of includes if there is none. -/
def log (r : TraceReader) (text : String) : Journal :=
  let found := notices r.style text
  match r.tree text with
  | .ok t => found.flatMap r.remark ++ [.log .debug s!"Parsed {t.count} include(s)"]
  | .error e => (found.takeWhile (·.lineNumber < e.lineNumber)).flatMap r.remark

end TraceReader

end IncludeTrace
