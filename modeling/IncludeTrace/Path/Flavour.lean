/-
The two ways of spelling a path.

A trace may have been captured on another machine, so the flavour is read off
the spelling and never off the machine at hand:

* `Flavour.of` — a backslash anywhere, or a drive letter at the start, makes a
  path a Windows one;
* `Flavour.key` — what two segments are compared by; Windows ignores case.
-/
import IncludeTrace.Text.Case

namespace IncludeTrace

/-- The rules that a path follows. -/
inductive Flavour where
  | posix
  | windows
  deriving DecidableEq, Repr, Inhabited

namespace Flavour

/-- Whether a text begins with an ASCII letter and a colon. -/
def startsWithDrive : List Char → Bool
  | c :: ':' :: _ => c.isAlpha
  | _ => false

/-- The flavour that a spelling gives away. -/
def of (path : String) : Flavour :=
  if path.toList.contains '\\' || startsWithDrive path.toList then windows else posix

/-- The separator that a flavour writes. -/
def separator : Flavour → Char
  | posix => '/'
  | windows => '\\'

/-- The text that stands for a segment in comparisons. -/
def key : Flavour → String → List Char
  | posix, segment => segment.toList
  | windows, segment => Text.fold segment.toList

/-- Segments written one after another with the flavour's separator. -/
def joined (flavour : Flavour) (segments : List String) : String :=
  (String.singleton flavour.separator).intercalate segments

/-- The stretches between the separators of a text, the empty ones included. -/
def pieces (flavour : Flavour) (s : List Char) : List String :=
  (s.splitOn flavour.separator).map String.ofList

/-- Nothing of a text is lost between its separators. -/
theorem toList_joined_pieces (flavour : Flavour) (s : List Char) :
    (flavour.joined (flavour.pieces s)).toList = s := by
  simp [joined, pieces, String.toList_intercalate, Function.comp_def, List.intercalate_splitOn]

end Flavour

end IncludeTrace
