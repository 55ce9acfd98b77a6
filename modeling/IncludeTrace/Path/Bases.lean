/-
Base directories: where display names may start.

* `sourceDirectory` — the directory of a source file, as it was spelled;
* `searchEntries` — the directories of a search path, parted by colons;
* `absoluteForm?` — a relative directory seen from the working directory; there is
  none for absolute and for Windows spellings;
* `baseDirectories` — the source's own directory, the include directories, then the
  search path, each relative one followed by its absolute form, and nothing twice.
-/
import IncludeTrace.Path.Location
import IncludeTrace.Text.Blank

namespace IncludeTrace

/-- Everything up to the last separator, without the separators at its end unless
nothing else is left. -/
def upToLast (isSeparator : Char → Bool) (s : List Char) : List Char :=
  let head := (s.reverse.dropWhile fun c => !isSeparator c).reverse
  match Text.trimEndBy isSeparator head with
  | [] => head
  | c :: kept => c :: kept

/-- The text of the directory part of a path. -/
def directoryText : Flavour → List Char → List Char
  | .posix, s => upToLast (· == '/') s
  | .windows, s =>
    let drive := Location.driveLength (Location.backslashed s)
    s.take drive ++ upToLast (fun c => c == '/' || c == '\\') (s.drop drive)

/-- The directory of a source file; a bare file name lies in the current directory. -/
def sourceDirectory (source : String) : String :=
  match directoryText (Flavour.of source) source.toList with
  | [] => "."
  | s => String.ofList s

/-- The directories of a search path. -/
def searchEntries (value : String) : List String :=
  ((value.toList.splitOn ':').map fun s => String.ofList (Text.trim s)).filter (· != "")

/-- A relative path behind the directory that it starts in. -/
def behind (folder directory : String) : String :=
  if folder = "" ∨ folder.toList.getLast? = some '/' then folder ++ directory
  else folder ++ "/" ++ directory

/-- A relative directory as seen from the root. -/
def absoluteForm? (folder directory : String) : Option String :=
  if (Location.normalize directory).anchor ≠ "" ∨ Flavour.of directory = .windows then none
  else some (Location.posix (behind folder directory)).text

/-- A directory, and its absolute form if it has one. -/
def bothForms (folder directory : String) : List String :=
  directory :: (absoluteForm? folder directory).toList

/-- The directories in which display names may start, the most important first. -/
def baseDirectories (folder : String) (searchPath source : Option String)
    (includeDirs : List String) : List String :=
  let own := ((source.filter (· != "")).map sourceDirectory).toList
  let searched := (searchPath.map searchEntries).getD []
  ((own ++ includeDirs ++ searched).flatMap (bothForms folder)).eraseDups

end IncludeTrace
