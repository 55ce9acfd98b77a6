/-
Texts in quotes, as messages show the names that a user has given.

* `quoted` — in single quotes, or in double quotes when the text holds single ones
  only; characters that do not show are written as escapes;
* `shellWords` — a command as it could be typed into a shell.
-/
import IncludeTrace.Text.Hex
import IncludeTrace.Text.Printable

namespace IncludeTrace.Text

/-- A character as it stands between quotes of the given kind. -/
def showChar (quote c : Char) : List Char :=
  if c = quote ∨ c = '\\' then ['\\', c]
  else if c = '\n' then ['\\', 'n']
  else if c = '\r' then ['\\', 'r']
  else if c = '\t' then ['\\', 't']
  else if isPrintable c then [c]
  else if c.toNat < 0x100 then '\\' :: 'x' :: hexDigits 2 c.toNat
  else if c.toNat < 0x10000 then '\\' :: 'u' :: hexDigits 4 c.toNat
  else '\\' :: 'U' :: hexDigits 8 c.toNat

/-- A text in quotes. -/
def quoted (s : String) : String :=
  let quote := if s.toList.contains '\'' && !s.toList.contains '"' then '"' else '\''
  String.ofList (quote :: s.toList.flatMap (showChar quote) ++ [quote])

/-- Whether a shell reads a character as nothing but itself. -/
def isPlainInShell (c : Char) : Bool :=
  c.isAlphanum || "_@%+=:,./-".toList.contains c

/-- A word as a shell takes it. -/
def shellWord (s : String) : String :=
  if s = "" then "''"
  else if s.toList.all isPlainInShell then s
  else
    String.ofList
      ('\'' :: s.toList.flatMap (fun c => if c = '\'' then "'\"'\"'".toList else [c]) ++ ['\''])

/-- Words as a shell takes them. -/
def shellWords (words : List String) : String :=
  " ".intercalate (words.map shellWord)

end IncludeTrace.Text
