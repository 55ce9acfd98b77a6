/-
JSON values and their indented text.

* `Json` — the values that this library writes: integers are the only numbers,
  and the members of an object keep their order;
* `Json.text` — one item per line, two more spaces per level, every character
  outside printable ASCII as an escape.
-/
import IncludeTrace.Text.Hex

namespace IncludeTrace

/-- A JSON value. -/
inductive Json where
  | null
  | bool (b : Bool)
  | int (n : Int)
  | str (s : String)
  | arr (items : List Json)
  | obj (members : List (String × Json))
  deriving Repr, Inhabited

namespace Json

/-- One sixteen-bit unit as an escape. -/
def unitEscape (n : Nat) : List Char :=
  '\\' :: 'u' :: Text.hexDigits 4 n

/-- A character as it stands in a JSON string. -/
def escapeChar (c : Char) : List Char :=
  if c = '"' then ['\\', '"']
  else if c = '\\' then ['\\', '\\']
  else if c = '\n' then ['\\', 'n']
  else if c = '\r' then ['\\', 'r']
  else if c = '\t' then ['\\', 't']
  else if c = '\x08' then ['\\', 'b']
  else if c = '\x0c' then ['\\', 'f']
  else if 0x20 ≤ c.toNat ∧ c.toNat ≤ 0x7E then [c]
  else if c.toNat < 0x10000 then unitEscape c.toNat
  else
    unitEscape (0xD800 + (c.toNat - 0x10000) / 0x400)
      ++ unitEscape (0xDC00 + (c.toNat - 0x10000) % 0x400)

/-- A text between quotes. -/
def quoted (s : List Char) : List Char :=
  '"' :: s.flatMap escapeChar ++ ['"']

/-- A new line, indented. -/
def newLine (indent : Nat) : List Char :=
  '\n' :: List.replicate indent ' '

mutual

/-- The text of a value whose first line is already indented. -/
def textAt (indent : Nat) : Json → List Char
  | null => "null".toList
  | bool true => "true".toList
  | bool false => "false".toList
  | int n => (toString n).toList
  | str s => quoted s.toList
  | arr [] => ['[', ']']
  | arr (item :: items) =>
    '[' :: newLine (indent + 2) ++ textAt (indent + 2) item ++ moreItems (indent + 2) items
      ++ newLine indent ++ [']']
  | obj [] => ['\x7b', '\x7d']
  | obj ((key, value) :: members) =>
    '\x7b' :: newLine (indent + 2) ++ quoted key.toList ++ ':' :: ' ' :: textAt (indent + 2) value
      ++ moreMembers (indent + 2) members ++ newLine indent ++ ['\x7d']

/-- The text of the items after the first. -/
def moreItems (indent : Nat) : List Json → List Char
  | [] => []
  | item :: items => ',' :: newLine indent ++ textAt indent item ++ moreItems indent items

/-- The text of the members after the first. -/
def moreMembers (indent : Nat) : List (String × Json) → List Char
  | [] => []
  | (key, value) :: members =>
    ',' :: newLine indent ++ quoted key.toList ++ ':' :: ' ' :: textAt indent value
      ++ moreMembers indent members

end

/-- The text of a value. -/
def text (j : Json) : String :=
  String.ofList (textAt 0 j)

/-- A text, or null. -/
def ofText? : Option String → Json
  | some s => str s
  | none => null

end Json

end IncludeTrace
