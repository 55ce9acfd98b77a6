/-
Comparing and searching texts without regard to letter case.

* `fold` — the full case folding: two texts are the same up to case when their
  foldings are equal (`ß` folds to `ss`);
* `lower` — the lower-case text, in which a capital sigma at the end of a word
  becomes a final sigma.

Neither normalises: a letter followed by a combining mark stays two characters.
-/
import IncludeTrace.Text.CaseTable

namespace IncludeTrace.Text

/-- The character that the first matching run pairs with `c`, or `c` itself. -/
def partner (spans : List Span) (c : Char) : Char :=
  match spans.findSome? (·.partner? c.toNat) with
  | some n => Char.ofNat n
  | none => c

/-- What one character folds to. -/
def foldChar (c : Char) : List Char :=
  if c.toNat < 0x80 then
    [if 'A' ≤ c ∧ c ≤ 'Z' then Char.ofNat (c.toNat + 32) else c]
  else
    match foldSpellings.find? (·.1 = c.toNat) with
    | some (_, spelling) => spelling.map Char.ofNat
    | none => [partner foldSpans c]

/-- The text with every difference of case removed. -/
def fold (s : List Char) : List Char :=
  s.flatMap foldChar

/-- Whether the first character of `s` that is no passed-over mark has case. -/
def meetsCased (s : List Char) : Bool :=
  match s.dropWhile (fun c => inRanges ignorableRanges c.toNat) with
  | [] => false
  | c :: _ => inRanges casedRanges c.toNat

/-- What one character becomes in lower case, between the characters `before`
it, nearest first, and those `after` it. -/
def lowerChar (before : List Char) (c : Char) (after : List Char) : List Char :=
  if c.toNat < 0x80 then
    [if 'A' ≤ c ∧ c ≤ 'Z' then Char.ofNat (c.toNat + 32) else c]
  else if c = 'Σ' then
    [if meetsCased before && !meetsCased after then 'ς' else 'σ']
  else if c = 'İ' then
    ['i', Char.ofNat 0x307]
  else
    [partner lowerSpans c]

/-- The lower case of `s`, which follows the characters `before`, nearest first. -/
def lowerAfter (before : List Char) : List Char → List Char
  | [] => []
  | c :: rest => lowerChar before c rest ++ lowerAfter (c :: before) rest

/-- The text in lower case. -/
def lower (s : List Char) : List Char :=
  lowerAfter [] s

end IncludeTrace.Text
