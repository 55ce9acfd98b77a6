/-
Blank characters, and cutting them off the ends of a text.

* `isBlank` — white space in the sense of Unicode, together with the four
  separators U+001C to U+001F;
* `trimEndBy`, `trim` — a text without the unwanted characters at its end, and
  without the blanks at both ends;
* `trimEndBy_append_replicate` — characters that are cut off anyway may be
  appended freely.

Texts are lists of characters here, as in every rule of this library; `String`
appears where a text enters or leaves.
-/

namespace IncludeTrace.Text

/-- White space, and the separators of files, groups, records and units. -/
def isBlank (c : Char) : Bool :=
  let n := c.val
  (0x09 ≤ n && n ≤ 0x0D) || (0x1C ≤ n && n ≤ 0x20) || n == 0x85 || n == 0xA0 || n == 0x1680
    || (0x2000 ≤ n && n ≤ 0x200A) || n == 0x2028 || n == 0x2029 || n == 0x202F || n == 0x205F
    || n == 0x3000

/-- The text up to its last character that does not satisfy `p`. -/
def trimEndBy (p : Char → Bool) : List Char → List Char
  | [] => []
  | c :: rest =>
    match trimEndBy p rest with
    | [] => if p c then [] else [c]
    | d :: kept => c :: d :: kept

/-- The text without blanks at its two ends. -/
def trim (s : List Char) : List Char :=
  trimEndBy isBlank (s.dropWhile isBlank)

theorem trimEndBy_append_replicate {p : Char → Bool} {c : Char} (h : p c = true)
    (s : List Char) (n : Nat) :
    trimEndBy p (s ++ List.replicate n c) = trimEndBy p s := by
  induction s with
  | nil =>
    induction n with
    | zero => rfl
    | succ n ih => simp_all [List.replicate_succ, trimEndBy]
  | cons d rest ih => simp [trimEndBy, ih]

end IncludeTrace.Text
