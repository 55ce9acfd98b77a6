/-
Hexadecimal digits, as escapes use them.
-/

namespace IncludeTrace.Text

/-- The last `width` hexadecimal digits of a number. -/
def hexDigits : Nat → Nat → List Char
  | 0, _ => []
  | width + 1, n => hexDigits width (n / 16) ++ [Nat.digitChar (n % 16)]

end IncludeTrace.Text
