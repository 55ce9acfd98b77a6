/-
How long to wait: the spans of time that a user may type in, and their text.

* `readFloat?` — decimal notation with an optional exponent, in which single
  underscores may separate digits, any script's digits count, and blanks at the
  ends do not; `inf`, `infinity` and `nan` are read in any case;
* `floatText` — the shortest digits that read back, positional from 0.0001 up to
  below 10^16, otherwise with an exponent of at least two digits;
* `Timeout` — no limit, whole seconds, a fraction, or a limit that was left blank.
-/
import IncludeTrace.Decimal.Shortest
import IncludeTrace.Text.Blank

namespace IncludeTrace

namespace Decimal

/-- The zeros of the scripts that count in tens; their other digits follow in order. -/
def zeros : List Nat := [
  0x30, 0x660, 0x6f0, 0x7c0, 0x966, 0x9e6, 0xa66, 0xae6, 0xb66, 0xbe6, 0xc66, 0xce6, 0xd66, 0xde6,
  0xe50, 0xed0, 0xf20, 0x1040, 0x1090, 0x17e0, 0x1810, 0x1946, 0x19d0, 0x1a80, 0x1a90, 0x1b50,
  0x1bb0, 0x1c40, 0x1c50, 0xa620, 0xa8d0, 0xa900, 0xa9d0, 0xa9f0, 0xaa50, 0xabf0, 0xff10, 0x104a0,
  0x10d30, 0x11066, 0x110f0, 0x11136, 0x111d0, 0x112f0, 0x11450, 0x114d0, 0x11650, 0x116c0,
  0x11730, 0x118e0, 0x11950, 0x11c50, 0x11d50, 0x11da0, 0x16a60, 0x16ac0, 0x16b50, 0x1d7ce,
  0x1d7d8, 0x1d7e2, 0x1d7ec, 0x1d7f6, 0x1e140, 0x1e2f0, 0x1e950, 0x1fbf0]

/-- Whether a character is a decimal digit of some script. -/
def isDigit (c : Char) : Bool :=
  zeros.any fun z => z ≤ c.toNat && c.toNat < z + 10

/-- The ASCII character that stands for `c` in a number: foreign digits and foreign
blanks are replaced, and other foreign characters spoil the number. -/
def plain (c : Char) : Char :=
  if c.toNat < 0x7F then c
  else if Text.isBlank c then ' '
  else
    match zeros.find? fun z => z ≤ c.toNat && c.toNat < z + 10 with
    | some z => Char.ofNat (0x30 + (c.toNat - z))
    | none => '?'

/-- Whether a plain character may surround a number. -/
def isPadding (c : Char) : Bool :=
  c == ' ' || (0x09 ≤ c.toNat && c.toNat ≤ 0x0D)

/-- The text without its underscores, each of which must stand between two digits. -/
def withoutUnderscores? : Option Char → List Char → Option (List Char)
  | previous, [] => if previous = some '_' then none else some []
  | previous, c :: rest =>
    if c = '_' then
      if previous.any Char.isDigit then withoutUnderscores? (some c) rest else none
    else if previous = some '_' && !c.isDigit then none
    else (withoutUnderscores? (some c) rest).map (c :: ·)

/-- A sign, where minus is true, and what follows it. -/
def takeSign : List Char → Bool × List Char
  | '-' :: rest => (true, rest)
  | '+' :: rest => (false, rest)
  | s => (false, s)

/-- The number that a list of digits denotes. -/
def ofDigits (s : List Char) : Nat :=
  s.foldl (fun n c => 10 * n + (c.toNat - 0x30)) 0

/-- A number with an optional fraction, and what follows it. -/
def takeMantissa? (s : List Char) : Option (Scientific × List Char) :=
  let whole := s.takeWhile Char.isDigit
  let (fraction, rest) :=
    match s.dropWhile Char.isDigit with
    | '.' :: rest => (rest.takeWhile Char.isDigit, rest.dropWhile Char.isDigit)
    | rest => ([], rest)
  if whole = [] ∧ fraction = [] then none
  else some (⟨ofDigits (whole ++ fraction), -fraction.length⟩, rest)

/-- The exponent that ends a number. -/
def exponent? : List Char → Option Int
  | [] => some 0
  | c :: rest =>
    let (minus, digits) := takeSign rest
    if (c = 'e' ∨ c = 'E') ∧ digits ≠ [] ∧ digits.all Char.isDigit then
      some (if minus then -(ofDigits digits : Int) else ofDigits digits)
    else none

/-- The nearest double. -/
def Scientific.toFloat (x : Scientific) : Float :=
  let lead := x.exponent + digitCount x.digits
  -- far outside the doubles the power of ten need not be worked out
  if x.digits = 0 ∨ lead < -330 then 0.0
  else if 310 < lead then 1.0 / 0.0
  else if x.exponent < 0 then Float.ofScientific x.digits true (-x.exponent).toNat
  else Float.ofScientific x.digits false x.exponent.toNat

/-- A number without its sign. -/
def readUnsigned? (s : List Char) : Option Float :=
  let word := s.map Char.toLower
  if word = "inf".toList ∨ word = "infinity".toList then some (1.0 / 0.0)
  else if word = "nan".toList then some (0.0 / 0.0)
  else do
    let (mantissa, rest) ← takeMantissa? s
    let e ← exponent? rest
    return Scientific.toFloat ⟨mantissa.digits, mantissa.exponent + e⟩

/-- The number that a text denotes, rounded to the nearest double. -/
def readFloat? (text : String) : Option Float := do
  let s := Text.trimEndBy isPadding ((text.toList.map plain).dropWhile isPadding)
  let (minus, s) := takeSign (← withoutUnderscores? none s)
  let x ← readUnsigned? s
  return if minus then -x else x

/-- Digits with a point behind the first `place` of them, or zeros where there
are none. -/
def positional (digits : List Char) (place : Int) : List Char :=
  if place ≤ 0 then
    '0' :: '.' :: (List.replicate (-place).toNat '0' ++ digits)
  else if digits.length ≤ place then
    digits ++ List.replicate (place.toNat - digits.length) '0' ++ ['.', '0']
  else
    digits.take place.toNat ++ '.' :: digits.drop place.toNat

/-- Digits with a point behind the first of them, and the power of ten of that one. -/
def withExponent (digits : List Char) (lead : Int) : List Char :=
  let mantissa :=
    match digits with
    | d :: e :: rest => d :: '.' :: e :: rest
    | ds => ds
  let power := (toString lead.natAbs).toList
  mantissa ++ 'e' :: (if lead < 0 then '-' else '+')
    :: (if power.length < 2 then '0' :: power else power)

/-- The text of a decimal number, without zeros behind its last other digit. -/
def Scientific.text (x : Scientific) : List Char :=
  let written := (toString x.digits).toList
  let place := x.exponent + written.length
  let digits := if x.digits = 0 then written else Text.trimEndBy (· == '0') written
  if -4 < place ∧ place ≤ 16 then positional digits place
  else withExponent digits (place - 1)

/-- The weight of the bit that makes a double negative. -/
def signBit : Nat := 0x8000000000000000

/-- The text of a double. -/
def floatText (x : Float) : String :=
  let bits := x.toBits.toNat
  let sign := if signBit ≤ bits then "-" else ""
  match Dyadic.ofBits? (bits % signBit) with
  | some value => sign ++ String.ofList value.shortest.text
  | none => if bits % hiddenBit = 0 then sign ++ "inf" else "nan"

end Decimal

/-- How long a compiler may run. -/
inductive Timeout where
  | unlimited
  | whole (seconds : Nat)
  | fraction (seconds : Float)
  /-- Asked for, but without saying how long. -/
  | blank

namespace Timeout

/-- The limit that holds unless another one is given. -/
def usual : Timeout := whole 300

/-- The limit as it is shown. -/
def text : Timeout → String
  | unlimited => "None"
  | whole seconds => toString seconds
  | fraction seconds => Decimal.floatText seconds
  | blank => "[]"

/-- The limit that a text denotes: digits alone, of any script, are whole seconds. -/
def ofText? (text : String) : Option Timeout :=
  if text ≠ "" ∧ text.toList.all Decimal.isDigit then
    some (whole (Decimal.ofDigits (text.toList.map Decimal.plain)))
  else (Decimal.readFloat? text).map fraction

end Timeout

end IncludeTrace
