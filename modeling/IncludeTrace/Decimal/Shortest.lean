/-
The fewest decimal digits that read back as a given binary fraction.

A double is `mantissa · 2 ^ exponent`, and every real number between the two
midpoints to its neighbours reads back as it.  For one digit, two digits, and so
on, the two multiples of the matching power of ten that enclose the value are
tried; the first that lie between the midpoints win, of two the nearer, and of two
equally near the even one.

* `Dyadic.ofBits?` — the finite double that a bit pattern denotes;
* `Dyadic.shortest` — its digits and their power of ten.

All comparisons are made on natural numbers, over a common denominator.
-/

namespace IncludeTrace.Decimal

/-- The value `mantissa · 2 ^ exponent`; `narrow` says that the next smaller
double is only half as far away as the next greater one. -/
structure Dyadic where
  mantissa : Nat
  exponent : Int
  narrow : Bool
  deriving DecidableEq, Repr

/-- The value `digits · 10 ^ exponent`. -/
structure Scientific where
  digits : Nat
  exponent : Int
  deriving DecidableEq, Repr

/-- The weight of the leading bit of a double, which its bit pattern leaves out. -/
def hiddenBit : Nat := 0x10000000000000

/-- The absolute value that the 63 lower bits of a double denote, if it is finite. -/
def Dyadic.ofBits? (bits : Nat) : Option Dyadic :=
  let fraction := bits % hiddenBit
  let biased : Nat := bits / hiddenBit % 0x800
  if biased = 2047 then none
  else if biased = 0 then some ⟨fraction, -1074, false⟩
  else some ⟨hiddenBit + fraction, (biased : Int) - 1075, fraction = 0 && biased != 1⟩

/-- How many decimal digits a natural number has; zero has none. -/
def digitCount (n : Nat) : Nat :=
  if n = 0 then 0 else (Nat.toDigits 10 n).length

/-- The power of ten that the leading digit of `num / den` stands for. -/
def leadingExponent (num den : Nat) : Int :=
  if den ≤ num then (digitCount (num / den) : Int) - 1
  else -(digitCount ((den + num - 1) / num - 1) : Int)

/-- The numerator and denominator of `n · base ^ exponent`. -/
def scaled (n base : Nat) (exponent : Int) : Nat × Nat :=
  if exponent < 0 then (n, base.pow (-exponent).toNat) else (n * base.pow exponent.toNat, 1)

/-- The multiple of `10 ^ exponent` that is nearest to a value among the two that
enclose it and read back as it. -/
def Dyadic.onGrid? (x : Dyadic) (exponent : Int) : Option Scientific :=
  -- quarters of the last place, so that both midpoints are whole numbers
  let (value, den) := scaled (4 * x.mantissa) 2 (x.exponent - 2)
  let (low, _) := scaled (4 * x.mantissa - (if x.narrow then 1 else 2)) 2 (x.exponent - 2)
  let (high, _) := scaled (4 * x.mantissa + 2) 2 (x.exponent - 2)
  let (unit, unitDen) := scaled 1 10 exponent
  let readsBack (d : Nat) : Bool :=
    let here := d * unit * den
    let even := x.mantissa % 2 = 0
    (low * unitDen < here || (even && low * unitDen == here))
      && (here < high * unitDen || (even && here == high * unitDen))
  let below := value * unitDen / (unit * den)
  let above := below + 1
  let twice := 2 * (value * unitDen)
  let midway := (below + above) * (unit * den)
  let takeBelow := twice < midway || (twice == midway && below % 2 = 0)
  match readsBack below, readsBack above with
  | true, true => some ⟨if takeBelow then below else above, exponent⟩
  | true, false => some ⟨below, exponent⟩
  | false, true => some ⟨above, exponent⟩
  | false, false => none

/-- The shortest decimal that reads back as a value; 17 digits always do. -/
def Dyadic.shortest (x : Dyadic) : Scientific :=
  if x.mantissa = 0 then ⟨0, 0⟩
  else
    let (num, den) := scaled x.mantissa 2 x.exponent
    let lead := leadingExponent num den
    ((List.range 17).findSome? fun (n : Nat) => x.onGrid? (lead - n)).getD ⟨0, 0⟩

end IncludeTrace.Decimal
