/-
Texts in which characters stand for bytes.

A command line is made of bytes, and a byte that belongs to no character reaches a program as
a surrogate of its own.  A `Char` is never a surrogate, so in a text other characters stand in
for such bytes, and it is told from outside which ones do.  They are like all other
characters until the text is to become bytes again:

* `StandIns` — the bytes that characters stand in for;
* `encode` — the bytes of a text, unless some character in it stands in for a byte;
* `EncodeFault` — where the first of those characters are, and the bytes that they stand for;
* `IsAscii` — texts of characters that every encoding has.
-/
import IncludeTrace.Text.Hex
import IncludeTrace.Text.Utf8

namespace IncludeTrace.Text

/-- The byte that a character stands in for, if it does. -/
abbrev StandIns := Char → Option UInt8

/-- Every character stands for itself. -/
def noStandIns : StandIns := fun _ => none

/-- A text cannot be encoded from a position on; the bytes are those of the characters that
stand there in a row. -/
structure EncodeFault where
  position : Nat
  bytes : List UInt8
  deriving DecidableEq, Repr

/-- The fault in words, in which a byte goes by the number of its surrogate. -/
def EncodeFault.message (e : EncodeFault) : String :=
  let which :=
    match e.bytes with
    | [b] =>
      "character '\\udc" ++ String.ofList (hexDigits 2 b.toNat) ++ s!"' in position {e.position}"
    | bytes => s!"characters in position {e.position}-{e.position + bytes.length - 1}"
  "'utf-8' codec can't encode " ++ which ++ ": surrogates not allowed"

/-- Whether a character stands for itself. -/
def isOwn (standIns : StandIns) (c : Char) : Bool :=
  (standIns c).isNone

/-- The bytes of a text. -/
def encode (standIns : StandIns) (s : List Char) : Except EncodeFault (List UInt8) :=
  match s.dropWhile (isOwn standIns) with
  | [] => .ok (Utf8.encode s)
  | rest =>
    .error ⟨(s.takeWhile (isOwn standIns)).length,
      (rest.takeWhile fun c => !isOwn standIns c).filterMap standIns⟩

/-- A text of characters that every encoding has. -/
def IsAscii (s : List Char) : Prop :=
  ∀ c ∈ s, c.toNat < 128

-- The instance is named because all characters could be gone through as well.
instance (s : List Char) : Decidable (IsAscii s) :=
  List.decidableBAll (fun c : Char => c.toNat < 128) s

variable {s t : List Char} {c : Char}

@[simp] theorem isAscii_nil : IsAscii [] := nofun

@[simp] theorem isAscii_cons : IsAscii (c :: s) ↔ c.toNat < 128 ∧ IsAscii s :=
  List.forall_mem_cons

@[simp] theorem isAscii_append : IsAscii (s ++ t) ↔ IsAscii s ∧ IsAscii t :=
  List.forall_mem_append

end IncludeTrace.Text
