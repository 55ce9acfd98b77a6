/-
UTF-8, and the ends of lines.

* `Utf8.encode`, `Utf8.decode` — characters to bytes and back; where bytes cannot
  be read, each longest stretch that begins like a character gives one replacement
  character;
* `universalNewlines` — carriage returns, alone or in front of a line feed, become
  line feeds.

The decoder is a machine that takes one byte at a time: between characters it looks
at the class of the byte, inside of one it knows how many bytes are owed and in which
range the next one must lie.
-/

namespace IncludeTrace.Text

namespace Utf8

/-- The character that stands for unreadable bytes. -/
def replacement : Char := '\uFFFD'

/-- A character of which some bytes are still owed: the bits so far, how many bytes
follow the next one, and the range of the next one. -/
structure Owed where
  bits : Nat
  more : Nat
  least : Nat
  greatest : Nat
  deriving DecidableEq, Repr

/-- What a byte between characters gives: a finished character, or the start of one. -/
def first (b : Nat) : List Char × Option Owed :=
  if b < 0x80 then ([Char.ofNat b], none)
  else if 0xC2 ≤ b ∧ b ≤ 0xDF then ([], some ⟨b % 0x20, 0, 0x80, 0xBF⟩)
  else if b = 0xE0 then ([], some ⟨b % 0x10, 1, 0xA0, 0xBF⟩)
  else if b = 0xED then ([], some ⟨b % 0x10, 1, 0x80, 0x9F⟩)
  else if 0xE1 ≤ b ∧ b ≤ 0xEF then ([], some ⟨b % 0x10, 1, 0x80, 0xBF⟩)
  else if b = 0xF0 then ([], some ⟨b % 0x08, 2, 0x90, 0xBF⟩)
  else if 0xF1 ≤ b ∧ b ≤ 0xF3 then ([], some ⟨b % 0x08, 2, 0x80, 0xBF⟩)
  else if b = 0xF4 then ([], some ⟨b % 0x08, 2, 0x80, 0x8F⟩)
  else ([replacement], none)

/-- What a byte gives behind the bytes of an unfinished character, if any. -/
def step (owed : Option Owed) (b : Nat) : List Char × Option Owed :=
  match owed with
  | none => first b
  | some o =>
    if o.least ≤ b ∧ b ≤ o.greatest then
      let bits := o.bits * 0x40 + b % 0x40
      match o.more with
      | 0 => ([Char.ofNat bits], none)
      | more + 1 => ([], some ⟨bits, more, 0x80, 0xBF⟩)
    else
      let (out, owed) := first b
      (replacement :: out, owed)

/-- The characters that bytes give behind those of an unfinished character. -/
def decodeFrom (owed : Option Owed) : List UInt8 → List Char
  | [] => if owed.isSome then [replacement] else []
  | b :: rest =>
    let (out, owed) := step owed b.toNat
    out ++ decodeFrom owed rest

/-- The characters of a sequence of bytes. -/
def decode (bytes : List UInt8) : List Char :=
  decodeFrom none bytes

/-- The bytes of a sequence of characters. -/
def encode (s : List Char) : List UInt8 :=
  s.flatMap String.utf8EncodeChar

end Utf8

/-- The text with every end of line written as a line feed. -/
def universalNewlines : List Char → List Char
  | '\r' :: '\n' :: rest => '\n' :: universalNewlines rest
  | '\r' :: rest => '\n' :: universalNewlines rest
  | c :: rest => c :: universalNewlines rest
  | [] => []

end IncludeTrace.Text
