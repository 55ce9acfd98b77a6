/-
Reading JSON.

The reader goes through the text once and knows nothing of the writer: blanks can stand
wherever the grammar lets them, and every character can be escaped.  It keeps the containers
that are still open, what has to come next in the innermost one, and what it has of an
unfinished text or word.

A written value is read by an induction on the value.  What is read behind it does not depend
on how the value was reached, so the induction is on readers that go on with a rest:

* `units?`, `paired?`, `text?` — the text that stands between two quotes: numbers of
  characters first, in which an escape gives sixteen bits, and then characters;
* `Nesting.step` — one more mark or scalar, as the grammar wants it;
* `Reader.step`, `run`, `read?` — one more character, and a whole text;
* `escapeChar_cases`, `text?_escaped` — what is escaped is read as it was;
* `run_quoted`, `run_word`, `run_textAt` — the pieces of a written value, and the value;
* `read?_text` — every value is read back from its text, also with blanks behind it;
* `text_inj` — so no two values have one text.
-/
import IncludeTrace.Json.Value
import IncludeTrace.Proofs.XmlReading
import Mathlib.Data.List.Basic

namespace IncludeTrace.Json

open Xml (isSpace number? numbered?)

/-! ### Between quotes -/

/-- The character that is written as a backslash and another one. -/
def escaped? (c : Char) : Option Char :=
  [('"', '"'), ('\\', '\\'), ('/', '/'), ('b', '\x08'), ('f', '\x0c'), ('n', '\n'),
    ('r', '\r'), ('t', '\t')].lookup c

mutual

/-- The numbers that stand between two quotes: characters by their numbers, and sixteen bits
where four hexadecimal digits are given.  A control character has to be escaped. -/
def units? : List Char → Option (List Nat)
  | [] => some []
  | c :: s =>
    if c = '\\' then escape? s
    else if c < ' ' then none
    else (units? s).map (c.toNat :: ·)

/-- The same behind a backslash. -/
def escape? : List Char → Option (List Nat)
  | 'u' :: a :: b :: c :: d :: s =>
    (number? 16 [a, b, c, d]).bind fun n => (units? s).map (n :: ·)
  | c :: s => (escaped? c).bind fun d => (units? s).map (d.toNat :: ·)
  | [] => none

end

/-- Two numbers that stand for one character beyond sixteen bits. -/
def IsPair (high low : Nat) : Prop :=
  (0xD800 ≤ high ∧ high < 0xDC00) ∧ 0xDC00 ≤ low ∧ low < 0xE000

instance (high low : Nat) : Decidable (IsPair high low) :=
  inferInstanceAs (Decidable (_ ∧ _ ∧ _))

/-- The characters of some numbers; one half of a pair alone stands for none. -/
def paired? : List Nat → Option (List Char)
  | [] => some []
  | [n] => (numbered? n).map fun c => [c]
  | n :: m :: s =>
    if IsPair n m then
      (numbered? (0x10000 + (n - 0xD800) * 0x400 + (m - 0xDC00))).bind fun c =>
        (paired? s).map (c :: ·)
    else (numbered? n).bind fun c => (paired? (m :: s)).map (c :: ·)

/-- The text that stands between two quotes. -/
def text? (raw : List Char) : Option (List Char) :=
  (units? raw).bind paired?

/-! ### Values inside values -/

/-- What a reader comes upon: a mark of the grammar, or a value without others in it. -/
inductive Token where
  | mark (c : Char)
  | scalar (j : Json)

/-- A container that waits for its next value. -/
inductive Pending where
  | items (before : List Json)
  | members (before : List (String × Json)) (key : String)

/-- What has to come next. -/
inductive Next where
  | value
  /-- A value, or the end of an array in which nothing stands. -/
  | firstItem
  | key (before : List (String × Json))
  /-- A key, or the end of an object in which nothing stands. -/
  | firstKey
  | colon (before : List (String × Json)) (key : String)
  /-- What can follow a value: a comma, or the end of its container. -/
  | after (j : Json)

/-- The containers that are open, the innermost first, and what has to come next. -/
structure Nesting where
  around : List Pending
  next : Next

namespace Nesting

/-- A value begins. -/
def begin? (around : List Pending) : Token → Option Nesting
  | .scalar j => some ⟨around, .after j⟩
  | .mark '[' => some ⟨around, .firstItem⟩
  | .mark '\x7b' => some ⟨around, .firstKey⟩
  | .mark _ => none

/-- A mark follows a value. -/
def follow? (j : Json) (c : Char) : List Pending → Option Nesting
  | [] => none
  | .items before :: outer =>
    if c = ',' then some ⟨.items (before ++ [j]) :: outer, .value⟩
    else if c = ']' then some ⟨outer, .after (.arr (before ++ [j]))⟩
    else none
  | .members before key :: outer =>
    if c = ',' then some ⟨outer, .key (before ++ [(key, j)])⟩
    else if c = '\x7d' then some ⟨outer, .after (.obj (before ++ [(key, j)]))⟩
    else none

/-- The nesting behind one more mark or scalar; there is none where the text is no JSON. -/
def step (n : Nesting) (t : Token) : Option Nesting :=
  match n.next, t with
  | .value, t => begin? n.around t
  | .firstItem, .mark ']' => some ⟨n.around, .after (.arr [])⟩
  | .firstItem, t => begin? (.items [] :: n.around) t
  | .firstKey, .mark '\x7d' => some ⟨n.around, .after (.obj [])⟩
  | .firstKey, .scalar (.str key) => some ⟨n.around, .colon [] key⟩
  | .key before, .scalar (.str key) => some ⟨n.around, .colon before key⟩
  | .colon before key, .mark ':' => some ⟨.members before key :: n.around, .value⟩
  | .after j, .mark c => follow? j c n.around
  | _, _ => none

/-- The value of a whole text. -/
def whole? : Nesting → Option Json
  | ⟨[], .after j⟩ => some j
  | _ => none

end Nesting

/-! ### Characters -/

/-- Where in a text a reader stands, and what it has of an unfinished text or word. -/
inductive Position where
  | between
  | word (read : List Char)
  | quoted (raw : List Char)
  /-- Behind a backslash. -/
  | escaped (raw : List Char)

/-- A reader on its way. -/
structure Reader where
  found : Nesting
  position : Position

/-- Whether a character can stand in a word or a number. -/
def isWordChar (c : Char) : Bool :=
  c.isAlphanum || c == '-' || c == '+' || c == '.'

/-- The integer that digits write, with a minus sign in front or without. -/
def integer? (w : List Char) : Option Int :=
  if w.head? = some '-' then (number? 10 w.tail).map fun n => -(n : Int)
  else (number? 10 w).map Int.ofNat

/-- What a word stands for; integers are the only numbers. -/
def word? (w : List Char) : Option Json :=
  if w = "null".toList then some null
  else if w = "true".toList then some (bool true)
  else if w = "false".toList then some (bool false)
  else (integer? w).map int

namespace Reader

/-- Between marks and scalars again, behind one more of them. -/
def taken (n : Nesting) (t : Token) : Option Reader :=
  (n.step t).map (⟨·, .between⟩)

/-- One more character between marks and scalars. -/
def start (n : Nesting) (c : Char) : Option Reader :=
  if isSpace c then some ⟨n, .between⟩
  else if c = '"' then some ⟨n, .quoted []⟩
  else if isWordChar c then some ⟨n, .word [c]⟩
  else taken n (.mark c)

/-- What was found, with a word that ends here. -/
def settled (r : Reader) : Option Nesting :=
  match r.position with
  | .between => some r.found
  | .word w => (word? w).bind fun j => r.found.step (.scalar j)
  | .quoted _ | .escaped _ => none

/-- The reader behind one more character. -/
def step (r : Reader) (c : Char) : Option Reader :=
  match r.position with
  | .between => start r.found c
  | .word w =>
    if isWordChar c then some ⟨r.found, .word (w ++ [c])⟩ else r.settled.bind (start · c)
  | .quoted raw =>
    if c = '"' then
      (text? raw).bind fun s => taken r.found (.scalar (.str (String.ofList s)))
    else if c = '\\' then some ⟨r.found, .escaped raw⟩
    else some ⟨r.found, .quoted (raw ++ [c])⟩
  | .escaped raw => some ⟨r.found, .quoted (raw ++ ['\\', c])⟩

end Reader

/-- The value that a reader has found at the end of a text. -/
def run (r : Reader) (s : List Char) : Option Json :=
  (s.foldlM Reader.step r).bind fun q => q.settled.bind Nesting.whole?

/-- A reader at the beginning of a value. -/
def ready (n : Nesting) : Reader :=
  ⟨n, .between⟩

/-- The value that a text states. -/
def read? (text : String) : Option Json :=
  run (ready ⟨[], .value⟩) text.toList

/-- Blanks may stand between all marks, digits may be capitals, and a slash may be escaped. -/
example : (read? " [ 1,-2 ,\t\x7b\"\\u00E9\\/\" :[ ]\x7d\n] ").map text
    = some (text (.arr [.int 1, .int (-2), .obj [("é/", .arr [])]])) := by
  decide +kernel

/-- Half a pair, and a comma without a value behind it. -/
example : (read? "\"\\ud83d\"").isNone ∧ (read? "[1,]").isNone := by
  decide +kernel

/-! ### Escaped texts -/

/-- Sixteen-bit units are read from their four digits. -/
theorem number?_hexDigits {n : Nat} (h : n < 0x10000) :
    number? 16 (Text.hexDigits 4 n) = some n := by
  have hdigit : ∀ d : Fin 16, (Xml.digit? (Nat.digitChar d)).filter (· < 16) = some d.val := by
    decide
  have hlast (m : Nat) : (Xml.digit? (Nat.digitChar (m % 16))).filter (· < 16) = some (m % 16) :=
    hdigit ⟨m % 16, Nat.mod_lt _ (by decide)⟩
  have hread : number? 16 (Text.hexDigits 4 n) = some (((n / 16 / 16 / 16 % 16 * 16
      + n / 16 / 16 % 16) * 16 + n / 16 % 16) * 16 + n % 16) := by
    simp [number?, Text.hexDigits, hlast]
  rw [hread, Option.some.injEq]
  omega

/-- The numbers as which a character is escaped. -/
def unitsOf (c : Char) : List Nat :=
  if c.toNat < 0x10000 then [c.toNat]
  else [0xD800 + (c.toNat - 0x10000) / 0x400, 0xDC00 + (c.toNat - 0x10000) % 0x400]

theorem units?_unitEscape {n : Nat} (h : n < 0x10000) (s : List Char) :
    units? (unitEscape n ++ s) = (units? s).map (n :: ·) := by
  have hescape : units? (unitEscape n ++ s)
      = (number? 16 (Text.hexDigits 4 n)).bind fun n => (units? s).map (n :: ·) := rfl
  rw [hescape, number?_hexDigits h, Option.bind_some]

/-- The ways in which a character is written: a backslash and another one, itself, one unit, or
two. -/
theorem escapeChar_cases (c : Char) :
    (∃ d, d ≠ 'u' ∧ escaped? d = some c ∧ c.toNat < 0x10000 ∧ escapeChar c = ['\\', d]) ∨
    ((c ≠ '"' ∧ c ≠ '\\') ∧ ¬ c < ' ' ∧ c.toNat < 0x10000 ∧ escapeChar c = [c]) ∨
    (c.toNat < 0x10000 ∧ escapeChar c = unitEscape c.toNat) ∨
    (¬ c.toNat < 0x10000 ∧ escapeChar c = unitEscape (0xD800 + (c.toNat - 0x10000) / 0x400)
      ++ unitEscape (0xDC00 + (c.toNat - 0x10000) % 0x400)) := by
  by_cases hletter : c ∈ ['"', '\\', '\n', '\r', '\t', '\x08', '\x0c']
  · left
    simp only [List.mem_cons, List.not_mem_nil, or_false] at hletter
    obtain rfl | rfl | rfl | rfl | rfl | rfl | rfl := hletter
    · exact ⟨'"', by decide, rfl, by decide, rfl⟩
    · exact ⟨'\\', by decide, rfl, by decide, rfl⟩
    · exact ⟨'n', by decide, rfl, by decide, rfl⟩
    · exact ⟨'r', by decide, rfl, by decide, rfl⟩
    · exact ⟨'t', by decide, rfl, by decide, rfl⟩
    · exact ⟨'b', by decide, rfl, by decide, rfl⟩
    · exact ⟨'f', by decide, rfl, by decide, rfl⟩
  · simp only [List.mem_cons, List.not_mem_nil, or_false, not_or] at hletter
    obtain ⟨hquote, hslash, hfeed, hreturn, htab, hback, hform⟩ := hletter
    rw [escapeChar, if_neg hquote, if_neg hslash, if_neg hfeed, if_neg hreturn, if_neg htab,
      if_neg hback, if_neg hform]
    by_cases hplain : 0x20 ≤ c.toNat ∧ c.toNat ≤ 0x7E
    · refine .inr (.inl ⟨⟨hquote, hslash⟩, ?_, by omega, if_pos hplain⟩)
      rw [Char.not_lt]
      exact hplain.1
    · rw [if_neg hplain]
      by_cases hsmall : c.toNat < 0x10000
      · exact .inr (.inr (.inl ⟨hsmall, if_pos hsmall⟩))
      · exact .inr (.inr (.inr ⟨hsmall, if_neg hsmall⟩))

/-- An escaped character is read as its numbers. -/
theorem units?_escapeChar (c : Char) (s : List Char) :
    units? (escapeChar c ++ s) = (units? s).map (unitsOf c ++ ·) := by
  obtain ⟨d, hd, hescaped, hsmall, hc⟩ | ⟨⟨-, hslash⟩, hcontrol, hsmall, hc⟩ | ⟨hsmall, hc⟩ |
    ⟨hlarge, hc⟩ := escapeChar_cases c
  · have hescape : escape? (d :: s) = (escaped? d).bind fun d => (units? s).map (d.toNat :: ·) := by
      rw [escape?]
      exact fun _ _ _ _ _ h => absurd h hd
    rw [hc, List.cons_append, List.singleton_append, units?, if_pos rfl, hescape, hescaped,
      unitsOf, if_pos hsmall]
    rfl
  · rw [hc, List.singleton_append, units?, if_neg hslash, if_neg hcontrol, unitsOf, if_pos hsmall]
    rfl
  · rw [hc, units?_unitEscape hsmall, unitsOf, if_pos hsmall]
    rfl
  · -- Both halves of a pair fit into sixteen bits.
    have hlast : c.toNat < 0x110000 := by
      have hvalid := c.valid
      change c.toNat.isValidChar at hvalid
      rcases hvalid with hlow | ⟨-, hhigh⟩ <;> omega
    rw [hc, List.append_assoc, units?_unitEscape (by omega), units?_unitEscape (by omega), unitsOf,
      if_neg hlarge, Option.map_map]
    rfl

theorem numbered?_toNat (c : Char) : numbered? c.toNat = some c := by
  have hvalid : c.toNat.isValidChar := c.valid
  rw [Xml.numbered?, if_pos hvalid, Char.ofNat_toNat]

/-- The numbers of a character are read as this character. -/
theorem paired?_unitsOf (c : Char) (ns : List Nat) :
    paired? (unitsOf c ++ ns) = (paired? ns).map (c :: ·) := by
  have hvalid : c.toNat < 0xD800 ∨ (0xDFFF < c.toNat ∧ c.toNat < 0x110000) := c.valid
  rw [unitsOf]
  split
  · cases ns with
    | nil =>
      have hone : paired? [c.toNat] = (numbered? c.toNat).map fun c => [c] := rfl
      rw [List.append_nil, hone, numbered?_toNat]
      rfl
    | cons m ns =>
      -- No character has the number of a half.
      have hwhole : ¬ IsPair c.toNat m := by
        rintro ⟨⟨hlow, hhigh⟩, -⟩
        omega
      rw [List.singleton_append, paired?, if_neg hwhole, numbered?_toNat, Option.bind_some]
  · have hpair : IsPair (0xD800 + (c.toNat - 0x10000) / 0x400)
        (0xDC00 + (c.toNat - 0x10000) % 0x400) := by
      refine ⟨⟨?_, ?_⟩, ?_, ?_⟩ <;> omega
    have hvalue : 0x10000 + (0xD800 + (c.toNat - 0x10000) / 0x400 - 0xD800) * 0x400
        + (0xDC00 + (c.toNat - 0x10000) % 0x400 - 0xDC00) = c.toNat := by
      omega
    rw [List.cons_append, List.singleton_append, paired?, if_pos hpair, hvalue, numbered?_toNat,
      Option.bind_some]

/-- What is escaped is read as it was, whatever characters stand in it. -/
theorem text?_escaped (s : List Char) : text? (s.flatMap escapeChar) = some s := by
  have hunits : units? (s.flatMap escapeChar) = some (s.flatMap unitsOf) := by
    induction s with
    | nil => rfl
    | cons c s ih =>
      rw [List.flatMap_cons, units?_escapeChar, ih, Option.map_some, List.flatMap_cons]
  have hpaired : paired? (s.flatMap unitsOf) = some s := by
    clear hunits
    induction s with
    | nil => rfl
    | cons c s ih => rw [List.flatMap_cons, paired?_unitsOf, ih, Option.map_some]
  rw [text?, hunits, Option.bind_some, hpaired]

/-! ### Integers -/

/-- Decimal digits are read as the number that they write. -/
theorem number?_of_digits {digits : List Char} (hsome : digits ≠ [])
    (h : ∀ c ∈ digits, c.isDigit = true) :
    number? 10 digits = some (Nat.ofDigitChars 10 digits 0) := by
  have hdigit : ∀ c : Char, c.isDigit = true →
      (Xml.digit? c).filter (· < 10) = some (c.toNat - '0'.toNat) := by
    intro c hc
    have hrange : '0' ≤ c ∧ c ≤ '9' := by
      rw [Char.isDigit, Bool.and_eq_true, decide_eq_true_eq, decide_eq_true_eq] at hc
      exact hc
    have hlow : c.toNat ≤ 57 := hrange.2
    have hsmall : decide (c.toNat - '0'.toNat < 10) = true := by
      simp
      omega
    rw [Xml.digit?, if_pos hrange, Option.filter_some, hsmall]
    rfl
  have hfold : ∀ (s : List Char) (n : Nat), (∀ c ∈ s, c.isDigit = true) →
      s.foldlM (fun n c => ((Xml.digit? c).filter (· < 10)).map fun d => n * 10 + d) n
        = some (Nat.ofDigitChars 10 s n) := by
    intro s
    induction s with
    | nil => exact fun n _ => rfl
    | cons c s ih =>
      intro n hs
      rw [List.foldlM_cons, hdigit c (hs c List.mem_cons_self), Option.map_some,
        Option.bind_eq_bind, Option.bind_some, ih _ fun d hd => hs d (List.mem_cons_of_mem _ hd),
        Nat.ofDigitChars_cons, Nat.mul_comm]
  rw [number?, if_neg hsome, hfold digits 0 h]

theorem number?_repr (n : Nat) : number? 10 n.repr.toList = some n := by
  rw [Nat.repr_eq_ofList_toDigits, String.toList_ofList,
    number?_of_digits Nat.toDigits_ne_nil fun c hc =>
      Nat.isDigit_of_mem_toDigits (by decide) (by decide) hc,
    Nat.ofDigitChars_toDigits (by decide) (by decide)]

theorem isDigit_of_mem_repr {n : Nat} {c : Char} (h : c ∈ n.repr.toList) : c.isDigit = true := by
  rw [Nat.repr_eq_ofList_toDigits, String.toList_ofList] at h
  exact Nat.isDigit_of_mem_toDigits (by decide) (by decide) h

/-- Integers are read back, and all their characters belong to one word. -/
theorem integer?_toString (n : Int) :
    integer? (toString n).toList = some n ∧ ∀ c ∈ (toString n).toList, isWordChar c = true := by
  have hword : ∀ c : Char, c.isDigit = true → isWordChar c = true := by
    intro c hc
    simp [isWordChar, Char.isAlphanum, hc]
  have htext : toString n = n.repr := rfl
  rw [htext, Int.repr_eq_if]
  split
  · next hpos =>
    -- Without a sign in front the digits are read from the first character on.
    have hhead : n.toNat.repr.toList.head? ≠ some '-' := by
      intro h
      exact absurd (isDigit_of_mem_repr (List.mem_of_head? h)) (by decide)
    refine ⟨?_, fun c hc => hword c (isDigit_of_mem_repr hc)⟩
    rw [integer?, if_neg hhead, number?_repr, Option.map_some, Int.ofNat_eq_natCast,
      Int.toNat_of_nonneg hpos]
  · next hneg =>
    have hlist : ("-" ++ (-n).toNat.repr).toList = '-' :: (-n).toNat.repr.toList :=
      String.toList_append
    rw [hlist]
    constructor
    · rw [integer?, List.head?_cons, if_pos rfl, List.tail_cons, number?_repr]
      change some (-((-n).toNat : Int)) = some n
      rw [Int.toNat_of_nonneg (by omega), Int.neg_neg]
    · intro c hc
      rcases List.mem_cons.1 hc with rfl | hc
      · rfl
      · exact hword c (isDigit_of_mem_repr hc)

/-- A text that the reader takes for a value when it ends. -/
structure IsWord (w : List Char) (j : Json) : Prop where
  nonempty : w ≠ []
  chars : ∀ c ∈ w, isWordChar c = true
  value : word? w = some j

theorem isWord_toString (n : Int) : IsWord (toString n).toList (int n) := by
  obtain ⟨hread, hchars⟩ := integer?_toString n
  -- The words that are no integers are others.
  have hne : ∀ w, integer? w = none → (toString n).toList ≠ w := by
    rintro w hw hsame
    rw [hsame, hw] at hread
    cases hread
  refine ⟨hne [] (by decide), hchars, ?_⟩
  rw [word?, if_neg (hne _ (by decide)), if_neg (hne _ (by decide)), if_neg (hne _ (by decide)),
    hread]
  rfl

/-! ### Pieces of a text -/

variable {n : Nesting} {s : List Char}

theorem run_cons (r : Reader) (c : Char) (s : List Char) :
    run r (c :: s) = (r.step c).bind (run · s) := by
  rw [run, List.foldlM_cons, Option.bind_eq_bind, Option.bind_assoc]
  rfl

theorem run_append {r q : Reader} {t : List Char} (h : t.foldlM Reader.step r = some q)
    (s : List Char) : run r (t ++ s) = run q s := by
  rw [run, List.foldlM_append, h]
  rfl

/-- What is read of a text where a mark or a scalar has been found. -/
def goOn (found : Option Nesting) (s : List Char) : Option Json :=
  found.bind fun n => run (ready n) s

theorem run_blank {c : Char} (h : isSpace c = true) : run (ready n) (c :: s) = run (ready n) s := by
  have hstep : (ready n).step c = some (ready n) := if_pos h
  rw [run_cons, hstep, Option.bind_some]

theorem run_newLine (indent : Nat) : run (ready n) (newLine indent ++ s) = run (ready n) s := by
  rw [newLine, List.cons_append, run_blank (by decide)]
  induction indent with
  | zero => rfl
  | succ indent ih => rw [List.replicate_succ, List.cons_append, run_blank (by decide), ih]

/-- A character that is a mark of its own. -/
def IsMark (c : Char) : Prop :=
  isSpace c = false ∧ c ≠ '"' ∧ isWordChar c = false

instance (c : Char) : Decidable (IsMark c) :=
  inferInstanceAs (Decidable (_ ∧ _ ∧ _))

theorem run_mark {c : Char} (h : IsMark c) :
    run (ready n) (c :: s) = goOn (n.step (.mark c)) s := by
  obtain ⟨hspace, hquote, hword⟩ := h
  have hstep : (ready n).step c = (n.step (.mark c)).map ready := by
    change Reader.start n c = _
    rw [Reader.start, hspace, hword, if_neg hquote]
    rfl
  rw [run_cons, hstep, Option.bind_map]
  rfl

/-- What neither ends a text nor escapes anything is collected. -/
theorem foldlM_plain {t : List Char} (h : ∀ c ∈ t, c ≠ '"' ∧ c ≠ '\\') (raw : List Char) :
    t.foldlM Reader.step ⟨n, .quoted raw⟩ = some ⟨n, .quoted (raw ++ t)⟩ := by
  induction t generalizing raw with
  | nil =>
    rw [List.append_nil]
    rfl
  | cons c t ih =>
    obtain ⟨hquote, hslash⟩ := h c List.mem_cons_self
    have hstep : Reader.step ⟨n, .quoted raw⟩ c = some ⟨n, .quoted (raw ++ [c])⟩ := by
      simp only [Reader.step, if_neg hquote, if_neg hslash]
    have hrest := ih (fun d hd => h d (List.mem_cons_of_mem _ hd)) (raw ++ [c])
    rw [List.append_assoc] at hrest
    rw [List.foldlM_cons, hstep, Option.bind_eq_bind, Option.bind_some, hrest]
    rfl

theorem foldlM_unitEscape (m : Nat) (raw : List Char) :
    (unitEscape m).foldlM Reader.step ⟨n, .quoted raw⟩
      = some ⟨n, .quoted (raw ++ unitEscape m)⟩ := by
  have hdigit : ∀ d : Fin 16, Nat.digitChar d ≠ '"' ∧ Nat.digitChar d ≠ '\\' := by decide
  have hdigits : ∀ width m, ∀ c ∈ Text.hexDigits width m, c ≠ '"' ∧ c ≠ '\\' := by
    intro width
    induction width with
    | zero => exact fun m c hc => absurd hc List.not_mem_nil
    | succ width ih =>
      intro m c hc
      rcases List.mem_append.1 hc with hc | hc
      · exact ih _ c hc
      · rw [List.mem_singleton.1 hc]
        exact hdigit ⟨m % 16, Nat.mod_lt _ (by decide)⟩
  have hbegin : ∀ t : List Char, ('\\' :: 'u' :: t).foldlM Reader.step ⟨n, .quoted raw⟩
      = t.foldlM Reader.step ⟨n, .quoted (raw ++ ['\\', 'u'])⟩ := fun t => rfl
  rw [unitEscape, hbegin, foldlM_plain (hdigits 4 m), List.append_assoc]
  rfl

/-- What is escaped stays between its quotes. -/
theorem foldlM_escapeChar (raw : List Char) (c : Char) :
    (escapeChar c).foldlM Reader.step ⟨n, .quoted raw⟩
      = some ⟨n, .quoted (raw ++ escapeChar c)⟩ := by
  obtain ⟨d, -, -, -, hc⟩ | ⟨hplain, -, -, hc⟩ | ⟨-, hc⟩ | ⟨-, hc⟩ := escapeChar_cases c
  · rw [hc]
    rfl
  · rw [hc]
    refine foldlM_plain (fun d hd => ?_) raw
    rw [List.mem_singleton.1 hd]
    exact hplain
  · rw [hc]
    exact foldlM_unitEscape _ raw
  · rw [hc, List.foldlM_append, foldlM_unitEscape, Option.bind_eq_bind, Option.bind_some,
      foldlM_unitEscape, List.append_assoc]

theorem run_quoted (t s : List Char) :
    run (ready n) (quoted t ++ s) = goOn (n.step (.scalar (.str (String.ofList t)))) s := by
  have hescaped : ∀ (t raw : List Char),
      (t.flatMap escapeChar).foldlM Reader.step ⟨n, .quoted raw⟩
        = some ⟨n, .quoted (raw ++ t.flatMap escapeChar)⟩ := by
    intro t
    induction t with
    | nil =>
      intro raw
      rw [List.flatMap_nil, List.append_nil]
      rfl
    | cons c t ih =>
      intro raw
      rw [List.flatMap_cons, List.foldlM_append, foldlM_escapeChar, Option.bind_eq_bind,
        Option.bind_some, ih, List.append_assoc]
  have hopen : (ready n).step '"' = some ⟨n, .quoted []⟩ := rfl
  have hclose : Reader.step ⟨n, .quoted (t.flatMap escapeChar)⟩ '"'
      = Reader.taken n (.scalar (.str (String.ofList t))) := by
    simp only [Reader.step, if_pos, text?_escaped, Option.bind_some]
  rw [quoted, List.append_assoc, List.cons_append, run_cons, hopen, Option.bind_some,
    run_append (hescaped t []), List.nil_append, List.singleton_append, run_cons, hclose,
    Reader.taken, Option.bind_map]
  rfl

theorem blank_or_quote_of_isWordChar {c : Char} (hc : isWordChar c = true) :
    isSpace c = false ∧ c ≠ '"' := by
  constructor
  · refine Bool.eq_false_iff.2 fun hspace => ?_
    simp only [isSpace, Bool.or_eq_true, beq_iff_eq] at hspace
    rcases hspace with ((rfl | rfl) | rfl) | rfl <;> exact absurd hc (by decide)
  · rintro rfl
    exact absurd hc (by decide)

/-- No word goes on at the beginning of a text. -/
def Delimited (s : List Char) : Prop :=
  ∀ c ∈ s.head?, isWordChar c = false

theorem run_word {w : List Char} {j : Json} (hw : IsWord w j) (hs : Delimited s) :
    run (ready n) (w ++ s) = goOn (n.step (.scalar j)) s := by
  have hcollect : ∀ (t read : List Char), (∀ c ∈ t, isWordChar c = true) →
      t.foldlM Reader.step ⟨n, .word read⟩ = some ⟨n, .word (read ++ t)⟩ := by
    intro t
    induction t with
    | nil =>
      intro read _
      rw [List.append_nil]
      rfl
    | cons c t ih =>
      intro read ht
      have hstep : Reader.step ⟨n, .word read⟩ c = some ⟨n, .word (read ++ [c])⟩ :=
        if_pos (ht c List.mem_cons_self)
      have hrest := ih (read ++ [c]) fun d hd => ht d (List.mem_cons_of_mem _ hd)
      rw [List.append_assoc] at hrest
      rw [List.foldlM_cons, hstep, Option.bind_eq_bind, Option.bind_some, hrest]
      rfl
  obtain ⟨hsome, hchars, hvalue⟩ := hw
  have hsettled : Reader.settled ⟨n, .word w⟩ = n.step (.scalar j) := by
    simp only [Reader.settled, hvalue, Option.bind_some]
  -- A word is settled by the character behind it, which the reader then takes, or by the end.
  have hend : run ⟨n, .word w⟩ s = goOn (n.step (.scalar j)) s := by
    cases s with
    | nil =>
      change (Reader.settled ⟨n, .word w⟩).bind Nesting.whole? = _
      rw [hsettled]
      rfl
    | cons c s =>
      have hstep : Reader.step ⟨n, .word w⟩ c = (n.step (.scalar j)).bind (Reader.start · c) := by
        simp only [Reader.step, hs c rfl, Bool.false_eq_true, if_false, hsettled]
      rw [run_cons, hstep, Option.bind_assoc, goOn]
      simp only [run_cons]
      rfl
  cases w with
  | nil => exact absurd rfl hsome
  | cons c w =>
    have hc := hchars c List.mem_cons_self
    obtain ⟨hspace, hquote⟩ := blank_or_quote_of_isWordChar hc
    have hstart : (ready n).step c = some ⟨n, .word [c]⟩ := by
      change Reader.start n c = _
      rw [Reader.start, hspace, if_neg hquote, hc]
      rfl
    rw [List.cons_append, run_cons, hstart, Option.bind_some,
      run_append (hcollect w [c] fun d hd => hchars d (List.mem_cons_of_mem _ hd)),
      List.singleton_append, hend]

/-! ### Whole values -/

/-- A value can begin that will stand in certain containers. -/
def Nesting.Awaits (n : Nesting) (around : List Pending) : Prop :=
  ∀ t, t ≠ .mark ']' → n.step t = Nesting.begin? around t

theorem awaits_value (around : List Pending) : Nesting.Awaits ⟨around, .value⟩ around :=
  fun _ _ => rfl

theorem awaits_firstItem (around : List Pending) :
    Nesting.Awaits ⟨around, .firstItem⟩ (.items [] :: around) := by
  intro t ht
  simp only [Nesting.step]

theorem Nesting.Awaits.scalar {around : List Pending} (h : n.Awaits around) (j : Json) :
    n.step (.scalar j) = some ⟨around, .after j⟩ :=
  h (.scalar j) (by simp)

/-- What stands behind an item begins with a mark or with a line break. -/
theorem delimited_moreItems (indent outer : Nat) (items : List Json) (s : List Char) :
    Delimited (moreItems indent items ++ (newLine outer ++ s)) := by
  cases items <;> rintro c ⟨⟩ <;> rfl

theorem delimited_moreMembers (indent outer : Nat) (members : List (String × Json))
    (s : List Char) : Delimited (moreMembers indent members ++ (newLine outer ++ s)) := by
  rcases members with _ | ⟨⟨key, value⟩, members⟩ <;> rintro c ⟨⟩ <;> rfl

/-- The key of a member is read together with the colon behind it. -/
theorem run_key {around : List Pending} {before : List (String × Json)} {next : Next}
    {key : String} (hstep : Nesting.step ⟨around, next⟩ (.scalar (.str key))
      = some ⟨around, .colon before key⟩) (s : List Char) :
    run (ready ⟨around, next⟩) (quoted key.toList ++ ':' :: ' ' :: s)
      = run (ready ⟨.members before key :: around, .value⟩) s := by
  rw [run_quoted, String.ofList_toList, hstep]
  change run (ready ⟨around, .colon before key⟩) (':' :: ' ' :: s) = _
  rw [run_mark (by decide)]
  change run (ready ⟨.members before key :: around, .value⟩) (' ' :: s) = _
  rw [run_blank (by decide)]

mutual

/-- A written value is read where a value can begin, whatever stands around it and follows. -/
theorem run_textAt (indent : Nat) (j : Json) {n : Nesting} {around : List Pending}
    {s : List Char} (hn : n.Awaits around) (hs : Delimited s) :
    run (ready n) (textAt indent j ++ s) = run (ready ⟨around, .after j⟩) s := by
  cases j with
  | null =>
    rw [textAt, run_word ⟨by decide, List.all_eq_true.1 (by decide), rfl⟩ hs, hn.scalar]
    rfl
  | bool b =>
    cases b with
    | true =>
      rw [textAt, run_word ⟨by decide, List.all_eq_true.1 (by decide), rfl⟩ hs, hn.scalar]
      rfl
    | false =>
      rw [textAt, run_word ⟨by decide, List.all_eq_true.1 (by decide), rfl⟩ hs, hn.scalar]
      rfl
  | int m =>
    rw [textAt, run_word (isWord_toString m) hs, hn.scalar]
    rfl
  | str t =>
    rw [textAt, run_quoted, String.ofList_toList, hn.scalar]
    rfl
  | arr items =>
    have hopen : n.step (.mark '[') = some ⟨around, .firstItem⟩ := hn _ (by simp)
    cases items with
    | nil =>
      change run (ready n) ('[' :: ']' :: s) = _
      rw [run_mark (by decide), hopen]
      change run (ready ⟨around, .firstItem⟩) (']' :: s) = _
      rw [run_mark (by decide)]
      rfl
    | cons item items =>
      have hitem := run_textAt (indent + 2) item (awaits_firstItem around)
        (delimited_moreItems (indent + 2) indent items (']' :: s))
      have hitems := run_moreItems (indent + 2) indent items around [] item s
      rw [textAt]
      simp only [List.append_assoc, List.cons_append, List.nil_append]
      rw [run_mark (by decide), hopen]
      change run (ready ⟨around, .firstItem⟩) _ = _
      rw [run_newLine, hitem, hitems]
      rfl
  | obj members =>
    have hopen : n.step (.mark '\x7b') = some ⟨around, .firstKey⟩ := hn _ (by simp)
    cases members with
    | nil =>
      change run (ready n) ('\x7b' :: '\x7d' :: s) = _
      rw [run_mark (by decide), hopen]
      change run (ready ⟨around, .firstKey⟩) ('\x7d' :: s) = _
      rw [run_mark (by decide)]
      rfl
    | cons member members =>
      obtain ⟨key, value⟩ := member
      have hvalue := run_textAt (indent + 2) value (awaits_value (.members [] key :: around))
        (delimited_moreMembers (indent + 2) indent members ('\x7d' :: s))
      have hmembers := run_moreMembers (indent + 2) indent members around [] key value s
      rw [textAt]
      simp only [List.append_assoc, List.cons_append, List.nil_append]
      rw [run_mark (by decide), hopen]
      change run (ready ⟨around, .firstKey⟩) _ = _
      rw [run_newLine, run_key rfl, hvalue, hmembers]
      rfl

theorem run_moreItems (indent outer : Nat) (items : List Json) (around : List Pending)
    (before : List Json) (j : Json) (s : List Char) :
    run (ready ⟨.items before :: around, .after j⟩)
        (moreItems indent items ++ (newLine outer ++ ']' :: s))
      = run (ready ⟨around, .after (.arr (before ++ j :: items))⟩) s := by
  cases items with
  | nil =>
    rw [moreItems, List.nil_append, run_newLine, run_mark (by decide)]
    rfl
  | cons item items =>
    -- The next item moves the value read before it into the list of the array.
    have hitem := run_textAt indent item (awaits_value (.items (before ++ [j]) :: around))
      (delimited_moreItems indent outer items (']' :: s))
    have hitems := run_moreItems indent outer items around (before ++ [j]) item s
    rw [moreItems]
    simp only [List.append_assoc, List.cons_append]
    rw [run_mark (by decide)]
    change run (ready ⟨.items (before ++ [j]) :: around, .value⟩) _ = _
    rw [run_newLine, hitem, hitems, List.append_assoc, List.singleton_append]

theorem run_moreMembers (indent outer : Nat) (members : List (String × Json))
    (around : List Pending) (before : List (String × Json)) (key : String) (j : Json)
    (s : List Char) :
    run (ready ⟨.members before key :: around, .after j⟩)
        (moreMembers indent members ++ (newLine outer ++ '\x7d' :: s))
      = run (ready ⟨around, .after (.obj (before ++ (key, j) :: members))⟩) s := by
  cases members with
  | nil =>
    rw [moreMembers, List.nil_append, run_newLine, run_mark (by decide)]
    rfl
  | cons member members =>
    obtain ⟨next, value⟩ := member
    have hvalue := run_textAt indent value
      (awaits_value (.members (before ++ [(key, j)]) next :: around))
      (delimited_moreMembers indent outer members ('\x7d' :: s))
    have hmembers := run_moreMembers indent outer members around (before ++ [(key, j)]) next value s
    rw [moreMembers]
    simp only [List.append_assoc, List.cons_append]
    rw [run_mark (by decide)]
    change run (ready ⟨around, .key (before ++ [(key, j)])⟩) _ = _
    rw [run_newLine, run_key rfl, hvalue, hmembers, List.append_assoc, List.singleton_append]

end

/-- Every value is read back from its text, also with blanks behind it. -/
theorem read?_text_append (j : Json) (blanks : String)
    (h : ∀ c ∈ blanks.toList, isSpace c = true) : read? (j.text ++ blanks) = some j := by
  have hblanks : ∀ s : List Char, (∀ c ∈ s, isSpace c = true) →
      run (ready ⟨[], .after j⟩) s = some j := by
    intro s
    induction s with
    | nil => exact fun _ => rfl
    | cons c s ih =>
      intro hs
      rw [run_blank (hs c List.mem_cons_self), ih fun d hd => hs d (List.mem_cons_of_mem _ hd)]
  -- A number at the end of the text could go on, were it not for the blank behind it.
  have hdelimited : Delimited blanks.toList := by
    intro c hc
    refine Bool.eq_false_iff.2 fun hword => ?_
    have hspace := h c (List.mem_of_head? hc)
    rw [(blank_or_quote_of_isWordChar hword).1] at hspace
    cases hspace
  rw [read?, String.toList_append, text, String.toList_ofList,
    run_textAt 0 j (awaits_value []) hdelimited, hblanks _ h]

theorem read?_text (j : Json) : read? j.text = some j := by
  have h := read?_text_append j "" (List.all_eq_true.1 (by decide))
  rwa [String.append_empty] at h

theorem text_inj {j k : Json} : j.text = k.text ↔ j = k := by
  refine ⟨fun h => ?_, fun h => h ▸ rfl⟩
  have hread := read?_text j
  rw [h, read?_text, Option.some.injEq] at hread
  exact hread.symm

end IncludeTrace.Json
