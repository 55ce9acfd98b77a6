/-
Finding one text inside another.

* `cutAt? needle s` — what stands before and after the first occurrence of
  `needle` in `s`;
* `cutAt?_eq_some` — the three parts put together give the text back;
* `contains needle s` — whether there is an occurrence at all.
-/

namespace IncludeTrace.Text

/-- The rest of a text that starts with `start`. -/
def dropStart? : List Char → List Char → Option (List Char)
  | [], s => some s
  | _ :: _, [] => none
  | c :: start, d :: s => if c = d then dropStart? start s else none

theorem dropStart?_eq_some {start s rest : List Char} :
    dropStart? start s = some rest ↔ s = start ++ rest := by
  induction start generalizing s with
  | nil => simp [dropStart?]
  | cons c start ih =>
    cases s with
    | nil => simp [dropStart?]
    | cons d s =>
      by_cases h : c = d
      · simp [dropStart?, h, ih]
      · simp [dropStart?, h, Ne.symm h]

/-- The parts of a text before and after the first occurrence of `needle`. -/
def cutAt? (needle : List Char) : List Char → Option (List Char × List Char)
  | [] => (dropStart? needle []).map ([], ·)
  | c :: s =>
    match dropStart? needle (c :: s) with
    | some rest => some ([], rest)
    | none => (cutAt? needle s).map fun (before, rest) => (c :: before, rest)

theorem cutAt?_eq_some {needle s before rest : List Char}
    (h : cutAt? needle s = some (before, rest)) : s = before ++ needle ++ rest := by
  induction s generalizing before with
  | nil =>
    obtain ⟨r, hr, he⟩ := Option.map_eq_some_iff.1 h
    cases he
    simpa using dropStart?_eq_some.1 hr
  | cons c s ih =>
    unfold cutAt? at h
    split at h
    · next r hr =>
      cases h
      simpa using dropStart?_eq_some.1 hr
    · next hr =>
      obtain ⟨⟨b, r⟩, hbr, he⟩ := Option.map_eq_some_iff.1 h
      cases he
      simp [ih hbr]

/-- Whether `needle` occurs in a text. -/
def contains (needle s : List Char) : Bool :=
  (cutAt? needle s).isSome

end IncludeTrace.Text
