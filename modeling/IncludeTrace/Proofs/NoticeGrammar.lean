/-
The grammar of include notices.

A notice is found by searching and counting: the first place of the marker and the spaces behind
it, or the dots at the start of a line.  What is found in this way is said here without a search.
The only freedom in such a description is where a marker stands that occurs several times, and that
is settled by asking for the first place.  All else is settled by where a run of one character ends.

* `Text.FirstAt`, `Text.cutAt?_eq_some_iff` — the first place of one text in another one;
* `Text.run_eq_iff` — a run of one character and what stands behind it;
* `NoticeStyle.IsNotice` — the lines that are notices;
* `NoticeStyle.read?_accepts` — these are the lines that are read.
-/
import IncludeTrace.Proofs.NoticeLines

namespace IncludeTrace

namespace Text

/-! ### First places and runs -/

/-- What stands in a text before the first occurrence of `needle`, and behind it. -/
structure FirstAt (needle s before rest : List Char) : Prop where
  parts : s = before ++ (needle ++ rest)
  first : ∀ earlier other, s = earlier ++ (needle ++ other) → before.length ≤ earlier.length

theorem cutAt?_eq_some_iff {needle s before rest : List Char} :
    cutAt? needle s = some (before, rest) ↔ FirstAt needle s before rest := by
  constructor
  · intro h
    refine ⟨by rw [cutAt?_eq_some h, List.append_assoc], ?_⟩
    induction s generalizing before with
    | nil =>
      obtain ⟨r, -, hparts⟩ := Option.map_eq_some_iff.1 h
      cases hparts
      exact fun earlier other _ => Nat.zero_le _
    | cons c s ih =>
      intro earlier other hs
      rw [cutAt?] at h
      split at h
      · cases h
        exact Nat.zero_le _
      · next hnone =>
        obtain ⟨⟨front, r⟩, hfront, hparts⟩ := Option.map_eq_some_iff.1 h
        cases hparts
        -- The needle does not stand at the start, so an earlier place is one in the rest as well.
        cases earlier with
        | nil =>
          rw [List.nil_append, ← dropStart?_eq_some, hnone] at hs
          exact absurd hs.symm (Option.some_ne_none _)
        | cons d earlier => exact Nat.succ_le_succ (ih hfront earlier other (List.cons.inj hs).2)
  · rintro ⟨hparts, hfirst⟩
    induction s generalizing before with
    | nil =>
      obtain ⟨rfl, hrest⟩ := List.append_eq_nil_iff.1 hparts.symm
      rw [cutAt?, dropStart?_eq_some.2 hrest.symm]
      rfl
    | cons c s ih =>
      rw [cutAt?]
      split
      · next r hr =>
        have hs : c :: s = needle ++ r := dropStart?_eq_some.1 hr
        have hstart : before.length ≤ 0 := hfirst [] r hs
        obtain rfl := List.eq_nil_of_length_eq_zero (Nat.le_zero.1 hstart)
        have hsame : r = rest := List.append_cancel_left (hs.symm.trans hparts)
        rw [hsame]
      · next hnone =>
        cases before with
        | nil =>
          rw [List.nil_append, ← dropStart?_eq_some, hnone] at hparts
          exact absurd hparts.symm (Option.some_ne_none _)
        | cons d front =>
          obtain ⟨rfl, hrest⟩ := List.cons.inj hparts
          have hfront : cutAt? needle s = some (front, rest) := by
            refine ih hrest fun earlier other hs => ?_
            exact Nat.le_of_succ_le_succ (hfirst (c :: earlier) other (congrArg (c :: ·) hs))
          rw [hfront]
          rfl

/-- How long the run of one character at the start of a text is, and what stands behind it. -/
theorem run_eq_iff {c : Char} {s t : List Char} {k : Nat} :
    (s.takeWhile (· == c)).length = k ∧ s.dropWhile (· == c) = t ↔
      s = List.replicate k c ++ t ∧ t.head? ≠ some c := by
  constructor
  · rintro ⟨rfl, rfl⟩
    have hrun : s.takeWhile (· == c) = List.replicate (s.takeWhile (· == c)).length c := by
      refine List.eq_replicate_of_mem fun d hd => ?_
      exact eq_of_beq (List.mem_takeWhile_imp (p := (· == c)) hd)
    refine ⟨?_, fun hhead => ?_⟩
    · rw [← hrun, List.takeWhile_append_dropWhile]
    · have hstop := List.head?_dropWhile_not (· == c) s
      rw [hhead] at hstop
      exact absurd (beq_self_eq_true c) (Bool.eq_false_iff.1 hstop)
  · rintro ⟨rfl, ht⟩
    rw [takeWhile_replicate_append ht, dropWhile_replicate_append ht, List.length_replicate]
    exact ⟨rfl, rfl⟩

end Text

namespace NoticeStyle

/-! ### Notices -/

/-- The lines that are notices, with their depths and paths: the first marker in the line, a space
for each level and a path that does not start with a space, or a dot more than the level, a space
and a path. -/
inductive IsNotice : NoticeStyle → List Char → Nat → List Char → Prop where
  | marked {marker : String} {line before path : List Char} {depth : Nat}
      (found : Text.FirstAt marker.toList line before (List.replicate depth ' ' ++ path))
      (unindented : path.head? ≠ some ' ') (nonempty : path ≠ []) :
      IsNotice (.marked marker) line depth path
  | dotted {path : List Char} {depth : Nat} (nonempty : path ≠ []) :
      IsNotice .dotted (List.replicate (depth + 1) '.' ++ ' ' :: path) depth path

variable {line path : List Char} {depth : Nat}

theorem readMarked?_eq_some_iff {marker : List Char} :
    readMarked? marker line = some (depth, path) ↔
      (∃ before, Text.FirstAt marker line before (List.replicate depth ' ' ++ path)) ∧
        path.head? ≠ some ' ' := by
  rw [readMarked?, Option.map_eq_some_iff]
  constructor
  · rintro ⟨⟨before, rest⟩, hcut, hfound⟩
    obtain ⟨hrest, hpath⟩ := Text.run_eq_iff.1 (Prod.mk.inj hfound)
    exact ⟨⟨before, hrest ▸ Text.cutAt?_eq_some_iff.1 hcut⟩, hpath⟩
  · rintro ⟨⟨before, hfirst⟩, hpath⟩
    refine ⟨_, Text.cutAt?_eq_some_iff.2 hfirst, ?_⟩
    obtain ⟨hdepth, hrest⟩ := Text.run_eq_iff.2 ⟨rfl, hpath⟩
    exact Prod.ext hdepth hrest

theorem restOfLine?_of_not_mem {s : List Char} (h : '\n' ∉ s) : restOfLine? s = some s := by
  have hmem : ∀ c ∈ s, (c != '\n') = true := fun c hc => bne_iff_ne.2 fun he => h (he ▸ hc)
  have hdrop : s.dropWhile (· != '\n') = [] := by
    rw [List.dropWhile_eq_nil_iff]
    exact hmem
  have htake : s.takeWhile (· != '\n') = s := by
    rw [List.takeWhile_eq_self_iff]
    exact hmem
  rw [restOfLine?, hdrop, htake]

theorem readDotted?_eq_some_iff (h : '\n' ∉ line) :
    readDotted? line = some (depth, path) ↔
      line = List.replicate (depth + 1) '.' ++ ' ' :: path := by
  constructor
  · intro hread
    rw [readDotted?] at hread
    split at hread
    · next k rest hdots hspace =>
      obtain ⟨rfl, -⟩ := Text.run_eq_iff.1 ⟨hdots, hspace⟩
      have hrest : '\n' ∉ rest := fun hmem =>
        h (List.mem_append_right _ (List.mem_cons_of_mem _ hmem))
      rw [restOfLine?_of_not_mem hrest] at hread
      cases hread
      rfl
    · cases hread
  · rintro rfl
    have hpath : '\n' ∉ path := fun hmem =>
      h (List.mem_append_right _ (List.mem_cons_of_mem _ hmem))
    obtain ⟨hdots, hspace⟩ := Text.run_eq_iff.2
      ⟨rfl, show (' ' :: path).head? ≠ some '.' by simp⟩
    rw [readDotted?, hdots, hspace]
    simp only [restOfLine?_of_not_mem hpath, Option.map_some]

/-- Line feeds make a difference only behind dots. -/
theorem read?_eq_some_iff_isNotice {style : NoticeStyle}
    (h : style = .dotted → '\n' ∉ withoutReturns line) :
    style.read? line = some (depth, path) ↔ style.IsNotice (withoutReturns line) depth path := by
  simp only [read?, Option.filter_eq_some_iff, bne_iff_ne]
  cases style with
  | marked marker =>
    rw [readMarked?_eq_some_iff]
    constructor
    · rintro ⟨⟨⟨before, hfound⟩, hpath⟩, hsome⟩
      exact .marked hfound hpath hsome
    · intro hnotice
      cases hnotice with
      | marked hfound hpath hsome => exact ⟨⟨⟨_, hfound⟩, hpath⟩, hsome⟩
  | dotted =>
    rw [readDotted?_eq_some_iff (h rfl)]
    constructor
    · rintro ⟨hline, hsome⟩
      rw [hline]
      exact .dotted hsome
    · intro hnotice
      generalize withoutReturns line = kept at hnotice
      cases hnotice with
      | dotted hsome => exact ⟨rfl, hsome⟩

/-- **Exactly the notices are read.**  A line counts up to its last character that is not a carriage
return.  With that much of it being a notice, its depth and path are read, whatever the marker is,
and otherwise nothing is. -/
theorem read?_accepts (style : NoticeStyle) {line : List Char} (h : '\n' ∉ line) :
    ∃ kept k, line = kept ++ List.replicate k '\r' ∧ kept.getLast? ≠ some '\r' ∧
      (∀ depth path, style.read? line = some (depth, path) ↔ style.IsNotice kept depth path) ∧
      (style.read? line = none ↔ ∀ depth path, ¬ style.IsNotice kept depth path) := by
  obtain ⟨k, hline⟩ := exists_eq_append_returns line
  have hkept : '\n' ∉ withoutReturns line := fun hmem =>
    h (hline ▸ List.mem_append_left _ hmem)
  have hread : ∀ depth path, style.read? line = some (depth, path) ↔
      style.IsNotice (withoutReturns line) depth path := fun depth path =>
    read?_eq_some_iff_isNotice fun _ => hkept
  refine ⟨withoutReturns line, k, hline, getLast?_withoutReturns line, hread, ?_⟩
  rw [Option.eq_none_iff_forall_ne_some, Prod.forall]
  exact forall_congr' fun depth => forall_congr' fun path => not_congr (hread depth path)

/-- A marker that overlaps itself is read at its first place, where the path begins with what is
left of its second one. -/
theorem read?_accepts_overlapping :
    let style : NoticeStyle := .marked "::"
    let line := "b: :::  x.h\r\r".toList
    '\n' ∉ line ∧ style.read? line = some (0, ":  x.h".toList) ∧
      ∃ kept k, line = kept ++ List.replicate k '\r' ∧ kept.getLast? ≠ some '\r' ∧
        (∀ depth path, style.read? line = some (depth, path) ↔ style.IsNotice kept depth path) ∧
        (style.read? line = none ↔ ∀ depth path, ¬ style.IsNotice kept depth path) := by
  intro style line
  have hline : '\n' ∉ line := by decide +kernel
  exact ⟨hline, by decide +kernel, read?_accepts style hline⟩

end NoticeStyle

end IncludeTrace
