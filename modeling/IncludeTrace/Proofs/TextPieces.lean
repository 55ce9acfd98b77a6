/-
Texts without their ends, and texts in pieces.

* `exists_eq_trimEndBy_append`, `getLast?_trimEndBy` — what is cut off the end of a text,
  and what is left;
* `not_mem_of_mem_splitOn` — no piece holds the separator;
* `takeWhile_replicate_append`, `dropWhile_replicate_append` — a run of one character in front
  of a text.
-/
import IncludeTrace.Text.Blank
import Mathlib.Data.List.TakeWhile

namespace IncludeTrace

namespace Text

variable {p : Char → Bool}

theorem trimEndBy_cons (c : Char) (s : List Char) :
    trimEndBy p (c :: s)
      = if trimEndBy p s = [] ∧ p c = true then [] else c :: trimEndBy p s := by
  rw [trimEndBy]
  split
  · next h => by_cases hc : p c = true <;> simp [h, hc]
  · next d kept h => simp [h]

/-- Only unwanted characters are cut off. -/
theorem exists_eq_trimEndBy_append (p : Char → Bool) (s : List Char) :
    ∃ t, s = trimEndBy p s ++ t ∧ ∀ c ∈ t, p c = true := by
  induction s with
  | nil => exact ⟨[], rfl, fun c hc => absurd hc List.not_mem_nil⟩
  | cons c s ih =>
    obtain ⟨t, hs, ht⟩ := ih
    rw [trimEndBy_cons]
    split
    · next h =>
      rw [h.1, List.nil_append] at hs
      refine ⟨c :: s, rfl, fun d hd => ?_⟩
      rcases List.mem_cons.1 hd with rfl | hd
      · exact h.2
      · exact ht d (hs ▸ hd)
    · exact ⟨t, by rw [List.cons_append, ← hs], ht⟩

theorem mem_of_mem_trim {s : List Char} {c : Char} (h : c ∈ trim s) : c ∈ s := by
  obtain ⟨t, hs, -⟩ := exists_eq_trimEndBy_append isBlank (s.dropWhile isBlank)
  have hmem : c ∈ s.dropWhile isBlank := by
    rw [hs]
    exact List.mem_append_left _ h
  exact (List.dropWhile_sublist _).subset hmem

/-- Nothing unwanted is left at the end. -/
theorem getLast?_trimEndBy {s : List Char} {c : Char}
    (h : (trimEndBy p s).getLast? = some c) : p c = false := by
  induction s with
  | nil => exact absurd h (by simp [trimEndBy])
  | cons d s ih =>
    rw [trimEndBy_cons] at h
    split at h
    · exact absurd h (by simp)
    · next hkept =>
      rw [List.getLast?_cons, Option.some.injEq] at h
      cases hlast : (trimEndBy p s).getLast? with
      | none =>
        -- The first character is the last one.
        rw [hlast, Option.getD_none] at h
        rw [List.getLast?_eq_none_iff] at hlast
        subst h
        simpa [hlast] using hkept
      | some e =>
        rw [hlast, Option.getD_some] at h
        exact ih (hlast.trans (congrArg some h))

/-- A text whose last character is wanted stays as it is. -/
theorem trimEndBy_eq_self {s : List Char} (h : ∀ c, s.getLast? = some c → p c = false) :
    trimEndBy p s = s := by
  obtain ⟨t, hs, ht⟩ := exists_eq_trimEndBy_append p s
  rcases List.eq_nil_or_concat t with rfl | ⟨t', c, rfl⟩
  · rw [List.append_nil] at hs
    exact hs.symm
  · have hc : p c = true := ht c (by simp)
    have hlast : s.getLast? = some c := by
      rw [hs, List.concat_eq_append, ← List.append_assoc, List.getLast?_concat]
    exact absurd hc (by rw [h c hlast]; exact Bool.false_ne_true)

/-- What stands between separators holds none. -/
theorem not_mem_of_mem_splitOn {c : Char} {s piece : List Char} (h : piece ∈ s.splitOn c) :
    c ∉ piece := by
  induction s generalizing piece with
  | nil =>
    rw [List.splitOn_nil, List.mem_singleton] at h
    rw [h]
    exact List.not_mem_nil
  | cons d s ih =>
    rw [List.splitOn_cons_eq_if_modifyHead] at h
    split at h
    · rcases List.mem_cons.1 h with rfl | h
      · exact List.not_mem_nil
      · exact ih h
    · next hd =>
      -- The character joins the first piece of the rest.
      obtain ⟨first, others, hpieces⟩ := List.exists_cons_of_ne_nil (List.splitOn_ne_nil c s)
      rw [hpieces, List.modifyHead_cons] at h
      have hfirst : c ∉ first := ih (hpieces ▸ List.mem_cons_self)
      rcases List.mem_cons.1 h with rfl | h
      · intro hc
        rcases List.mem_cons.1 hc with rfl | hc
        · exact hd (beq_self_eq_true c)
        · exact hfirst hc
      · exact ih (hpieces ▸ List.mem_cons_of_mem _ h)

/-- Where a run of one character ends is seen from the character behind it. -/
theorem takeWhile_replicate_append {c : Char} {s : List Char} (h : s.head? ≠ some c) (k : Nat) :
    (List.replicate k c ++ s).takeWhile (· == c) = List.replicate k c := by
  rw [List.takeWhile_append_of_pos fun d hd => beq_of_eq (List.eq_of_mem_replicate hd)]
  cases s with
  | nil => simp
  | cons d s => simp_all

theorem dropWhile_replicate_append {c : Char} {s : List Char} (h : s.head? ≠ some c) (k : Nat) :
    (List.replicate k c ++ s).dropWhile (· == c) = s := by
  rw [List.dropWhile_append_of_pos fun d hd => beq_of_eq (List.eq_of_mem_replicate hd)]
  cases s with
  | nil => rfl
  | cons d s => simp_all

end Text

end IncludeTrace
