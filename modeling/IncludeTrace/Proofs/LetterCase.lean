/-
What changes of letter case leave alone.

No letter has a partner among the characters in front of the small letters, and no letter is
spelled with one of them.  So blanks, dots and backslashes are in a text in lower case exactly
where they were before:

* `partner_ne` — no run of a table reaches down to these characters;
* `eq_of_mem_lowerChar`, `mem_of_mem_lower` — lower case puts none of them into a text.
-/
import IncludeTrace.Text.Case

namespace IncludeTrace.Text

/-- A character is the one of one number only. -/
theorem eq_of_ofNat_eq {n : Nat} {d : Char} (h : Char.ofNat n = d) (hd : d ≠ '\x00') :
    n = d.toNat := by
  by_cases hn : n.isValidChar
  · rw [Char.ofNat, dif_pos hn] at h
    exact congrArg Char.toNat h
  · rw [Char.ofNat, dif_neg hn] at h
    exact absurd h.symm hd

/-- No run of the case folding reaches down to the characters in front of the small letters. -/
theorem lt_of_mem_foldSpans : ∀ s ∈ foldSpans, 0x60 < (s.first : Int) + s.shift := by
  decide +kernel

/-- Neither does one of the lower case. -/
theorem lt_of_mem_lowerSpans : ∀ s ∈ lowerSpans, 0x60 < (s.first : Int) + s.shift := by
  decide +kernel

theorem partner_ne {spans : List Span} (hspans : ∀ s ∈ spans, 0x60 < (s.first : Int) + s.shift)
    {c d : Char} (h : c ≠ d) (hd : d ≠ '\x00') (hlow : d.toNat ≤ 0x60) : partner spans c ≠ d := by
  rw [partner]
  split
  · next n hn =>
    obtain ⟨s, hs, hsn⟩ := List.exists_of_findSome?_eq_some hn
    have hspan := hspans s hs
    rw [Span.partner?] at hsn
    split at hsn
    · next hc =>
      intro heq
      have hn' : ((c.toNat : Int) + s.shift).toNat = n := Option.some.inj hsn
      -- Numbers that are none of a character give the null character, which `d` is not.
      have hcode := eq_of_ofNat_eq heq hd
      omega
    · exact absurd hsn (by simp)
  · exact h

/-- A capital letter has its partner among the small ones. -/
theorem eq_of_small_eq {c d : Char} (hd : d ≠ '\x00') (hlow : d.toNat ≤ 0x60)
    (h : d = if 'A' ≤ c ∧ c ≤ 'Z' then Char.ofNat (c.toNat + 32) else c) : c = d := by
  split at h
  · next hletter =>
    have hfirst : 0x41 ≤ c.toNat := hletter.1
    have hcode := eq_of_ofNat_eq h.symm hd
    omega
  · exact h.symm

theorem eq_of_mem_lowerChar {before after : List Char} {c d : Char}
    (h : d ∈ lowerChar before c after) (hd : d ≠ '\x00') (hlow : d.toNat ≤ 0x60) : c = d := by
  refine Decidable.byContradiction fun hc => ?_
  rw [lowerChar] at h
  split at h
  · exact hc (eq_of_small_eq hd hlow (List.mem_singleton.1 h))
  · split at h
    · -- Both small letters for a capital sigma are far behind.
      rw [List.mem_singleton] at h
      split at h <;> subst h <;> exact absurd hlow (by decide)
    · split at h
      · simp only [List.mem_cons, List.not_mem_nil, or_false] at h
        rcases h with rfl | rfl <;> exact absurd hlow (by decide)
      · rw [List.mem_singleton] at h
        exact partner_ne lt_of_mem_lowerSpans hc hd hlow h.symm

theorem mem_of_mem_lowerAfter {before s : List Char} {d : Char} (h : d ∈ lowerAfter before s)
    (hd : d ≠ '\x00') (hlow : d.toNat ≤ 0x60) : d ∈ s := by
  induction s generalizing before with
  | nil => exact absurd h List.not_mem_nil
  | cons c s ih =>
    rcases List.mem_append.1 h with h | h
    · rw [eq_of_mem_lowerChar h hd hlow]
      exact List.mem_cons_self
    · exact List.mem_cons_of_mem c (ih h)

/-- A character in front of the small letters is in a text if it is there in lower case. -/
theorem mem_of_mem_lower {s : List Char} {d : Char} (h : d ∈ lower s) (hd : d ≠ '\x00')
    (hlow : d.toNat ≤ 0x60) : d ∈ s :=
  mem_of_mem_lowerAfter h hd hlow

end IncludeTrace.Text
