/-
Segments that count as the same.

Windows compares segments without regard to case, and case folding knows letters that fold
to several characters.  It makes no dots and no backslashes, though, so a step up is one in
either comparison, and so is a root:

* `eq_of_mem_foldChar`, `fold_eq_dots_iff`, `getLast?_fold_eq_backslash_iff` — only dots fold
  to dots, and only backslashes to backslashes;
* `Flavour.key_eq_key_up_iff` — nothing but `..` counts as `..`;
* `Flavour.Alike`, `Flavour.alike_iff` — lists of segments that count as the same;
* `Segments.cancelled_congr` — cancelling does not tell such lists apart.
-/
import IncludeTrace.Path.Flavour
import IncludeTrace.Proofs.LetterCase
import IncludeTrace.Proofs.LexicalWalk

namespace IncludeTrace

/-! ### Folding dots and backslashes -/

namespace Text

theorem lt_of_mem_foldSpellings :
    ∀ p ∈ foldSpellings, p.2 ≠ [] ∧ ∀ n ∈ p.2, 0x60 < (Char.ofNat n).toNat := by
  decide +kernel

theorem foldChar_ne_nil (c : Char) : foldChar c ≠ [] := by
  rw [foldChar]
  split
  · simp
  · split
    · next p spelling hp =>
      have h := lt_of_mem_foldSpellings _ (List.mem_of_find?_eq_some hp)
      simpa using h.1
    · simp

/-- Only the character itself folds to a text with a character in front of the small letters. -/
theorem eq_of_mem_foldChar {c d : Char} (h : d ∈ foldChar c) (hd : d ≠ '\x00')
    (hlow : d.toNat ≤ 0x60) : c = d := by
  refine Decidable.byContradiction fun hc => ?_
  rw [foldChar] at h
  split at h
  · exact hc (eq_of_small_eq hd hlow (List.mem_singleton.1 h))
  · split at h
    · next p spelling hp =>
      obtain ⟨n, hn, rfl⟩ := List.mem_map.1 h
      have hlt := (lt_of_mem_foldSpellings _ (List.mem_of_find?_eq_some hp)).2 n hn
      omega
    · rw [List.mem_singleton] at h
      exact partner_ne lt_of_mem_foldSpans hc hd hlow h.symm

/-- A text ends with a backslash if its folding does. -/
theorem getLast?_fold_eq_backslash_iff (s : List Char) :
    (fold s).getLast? = some '\\' ↔ s.getLast? = some '\\' := by
  rcases List.eq_nil_or_concat s with rfl | ⟨t, c, rfl⟩
  · exact Iff.rfl
  · have hfold : fold (t ++ [c]) = fold t ++ foldChar c := by
      simp [fold, List.flatMap_append]
    rw [List.concat_eq_append, hfold, List.getLast?_append_of_ne_nil _ (foldChar_ne_nil c),
      List.getLast?_concat, Option.some.injEq]
    constructor
    · intro h
      exact eq_of_mem_foldChar (List.mem_of_getLast? h) (by decide) (by decide)
    · rintro rfl
      rfl

theorem fold_eq_dots_iff (s : List Char) (k : Nat) :
    fold s = List.replicate k '.' ↔ s = List.replicate k '.' := by
  induction s generalizing k with
  | nil => rfl
  | cons c s ih =>
    rw [fold, List.flatMap_cons]
    constructor
    · intro h
      -- The first character folds to something, so to dots.
      obtain ⟨d, ds, hd⟩ := List.exists_cons_of_ne_nil (foldChar_ne_nil c)
      have hdot : d = '.' := by
        refine List.eq_of_mem_replicate (n := k) ?_
        rw [← h, hd]
        simp
      have hc : c = '.' := by
        refine eq_of_mem_foldChar ?_ (by decide) (by decide)
        rw [hd, hdot]
        exact List.mem_cons_self
      have hone : foldChar '.' = ['.'] := by decide
      rw [hc, hone, List.singleton_append] at h
      cases k with
      | zero => exact absurd h (by simp)
      | succ k =>
        rw [List.replicate_succ, List.cons.injEq] at h
        rw [hc, (ih k).1 h.2, List.replicate_succ]
    · intro h
      cases k with
      | zero => exact absurd h (by simp)
      | succ k =>
        rw [List.replicate_succ, List.cons.injEq] at h
        rw [h.1, List.replicate_succ, ← (ih k).2 h.2]
        rfl

end Text

/-! ### Keys -/

namespace Flavour

/-- Nothing but `..` counts as `..`. -/
theorem key_eq_key_up_iff (flavour : Flavour) (segment : String) :
    flavour.key segment = flavour.key Segments.up ↔ segment = Segments.up := by
  refine ⟨fun h => ?_, fun h => h ▸ rfl⟩
  have hup : Segments.up.toList = List.replicate 2 '.' := rfl
  have hlist : segment.toList = Segments.up.toList := by
    cases flavour with
    | posix => exact h
    | windows =>
      have hfold : Text.fold (List.replicate 2 '.') = List.replicate 2 '.' := by decide
      rw [key, key, hup, hfold] at h
      rw [hup]
      exact (Text.fold_eq_dots_iff _ 2).1 h
  exact String.toList_injective hlist

/-- Equal segments under POSIX rules, equal segments up to case under Windows rules. -/
def Alike : Flavour → List String → List String → Prop
  | posix, xs, ys => xs = ys
  | windows, xs, ys =>
    xs.map (fun s => Text.fold s.toList) = ys.map fun s => Text.fold s.toList

instance (flavour : Flavour) (xs ys : List String) : Decidable (flavour.Alike xs ys) :=
  match flavour with
  | posix => inferInstanceAs (Decidable (xs = ys))
  | windows => inferInstanceAs (Decidable
      (xs.map (fun s => Text.fold s.toList) = ys.map fun s => Text.fold s.toList))

theorem alike_iff (flavour : Flavour) (xs ys : List String) :
    flavour.Alike xs ys ↔ xs.map flavour.key = ys.map flavour.key := by
  cases flavour with
  | posix =>
    exact (List.map_inj_right fun _ _ => String.toList_injective).symm
  | windows => exact Iff.rfl

end Flavour

namespace Segments

/-- Whether a segment cancels another one can be told from their keys. -/
theorem cancelStep_congr (flavour : Flavour) {xs ys : List String} {s t : String}
    (hstack : xs.map flavour.key = ys.map flavour.key) (hst : flavour.key s = flavour.key t) :
    (cancelStep xs s).map flavour.key = (cancelStep ys t).map flavour.key := by
  have hup : ∀ {a b : String}, flavour.key a = flavour.key b → (a = up ↔ b = up) := by
    intro a b hab
    rw [← flavour.key_eq_key_up_iff a, hab, flavour.key_eq_key_up_iff]
  cases xs with
  | nil =>
    rw [List.map_nil, eq_comm, List.map_eq_nil_iff] at hstack
    simp [hstack, cancelStep, hst]
  | cons x xs =>
    cases ys with
    | nil => exact absurd hstack (by simp)
    | cons y ys =>
      rw [List.map_cons, List.map_cons, List.cons.injEq] at hstack
      simp only [cancelStep, hup hst, ne_eq, hup hstack.1]
      split
      · exact hstack.2
      · simp [hst, hstack]

/-- Cancelling does not tell alike lists apart. -/
theorem cancelled_congr (flavour : Flavour) {xs ys : List String}
    (h : xs.map flavour.key = ys.map flavour.key) :
    (cancelled xs).map flavour.key = (cancelled ys).map flavour.key := by
  have hfold : ∀ as bs : List String, as.map flavour.key = bs.map flavour.key →
      (xs.foldl cancelStep as).map flavour.key = (ys.foldl cancelStep bs).map flavour.key := by
    induction xs generalizing ys with
    | nil =>
      rw [List.map_nil, eq_comm, List.map_eq_nil_iff] at h
      rw [h]
      exact fun _ _ hab => hab
    | cons x xs ih =>
      cases ys with
      | nil => exact absurd h (by simp)
      | cons y ys =>
        rw [List.map_cons, List.map_cons, List.cons.injEq] at h
        exact fun as bs hab => ih h.2 _ _ (cancelStep_congr flavour hab h.1)
  rw [cancelled, cancelled, List.map_reverse, List.map_reverse, hfold [] [] rfl]

end Segments

end IncludeTrace
