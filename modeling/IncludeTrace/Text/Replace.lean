/-
Texts in which characters are replaced by other texts.

* `replace` — a text in the place of every occurrence of one character;
* `replaceAll` — one replacement after the other, each in what the ones before it left;
* `replaceAll_of_ne` — a character that no step replaces stays as it is;
* `replaceAll_eq_flatMap` — what comes of a text is put together from what comes of its
  characters.
-/

namespace IncludeTrace.Text

/-- A text in the place of every occurrence of a character. -/
def replace (old : Char) (new : String) (s : List Char) : List Char :=
  s.flatMap fun c => if c = old then new.toList else [c]

/-- One replacement after the other. -/
def replaceAll (steps : List (Char × String)) (s : List Char) : List Char :=
  steps.foldl (fun s (old, new) => replace old new s) s

theorem replaceAll_cons (old : Char) (new : String) (steps : List (Char × String))
    (s : List Char) :
    replaceAll ((old, new) :: steps) s = replaceAll steps (replace old new s) := rfl

/-- A character that none of the replacements is about stays. -/
theorem replaceAll_of_ne {steps : List (Char × String)} {c : Char}
    (h : ∀ step ∈ steps, c ≠ step.1) : replaceAll steps [c] = [c] := by
  induction steps with
  | nil => rfl
  | cons step steps ih =>
    obtain ⟨hstep, hsteps⟩ := List.forall_mem_cons.1 h
    obtain ⟨old, new⟩ := step
    rw [replaceAll_cons, replace, List.flatMap_singleton, if_neg hstep, ih hsteps]

/-- No replacement looks further than at one character. -/
theorem replaceAll_eq_flatMap (steps : List (Char × String)) (s : List Char) :
    replaceAll steps s = s.flatMap fun c => replaceAll steps [c] := by
  induction steps generalizing s with
  | nil => exact (List.flatMap_singleton' s).symm
  | cons step steps ih =>
    obtain ⟨old, new⟩ := step
    have hchar : ∀ c, replaceAll ((old, new) :: steps) [c]
        = (if c = old then new.toList else [c]).flatMap fun d => replaceAll steps [d] := by
      intro c
      rw [replaceAll_cons, replace, List.flatMap_singleton, ih]
    rw [replaceAll_cons, ih, replace, List.flatMap_assoc]
    simp only [hchar]

end IncludeTrace.Text
