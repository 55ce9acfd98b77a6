/-
What a lexical walk leaves of its segments.

* `cancelled` — the segments that are left when each `..` cancels the name in front of it;
* `Settled` — segments with all their `..` in front, of which nothing can be cancelled;
* `cancelled_append_steps` — steps down and as many steps up again cancel each other;
* `enter_cases` — a step stays, goes down by its segment, or goes up by one;
* `Climbed.enter`, `Climbed.walk` — what each step and so a whole walk keeps: the segments
  that are reached are settled, and at a root no `..` is left of them;
* `mem_resolve` — a walk only passes on segments, and neither empty ones nor `.`;
* `foldl_enter_resolve` — a walk may take a resolved path in place of the path;
* `resolve_of_settled` — settled segments are resolved already.
-/
import Mathlib.Data.List.Basic
import IncludeTrace.Path.Segments

namespace IncludeTrace.Segments

/-! ### Cancelling -/

/-- The segments passed so far, the last one first, after one more segment: a `..` takes
back a name, and is kept where there is no name to take back. -/
def cancelStep : List String → String → List String
  | [], segment => [segment]
  | top :: rest, segment => if segment = up ∧ top ≠ up then rest else segment :: top :: rest

/-- The segments that are left when each `..` cancels the name in front of it. -/
def cancelled (segments : List String) : List String :=
  (segments.foldl cancelStep []).reverse

/-- All steps up stand in front. -/
def Settled (segments : List String) : Prop :=
  ∃ k names, segments = List.replicate k up ++ names ∧ up ∉ names

theorem settled_of_not_mem {segments : List String} (h : up ∉ segments) : Settled segments :=
  ⟨0, segments, rfl, h⟩

/-- The first segment may be a step up or not. -/
theorem settled_cons {first : String} {others : List String} (h : up ∉ others) :
    Settled (first :: others) := by
  by_cases hfirst : first = up
  · exact ⟨1, others, by rw [hfirst]; rfl, h⟩
  · refine settled_of_not_mem ?_
    rw [List.mem_cons, not_or]
    exact ⟨Ne.symm hfirst, h⟩

/-- No step up stands behind a name. -/
theorem not_mem_of_settled_cons {first : String} {others : List String}
    (h : Settled (first :: others)) (hfirst : first ≠ up) : up ∉ others := by
  obtain ⟨k, names, heq, hnames⟩ := h
  cases k with
  | zero =>
    rw [List.replicate_zero, List.nil_append] at heq
    rw [← heq, List.mem_cons, not_or] at hnames
    exact hnames.2
  | succ k =>
    rw [List.replicate_succ, List.cons_append, List.cons.injEq] at heq
    exact absurd heq.1 hfirst

theorem cancelStep_of_ne {segment : String} (h : segment ≠ up) (stack : List String) :
    cancelStep stack segment = segment :: stack := by
  cases stack with
  | nil => rfl
  | cons top rest => exact if_neg fun hs => h hs.1

/-- Names are kept. -/
theorem foldl_cancelStep_names {names : List String} (h : up ∉ names) (stack : List String) :
    names.foldl cancelStep stack = names.reverse ++ stack := by
  induction names generalizing stack with
  | nil => rfl
  | cons name names ih =>
    rw [List.mem_cons, not_or] at h
    rw [List.foldl_cons, cancelStep_of_ne (Ne.symm h.1), ih h.2, List.reverse_cons,
      List.append_assoc, List.singleton_append]

/-- Steps up take back names. -/
theorem foldl_cancelStep_steps {names : List String} (h : up ∉ names) (stack : List String) :
    (List.replicate names.length up).foldl cancelStep (names ++ stack) = stack := by
  induction names with
  | nil => rfl
  | cons name names ih =>
    rw [List.mem_cons, not_or] at h
    have hstep : cancelStep (name :: (names ++ stack)) up = names ++ stack :=
      if_pos ⟨rfl, Ne.symm h.1⟩
    rw [List.length_cons, List.replicate_succ, List.foldl_cons, List.cons_append, hstep]
    exact ih h.2

/-- Steps up that find no name are kept. -/
theorem foldl_cancelStep_ups (j k : Nat) :
    (List.replicate k up).foldl cancelStep (List.replicate j up) = List.replicate (j + k) up := by
  induction k generalizing j with
  | zero => rfl
  | succ k ih =>
    have hstep : cancelStep (List.replicate j up) up = List.replicate (j + 1) up := by
      cases j with
      | zero => rfl
      | succ j => simp [List.replicate_succ, cancelStep]
    rw [List.replicate_succ, List.foldl_cons, hstep, ih, Nat.add_right_comm, Nat.add_assoc]

/-- Nothing is left to cancel where all steps up stand in front. -/
theorem cancelled_of_settled {segments : List String} (h : Settled segments) :
    cancelled segments = segments := by
  obtain ⟨k, names, rfl, hnames⟩ := h
  have hups := foldl_cancelStep_ups 0 k
  rw [List.replicate_zero, Nat.zero_add] at hups
  rw [cancelled, List.foldl_append, hups, foldl_cancelStep_names hnames, List.reverse_append,
    List.reverse_reverse, List.reverse_replicate]

/-- Steps down and as many steps up cancel each other. -/
theorem cancelled_append_steps {left : List String} (h : up ∉ left) (before after : List String) :
    cancelled (before ++ left ++ (List.replicate left.length up ++ after))
      = cancelled (before ++ after) := by
  have hback : up ∉ left.reverse := fun hleft => h (List.mem_reverse.1 hleft)
  have hlength : left.length = left.reverse.length := List.length_reverse.symm
  rw [cancelled, cancelled]
  simp only [List.foldl_append]
  rw [foldl_cancelStep_names h, hlength, foldl_cancelStep_steps hback]

/-! ### Resolving -/

theorem enter_blank {segment : String} (h : segment = "" ∨ segment = ".") (rooted : Bool)
    (stack : List String) : enter rooted stack segment = stack := by
  simp only [enter, if_pos h]

theorem enter_name {segment : String} (hblank : ¬ (segment = "" ∨ segment = "."))
    (hup : segment ≠ up) (rooted : Bool) (stack : List String) :
    enter rooted stack segment = segment :: stack := by
  simp only [enter, if_neg hblank, if_neg hup]

theorem enter_up (rooted : Bool) (stack : List String) :
    enter rooted stack up
      = match stack with
        | [] => if rooted then [] else [up]
        | top :: rest => if top = up then up :: top :: rest else rest := by
  have hblank : ¬ (up = "" ∨ up = ".") := by decide
  exact (if_neg hblank).trans (if_pos rfl)

/-- One step stays, goes down by its segment, or goes up by one. -/
theorem enter_cases (rooted : Bool) (stack : List String) (segment : String) :
    enter rooted stack segment = stack ∨
      (enter rooted stack segment = segment :: stack ∧ segment ≠ "" ∧ segment ≠ ".") ∨
      ∃ top, stack = top :: enter rooted stack segment := by
  by_cases hblank : segment = "" ∨ segment = "."
  · exact .inl (enter_blank hblank rooted stack)
  have hsegment : segment ≠ "" ∧ segment ≠ "." := not_or.1 hblank
  -- A step up is kept where there is nothing to take back, unless the walk is rooted.
  by_cases hup : segment = up
  · subst hup
    rw [enter_up]
    cases stack with
    | nil =>
      cases rooted with
      | true => exact .inl rfl
      | false => exact .inr (.inl ⟨rfl, hsegment⟩)
    | cons top rest =>
      by_cases htop : top = up
      · exact .inr (.inl ⟨if_pos htop, hsegment⟩)
      · exact .inr (.inr ⟨top, congrArg (top :: ·) (if_neg htop).symm⟩)
  · exact .inr (.inl ⟨enter_name hblank hup rooted stack, hsegment⟩)

/-- A stack with names on top, and under them the steps up that found no name; at a root
there are none of these. -/
def Climbed (rooted : Bool) (stack : List String) : Prop :=
  ∃ names k, stack = names ++ List.replicate k up ∧ up ∉ names ∧ (rooted = true → k = 0)

/-- Each step of a walk leaves such a stack. -/
theorem Climbed.enter {rooted : Bool} {stack : List String} (h : Climbed rooted stack)
    (segment : String) : Climbed rooted (enter rooted stack segment) := by
  by_cases hblank : segment = "" ∨ segment = "."
  · rw [enter_blank hblank]
    exact h
  obtain ⟨names, k, rfl, hnames, hk⟩ := h
  by_cases hup : segment = up
  · rw [hup, enter_up]
    cases names with
    | cons name names =>
      -- The last name is taken back.
      rw [List.mem_cons, not_or] at hnames
      exact ⟨names, k, if_neg (Ne.symm hnames.1), hnames.2, hk⟩
    | nil =>
      cases k with
      | zero =>
        cases rooted with
        | true => exact ⟨[], 0, rfl, List.not_mem_nil, fun _ => rfl⟩
        | false => exact ⟨[], 1, rfl, List.not_mem_nil, nofun⟩
      | succ k =>
        have hunrooted : rooted ≠ true := fun hr => Nat.noConfusion (hk hr)
        exact ⟨[], k + 2, if_pos rfl, List.not_mem_nil, fun hr => absurd hr hunrooted⟩
  · rw [enter_name hblank hup]
    refine ⟨segment :: names, k, rfl, ?_, hk⟩
    rw [List.mem_cons, not_or]
    exact ⟨Ne.symm hup, hnames⟩

/-- And so does a whole walk. -/
theorem Climbed.walk {rooted : Bool} {stack : List String} (h : Climbed rooted stack)
    (segments : List String) : Climbed rooted (segments.foldl (Segments.enter rooted) stack) := by
  induction segments generalizing stack with
  | nil => exact h
  | cons segment segments ih => exact ih (h.enter segment)

theorem resolve_eq (rooted : Bool) (segments : List String) :
    ∃ k names, resolve rooted segments = List.replicate k up ++ names ∧ up ∉ names ∧
      (rooted = true → k = 0) := by
  have hnone : Climbed rooted [] := ⟨[], 0, rfl, List.not_mem_nil, fun _ => rfl⟩
  obtain ⟨names, k, hstack, hnames, hk⟩ := hnone.walk segments
  refine ⟨k, names.reverse, ?_, fun h => hnames (List.mem_reverse.1 h), hk⟩
  rw [resolve, hstack, List.reverse_append, List.reverse_replicate]

theorem resolve_settled (rooted : Bool) (segments : List String) :
    Settled (resolve rooted segments) := by
  obtain ⟨k, names, h, hnames, -⟩ := resolve_eq rooted segments
  exact ⟨k, names, h, hnames⟩

/-- At a root no step up is left. -/
theorem up_not_mem_resolve_rooted (segments : List String) : up ∉ resolve true segments := by
  obtain ⟨k, names, h, hnames, hk⟩ := resolve_eq true segments
  rw [h, hk rfl]
  exact hnames

/-- What one step puts on the stack is the segment itself. -/
theorem mem_enter {rooted : Bool} {stack : List String} {segment s : String}
    (h : s ∈ enter rooted stack segment) :
    s ∈ stack ∨ s = segment ∧ segment ≠ "" ∧ segment ≠ "." := by
  rcases enter_cases rooted stack segment with hstay | ⟨hdown, hsegment⟩ | ⟨top, hup⟩
  · rw [hstay] at h
    exact .inl h
  · rw [hdown] at h
    exact (List.mem_cons.1 h).symm.imp id fun hs => ⟨hs, hsegment⟩
  · rw [hup]
    exact .inl (List.mem_cons_of_mem _ h)

theorem mem_resolve {rooted : Bool} {segments : List String} {s : String}
    (h : s ∈ resolve rooted segments) : s ∈ segments ∧ s ≠ "" ∧ s ≠ "." := by
  have hwalk : ∀ stack, s ∈ segments.foldl (enter rooted) stack →
      s ∈ stack ∨ s ∈ segments ∧ s ≠ "" ∧ s ≠ "." := by
    clear h
    induction segments with
    | nil => exact fun _ hs => .inl hs
    | cons segment segments ih =>
      intro stack hs
      rcases ih _ hs with hs | hs
      · rcases mem_enter hs with hs | ⟨rfl, hs⟩
        · exact .inl hs
        · exact .inr ⟨List.mem_cons_self, hs⟩
      · exact .inr ⟨List.mem_cons_of_mem _ hs.1, hs.2⟩
  exact (hwalk [] (List.mem_reverse.1 h)).resolve_left List.not_mem_nil

/-! ### Walks along resolved segments -/

/-- A walk goes down through names. -/
theorem foldl_enter_names {names : List String} (hblank : ∀ s ∈ names, s ≠ "" ∧ s ≠ ".")
    (hup : up ∉ names) (rooted : Bool) (stack : List String) :
    names.foldl (enter rooted) stack = names.reverse ++ stack := by
  induction names generalizing stack with
  | nil => rfl
  | cons name names ih =>
    rw [List.mem_cons, not_or] at hup
    have hname : ¬ (name = "" ∨ name = ".") := not_or.2 (hblank name List.mem_cons_self)
    have hnames : ∀ s ∈ names, s ≠ "" ∧ s ≠ "." := fun s hs =>
      hblank s (List.mem_cons_of_mem _ hs)
    rw [List.foldl_cons, enter_name hname (Ne.symm hup.1), ih hnames hup.2, List.reverse_cons,
      List.append_assoc, List.singleton_append]

/-- One more segment may be taken before or after the others were passed on. -/
theorem foldl_enter_enter {walked : List String} (h : ∀ s ∈ walked, s ≠ "" ∧ s ≠ ".")
    (rooted : Bool) (stack : List String) (segment : String) :
    (enter false walked segment).reverse.foldl (enter rooted) stack
      = enter rooted (walked.reverse.foldl (enter rooted) stack) segment := by
  by_cases hblank : segment = "" ∨ segment = "."
  · rw [enter_blank hblank, enter_blank hblank]
  by_cases hup : segment = up
  · subst hup
    cases walked with
    | nil => rfl
    | cons top rest =>
      rw [enter_up, List.reverse_cons, List.foldl_append]
      by_cases htop : top = up
      · -- A kept step up is followed by another one.
        simp only [if_pos htop, List.reverse_cons, List.foldl_append, List.foldl_cons,
          List.foldl_nil]
      · -- The last name is taken back on either side.
        have hname : ¬ (top = "" ∨ top = ".") := not_or.2 (h top List.mem_cons_self)
        simp only [if_neg htop, List.foldl_cons, List.foldl_nil, enter_name hname htop, enter_up]
  · rw [enter_name hblank hup, List.reverse_cons, List.foldl_append, List.foldl_cons,
      List.foldl_nil]

/-- A walk from anywhere may take a resolved path in place of the path. -/
theorem foldl_enter_resolve (rooted : Bool) (segments stack : List String) :
    (resolve false segments).foldl (enter rooted) stack = segments.foldl (enter rooted) stack := by
  -- From any walk without blank segments, since the walk grows along the segments.
  have hwalk : ∀ walked : List String, (∀ s ∈ walked, s ≠ "" ∧ s ≠ ".") →
      (segments.foldl (enter false) walked).reverse.foldl (enter rooted) stack
        = segments.foldl (enter rooted) (walked.reverse.foldl (enter rooted) stack) := by
    induction segments with
    | nil => exact fun _ _ => rfl
    | cons segment segments ih =>
      intro walked h
      have hnext : ∀ s ∈ enter false walked segment, s ≠ "" ∧ s ≠ "." := by
        intro s hs
        rcases mem_enter hs with hs | ⟨rfl, hs⟩
        · exact h s hs
        · exact hs
      rw [List.foldl_cons, List.foldl_cons, ih _ hnext, foldl_enter_enter h]
  exact hwalk [] fun s hs => absurd hs List.not_mem_nil

/-- Away from a root, and without empty segments and `.`, a walk is what cancelling is. -/
theorem resolve_false_eq_cancelled {segments : List String}
    (hblank : ∀ s ∈ segments, s ≠ "" ∧ s ≠ ".") : resolve false segments = cancelled segments := by
  have hstep : ∀ s, s ≠ "" ∧ s ≠ "." → ∀ stack, enter false stack s = cancelStep stack s := by
    intro s hs stack
    have hname : ¬ (s = "" ∨ s = ".") := not_or.2 hs
    by_cases hup : s = up
    · subst hup
      rw [enter_up]
      cases stack with
      | nil => rfl
      | cons top rest => by_cases htop : top = up <;> simp [cancelStep, htop]
    · rw [enter_name hname hup, cancelStep_of_ne hup]
  rw [resolve, cancelled]
  refine congrArg List.reverse (List.foldl_ext _ _ _ fun stack s hs => hstep s (hblank s hs) stack)

/-- Settled segments are resolved already. -/
theorem resolve_of_settled {rooted : Bool} {segments : List String} (h : Settled segments)
    (hblank : ∀ s ∈ segments, s ≠ "" ∧ s ≠ ".") (hup : rooted = true → up ∉ segments) :
    resolve rooted segments = segments := by
  cases rooted with
  | false => rw [resolve_false_eq_cancelled hblank, cancelled_of_settled h]
  | true =>
    rw [resolve, foldl_enter_names hblank (hup rfl), List.append_nil, List.reverse_reverse]

theorem settled_of_resolve_eq {rooted : Bool} {segments : List String}
    (h : resolve rooted segments = segments) : Settled segments :=
  h ▸ resolve_settled rooted segments

/-- Nothing is left to resolve. -/
theorem resolve_resolve (rooted : Bool) (segments : List String) :
    resolve rooted (resolve rooted segments) = resolve rooted segments := by
  refine resolve_of_settled (resolve_settled rooted segments) (fun s hs => (mem_resolve hs).2) ?_
  rintro rfl
  exact up_not_mem_resolve_rooted segments

end IncludeTrace.Segments
