/-
The shortest display name, and the earliest base directory that it comes from.

The choice passes over the base directories once and changes its mind only for a shorter text.
So it ends with the first one of the shortest texts, further base directories make no difference
to it unless they have a shorter one, and candidates that are left out in another mode can only
have kept it longer.

* `FirstShortest`, `earliestShortest?_eq_some_iff` — what is chosen from a list of texts;
* `earliestShortest?_append` — the choice from a longer list;
* `Usable`, `Foremost` — base directories with a route to a path, and the one that is chosen;
* `displayName?_foremost` — what is shown where steps up are allowed.
-/
import Mathlib.Data.List.Induction
import IncludeTrace.Proofs.ShortestNames

namespace IncludeTrace

/-! ### The first one of the shortest texts -/

/-- A text of a list, shorter than those in front of it and not longer than those behind it. -/
def FirstShortest (texts : List String) (text : String) : Prop :=
  ∃ before after, texts = before ++ text :: after ∧ (∀ t ∈ before, text.length < t.length) ∧
    ∀ t ∈ after, text.length ≤ t.length

theorem FirstShortest.length_le {texts : List String} {text t : String}
    (h : FirstShortest texts text) (ht : t ∈ texts) : text.length ≤ t.length := by
  obtain ⟨before, after, rfl, hbefore, hafter⟩ := h
  rcases List.mem_append.1 ht with ht | ht
  · exact Nat.le_of_lt (hbefore t ht)
  · rcases List.mem_cons.1 ht with rfl | ht
    · exact Nat.le_refl _
    · exact hafter t ht

/-- One more text is the choice if it is shorter than all others. -/
theorem firstShortest_concat {texts : List String} {last text : String} :
    FirstShortest (texts ++ [last]) text ↔
      FirstShortest texts text ∧ text.length ≤ last.length ∨
        text = last ∧ ∀ t ∈ texts, last.length < t.length := by
  constructor
  · rintro ⟨before, after, heq, hbefore, hafter⟩
    rcases List.eq_nil_or_concat after with rfl | ⟨after, x, rfl⟩
    · obtain ⟨rfl, hlast⟩ := List.append_inj' heq rfl
      obtain rfl := List.singleton_inj.1 hlast
      exact .inr ⟨rfl, hbefore⟩
    · rw [List.concat_eq_append, ← List.cons_append, ← List.append_assoc] at heq
      obtain ⟨rfl, hlast⟩ := List.append_inj' heq rfl
      obtain rfl := List.singleton_inj.1 hlast
      refine .inl ⟨⟨before, after, rfl, hbefore, fun t ht => hafter t ?_⟩, hafter last ?_⟩
      · rw [List.concat_eq_append]
        exact List.mem_append_left _ ht
      · rw [List.concat_eq_append]
        exact List.mem_append_right _ List.mem_cons_self
  · rintro (⟨⟨before, after, rfl, hbefore, hafter⟩, hle⟩ | ⟨rfl, hall⟩)
    · refine ⟨before, after ++ [last], by simp, hbefore, fun t ht => ?_⟩
      rcases List.mem_append.1 ht with ht | ht
      · exact hafter t ht
      · rwa [List.mem_singleton.1 ht]
    · exact ⟨texts, [], rfl, hall, fun t ht => absurd ht List.not_mem_nil⟩

theorem earliestShortest?_concat (texts : List String) (last : String) :
    earliestShortest? (texts ++ [last]) = shorterOf (earliestShortest? texts) last := by
  rw [earliestShortest?, List.foldl_append]
  rfl

theorem earliestShortest?_eq_none_iff {texts : List String} :
    earliestShortest? texts = none ↔ texts = [] := by
  constructor
  · intro hnone
    refine List.eq_nil_iff_forall_not_mem.2 fun text htext => ?_
    obtain ⟨shown, hshown, -⟩ := exists_earliestShortest? htext
    exact absurd (hnone.symm.trans hshown) nofun
  · rintro rfl
    rfl

/-- The choice is the first one of the shortest texts. -/
theorem earliestShortest?_eq_some_iff {texts : List String} {text : String} :
    earliestShortest? texts = some text ↔ FirstShortest texts text := by
  -- From the back, as the best text so far is that of the front.
  induction texts using List.reverseRecOn generalizing text with
  | nil =>
    refine ⟨nofun, ?_⟩
    rintro ⟨before, after, heq, -⟩
    exact absurd heq (by simp)
  | append_singleton texts last ih =>
    rw [earliestShortest?_concat, firstShortest_concat]
    cases hbest : earliestShortest? texts with
    | none =>
      obtain rfl := earliestShortest?_eq_none_iff.1 hbest
      rw [← ih, hbest]
      simp [shorterOf, eq_comm]
    | some best =>
      have hfirst : FirstShortest texts best := ih.1 hbest
      rw [← ih, hbest, Option.some.injEq]
      by_cases hlt : last.length < best.length
      · -- The last text is shorter than the best one so far, and so than all others.
        have hall : ∀ t ∈ texts, last.length < t.length := fun t ht =>
          Nat.lt_of_lt_of_le hlt (hfirst.length_le ht)
        rw [shorterOf, if_pos hlt, Option.some.injEq]
        constructor
        · intro htext
          exact .inr ⟨htext.symm, hall⟩
        · rintro (⟨rfl, hle⟩ | ⟨rfl, -⟩)
          · omega
          · rfl
      · have hmem : best ∈ texts := mem_of_earliestShortest?_eq_some hbest
        rw [shorterOf, if_neg hlt, Option.some.injEq]
        constructor
        · rintro rfl
          exact .inl ⟨rfl, Nat.le_of_not_lt hlt⟩
        · rintro (⟨rfl, -⟩ | ⟨rfl, hall⟩)
          · rfl
          · exact absurd (hall best hmem) hlt

/-- From a longer list the same text is chosen, or a shorter one. -/
theorem earliestShortest?_append {texts : List String} {text : String}
    (h : earliestShortest? texts = some text) (more : List String) :
    ∃ other, earliestShortest? (texts ++ more) = some other ∧
      (other = text ∨ other.length < text.length) := by
  induction more using List.reverseRecOn with
  | nil => exact ⟨text, by rwa [List.append_nil], .inl rfl⟩
  | append_singleton more last ih =>
    obtain ⟨other, hother, hle⟩ := ih
    rw [← List.append_assoc, earliestShortest?_concat, hother]
    by_cases hlt : last.length < other.length
    · refine ⟨last, if_pos hlt, .inr ?_⟩
      rcases hle with rfl | hle
      · exact hlt
      · exact hlt.trans hle
    · exact ⟨other, if_neg hlt, hle⟩

/-- The choice among what some members of a list have to offer. -/
theorem firstShortest_filterMap {α : Type} {f : α → Option String} {l : List α} {text : String} :
    FirstShortest (l.filterMap f) text ↔
      ∃ before a after, l = before ++ a :: after ∧ f a = some text ∧
        (∀ b ∈ before, ∀ t ∈ f b, text.length < t.length) ∧
        ∀ b ∈ after, ∀ t ∈ f b, text.length ≤ t.length := by
  constructor
  · rintro ⟨before, after, heq, hbefore, hafter⟩
    obtain ⟨front, rest, rfl, rfl, hrest⟩ := List.filterMap_eq_append_iff.1 heq
    obtain ⟨skipped, a, back, rfl, hskipped, ha, rfl⟩ := List.filterMap_eq_cons_iff.1 hrest
    refine ⟨front ++ skipped, a, back, (List.append_assoc _ _ _).symm, ha, ?_, ?_⟩
    · intro b hb t ht
      rcases List.mem_append.1 hb with hb | hb
      · exact hbefore t (List.mem_filterMap.2 ⟨b, hb, ht⟩)
      · -- Members that offer nothing take no part in the comparison.
        exact absurd (ht.symm.trans (hskipped b hb)) nofun
    · exact fun b hb t ht => hafter t (List.mem_filterMap.2 ⟨b, hb, ht⟩)
  · rintro ⟨before, a, after, rfl, ha, hbefore, hafter⟩
    refine ⟨before.filterMap f, after.filterMap f, ?_, ?_, ?_⟩
    · rw [List.filterMap_append, List.filterMap_cons_some ha]
    · intro t ht
      obtain ⟨b, hb, hbt⟩ := List.mem_filterMap.1 ht
      exact hbefore b hb t hbt
    · intro t ht
      obtain ⟨b, hb, hbt⟩ := List.mem_filterMap.1 ht
      exact hafter b hb t hbt

/-! ### Base directories -/

/-- A named base directory has a route to the target that is not empty. -/
def Usable (target : Location) (base : String) (route : List String) : Prop :=
  base ≠ "" ∧ (Location.under target.flavour base).routeTo? target = some route ∧ route ≠ []

/-- A text is the route from one of the base directories, shorter than those from all base
directories in front of it, and not longer than those from the ones behind it. -/
def Foremost (target : Location) (bases : List String) (shown : String) : Prop :=
  ∃ before base after route, bases = before ++ base :: after ∧ Usable target base route ∧
    shown = target.flavour.joined route ∧
    (∀ other ∈ before, ∀ r, Usable target other r →
      shown.length < (target.flavour.joined r).length) ∧
    ∀ other ∈ after, ∀ r, Usable target other r → shown.length ≤ (target.flavour.joined r).length

/-- The text that a base directory has to offer, if any. -/
def offered? (target : Location) (base : String) : Option String :=
  (candidateRoute? false target base).map target.flavour.joined

theorem offered?_eq_some_iff {target : Location} {base text : String} :
    offered? target base = some text ↔
      ∃ route, Usable target base route ∧ text = target.flavour.joined route := by
  rw [offered?, Option.map_eq_some_iff]
  refine exists_congr fun route => and_congr ?_ eq_comm
  rw [candidateRoute?_eq_some_iff, Usable]
  simp

theorem shortestRoute?_eq (bases : List String) (path : String) :
    shortestRoute? false bases path
      = earliestShortest? (bases.filterMap (offered? (Location.normalize path))) := by
  simp only [shortestRoute?, List.map_filterMap]
  rfl

/-- The chosen text comes from the foremost base directory. -/
theorem shortestRoute?_eq_some_iff {bases : List String} {path shown : String} :
    shortestRoute? false bases path = some shown ↔
      Foremost (Location.normalize path) bases shown := by
  rw [shortestRoute?_eq, earliestShortest?_eq_some_iff, firstShortest_filterMap]
  generalize Location.normalize path = target
  have hall : ∀ {P : String → Prop} (base : String), (∀ t ∈ offered? target base, P t) ↔
      ∀ r, Usable target base r → P (target.flavour.joined r) := by
    intro P base
    constructor
    · intro h r hr
      exact h _ (offered?_eq_some_iff.2 ⟨r, hr, rfl⟩)
    · intro h t ht
      obtain ⟨r, hr, rfl⟩ := offered?_eq_some_iff.1 ht
      exact h r hr
  constructor
  · rintro ⟨before, base, after, rfl, hbase, hbefore, hafter⟩
    obtain ⟨route, hroute, rfl⟩ := offered?_eq_some_iff.1 hbase
    exact ⟨before, base, after, route, rfl, hroute, rfl,
      fun other hother => (hall other).1 (hbefore other hother),
      fun other hother => (hall other).1 (hafter other hother)⟩
  · rintro ⟨before, base, after, route, rfl, hroute, rfl, hbefore, hafter⟩
    exact ⟨before, base, after, rfl, offered?_eq_some_iff.2 ⟨route, hroute, rfl⟩,
      fun other hother => (hall other).2 (hbefore other hother),
      fun other hother => (hall other).2 (hafter other hother)⟩

theorem shortestRoute?_eq_none_iff {bases : List String} {path : String} :
    shortestRoute? false bases path = none ↔
      ∀ base ∈ bases, ∀ route, ¬ Usable (Location.normalize path) base route := by
  rw [shortestRoute?_eq, earliestShortest?_eq_none_iff, List.filterMap_eq_nil_iff]
  generalize Location.normalize path = target
  refine forall₂_congr fun base _ => ?_
  rw [Option.eq_none_iff_forall_ne_some]
  constructor
  · intro h route hroute
    exact h _ (offered?_eq_some_iff.2 ⟨route, hroute, rfl⟩)
  · intro h text htext
    obtain ⟨route, hroute, -⟩ := offered?_eq_some_iff.1 htext
    exact h route hroute

theorem displayName?_of_ne {path : String} (hpath : path ≠ "") (bases : List String) :
    displayName? .shortest bases path = shortestRoute? false bases path ∧
      displayName? .shortestAvoidingUp bases path = shortestRoute? true bases path :=
  ⟨if_neg hpath, if_neg hpath⟩

/-- **The first one of the shortest routes is shown.**  Where steps up are allowed, a path is
shown by the shortest route, from the first base directory that has one as short, and by none
only if there is none that is not empty.  More base directories behind the others leave the
name as it is or make it shorter, and it is never longer than without steps up. -/
theorem displayName?_foremost {path : String} (hpath : path ≠ "") (bases : List String) :
    (displayName? .shortest bases path = none ↔
      ∀ base ∈ bases, ∀ route, ¬ Usable (Location.normalize path) base route) ∧
    (∀ shown, displayName? .shortest bases path = some shown ↔
      Foremost (Location.normalize path) bases shown) ∧
    (∀ more shown, displayName? .shortest bases path = some shown →
      ∃ other, displayName? .shortest (bases ++ more) path = some other ∧
        (other = shown ∨ other.length < shown.length)) ∧
    ∀ shown, displayName? .shortestAvoidingUp bases path = some shown →
      ∃ other, displayName? .shortest bases path = some other ∧ other.length ≤ shown.length := by
  simp only [displayName?_of_ne hpath]
  refine ⟨shortestRoute?_eq_none_iff, fun _ => shortestRoute?_eq_some_iff, ?_, ?_⟩
  · intro more shown hshown
    rw [shortestRoute?_eq] at hshown ⊢
    rw [List.filterMap_append]
    exact earliestShortest?_append hshown _
  · intro shown hshown
    obtain ⟨base, hbase, route, hroute, rfl⟩ := exists_of_shortestRoute?_eq_some hshown
    obtain ⟨hnamed, hfound, hsome, -⟩ := candidateRoute?_eq_some_iff.1 hroute
    -- A route without steps up is a candidate among those with them.
    have hoffered := offered?_eq_some_iff.2 ⟨route, ⟨hnamed, hfound, hsome⟩, rfl⟩
    rw [shortestRoute?_eq]
    exact exists_earliestShortest? (List.mem_filterMap.2 ⟨base, hbase, hoffered⟩)

/-- Of two names of one length the first one is shown. -/
theorem displayName?_foremost_tie :
    "C:\\xy\\a.h" ≠ "" ∧
      displayName? .shortest ["", "D:\\", "C:\\xy\\q", "C:\\"] "C:\\xy\\a.h" = some "..\\a.h" ∧
      Foremost (Location.normalize "C:\\xy\\a.h") ["", "D:\\", "C:\\xy\\q", "C:\\"] "..\\a.h" := by
  have hpath : "C:\\xy\\a.h" ≠ "" := by decide
  have hshown : displayName? .shortest ["", "D:\\", "C:\\xy\\q", "C:\\"] "C:\\xy\\a.h"
      = some "..\\a.h" := by decide +kernel
  exact ⟨hpath, hshown, ((displayName?_foremost hpath _).2.1 _).1 hshown⟩

/-- The other one is as long, and is shown where its base directory comes first. -/
example : displayName? .shortest ["C:\\", "C:\\xy\\q"] "C:\\xy\\a.h" = some "xy\\a.h" := by
  decide +kernel

end IncludeTrace
