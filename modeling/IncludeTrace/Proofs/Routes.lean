/-
What the routes between locations look like, and which of them is shown.

* `take_commonLength`, `commonLength_append` — the segments that two locations share have the
  same keys, and fronts with the same keys are shared;
* `routeTo?_eq_some_iff` — a route goes up out of what is left of the base, and down as the
  target is spelled;
* `candidateRoute?_eq_some_iff` — the routes that can be shown;
* `exists_of_shortestRoute?_eq_some` — what is shown is the route from one of the bases.
-/
import IncludeTrace.Path.Display

namespace IncludeTrace

/-! ### Shared segments -/

theorem commonLength_le_right (flavour : Flavour) (as bs : List String) :
    commonLength flavour as bs ≤ bs.length := by
  fun_induction commonLength flavour as bs with
  | case1 a as b bs hkey ih => exact Nat.succ_le_succ ih
  | case2 a as b bs hkey => exact Nat.zero_le _
  | case3 => exact Nat.zero_le _

theorem commonLength_le_left (flavour : Flavour) (as bs : List String) :
    commonLength flavour as bs ≤ as.length := by
  fun_induction commonLength flavour as bs with
  | case1 a as b bs hkey ih => exact Nat.succ_le_succ ih
  | case2 a as b bs hkey => exact Nat.zero_le _
  | case3 => exact Nat.zero_le _

theorem commonLength_nil_right (flavour : Flavour) (as : List String) :
    commonLength flavour as [] = 0 :=
  Nat.le_zero.1 (commonLength_le_right flavour as [])

/-- Fronts with the same keys are shared, and what is shared behind them. -/
theorem commonLength_append {flavour : Flavour} {front front' : List String}
    (h : front.map flavour.key = front'.map flavour.key) (as bs : List String) :
    commonLength flavour (front ++ as) (front' ++ bs)
      = front.length + commonLength flavour as bs := by
  induction front generalizing front' with
  | nil =>
    rw [List.map_nil, eq_comm, List.map_eq_nil_iff] at h
    rw [h, List.nil_append, List.nil_append, List.length_nil, Nat.zero_add]
  | cons a front ih =>
    cases front' with
    | nil => exact absurd h (by simp)
    | cons b front' =>
      rw [List.map_cons, List.map_cons, List.cons.injEq] at h
      rw [List.cons_append, List.cons_append, commonLength, if_pos h.1, ih h.2, List.length_cons]
      omega

theorem take_commonLength (flavour : Flavour) (as bs : List String) :
    (as.take (commonLength flavour as bs)).map flavour.key
      = (bs.take (commonLength flavour as bs)).map flavour.key := by
  fun_induction commonLength flavour as bs with
  | case1 a as b bs hkey ih =>
    rw [List.take_succ_cons, List.take_succ_cons, List.map_cons, List.map_cons, hkey, ih]
  | case2 a as b bs hkey => rfl
  | case3 => rfl

/-! ### Routes -/

theorem Location.routeTo?_eq_some_iff {base target : Location} {route : List String} :
    base.routeTo? target = some route ↔
      let common := commonLength target.flavour target.segments base.segments
      target.flavour.key target.anchor = target.flavour.key base.anchor ∧
        Segments.up ∉ base.segments.drop common ∧
        route = List.replicate (base.segments.drop common).length Segments.up
          ++ target.segments.drop common := by
  simp only [routeTo?]
  split
  · next hanchor => simp [hanchor]
  · next hanchor =>
    rw [ne_eq, Decidable.not_not] at hanchor
    split
    · next hup => simp [hup]
    · next hup => simp [hanchor, hup, eq_comm]

theorem candidateRoute?_eq_some_iff {avoidUp : Bool} {target : Location} {base : String}
    {route : List String} :
    candidateRoute? avoidUp target base = some route ↔
      base ≠ "" ∧ (Location.under target.flavour base).routeTo? target = some route ∧
        route ≠ [] ∧ (avoidUp = true → Segments.up ∉ route) := by
  by_cases hbase : base = ""
  · simp [candidateRoute?, hbase]
  simp only [candidateRoute?, if_neg hbase]
  cases hroute : (Location.under target.flavour base).routeTo? target with
  | none => simp
  | some found =>
    cases found with
    | nil =>
      -- An empty route leads nowhere.
      refine ⟨nofun, fun ⟨_, hsome, hne, _⟩ => absurd (Option.some.inj hsome).symm hne⟩
    | cons s rest =>
      simp only
      split
      · next hup =>
        rw [Bool.and_eq_true, List.contains_iff_mem] at hup
        refine ⟨nofun, fun ⟨_, hsome, _, havoid⟩ => ?_⟩
        exact absurd (Option.some.inj hsome ▸ hup.2) (havoid hup.1)
      · next hup =>
        rw [Bool.and_eq_true, List.contains_iff_mem, not_and] at hup
        constructor
        · intro hsome
          obtain rfl := Option.some.inj hsome
          exact ⟨hbase, rfl, List.cons_ne_nil _ _, hup⟩
        · exact fun h => h.2.1

/-! ### The shown route -/

/-- A choice between the best value so far and the next one ends with a value that was the
best one from the start, or is one of the values. -/
theorem eq_or_mem_of_foldl_eq_some {α : Type} {choose : Option α → α → Option α}
    (hchoose : ∀ best a, choose best a = best ∨ choose best a = some a) {l : List α} {a : α}
    {best : Option α} (h : l.foldl choose best = some a) : best = some a ∨ a ∈ l := by
  induction l generalizing best with
  | nil => exact Or.inl h
  | cons b l ih =>
    rcases ih h with hnext | hmem
    · rcases hchoose best b with hbest | hb
      · exact Or.inl (hbest.symm.trans hnext)
      · obtain rfl := Option.some.inj (hb.symm.trans hnext)
        exact Or.inr List.mem_cons_self
    · exact Or.inr (List.mem_cons_of_mem _ hmem)

theorem mem_of_earliestShortest?_eq_some {texts : List String} {text : String}
    (h : earliestShortest? texts = some text) : text ∈ texts := by
  refine (eq_or_mem_of_foldl_eq_some ?_ h).resolve_left nofun
  intro best t
  cases best with
  | none => exact Or.inr rfl
  | some b =>
    simp only
    split
    · exact Or.inr rfl
    · exact Or.inl rfl

/-- What is shown is the route from one of the base directories. -/
theorem exists_of_shortestRoute?_eq_some {avoidUp : Bool} {bases : List String}
    {path shown : String} (h : shortestRoute? avoidUp bases path = some shown) :
    ∃ base ∈ bases, ∃ route,
      candidateRoute? avoidUp (Location.normalize path) base = some route ∧
        shown = (Location.normalize path).flavour.joined route := by
  obtain ⟨route, hroute, rfl⟩ := List.mem_map.1 (mem_of_earliestShortest?_eq_some h)
  obtain ⟨base, hbase, hcandidate⟩ := List.mem_filterMap.1 hroute
  exact ⟨base, hbase, route, hcandidate, rfl⟩

theorem shortestRoute?_of_displayName? {mode : DisplayMode} {bases : List String}
    {path shown : String} (hmode : mode.isRelative = true)
    (h : displayName? mode bases path = some shown) :
    shortestRoute? (mode == .shortestAvoidingUp) bases path = some shown := by
  unfold displayName? at h
  split at h
  · exact absurd h nofun
  · cases mode with
    | unchanged => exact absurd hmode (by decide)
    | absolute => exact absurd hmode (by decide)
    | shortest => exact h
    | shortestAvoidingUp => exact h

end IncludeTrace
