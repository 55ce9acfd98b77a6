/-
Walks from one list of segments to another, and how many steps they need.

Lists of segments form a tree: behind a list stand those with one more segment, and a step of
a walk stays, goes down by one segment or goes up by one.  So no walk is shorter than the way
in this tree, which leads up to the segments that both lists share and down from there.  A
step up that is kept is the floor of all further steps, so what is below it cannot be left.

* `reached` — the segments that a walk from given ones reaches;
* `reached_append_up` — what is below a kept step up stays as it is;
* `reached_steps`, `reached_drop` — the ways up and down that routes are made of;
* `settled_reached` — from names, only settled segments are reached;
* `distance`, `distance_le_length` — a walk has at least as many segments as there are steps
  between its ends.
-/
import IncludeTrace.Proofs.Routes
import IncludeTrace.Proofs.SegmentKeys

namespace IncludeTrace

namespace Segments

/-- The segments that a walk from given ones reaches. -/
def reached (rooted : Bool) (start route : List String) : List String :=
  (route.foldl (enter rooted) start.reverse).reverse

theorem reached_append (rooted : Bool) (start first second : List String) :
    reached rooted start (first ++ second)
      = reached rooted (reached rooted start first) second := by
  simp only [reached, List.foldl_append, List.reverse_reverse]

theorem reached_cons (rooted : Bool) (start : List String) (segment : String)
    (route : List String) :
    reached rooted start (segment :: route)
      = reached rooted (reached rooted start [segment]) route :=
  reached_append rooted start [segment] route

/-- One step stays, goes down by its segment, or goes up by one. -/
theorem reached_singleton_cases (rooted : Bool) (start : List String) (segment : String) :
    reached rooted start [segment] = start ∨ reached rooted start [segment] = start ++ [segment] ∨
      ∃ last, start = reached rooted start [segment] ++ [last] := by
  have hone : reached rooted start [segment] = (enter rooted start.reverse segment).reverse := rfl
  rw [hone]
  rcases enter_cases rooted start.reverse segment with hstay | ⟨hdown, -⟩ | ⟨last, hup⟩
  · exact .inl (by rw [hstay, List.reverse_reverse])
  · exact .inr (.inl (by rw [hdown, List.reverse_cons, List.reverse_reverse]))
  · refine .inr (.inr ⟨last, ?_⟩)
    rw [← List.reverse_cons, ← hup, List.reverse_reverse]

/-- A step that gets deeper goes down by its segment. -/
theorem reached_singleton_eq {rooted : Bool} {start : List String} {segment : String}
    (h : start.length < (reached rooted start [segment]).length) :
    reached rooted start [segment] = start ++ [segment] := by
  rcases reached_singleton_cases rooted start segment with hone | hone | ⟨last, hone⟩
  · rw [hone] at h
    exact absurd h (Nat.lt_irrefl _)
  · exact hone
  · have hlength := congrArg List.length hone
    rw [List.length_append, List.length_singleton] at hlength
    omega

theorem length_reached_le (rooted : Bool) (start route : List String) :
    (reached rooted start route).length ≤ start.length + route.length := by
  induction route generalizing start with
  | nil => simp [reached]
  | cons segment route ih =>
    have hrest := ih (reached rooted start [segment])
    have hone : (reached rooted start [segment]).length ≤ start.length + 1 := by
      by_cases hdown : start.length < (reached rooted start [segment]).length
      · simp [reached_singleton_eq hdown]
      · omega
    rw [reached_cons, List.length_cons]
    omega

/-- A walk that gets deeper with every segment passes them all on. -/
theorem reached_eq_append {rooted : Bool} {start route : List String}
    (h : (reached rooted start route).length = start.length + route.length) :
    reached rooted start route = start ++ route := by
  induction route generalizing start with
  | nil => simp [reached]
  | cons segment route ih =>
    have hle := length_reached_le rooted (reached rooted start [segment]) route
    rw [reached_cons, List.length_cons] at h
    have hone : reached rooted start [segment] = start ++ [segment] :=
      reached_singleton_eq (by omega)
    rw [hone] at h
    rw [reached_cons, hone, ih (by rw [h, List.length_append, List.length_singleton]; omega),
      List.append_assoc, List.singleton_append]

/-! ### The floor of a walk -/

theorem enter_append_up (rooted : Bool) (above below : List String) (segment : String) :
    enter rooted (above ++ up :: below) segment = enter false above segment ++ up :: below := by
  by_cases hblank : segment = "" ∨ segment = "."
  · rw [enter_blank hblank, enter_blank hblank]
  by_cases hup : segment = up
  · subst hup
    rw [enter_up, enter_up]
    cases above with
    | nil => rfl
    | cons top rest => by_cases htop : top = up <;> simp [htop]
  · rw [enter_name hblank hup, enter_name hblank hup, List.cons_append]

/-- What is below a kept step up stays as it is. -/
theorem reached_append_up (rooted : Bool) (below above route : List String) :
    reached rooted (below ++ up :: above) route = below ++ up :: reached false above route := by
  have hwalk : ∀ stack, route.foldl (enter rooted) (stack ++ up :: below.reverse)
      = route.foldl (enter false) stack ++ up :: below.reverse := by
    induction route with
    | nil => exact fun _ => rfl
    | cons segment route ih =>
      intro stack
      rw [List.foldl_cons, List.foldl_cons, enter_append_up, ih]
  simp [reached, hwalk]

/-- From names, only settled segments are reached. -/
theorem settled_reached {start : List String} (h : up ∉ start) (rooted : Bool)
    (route : List String) : Settled (reached rooted start route) := by
  have hstart : Climbed rooted start.reverse :=
    ⟨start.reverse, 0, by simp, fun hup => h (List.mem_reverse.1 hup), fun _ => rfl⟩
  obtain ⟨names, k, hstack, hnames, -⟩ := hstart.walk route
  refine ⟨k, names.reverse, ?_, fun hup => hnames (List.mem_reverse.1 hup)⟩
  rw [reached, hstack, List.reverse_append, List.reverse_replicate]

/-! ### Up and down -/

/-- As many steps up as there are names lead out of them. -/
theorem reached_steps {left : List String} (h : up ∉ left) (rooted : Bool)
    (start : List String) :
    reached rooted (start ++ left) (List.replicate left.length up) = start := by
  induction left generalizing start with
  | nil => simp [reached]
  | cons name left ih =>
    rw [List.mem_cons, not_or] at h
    -- The last step up leaves the first name.
    have hlast : reached rooted (start ++ [name]) [up] = start := by
      rw [reached, List.foldl_cons, List.foldl_nil, enter_up, List.reverse_append,
        List.reverse_singleton, List.singleton_append]
      simp only [if_neg (Ne.symm h.1), List.reverse_reverse]
    rw [List.length_cons, List.replicate_succ', reached_append, List.append_cons, ih h.2, hlast]

/-- Resolved segments are reached from any number of the first ones along the others. -/
theorem reached_drop {rooted : Bool} {segments : List String}
    (h : resolve rooted segments = segments) (n : Nat) :
    reached rooted (segments.take n) (segments.drop n) = segments := by
  have hwhole : reached rooted (reached rooted [] (segments.take n)) (segments.drop n)
      = segments := by
    rw [← reached_append, List.take_append_drop]
    exact h
  -- If some segment were not passed on, the walk would not get as deep.
  have hfront : reached rooted [] (segments.take n) = [] ++ segments.take n := by
    refine reached_eq_append (Nat.le_antisymm (length_reached_le rooted [] _) ?_)
    have hle := length_reached_le rooted (reached rooted [] (segments.take n)) (segments.drop n)
    rw [hwhole] at hle
    rw [List.length_nil, List.length_take]
    rw [List.length_drop] at hle
    omega
  rwa [hfront, List.nil_append] at hwhole

/-! ### Alike starts -/

/-- Whether a segment takes another one back can be told from their keys. -/
theorem enter_congr (flavour : Flavour) {xs ys : List String}
    (h : xs.map flavour.key = ys.map flavour.key) (rooted : Bool) (segment : String) :
    (enter rooted xs segment).map flavour.key = (enter rooted ys segment).map flavour.key := by
  by_cases hblank : segment = "" ∨ segment = "."
  · rw [enter_blank hblank, enter_blank hblank, h]
  by_cases hup : segment = up
  · subst hup
    rw [enter_up, enter_up]
    cases xs with
    | nil =>
      rw [List.map_nil, eq_comm, List.map_eq_nil_iff] at h
      rw [h]
    | cons x xs =>
      cases ys with
      | nil => exact absurd h (by simp)
      | cons y ys =>
        rw [List.map_cons, List.map_cons, List.cons.injEq] at h
        have hxy : x = up ↔ y = up := by
          rw [← flavour.key_eq_key_up_iff x, h.1, flavour.key_eq_key_up_iff]
        simp only [hxy]
        split
        · simp [h]
        · exact h.2
  · rw [enter_name hblank hup, enter_name hblank hup, List.map_cons, List.map_cons, h]

theorem reached_congr (flavour : Flavour) {xs ys : List String}
    (h : xs.map flavour.key = ys.map flavour.key) (rooted : Bool) (route : List String) :
    (reached rooted xs route).map flavour.key = (reached rooted ys route).map flavour.key := by
  have hwalk : ∀ as bs : List String, as.map flavour.key = bs.map flavour.key →
      (route.foldl (enter rooted) as).map flavour.key
        = (route.foldl (enter rooted) bs).map flavour.key := by
    induction route with
    | nil => exact fun _ _ hab => hab
    | cons segment route ih =>
      exact fun as bs hab => ih _ _ (enter_congr flavour hab rooted segment)
  have hreverse : xs.reverse.map flavour.key = ys.reverse.map flavour.key := by
    rw [List.map_reverse, List.map_reverse, h]
  rw [reached, reached, List.map_reverse, List.map_reverse, hwalk _ _ hreverse]

/-! ### Distances -/

/-- The number of steps between two lists of segments: up to the segments that they share, and
down from there. -/
def distance (flavour : Flavour) (target start : List String) : Nat :=
  (start.length - commonLength flavour target start)
    + (target.length - commonLength flavour target start)

/-- One more segment is one more that is shared, or changes nothing of what is shared. -/
theorem commonLength_concat (flavour : Flavour) (target start : List String) (last : String) :
    commonLength flavour target (start ++ [last]) = commonLength flavour target start ∨
      commonLength flavour target start = start.length ∧
        commonLength flavour target (start ++ [last]) = start.length + 1 := by
  induction start generalizing target with
  | nil =>
    cases target with
    | nil => exact .inl rfl
    | cons a target =>
      by_cases hkey : flavour.key a = flavour.key last
      · exact .inr ⟨rfl, by simp [commonLength, hkey]⟩
      · exact .inl (by simp [commonLength, hkey])
  | cons x start ih =>
    cases target with
    | nil => exact .inl rfl
    | cons a target =>
      by_cases hkey : flavour.key a = flavour.key x
      · simpa [commonLength, hkey] using ih target
      · exact .inl (by simp [commonLength, hkey])

/-- One more segment is at most one step away. -/
theorem distance_concat (flavour : Flavour) (target start : List String) (last : String) :
    distance flavour target start ≤ distance flavour target (start ++ [last]) + 1 ∧
      distance flavour target (start ++ [last]) ≤ distance flavour target start + 1 := by
  have hstart := commonLength_le_right flavour target start
  have htarget := commonLength_le_left flavour target (start ++ [last])
  rw [distance, distance, List.length_append, List.length_singleton]
  rcases commonLength_concat flavour target start last with h | ⟨h, h'⟩ <;> omega

/-- One segment of a walk brings it nearer by at most one step. -/
theorem distance_le_succ (flavour : Flavour) (target : List String) (rooted : Bool)
    (start : List String) (segment : String) :
    distance flavour target start
      ≤ distance flavour target (reached rooted start [segment]) + 1 := by
  rcases reached_singleton_cases rooted start segment with hone | hone | ⟨last, hone⟩
  · rw [hone]
    exact Nat.le_succ _
  · rw [hone]
    exact (distance_concat flavour target start segment).1
  · have hup := (distance_concat flavour target (reached rooted start [segment]) last).2
    rwa [← hone] at hup

/-- So a whole walk brings it nearer by at most its length. -/
theorem distance_le_add (flavour : Flavour) (target : List String) (rooted : Bool)
    (start route : List String) :
    distance flavour target start
      ≤ distance flavour target (reached rooted start route) + route.length := by
  induction route generalizing start with
  | nil => simp [reached]
  | cons segment route ih =>
    have hone := distance_le_succ flavour target rooted start segment
    have hrest := ih (reached rooted start [segment])
    rw [reached_cons, List.length_cons]
    omega

theorem distance_eq_zero {flavour : Flavour} {target start : List String}
    (h : start.map flavour.key = target.map flavour.key) : distance flavour target start = 0 := by
  have hcommon := commonLength_append h.symm [] []
  have hlength : start.length = target.length := by simpa using congrArg List.length h
  rw [List.append_nil, List.append_nil, commonLength_nil_right, Nat.add_zero] at hcommon
  rw [distance, hcommon, hlength, Nat.sub_self]

/-- A walk has at least as many segments as there are steps between its ends. -/
theorem distance_le_length {flavour : Flavour} {target start route : List String} {rooted : Bool}
    (h : (reached rooted start route).map flavour.key = target.map flavour.key) :
    distance flavour target start ≤ route.length := by
  have hle := distance_le_add flavour target rooted start route
  rwa [distance_eq_zero h, Nat.zero_add] at hle

end Segments

end IncludeTrace
