/-
Routes are found wherever there are any, and none is shorter.

A route goes up to the segments that base and target share and down from there, which is the
way between the two in the tree of all lists of segments.  Where a `..` of the base is left
there is no route, because no walk gets below it.  Only one kind of path is out of reach of
its own routes: where steps up are left behind the first segment of a normal form, a walk from
a base that does not share them takes that segment back.

* `LeadsTo` — a list of segments leads from a base directory to a location;
* `length_of_routeTo?` — routes are as long as the distance between their ends;
* `leadsTo_of_routeTo?`, `not_leadsTo_of_mem` — where a route leads, and where none does;
* `Navigates`, `routeTo?_shortest` — what is asked of routes, and all pairs of paths for which
  it holds;
* `routeTo?_misleads` — a path that is out of reach.
-/
import IncludeTrace.Proofs.NormalForm
import IncludeTrace.Proofs.WalksBetween

namespace IncludeTrace

open Segments

namespace Location

/-- From a base directory a list of segments leads to a location: names go down, and a `..`
takes back the last name, is lost at a root, and is kept where there is no name elsewhere. -/
def LeadsTo (base target : Location) (route : List String) : Prop :=
  target.flavour.Alike (reached base.isRooted base.segments route) target.segments

instance (base target : Location) (route : List String) : Decidable (base.LeadsTo target route) :=
  inferInstanceAs (Decidable (target.flavour.Alike _ _))

/-- Routes are missing only between different anchors and where no list of segments leads to
the target; they lead there, and no other list that does is shorter. -/
structure Navigates (base target : Location) : Prop where
  none_iff : base.routeTo? target = none ↔
    ¬ target.flavour.Alike [target.anchor] [base.anchor] ∨ ∀ route, ¬ base.LeadsTo target route
  leads : ∀ route, base.routeTo? target = some route → base.LeadsTo target route
  shortest : ∀ route other, base.routeTo? target = some route → base.LeadsTo target other →
    route.length ≤ other.length

variable {base target : Location}

/-! ### Anchors -/

theorem alike_anchors_iff :
    target.flavour.Alike [target.anchor] [base.anchor] ↔
      target.flavour.key target.anchor = target.flavour.key base.anchor := by
  rw [Flavour.alike_iff, List.map_singleton, List.map_singleton, List.singleton_inj]

/-- Alike anchors are both roots or both none. -/
theorem isRooted_congr (hflavour : base.flavour = target.flavour)
    (h : target.flavour.key target.anchor = target.flavour.key base.anchor) :
    base.isRooted = target.isRooted := by
  rw [isRooted, isRooted, hflavour, Bool.eq_iff_iff, beq_iff_eq, beq_iff_eq]
  cases hkind : target.flavour with
  | posix =>
    rw [hkind] at h
    rw [show target.anchor = base.anchor from String.toList_inj.1 h]
  | windows =>
    rw [hkind] at h
    have hfold : Text.fold target.anchor.toList = Text.fold base.anchor.toList := h
    rw [show Flavour.windows.separator = '\\' from rfl, ← Text.getLast?_fold_eq_backslash_iff,
      ← hfold, Text.getLast?_fold_eq_backslash_iff]

/-! ### Where routes lead -/

theorem routeTo?_eq_none_iff :
    base.routeTo? target = none ↔
      target.flavour.key target.anchor ≠ target.flavour.key base.anchor ∨
        up ∈ base.segments.drop
          (commonLength target.flavour target.segments base.segments) := by
  simp only [routeTo?]
  split
  · next hanchor => simp [hanchor]
  · next hanchor =>
    split
    · next hup => simp [hup]
    · next hup => simp [hanchor, hup]

/-- Routes are as long as the distance between their ends. -/
theorem length_of_routeTo? {route : List String} (h : base.routeTo? target = some route) :
    route.length = distance target.flavour target.segments base.segments := by
  obtain ⟨-, -, rfl⟩ := routeTo?_eq_some_iff.1 h
  rw [List.length_append, List.length_replicate, List.length_drop, List.length_drop, distance]

/-- No walk gets below a step up of the base that the target does not share. -/
theorem not_leadsTo_of_mem
    (h : up ∈ base.segments.drop (commonLength target.flavour target.segments base.segments))
    (route : List String) : ¬ base.LeadsTo target route := by
  intro hleads
  rw [LeadsTo, Flavour.alike_iff] at hleads
  have hle := commonLength_le_right target.flavour target.segments base.segments
  obtain ⟨between, above, hleft⟩ := List.append_of_mem h
  have hbase : base.segments
      = (base.segments.take (commonLength target.flavour target.segments base.segments)
          ++ between) ++ up :: above := by
    rw [List.append_assoc, ← hleft, List.take_append_drop]
  generalize hbelow : base.segments.take
    (commonLength target.flavour target.segments base.segments) ++ between = below at hbase
  -- What is below that step up is shared, and so is the step up itself.
  rw [hbase, reached_append_up, List.append_cons] at hleads
  obtain ⟨front, rest, htarget, hfront, -⟩ := List.map_eq_append_iff.1
    (hleads.symm.trans List.map_append)
  have hcommon := commonLength_append hfront rest above
  rw [← htarget, ← List.append_cons, ← hbase] at hcommon
  have hlength : front.length = below.length + 1 := by simpa using congrArg List.length hfront
  have hshort := congrArg List.length hbelow
  rw [List.length_append, List.length_take, Nat.min_eq_left hle] at hshort
  omega

/-- A route leads to its target if what it goes down can be gone down. -/
theorem leadsTo_of_routeTo? {route : List String} (h : base.routeTo? target = some route)
    (hdown : let common := commonLength target.flavour target.segments base.segments
      reached base.isRooted (target.segments.take common) (target.segments.drop common)
        = target.segments) :
    base.LeadsTo target route := by
  obtain ⟨-, hup, rfl⟩ := routeTo?_eq_some_iff.1 h
  have hshared := take_commonLength target.flavour target.segments base.segments
  generalize commonLength target.flavour target.segments base.segments = common at *
  have hback : reached base.isRooted base.segments
      (List.replicate (base.segments.drop common).length up) = base.segments.take common := by
    have hsteps := reached_steps hup base.isRooted (base.segments.take common)
    rwa [List.take_append_drop] at hsteps
  rw [LeadsTo, Flavour.alike_iff, reached_append, hback]
  calc (reached base.isRooted (base.segments.take common)
          (target.segments.drop common)).map target.flavour.key
      = (reached base.isRooted (target.segments.take common)
          (target.segments.drop common)).map target.flavour.key :=
        reached_congr _ hshared.symm _ _
    _ = target.segments.map target.flavour.key := by rw [hdown]

/-- All that is asked of routes follows from their leading somewhere. -/
theorem navigates_of_leadsTo
    (h : ∀ route, base.routeTo? target = some route → base.LeadsTo target route) :
    base.Navigates target where
  none_iff := by
    rw [alike_anchors_iff]
    constructor
    · intro hnone
      exact (routeTo?_eq_none_iff.1 hnone).imp id not_leadsTo_of_mem
    · intro hnowhere
      cases hroute : base.routeTo? target with
      | none => rfl
      | some route =>
        have hanchor := (routeTo?_eq_some_iff.1 hroute).1
        exact absurd (h route hroute) (hnowhere.resolve_left (not_not_intro hanchor) route)
  leads := h
  shortest := by
    intro route other hroute hother
    rw [length_of_routeTo? hroute]
    exact distance_le_length ((Flavour.alike_iff _ _ _).1 hother)

/-! ### Normal forms -/

/-- The normal form of a path has a step up behind its first segment, and that of the base does
not begin with these two. -/
def OutOfReach (flavour : Flavour) (path base : String) : Prop :=
  LeavesStepsUp flavour path ∧
    ¬ flavour.Alike ((under flavour base).segments.take 2) ((under flavour path).segments.take 2)

instance (flavour : Flavour) (path base : String) : Decidable (OutOfReach flavour path base) :=
  inferInstanceAs (Decidable (_ ∧ _))

variable {flavour : Flavour} {path base : String}

/-- Nothing leads to a path that is out of reach: what goes down to its first segment is taken
back by the step up behind it. -/
theorem not_leadsTo_of_outOfReach (h : OutOfReach flavour path base) (route : List String) :
    ¬ (under flavour base).LeadsTo (under flavour path) route := by
  intro hleads
  obtain ⟨hleaves, hfront⟩ := h
  obtain ⟨first, others, hsegments, hfirst, -⟩ := exists_of_leavesStepsUp hleaves
  rw [LeadsTo, flavour_under, Flavour.alike_iff, hsegments] at hleads
  rw [Flavour.alike_iff, hsegments] at hfront
  have hup : ∀ s, flavour.key s = flavour.key up → s = up := fun s =>
    (flavour.key_eq_key_up_iff s).1
  generalize under flavour base = start at *
  by_cases hstart : up ∈ start.segments
  · -- The segments of the base up to that step are kept, and they are not those of the path.
    obtain ⟨below, above, hbelow⟩ := List.append_of_mem hstart
    rw [hbelow, reached_append_up] at hleads
    rw [hbelow] at hfront
    cases below with
    | nil => exact hfirst (hup first (List.cons.inj hleads).1.symm)
    | cons b below =>
      have htwo := congrArg (List.take 2) hleads
      rw [← List.map_take, ← List.map_take] at htwo
      refine hfront (Eq.trans ?_ htwo)
      cases below <;> rfl
  · -- From names only settled segments are reached.
    have hsettled := settled_reached hstart start.isRooted route
    obtain ⟨r, rest, hreached, hr, hrest⟩ := List.map_eq_cons_iff.1 hleads
    obtain ⟨s, rest, rfl, hs, -⟩ := List.map_eq_cons_iff.1 hrest
    rw [hreached] at hsettled
    have hname : r ≠ up := by
      rintro rfl
      exact hfirst (hup first hr.symm)
    refine not_mem_of_settled_cons hsettled hname ?_
    rw [hup s hs]
    exact List.mem_cons_self

/-- Routes between all other normal forms lead to their targets. -/
theorem leadsTo_of_not_outOfReach (hshare : ¬ LooksLikeShare flavour path)
    (h : ¬ OutOfReach flavour path base) {route : List String}
    (hroute : (under flavour base).routeTo? (under flavour path) = some route) :
    (under flavour base).LeadsTo (under flavour path) route := by
  refine leadsTo_of_routeTo? hroute ?_
  intro common
  have hanchor := (routeTo?_eq_some_iff.1 hroute).1
  by_cases hleaves : LeavesStepsUp flavour path
  · have htwo := Decidable.not_not.1 fun hne => h ⟨hleaves, hne⟩
    obtain ⟨first, others, hsegments, -, hothers⟩ := exists_of_leavesStepsUp hleaves
    rw [Flavour.alike_iff, hsegments] at htwo
    -- The step up is shared, and what is behind it is gone down like any path.
    have hcommon : common
        = 2 + commonLength flavour others ((under flavour base).segments.drop 2) := by
      have happend := commonLength_append htwo.symm others ((under flavour base).segments.drop 2)
      rw [List.take_append_drop] at happend
      rw [show common = commonLength flavour _ _ from by rw [← flavour_under flavour path],
        hsegments]
      exact happend
    rw [hcommon, hsegments, Nat.add_comm, List.take_succ_cons, List.take_succ_cons,
      List.drop_succ_cons, List.drop_succ_cons]
    have hfloor := reached_append_up (under flavour base).isRooted [first]
      (others.take (commonLength flavour others ((under flavour base).segments.drop 2)))
      (others.drop (commonLength flavour others ((under flavour base).segments.drop 2)))
    rw [reached_drop hothers] at hfloor
    exact hfloor
  · rw [isRooted_congr (by rw [flavour_under, flavour_under]) hanchor]
    exact reached_drop (resolve_segments hshare hleaves) common

/-- **Routes are found wherever there are any, and none is shorter.**  For a path that does not
look like a share there is no route exactly if the anchors differ or no list of segments leads
to the path, a route leads there, and no other list does with fewer segments.  The one
exception are paths out of reach, to which no list leads at all. -/
theorem routeTo?_shortest (hshare : ¬ LooksLikeShare flavour path) (base : String) :
    (¬ OutOfReach flavour path base → (under flavour base).Navigates (under flavour path)) ∧
      (OutOfReach flavour path base →
        ∀ route, ¬ (under flavour base).LeadsTo (under flavour path) route) :=
  ⟨fun h => navigates_of_leadsTo fun _ => leadsTo_of_not_outOfReach hshare h,
    not_leadsTo_of_outOfReach⟩

/-- Out of two directories, under another spelling of the third. -/
theorem routeTo?_shortest_up :
    ¬ LooksLikeShare .windows "c:/PROJ/Inc/.//Sub/../X.h" ∧
      (under .windows "C:\\Proj\\src\\a").routeTo? (under .windows "c:/PROJ/Inc/.//Sub/../X.h")
        = some ["..", "..", "Inc", "X.h"] ∧
      ¬ OutOfReach .windows "c:/PROJ/Inc/.//Sub/../X.h" "C:\\Proj\\src\\a" ∧
      (under .windows "C:\\Proj\\src\\a").Navigates
        (under .windows "c:/PROJ/Inc/.//Sub/../X.h") := by
  have hshare : ¬ LooksLikeShare .windows "c:/PROJ/Inc/.//Sub/../X.h" := by decide +kernel
  have hreach : ¬ OutOfReach .windows "c:/PROJ/Inc/.//Sub/../X.h" "C:\\Proj\\src\\a" := by
    decide +kernel
  exact ⟨hshare, by decide +kernel, hreach,
    (routeTo?_shortest hshare "C:\\Proj\\src\\a").1 hreach⟩

/-- The segments of this path are no way to it: the first one is a name, because what stands in
front of the colon is no letter, and the step up behind takes it back. -/
theorem routeTo?_misleads :
    ¬ LooksLikeShare .windows "1:..\\..\\b" ∧ ¬ LooksLikeShare .windows "." ∧
      (under .windows ".").routeTo? (under .windows "1:..\\..\\b") = some ["1:..", "..", "b"] ∧
      (under .windows "1:..\\..\\b").segments = ["1:..", "..", "b"] ∧
      reached (under .windows ".").isRooted (under .windows ".").segments ["1:..", "..", "b"]
        = ["b"] ∧
      (∀ route, ¬ (under .windows ".").LeadsTo (under .windows "1:..\\..\\b") route) ∧
      ¬ (under .windows ".").Navigates (under .windows "1:..\\..\\b") := by
  have hreach : OutOfReach .windows "1:..\\..\\b" "." := by decide +kernel
  have hroute : (under .windows ".").routeTo? (under .windows "1:..\\..\\b")
      = some ["1:..", "..", "b"] := by decide +kernel
  refine ⟨by decide +kernel, by decide +kernel, hroute, by decide +kernel, by decide +kernel,
    not_leadsTo_of_outOfReach hreach, fun h => ?_⟩
  exact not_leadsTo_of_outOfReach hreach _ (h.leads _ hroute)

end Location

end IncludeTrace
