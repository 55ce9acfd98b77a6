/-
Display names lead back to the files that they stand for.

A display name that is a route from a base directory gives the normal form of the path again
when it is resolved behind that base.  There is one kind of path of which the normal form
itself is not resolved: with a colon behind a first character that is no drive letter, steps
up behind the colon stay in the first segment, and further ones behind it.

* `Reaches` — what it means that a route leads from a base directory to a location;
* `reaches_of_routeTo?` — routes lead to what is left of the target when it is resolved;
* `KeepsStepsUp`, `cancelled_segments` — nothing of a normal form can be resolved, one kind
  of paths apart;
* `displayName?_reaches` — every display name is such a route, and without steps up where
  these are to be avoided.
-/
import IncludeTrace.Proofs.NormalForm
import IncludeTrace.Proofs.Routes
import IncludeTrace.Proofs.SegmentKeys

namespace IncludeTrace

open Segments

namespace Location

/-- From the base directory a route leads to the given segments. -/
structure Reaches (base target : Location) (route reached : List String) : Prop where
  anchor : target.flavour.Alike [target.anchor] [base.anchor]
  /-- Behind the segments of the base, the steps up of the route cancel names. -/
  resolved : target.flavour.Alike (cancelled (base.segments ++ route)) reached
  /-- Some steps up leave named segments of the base; all the rest of the route is spelled as
  in the target. -/
  spelled : ∃ k, k ≤ base.segments.length ∧
    up ∉ base.segments.drop (base.segments.length - k) ∧
    route = List.replicate k up ++ target.segments.drop (base.segments.length - k)

/-- A route leads to what is left of the target when that is resolved. -/
theorem reaches_of_routeTo? {base target : Location} {route : List String}
    (h : base.routeTo? target = some route) :
    base.Reaches target route (cancelled target.segments) := by
  obtain ⟨hanchor, hup, rfl⟩ := routeTo?_eq_some_iff.1 h
  have hcommon := commonLength_le_right target.flavour target.segments base.segments
  have hshared := take_commonLength target.flavour target.segments base.segments
  generalize commonLength target.flavour target.segments base.segments = common at *
  refine ⟨?_, ?_, base.segments.length - common, Nat.sub_le _ _, ?_, ?_⟩
  · rw [Flavour.alike_iff, List.map_singleton, List.map_singleton, hanchor]
  · have hcancel := cancelled_append_steps hup (base.segments.take common)
      (target.segments.drop common)
    rw [List.take_append_drop] at hcancel
    rw [Flavour.alike_iff]
    -- The steps up leave what is not shared, and the shared segments have the same keys.
    calc (cancelled (base.segments ++ (List.replicate (base.segments.drop common).length up
            ++ target.segments.drop common))).map target.flavour.key
        = (cancelled (base.segments.take common
            ++ target.segments.drop common)).map target.flavour.key := by
          rw [hcancel]
      _ = (cancelled (target.segments.take common
            ++ target.segments.drop common)).map target.flavour.key := by
          refine cancelled_congr _ ?_
          rw [List.map_append, List.map_append, hshared]
      _ = (cancelled target.segments).map target.flavour.key := by
          rw [List.take_append_drop]
  · rwa [Nat.sub_sub_self hcommon]
  · rw [Nat.sub_sub_self hcommon, List.length_drop]

end Location

/-! ### Normal forms -/

/-- A Windows path starts with two separators, as shares do. -/
def StartsLikeShare (path : String) : Prop :=
  Flavour.of path = .windows ∧ (Location.backslashed path.toList).take 2 = ['\\', '\\']

instance (path : String) : Decidable (StartsLikeShare path) :=
  inferInstanceAs (Decidable (_ ∧ _))

/-- Behind the first character of a Windows path, which is no drive letter, stands a colon,
and steps up are left in its normal form. -/
def KeepsStepsUp (path : String) : Prop :=
  Flavour.of path = .windows ∧ path.toList[1]? = some ':' ∧
    (∀ c ∈ path.toList[0]?, c.isAlpha = false) ∧ up ∈ (Location.normalize path).segments

instance (path : String) : Decidable (KeepsStepsUp path) :=
  inferInstanceAs (Decidable (_ ∧ _ ∧ _ ∧ _))

/-- Nothing of a normal form can be resolved. -/
theorem cancelled_segments {path : String} (hshare : ¬ StartsLikeShare path)
    (hsteps : ¬ KeepsStepsUp path) :
    cancelled (Location.normalize path).segments = (Location.normalize path).segments :=
  cancelled_of_settled (settled_of_resolve_eq (Location.resolve_segments hshare hsteps))

/-! ### Display names -/

/-- **Display names lead back to their files.**  A display name that starts in a base directory
leads, from one of these, to the normal form of the path, unless that form can itself be
resolved; in the mode that avoids steps up there are none. -/
theorem displayName?_reaches {mode : DisplayMode} {bases : List String} {path shown : String}
    (hmode : mode.isRelative = true) (h : displayName? mode bases path = some shown) :
    let target := Location.normalize path
    let route := target.flavour.pieces shown.toList
    (mode = .shortestAvoidingUp → up ∉ route) ∧
      ∃ b ∈ bases, b ≠ "" ∧
        (Location.under target.flavour b).Reaches target route (cancelled target.segments) ∧
        (¬ StartsLikeShare path → ¬ KeepsStepsUp path →
          (Location.under target.flavour b).Reaches target route target.segments) := by
  intro target route
  obtain ⟨b, hb, found, hcandidate, hshown⟩ :=
    exists_of_shortestRoute?_eq_some (shortestRoute?_of_displayName? hmode h)
  obtain ⟨hsome, hfound, hne, havoid⟩ := candidateRoute?_eq_some_iff.1 hcandidate
  have hreaches := Location.reaches_of_routeTo? hfound
  have hseparators : ∀ s ∈ found, target.flavour.separator ∉ s.toList := by
    obtain ⟨k, -, -, hspelled⟩ := hreaches.spelled
    intro s hs
    rw [hspelled, List.mem_append] at hs
    rcases hs with hs | hs
    · rw [List.eq_of_mem_replicate hs]
      cases target.flavour <;> decide
    · have hflavour : target.flavour = Flavour.of path := Location.flavour_under _ _
      rw [hflavour]
      exact Location.separator_not_mem_segments (List.mem_of_mem_drop hs)
  -- What is shown is read as the segments that it was written from.
  have hroute : route = found := by
    rw [show route = target.flavour.pieces shown.toList from rfl, hshown]
    exact Flavour.pieces_joined hne hseparators
  rw [hroute]
  refine ⟨fun hm => havoid (by rw [hm]; rfl), b, hb, hsome, hreaches, fun hshare hsteps => ?_⟩
  have hsegments : cancelled target.segments = target.segments := cancelled_segments hshare hsteps
  rw [hsegments] at hreaches
  exact hreaches

/-- Up out of a base directory in another spelling, and down as the path is spelled. -/
theorem displayName?_reaches_up :
    let path := "c:/PROJ/Inc/.//Sub/../X.h"
    let bases := ["", "D:\\proj", "C:\\proj\\src\\", "C:\\Proj\\INC\\a"]
    let target := Location.normalize path
    let route := target.flavour.pieces "..\\X.h".toList
    DisplayMode.shortest.isRelative = true ∧
      displayName? .shortest bases path = some "..\\X.h" ∧
      (DisplayMode.shortest = .shortestAvoidingUp → up ∉ route) ∧
        ∃ b ∈ bases, b ≠ "" ∧
          (Location.under target.flavour b).Reaches target route (cancelled target.segments) ∧
          (¬ StartsLikeShare path → ¬ KeepsStepsUp path →
            (Location.under target.flavour b).Reaches target route target.segments) := by
  intro path bases target route
  have hshown : displayName? .shortest bases path = some "..\\X.h" := by decide +kernel
  exact ⟨rfl, hshown, displayName?_reaches rfl hshown⟩

/-- What stands in front of a colon is no drive unless it is a letter, so a step up behind it
becomes a part of the first segment, and a second one is not resolved any more. -/
theorem displayName?_keeps_step_up :
    let path := "1:..\\..\\b"
    let target := Location.normalize path
    let route := target.flavour.pieces path.toList
    ¬ StartsLikeShare path ∧ (∀ b ∈ ["."], ¬ StartsLikeShare b) ∧
      displayName? .shortest ["."] path = some path ∧
      ¬ ∃ b ∈ ["."], b ≠ "" ∧
        (Location.under target.flavour b).Reaches target route target.segments := by
  intro path target route
  refine ⟨by decide +kernel, by decide +kernel, by decide +kernel, ?_⟩
  rintro ⟨b, hb, -, hreaches⟩
  rw [List.mem_singleton] at hb
  subst hb
  have hresolved : ¬ target.flavour.Alike
      (cancelled ((Location.under target.flavour ".").segments ++ route)) target.segments := by
    decide +kernel
  exact hresolved hreaches.resolved

end IncludeTrace
