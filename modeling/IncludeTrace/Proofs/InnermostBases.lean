/-
The innermost base directory.

Without steps up, whatever can be shown of a path is an end of it, and a deeper base directory
leaves less of the path.  So the choice of the shortest text is a choice of the deepest base,
and neither the order of the bases nor a repeated one matters:

* `Location.Encloses`, `Location.behind` — a path goes on behind a base directory, and by
  which segments;
* `candidateRoute?_avoidingUp_iff_encloses` — the candidates are these segments;
* `Innermost` — no base directory of a list that encloses a path is deeper;
* `displayName?_eq_some_iff_innermost` — what is shown is what an innermost base leaves;
* `displayName?_innermost` — that, where nothing is shown, and the order of the bases.
-/
import IncludeTrace.Proofs.SegmentKeys
import IncludeTrace.Proofs.ShortestNames

namespace IncludeTrace

open Segments

/-! ### Paths behind base directories -/

namespace Location

/-- The segments of a location behind as many as a base directory has. -/
def behind (base target : Location) : List String :=
  target.segments.drop base.segments.length

/-- A location goes on behind a base directory, and never steps up from there. -/
structure Encloses (base target : Location) : Prop where
  anchor : target.flavour.Alike [target.anchor] [base.anchor]
  front : target.flavour.Alike (target.segments.take base.segments.length) base.segments
  proper : base.segments.length < target.segments.length
  down : up ∉ base.behind target

theorem encloses_iff (base target : Location) :
    base.Encloses target ↔ target.flavour.Alike [target.anchor] [base.anchor] ∧
      target.flavour.Alike (target.segments.take base.segments.length) base.segments ∧
      base.segments.length < target.segments.length ∧ up ∉ base.behind target :=
  ⟨fun h => ⟨h.anchor, h.front, h.proper, h.down⟩,
    fun ⟨hanchor, hfront, hproper, hdown⟩ => ⟨hanchor, hfront, hproper, hdown⟩⟩

instance (base target : Location) : Decidable (base.Encloses target) :=
  decidable_of_iff _ (encloses_iff base target).symm

/-- A step up that is left in front of a path leads out of every base but itself. -/
example :
    ¬ (posix "inc/..").Encloses (posix "../x.h") ∧ (posix "..").Encloses (posix "../x.h") := by
  decide +kernel

/-- A deeper base directory leaves fewer segments. -/
theorem length_behind (base target : Location) :
    (base.behind target).length = target.segments.length - base.segments.length :=
  List.length_drop

theorem Encloses.behind_ne_nil {base target : Location} (h : base.Encloses target) :
    base.behind target ≠ [] := by
  have hproper := h.proper
  rw [← List.length_pos_iff, length_behind]
  omega

end Location

/-- Without steps up, a base directory is a candidate if it encloses the path. -/
theorem candidateRoute?_avoidingUp_iff_encloses {target : Location} {base : String}
    {route : List String} :
    candidateRoute? true target base = some route ↔
      base ≠ "" ∧ (Location.under target.flavour base).Encloses target ∧
        route = (Location.under target.flavour base).behind target := by
  rw [candidateRoute?_avoidingUp_eq_some_iff]
  generalize Location.under target.flavour base = start
  have hkey : target.flavour.key target.anchor = target.flavour.key start.anchor ↔
      target.flavour.Alike [target.anchor] [start.anchor] := by
    rw [Flavour.alike_iff, List.map_singleton, List.map_singleton, List.singleton_inj]
  rw [hkey]
  constructor
  · rintro ⟨hbase, hanchor, ⟨front, hsegments, hfront⟩, hsome, hup⟩
    have hlength : front.length = start.segments.length := by
      simpa using congrArg List.length hfront
    have hbehind : start.behind target = route := by
      rw [Location.behind, hsegments, ← hlength, List.drop_left]
    refine ⟨hbase, ⟨hanchor, ?_, ?_, hbehind ▸ hup⟩, hbehind.symm⟩
    · rw [Flavour.alike_iff, hsegments, ← hlength, List.take_left, hfront]
    · -- The route is not empty, so the base is not the path itself.
      have hpos := List.length_pos_iff.2 hsome
      rw [hsegments, List.length_append]
      omega
  · rintro ⟨hbase, hencloses, rfl⟩
    refine ⟨hbase, hencloses.anchor, ⟨target.segments.take start.segments.length, ?_, ?_⟩,
      hencloses.behind_ne_nil, hencloses.down⟩
    · rw [Location.behind, List.take_append_drop]
    · exact (Flavour.alike_iff _ _ _).1 hencloses.front

/-! ### The deepest one -/

/-- A base directory encloses a path, and none in the list that does is deeper. -/
structure Innermost (bases : List String) (target : Location) (base : String) : Prop where
  mem : base ∈ bases
  named : base ≠ ""
  encloses : (Location.under target.flavour base).Encloses target
  deepest : ∀ other ∈ bases, other ≠ "" →
    (Location.under target.flavour other).Encloses target →
      (Location.under target.flavour other).segments.length
        ≤ (Location.under target.flavour base).segments.length

/-- Innermost base directories leave the same segments. -/
theorem Innermost.behind_eq {bases : List String} {target : Location} {base other : String}
    (hbase : Innermost bases target base) (hother : Innermost bases target other) :
    (Location.under target.flavour base).behind target
      = (Location.under target.flavour other).behind target := by
  have hle := hother.deepest base hbase.mem hbase.named hbase.encloses
  have hge := hbase.deepest other hother.mem hother.named hother.encloses
  rw [Location.behind, Location.behind, Nat.le_antisymm hle hge]

/-- Where a base directory encloses a path, something is shown that one of the innermost ones
leaves. -/
theorem exists_innermost {bases : List String} {target : Location} {base : String}
    (hmem : base ∈ bases) (hnamed : base ≠ "")
    (hencloses : (Location.under target.flavour base).Encloses target) :
    ∃ inner, Innermost bases target inner ∧
      earliestShortest? ((bases.filterMap (candidateRoute? true target)).map
          target.flavour.joined)
        = some (target.flavour.joined ((Location.under target.flavour inner).behind target)) := by
  -- Every base that encloses the path gives one of the texts, and the choice is not longer.
  have hcandidate : ∀ other ∈ bases, other ≠ "" →
      (Location.under target.flavour other).Encloses target →
        target.flavour.joined ((Location.under target.flavour other).behind target)
          ∈ (bases.filterMap (candidateRoute? true target)).map target.flavour.joined := by
    intro other hother hsome h
    have hroute := candidateRoute?_avoidingUp_iff_encloses.2 ⟨hsome, h, rfl⟩
    exact List.mem_map_of_mem (List.mem_filterMap.2 ⟨other, hother, hroute⟩)
  obtain ⟨shown, hshown, -⟩ := exists_earliestShortest? (hcandidate base hmem hnamed hencloses)
  obtain ⟨route, hroute, rfl⟩ := List.mem_map.1 (mem_of_earliestShortest?_eq_some hshown)
  obtain ⟨inner, hinner, hroute⟩ := List.mem_filterMap.1 hroute
  obtain ⟨hsome, h, rfl⟩ := candidateRoute?_avoidingUp_iff_encloses.1 hroute
  refine ⟨inner, ⟨hinner, hsome, h, fun other hother hnamed hencloses => ?_⟩, hshown⟩
  obtain ⟨text, htext, hle⟩ := exists_earliestShortest? (hcandidate other hother hnamed hencloses)
  obtain rfl := Option.some.inj (hshown.symm.trans htext)
  -- All texts are ends of the path, so a shorter text has fewer segments.
  have hsuffix : (Location.under target.flavour inner).behind target
      <:+ (Location.under target.flavour other).behind target :=
    suffix_of_length_joined_le target.flavour (List.drop_suffix _ _) (List.drop_suffix _ _)
      hencloses.behind_ne_nil hle
  have hlength := hsuffix.length_le
  have hproper := hencloses.proper
  rw [Location.length_behind, Location.length_behind] at hlength
  omega

/-- What is shown without steps up is what an innermost base directory leaves. -/
theorem displayName?_eq_some_iff_innermost {bases : List String} {path shown : String} :
    displayName? .shortestAvoidingUp bases path = some shown ↔
      ∃ base, Innermost bases (Location.normalize path) base ∧
        shown = (Location.normalize path).flavour.joined
          ((Location.under (Location.normalize path).flavour base).behind
            (Location.normalize path)) := by
  by_cases hpath : path = ""
  · -- Nothing encloses the empty path, because it has no segments.
    subst hpath
    refine ⟨nofun, fun ⟨base, hbase, _⟩ => absurd hbase.encloses.proper ?_⟩
    have hnone : (Location.normalize "").segments = [] := by decide
    rw [hnone]
    exact Nat.not_lt_zero _
  · rw [displayName?, if_neg hpath]
    simp only [shortestRoute?]
    generalize Location.normalize path = target
    constructor
    · intro h
      obtain ⟨route, hroute, -⟩ := List.mem_map.1 (mem_of_earliestShortest?_eq_some h)
      obtain ⟨base, hbase, hroute⟩ := List.mem_filterMap.1 hroute
      obtain ⟨hnamed, hencloses, -⟩ := candidateRoute?_avoidingUp_iff_encloses.1 hroute
      obtain ⟨inner, hinner, hshown⟩ := exists_innermost hbase hnamed hencloses
      exact ⟨inner, hinner, Option.some.inj (h.symm.trans hshown)⟩
    · rintro ⟨base, hbase, rfl⟩
      obtain ⟨inner, hinner, hshown⟩ := exists_innermost hbase.mem hbase.named hbase.encloses
      rw [hshown, hinner.behind_eq hbase]

/-- **The innermost base directory is chosen, whatever the order.**  A path is shown by the
segments that the deepest of the base directories leaves that enclose it; where none does,
nothing is shown; and lists with the same base directories show the same. -/
theorem displayName?_innermost (bases : List String) (path : String) :
    (∀ others, (∀ base, base ∈ others ↔ base ∈ bases) →
      displayName? .shortestAvoidingUp others path
        = displayName? .shortestAvoidingUp bases path) ∧
    let target := Location.normalize path
    let start (base : String) := Location.under target.flavour base
    (displayName? .shortestAvoidingUp bases path = none ↔
      ∀ base ∈ bases, base ≠ "" → ¬ (start base).Encloses target) ∧
    ∀ shown, displayName? .shortestAvoidingUp bases path = some shown ↔
      ∃ base, Innermost bases target base ∧
        shown = target.flavour.joined ((start base).behind target) := by
  refine ⟨fun others hothers => ?_, ⟨fun hnone base hbase hnamed hencloses => ?_, fun h => ?_⟩,
    fun shown => displayName?_eq_some_iff_innermost⟩
  · -- Being innermost only asks which base directories there are.
    have hinnermost : ∀ target base, Innermost others target base ↔ Innermost bases target base :=
      fun target base =>
        ⟨fun h => ⟨(hothers base).1 h.mem, h.named, h.encloses,
            fun other hother => h.deepest other ((hothers other).2 hother)⟩,
          fun h => ⟨(hothers base).2 h.mem, h.named, h.encloses,
            fun other hother => h.deepest other ((hothers other).1 hother)⟩⟩
    refine Option.ext fun shown => ?_
    rw [displayName?_eq_some_iff_innermost, displayName?_eq_some_iff_innermost]
    simp only [hinnermost]
  · obtain ⟨inner, hinner, -⟩ := exists_innermost hbase hnamed hencloses
    have hshown := displayName?_eq_some_iff_innermost.2 ⟨inner, hinner, rfl⟩
    exact absurd (hnone.symm.trans hshown) nofun
  · refine Option.eq_none_iff_forall_ne_some.2 fun shown hshown => ?_
    obtain ⟨base, hbase, -⟩ := displayName?_eq_some_iff_innermost.1 hshown
    exact h base hbase.mem hbase.named hbase.encloses

/-- The deepest base comes last here, and is spelled in another case than the path. -/
example : displayName? .shortestAvoidingUp ["C:\\", "", "D:\\inc", "c:\\INC\\.\\"] "C:\\inc\\a\\b.h"
    = some "a\\b.h" := by
  decide +kernel

end IncludeTrace
