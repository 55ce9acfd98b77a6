/-
The shortest display names, and what they are for absolute forms.

* `candidateRoute?_avoidingUp_eq_some_iff` — without steps up, the candidates are what is
  left of a path behind the base directories that it begins with;
* `exists_earliestShortest?` — no candidate is shorter than the one that is shown;
* `length_joined_lt_of_suffix` — all candidates for one path end alike, so the shorter ones
  are ends of the longer ones;
* `displayName?_absoluteForm` — a header that is shown by a relative path is also shown by
  its absolute form, by the same name or by the end of it.
-/
import IncludeTrace.Proofs.AbsoluteForms
import IncludeTrace.Proofs.Routes

namespace IncludeTrace

open Segments Location

/-! ### Candidates without steps up -/

theorem commonLength_of_keys_eq {flavour : Flavour} {front base : List String}
    (h : front.map flavour.key = base.map flavour.key) (rest : List String) :
    commonLength flavour (front ++ rest) base = base.length := by
  have hlength : front.length = base.length := by simpa using congrArg List.length h
  have hcommon := commonLength_append h rest []
  rwa [List.append_nil, commonLength_nil_right, Nat.add_zero, hlength] at hcommon

/-- Without steps up, a base is usable if the path goes on behind it. -/
theorem candidateRoute?_avoidingUp_eq_some_iff {target : Location} {base : String}
    {route : List String} :
    candidateRoute? true target base = some route ↔
      base ≠ "" ∧
        target.flavour.key target.anchor
          = target.flavour.key (Location.under target.flavour base).anchor ∧
        (∃ front, target.segments = front ++ route ∧
          front.map target.flavour.key
            = (Location.under target.flavour base).segments.map target.flavour.key) ∧
        route ≠ [] ∧ up ∉ route := by
  rw [candidateRoute?_eq_some_iff, Location.routeTo?_eq_some_iff]
  generalize Location.under target.flavour base = start
  constructor
  · rintro ⟨hbase, ⟨hanchor, -, hroute⟩, hsome, hup⟩
    have hnoUp := hup rfl
    -- Nothing is left of the base, or the route would begin with a step up.
    have hleft : start.segments.drop (commonLength target.flavour target.segments start.segments)
        = [] := by
      refine List.eq_nil_of_length_eq_zero (Nat.eq_zero_of_not_pos fun hpos => hnoUp ?_)
      rw [hroute, List.mem_append, List.mem_replicate]
      exact .inl ⟨Nat.ne_of_gt hpos, rfl⟩
    rw [hleft, List.length_nil, List.replicate_zero, List.nil_append] at hroute
    have hwhole : start.segments.take
        (commonLength target.flavour target.segments start.segments) = start.segments :=
      List.take_of_length_le (List.drop_eq_nil_iff.1 hleft)
    refine ⟨hbase, hanchor, ⟨target.segments.take
      (commonLength target.flavour target.segments start.segments), ?_, ?_⟩, hsome, hnoUp⟩
    · rw [hroute, List.take_append_drop]
    · rw [take_commonLength, hwhole]
  · rintro ⟨hbase, hanchor, ⟨front, htarget, hfront⟩, hsome, hup⟩
    have hlength : front.length = start.segments.length := by
      simpa using congrArg List.length hfront
    refine ⟨hbase, ?_, hsome, fun _ => hup⟩
    simp only [htarget, commonLength_of_keys_eq hfront, List.drop_length, List.length_nil,
      List.replicate_zero, List.nil_append, List.not_mem_nil, not_false_eq_true, true_and]
    exact ⟨hanchor, by rw [← hlength, List.drop_left]⟩

/-- Under POSIX rules keys are the segments themselves. -/
theorem map_key_posix_inj {as bs : List String}
    (h : as.map Flavour.posix.key = bs.map Flavour.posix.key) : as = bs :=
  (List.map_inj_right fun _ _ => String.toList_inj.1).1 h

theorem candidateRoute?_posix_eq_some_iff {path base : String} {route : List String} :
    candidateRoute? true (posix path) base = some route ↔
      base ≠ "" ∧ (posix path).anchor = (posix base).anchor ∧
        (posix path).segments = (posix base).segments ++ route ∧ route ≠ [] ∧ up ∉ route := by
  rw [candidateRoute?_avoidingUp_eq_some_iff]
  have hanchor : Flavour.posix.key (posix path).anchor = Flavour.posix.key (posix base).anchor ↔
      (posix path).anchor = (posix base).anchor := String.toList_inj
  have hsegments : (∃ front, (posix path).segments = front ++ route ∧
      front.map Flavour.posix.key = (posix base).segments.map Flavour.posix.key) ↔
      (posix path).segments = (posix base).segments ++ route := by
    constructor
    · rintro ⟨front, hpath, hfront⟩
      rw [hpath, map_key_posix_inj hfront]
    · exact fun hpath => ⟨_, hpath, rfl⟩
  exact and_congr_right' (and_congr hanchor (and_congr hsegments Iff.rfl))

/-! ### The shortest candidate -/

/-- The better one of the best text so far and the next one. -/
def shorterOf (best : Option String) (text : String) : Option String :=
  match best with
  | none => some text
  | some b => if text.length < b.length then some text else some b

/-- The next text is not shorter than the choice. -/
theorem shorterOf_le_text (best : Option String) (text : String) :
    ∃ b ∈ shorterOf best text, b.length ≤ text.length := by
  cases best with
  | none => exact ⟨text, rfl, Nat.le_refl _⟩
  | some b =>
    by_cases hlt : text.length < b.length
    · exact ⟨text, if_pos hlt, Nat.le_refl _⟩
    · exact ⟨b, if_neg hlt, Nat.le_of_not_lt hlt⟩

/-- Neither is the best text so far. -/
theorem shorterOf_le_best {best : Option String} {n : Nat} (h : ∃ b ∈ best, b.length ≤ n)
    (text : String) : ∃ b ∈ shorterOf best text, b.length ≤ n := by
  obtain ⟨b, rfl, hb⟩ := h
  by_cases hlt : text.length < b.length
  · exact ⟨text, if_pos hlt, (Nat.le_of_lt hlt).trans hb⟩
  · exact ⟨b, if_neg hlt, hb⟩

/-- No candidate is shorter than the one that is shown. -/
theorem exists_earliestShortest? {texts : List String} {text : String} (h : text ∈ texts) :
    ∃ shown, earliestShortest? texts = some shown ∧ shown.length ≤ text.length := by
  have hkeep : ∀ (l : List String) (best : Option String),
      (∃ b ∈ best, b.length ≤ text.length) →
        ∃ b ∈ l.foldl shorterOf best, b.length ≤ text.length := by
    intro l
    induction l with
    | nil => exact fun _ hbest => hbest
    | cons t l ih => exact fun _ hbest => ih _ (shorterOf_le_best hbest t)
  obtain ⟨before, after, rfl⟩ := List.append_of_mem h
  have hfold : earliestShortest? (before ++ text :: after)
      = after.foldl shorterOf (shorterOf (before.foldl shorterOf none) text) := by
    rw [← List.foldl_cons, ← List.foldl_append]
    rfl
  rw [hfold]
  exact hkeep after _ (shorterOf_le_text _ text)

/-! ### Ends of one path -/

theorem length_joined_lt (flavour : Flavour) (first : String) {others : List String}
    (h : others ≠ []) :
    (flavour.joined others).length < (flavour.joined (first :: others)).length := by
  rw [← String.length_toList, ← String.length_toList, Flavour.joined_cons _ _ h,
    List.length_append, List.length_cons]
  omega

/-- A longer run of trailing segments is a longer text. -/
theorem length_joined_lt_of_suffix (flavour : Flavour) {as bs : List String} (h : as <:+ bs)
    (hsome : as ≠ []) (hne : as ≠ bs) :
    (flavour.joined as).length < (flavour.joined bs).length := by
  obtain ⟨front, rfl⟩ := h
  induction front with
  | nil => exact absurd rfl hne
  | cons first front ih =>
    have hrest : front ++ as ≠ [] := fun hnil => hsome (List.append_eq_nil_iff.1 hnil).2
    have hle : (flavour.joined as).length ≤ (flavour.joined (front ++ as)).length := by
      by_cases hfront : as = front ++ as
      · exact (congrArg (fun l => (flavour.joined l).length) hfront).le
      · exact (ih hfront).le
    exact hle.trans_lt (length_joined_lt flavour first hrest)

/-- Of two ends of one path the one with the shorter text is an end of the other one. -/
theorem suffix_of_length_joined_le (flavour : Flavour) {as bs whole : List String}
    (has : as <:+ whole) (hbs : bs <:+ whole) (hsome : bs ≠ [])
    (h : (flavour.joined as).length ≤ (flavour.joined bs).length) : as <:+ bs := by
  rcases List.suffix_or_suffix_of_suffix has hbs with hsuffix | hsuffix
  · exact hsuffix
  · by_cases heq : bs = as
    · exact heq ▸ List.suffix_rfl
    · exact absurd (length_joined_lt_of_suffix flavour hsuffix hsome heq) (Nat.not_lt.2 h)

/-! ### Display names of absolute forms -/

variable {folder : String} {searchPath source : Option String} {includeDirs : List String}

/-- The absolute forms of a path and of a base that it goes on behind differ by the same
segments. -/
theorem segments_behind {path base : String} {route : List String}
    (hroot : posixAnchor folder.toList ≠ "") (hpath : posixAnchor path.toList = "")
    (hbase : posixAnchor base.toList = "")
    (h : (posix path).segments = (posix base).segments ++ route) (hup : up ∉ route) :
    (posix (behind folder path)).segments
      = (posix (behind folder base)).segments ++ route := by
  have hblank : ∀ s ∈ route, s ≠ "" ∧ s ≠ "." := fun s hs =>
    (mem_segments_posix (h ▸ List.mem_append_right _ hs)).2
  rw [posix_behind hroot hpath, posix_behind hroot hbase]
  simp only [h, List.foldl_append, foldl_enter_names hblank hup, List.reverse_append,
    List.reverse_reverse]

theorem exists_of_displayName?_posix {bases : List String} {path shown : String}
    (hpath : Flavour.of path = .posix)
    (h : displayName? .shortestAvoidingUp bases path = some shown) :
    ∃ base ∈ bases, ∃ route, candidateRoute? true (posix path) base = some route ∧
      shown = Flavour.posix.joined route := by
  have hroute := exists_of_shortestRoute?_eq_some (shortestRoute?_of_displayName? rfl h)
  rwa [normalize_of_posix hpath] at hroute

/-- Where a base leads to a path, the path is shown by a name that is not longer. -/
theorem exists_displayName?_of_candidate {bases : List String} {path base : String}
    {route : List String} (hpath : Flavour.of path = .posix) (hbase : base ∈ bases)
    (h : candidateRoute? true (posix path) base = some route) :
    ∃ shown, displayName? .shortestAvoidingUp bases path = some shown ∧
      shown.length ≤ (Flavour.posix.joined route).length := by
  have hsome : path ≠ "" := by
    rintro rfl
    obtain ⟨-, -, hsegments, hroute, -⟩ := candidateRoute?_posix_eq_some_iff.1 h
    have hnone : (posix "").segments = [] := by decide
    exact hroute (List.append_eq_nil_iff.1 (hsegments.symm.trans hnone)).2
  rw [displayName?, if_neg hsome]
  simp only [shortestRoute?, normalize_of_posix hpath]
  exact exists_earliestShortest? (List.mem_map_of_mem (List.mem_filterMap.2 ⟨base, hbase, h⟩))

/-- The segments of a shown name are those of the route. -/
theorem pieces_joined_route {path base : String} {route : List String}
    (h : candidateRoute? true (posix path) base = some route) :
    Flavour.posix.pieces (Flavour.posix.joined route).toList = route := by
  obtain ⟨-, -, hsegments, hsome, -⟩ := candidateRoute?_posix_eq_some_iff.1 h
  refine Flavour.pieces_joined hsome fun s hs => ?_
  exact (mem_segments_posix (hsegments ▸ List.mem_append_right _ hs)).1

/-- A header that is shown by a relative path is also shown by its absolute form: by the
same name, or by fewer of its trailing segments. -/
theorem displayName?_absoluteForm {path shown : String}
    (hfolder : folder.toList.head? = some '/') (hplain : '\\' ∉ folder.toList)
    (hdirs : ∀ d ∈ spelledDirectories searchPath source includeDirs, Flavour.of d = .posix)
    (hpath : Flavour.of path = .posix) (hrelative : path.toList.head? ≠ some '/')
    (hshown : displayName? .shortestAvoidingUp
      (baseDirectories folder searchPath source includeDirs) path = some shown) :
    ∃ absolute other, absoluteForm? folder path = some absolute ∧
      displayName? .shortestAvoidingUp
        (baseDirectories folder searchPath source includeDirs) absolute = some other ∧
      Flavour.posix.pieces other.toList <:+ Flavour.posix.pieces shown.toList := by
  have hroot : posixAnchor folder.toList ≠ "" := fun h => posixAnchor_eq_empty_iff.1 h hfolder
  have hpathAnchor := posixAnchor_eq_empty_iff.2 hrelative
  obtain ⟨base, hbase, route, hroute, rfl⟩ := exists_of_displayName?_posix hpath hshown
  obtain ⟨-, hanchor, hsegments, hsome, hup⟩ := candidateRoute?_posix_eq_some_iff.1 hroute
  -- The base is relative like the path, so its absolute form is a base as well.
  have hbaseAnchor : posixAnchor base.toList = "" := hanchor.symm.trans hpathAnchor
  have hbaseFlavour := flavour_of_mem_baseDirectories hroot hplain hdirs hbase
  have hbaseForm := absoluteForm?_of_relative folder hbaseFlavour hbaseAnchor
  have hmem := mem_baseDirectories_of_absoluteForm? hroot hbase hbaseForm
  -- From there the same route leads to the absolute form of the path.
  have hpathForm := absoluteForm?_of_relative folder hpath hpathAnchor
  have hposix := flavour_absoluteForm hroot hplain hpathForm
  have hbehind := segments_behind hroot hpathAnchor hbaseAnchor hsegments hup
  have hcandidate : candidateRoute? true (posix (posix (behind folder path)).text)
      (posix (behind folder base)).text = some route := by
    rw [posix_text, candidateRoute?_posix_eq_some_iff, posix_text]
    refine ⟨text_posix_ne_empty _, ?_, hbehind, hsome, hup⟩
    rw [anchor_posix, anchor_posix, posixAnchor_behind folder hpathAnchor,
      posixAnchor_behind folder hbaseAnchor]
  -- What is shown is not longer, and ends with the same segment of the path.
  obtain ⟨other, hother, hle⟩ := exists_displayName?_of_candidate hposix hmem hcandidate
  obtain ⟨_, -, route', hroute', rfl⟩ := exists_of_displayName?_posix hposix hother
  obtain ⟨-, -, hends, -, -⟩ := candidateRoute?_posix_eq_some_iff.1 hroute'
  rw [posix_text] at hends
  refine ⟨_, _, hpathForm, hother, ?_⟩
  rw [pieces_joined_route hroute', pieces_joined_route hroute]
  exact suffix_of_length_joined_le .posix ⟨_, hends.symm⟩ ⟨_, hbehind.symm⟩ hsome hle

/-- A competing base directory shortens the absolute form further. -/
theorem displayName?_absoluteForm_shorter :
    displayName? .shortestAvoidingUp
        (baseDirectories "/work" none none ["../inc/./", "/inc/sub"]) "../inc/sub/x.h"
      = some "sub/x.h" ∧
    ∃ absolute other, absoluteForm? "/work" "../inc/sub/x.h" = some absolute ∧
      displayName? .shortestAvoidingUp
        (baseDirectories "/work" none none ["../inc/./", "/inc/sub"]) absolute = some other ∧
      Flavour.posix.pieces other.toList <:+ Flavour.posix.pieces "sub/x.h".toList :=
  have hshown : displayName? .shortestAvoidingUp
      (baseDirectories "/work" none none ["../inc/./", "/inc/sub"]) "../inc/sub/x.h"
        = some "sub/x.h" := by decide +kernel
  ⟨hshown, displayName?_absoluteForm (by decide) (by decide) (by decide +kernel) (by decide)
    (by decide) hshown⟩

end IncludeTrace
