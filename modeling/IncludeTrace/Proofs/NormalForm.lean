/-
The segments of normalised paths.

A normal form has its `..` in front, and none at a root, so nothing of it can be resolved any
further.  Under Windows rules two stages have to work together for that, and they see drives
differently:

* `isRooted` — whether the segments of a location start at a root;
* `pieces_joined` — segments are read back from the text that joins them;
* `separator_not_mem_segments` — no segment of a location holds a separator;
* `kept`, `segments_parseWindows`, `isRooted_parseWindows` — what the second stage takes for
  segments, and when for a root;
* `tidy_of_root`, `tidy_of_drive`, `tidy_of_relative` — what the first stage writes;
* `resolve_segments_posix`, `resolve_segments_windows` — nothing of a normal form can be
  resolved, shares and colons behind other characters than letters apart;
* `exists_segments_of_colon` — what is left to resolve behind such a colon.
-/
import IncludeTrace.Path.Location
import IncludeTrace.Proofs.LexicalWalk
import IncludeTrace.Proofs.TextPieces

namespace IncludeTrace

/-! ### Segments and separators -/

namespace Flavour

theorem toList_joined (flavour : Flavour) (segments : List String) :
    (flavour.joined segments).toList
      = [flavour.separator].intercalate (segments.map String.toList) := by
  simp [joined, String.toList_intercalate]

theorem separator_not_mem_of_mem_pieces {flavour : Flavour} {s : List Char} {piece : String}
    (h : piece ∈ flavour.pieces s) : flavour.separator ∉ piece.toList := by
  obtain ⟨p, hp, rfl⟩ := List.mem_map.1 h
  rw [String.toList_ofList]
  exact Text.not_mem_of_mem_splitOn hp

theorem pieces_joined {flavour : Flavour} {segments : List String} (hsome : segments ≠ [])
    (h : ∀ s ∈ segments, flavour.separator ∉ s.toList) :
    flavour.pieces (flavour.joined segments).toList = segments := by
  have hlists : ∀ l ∈ segments.map String.toList, flavour.separator ∉ l := by
    intro l hl
    obtain ⟨s, hs, rfl⟩ := List.mem_map.1 hl
    exact h s hs
  rw [pieces, toList_joined, List.splitOn_intercalate _ hlists (by simpa using hsome),
    List.map_map]
  simp [Function.comp_def]

theorem joined_cons (flavour : Flavour) (first : String) {others : List String}
    (h : others ≠ []) :
    (flavour.joined (first :: others)).toList
      = first.toList ++ flavour.separator :: (flavour.joined others).toList := by
  have hlists : others.map String.toList ≠ [] := by simpa using h
  rw [toList_joined, toList_joined, List.map_cons, List.intercalate_cons_of_ne_nil hlists,
    List.append_assoc, List.singleton_append]

/-- Segments that are neither empty nor hold a separator do not begin with one. -/
theorem head?_joined {flavour : Flavour} {segments : List String}
    (h : ∀ s ∈ segments, flavour.separator ∉ s.toList ∧ s ≠ "") :
    (flavour.joined segments).toList.head? ≠ some flavour.separator := by
  cases segments with
  | nil =>
    rw [toList_joined]
    exact nofun
  | cons first others =>
    obtain ⟨hfirst, hsome⟩ := h first List.mem_cons_self
    obtain ⟨c, cs, hlist⟩ := List.exists_cons_of_ne_nil fun hnil =>
      hsome (String.toList_inj.1 hnil)
    have hhead : (flavour.joined (first :: others)).toList.head? = some c := by
      by_cases hothers : others = []
      · rw [hothers, toList_joined, List.map_singleton, List.intercalate_singleton, hlist]
        rfl
      · rw [joined_cons _ _ hothers, hlist]
        rfl
    rw [hlist, List.mem_cons, not_or] at hfirst
    rw [hhead]
    exact fun hc => hfirst.1 (Option.some.inj hc).symm

theorem pieces_append_separator (flavour : Flavour) (s t : List Char) :
    flavour.pieces (s ++ flavour.separator :: t) = flavour.pieces s ++ flavour.pieces t := by
  rw [pieces, List.splitOn_append_cons_self, List.map_append]
  rfl

/-- A character of a joined text is a separator or stands in one of the segments. -/
theorem mem_joined {flavour : Flavour} {segments : List String} {c : Char}
    (h : c ∈ (flavour.joined segments).toList) :
    c = flavour.separator ∨ ∃ s ∈ segments, c ∈ s.toList := by
  induction segments with
  | nil => exact absurd h (by simp [toList_joined])
  | cons first others ih =>
    by_cases hothers : others = []
    · subst hothers
      rw [toList_joined, List.map_singleton, List.intercalate_singleton] at h
      exact .inr ⟨first, List.mem_cons_self, h⟩
    · rw [joined_cons _ _ hothers, List.mem_append, List.mem_cons] at h
      rcases h with h | rfl | h
      · exact .inr ⟨first, List.mem_cons_self, h⟩
      · exact .inl rfl
      · exact (ih h).imp id fun ⟨s, hs, hc⟩ => ⟨s, List.mem_cons_of_mem _ hs, hc⟩

theorem mem_joined_of_mem {flavour : Flavour} {segments : List String} {s : String}
    (hs : s ∈ segments) {c : Char} (hc : c ∈ s.toList) : c ∈ (flavour.joined segments).toList := by
  induction segments with
  | nil => exact absurd hs List.not_mem_nil
  | cons first others ih =>
    by_cases hothers : others = []
    · subst hothers
      rw [toList_joined, List.map_singleton, List.intercalate_singleton]
      rwa [← List.mem_singleton.1 hs]
    · rw [joined_cons _ _ hothers]
      rcases List.mem_cons.1 hs with rfl | hs
      · exact List.mem_append_left _ hc
      · exact List.mem_append_right _ (List.mem_cons_of_mem _ (ih hs))

theorem mem_of_mem_pieces {flavour : Flavour} {s : List Char} {piece : String}
    (h : piece ∈ flavour.pieces s) {c : Char} (hc : c ∈ piece.toList) : c ∈ s := by
  have hjoined : c ∈ (flavour.joined (flavour.pieces s)).toList := mem_joined_of_mem h hc
  rwa [toList_joined_pieces] at hjoined

end Flavour

namespace Location

open Segments

/-- Whether the segments of a location start at a root: the anchor ends with a separator then,
as that of a bare drive does not. -/
def isRooted (l : Location) : Bool :=
  l.anchor.toList.getLast? == some l.flavour.separator

/-! ### POSIX -/

theorem isRooted_posix (path : String) :
    (posix path).isRooted = ((posix path).anchor != "") := by
  have hcases : ∀ s, (posixAnchor s).toList.getLast? = some '/' ↔ posixAnchor s ≠ "" := by
    intro s
    rw [posixAnchor]
    split <;> decide
  rw [Bool.eq_iff_iff, isRooted, beq_iff_eq, bne_iff_ne]
  exact hcases path.toList

theorem resolve_segments_posix (path : String) :
    resolve (posix path).isRooted (posix path).segments = (posix path).segments := by
  rw [isRooted_posix]
  exact resolve_resolve _ _

/-! ### The second stage under Windows rules -/

/-- The segments of a text that are neither empty nor `.`. -/
def kept (s : List Char) : List String :=
  (Flavour.windows.pieces s).filter fun segment => segment != "" && segment != "."

theorem kept_append_separator (s t : List Char) : kept (s ++ '\\' :: t) = kept s ++ kept t := by
  have h := Flavour.windows.pieces_append_separator s t
  rw [kept, kept, kept, ← List.filter_append, ← h]
  rfl

theorem kept_nil : kept [] = [] := by decide

theorem kept_separator (s : List Char) : kept ('\\' :: s) = kept s := by
  have h := kept_append_separator [] s
  rwa [List.nil_append, kept_nil, List.nil_append] at h

theorem kept_dropWhile (s : List Char) : kept (s.dropWhile (· == '\\')) = kept s := by
  induction s with
  | nil => rfl
  | cons c s ih =>
    rw [List.dropWhile_cons]
    split
    · next hc => rw [ih, eq_of_beq hc, kept_separator]
    · rfl

/-- Segments that a walk can reach are kept as they are. -/
theorem kept_joined {segments : List String}
    (h : ∀ s ∈ segments, '\\' ∉ s.toList ∧ s ≠ "" ∧ s ≠ ".") :
    kept (Flavour.windows.joined segments).toList = segments := by
  by_cases hsome : segments = []
  · subst hsome
    decide
  · have hpieces : Flavour.windows.pieces (Flavour.windows.joined segments).toList = segments :=
      Flavour.pieces_joined hsome fun s hs => (h s hs).1
    rw [kept, hpieces, List.filter_eq_self]
    intro s hs
    simpa using (h s hs).2

/-- A text without the drive letter and the colon at its start. -/
def withoutDrive (s : List Char) : List Char :=
  match s with
  | c :: ':' :: rest => if c.isAlpha then rest else s
  | _ => s

theorem withoutDrive_cons (c : Char) (rest : List Char) :
    withoutDrive (c :: ':' :: rest) = if c.isAlpha then rest else c :: ':' :: rest := rfl

theorem withoutDrive_of_ne {s : List Char} (h : ∀ c rest, s = c :: ':' :: rest → False) :
    withoutDrive s = s := by
  unfold withoutDrive
  split
  · exact absurd rfl (h _ _)
  · rfl

theorem withoutDrive_root (s : List Char) : withoutDrive ('\\' :: s) = '\\' :: s := by
  unfold withoutDrive
  split
  · next heq =>
    obtain ⟨rfl, -⟩ := List.cons.inj heq
    rfl
  · rfl

/-- Backslashes behind the drive are the root and no segments. -/
theorem splitLocal_rest (s : List Char) :
    (splitLocal s).2.2
      = if (withoutDrive s).head? = some '\\' then (withoutDrive s).dropWhile (· == '\\')
        else withoutDrive s := by
  simp only [splitLocal]
  split
  · next c rest =>
    rw [withoutDrive_cons]
    by_cases hc : c.isAlpha = true
    · simp only [if_pos hc]
      split <;> rfl
    · simp only [if_neg hc]
      split <;> rfl
  · next h =>
    rw [withoutDrive_of_ne h]
    split <;> rfl

theorem kept_splitLocal (s : List Char) : kept (splitLocal s).2.2 = kept (withoutDrive s) := by
  rw [splitLocal_rest]
  split
  · exact kept_dropWhile _
  · rfl

/-- The drive and the root end with a backslash if there is a root. -/
theorem getLast?_splitLocal (s : List Char) :
    ((splitLocal s).1 ++ (splitLocal s).2.1).getLast? = some '\\' ↔
      (withoutDrive s).head? = some '\\' := by
  simp only [splitLocal]
  split
  · next c rest =>
    rw [withoutDrive_cons]
    by_cases hc : c.isAlpha = true
    · simp only [if_pos hc]
      split
      · next hroot => simp [hroot]
      · next hroot => simp [hroot]
    · simp only [if_neg hc]
      split
      · next hroot => simpa using hroot
      · next hroot => simpa using hroot
  · next h =>
    rw [withoutDrive_of_ne h]
    split
    · next hroot => simp [hroot]
    · next hroot => simp [hroot]

theorem take_two_ne {s : List Char} (h : s.head? ≠ some '\\') : s.take 2 ≠ ['\\', '\\'] := by
  intro htake
  cases s with
  | nil => exact absurd htake (by decide)
  | cons c s =>
    rw [List.take_succ_cons, List.cons.injEq] at htake
    exact h (congrArg some htake.1)

theorem take_two_cons_ne {s : List Char} (h : s.head? ≠ some '\\') :
    ('\\' :: s).take 2 ≠ ['\\', '\\'] := by
  intro htake
  cases s with
  | nil => exact absurd htake (by decide)
  | cons c s =>
    rw [List.take_succ_cons, List.take_succ_cons, List.cons.injEq, List.cons.injEq] at htake
    exact h (congrArg some htake.2.1)

/-- Without two backslashes in front, a text names no share. -/
theorem splitAnchor_of_plain {s : List Char} (h : s.take 2 ≠ ['\\', '\\']) :
    splitAnchor s = splitLocal s := by
  have hlong : splitLong s = ([], s) := by
    unfold splitLong
    split
    · exact absurd rfl h
    · exact absurd rfl h
    · rfl
  have hshare : splitShare? s = none := by
    unfold splitShare?
    split
    · exact absurd rfl h
    · rfl
  simp only [splitAnchor, hlong, hshare]
  rfl

theorem backslashed_of_not_mem {s : List Char} (h : '/' ∉ s) : backslashed s = s := by
  have hsame : ∀ c ∈ s, (if c = '/' then '\\' else c) = c := fun c hc =>
    if_neg fun he : c = '/' => h (he ▸ hc)
  rw [backslashed, List.map_congr_left hsame, List.map_id']

theorem segments_parseWindows {s : List Char} (hslash : '/' ∉ s)
    (h : s.take 2 ≠ ['\\', '\\']) : (parseWindows s).segments = kept (withoutDrive s) := by
  have hsegments : (parseWindows s).segments = kept (splitAnchor (backslashed s)).2.2 := rfl
  rw [hsegments, backslashed_of_not_mem hslash, splitAnchor_of_plain h, kept_splitLocal]

theorem isRooted_parseWindows {s : List Char} (hslash : '/' ∉ s)
    (h : s.take 2 ≠ ['\\', '\\']) :
    (parseWindows s).isRooted = ((withoutDrive s).head? == some '\\') := by
  have hanchor : (parseWindows s).anchor.toList
      = (splitAnchor (backslashed s)).1 ++ (splitAnchor (backslashed s)).2.1 :=
    String.toList_ofList
  rw [Bool.eq_iff_iff, beq_iff_eq, ← getLast?_splitLocal, isRooted, beq_iff_eq, hanchor,
    backslashed_of_not_mem hslash, splitAnchor_of_plain h]
  rfl

/-- What has to be shown of a text in order that its location is resolved. -/
theorem resolve_segments_parseWindows {s : List Char} (hslash : '/' ∉ s)
    (h : s.take 2 ≠ ['\\', '\\'])
    (hresolve : resolve ((withoutDrive s).head? == some '\\') (kept (withoutDrive s))
      = kept (withoutDrive s)) :
    resolve (parseWindows s).isRooted (parseWindows s).segments = (parseWindows s).segments := by
  rw [segments_parseWindows hslash h, isRooted_parseWindows hslash h, hresolve]

/-! ### The first stage under Windows rules -/

theorem slash_not_mem_backslashed (s : List Char) : '/' ∉ backslashed s := by
  intro h
  obtain ⟨c, -, hc⟩ := List.mem_map.1 h
  split at hc
  · exact absurd hc (by decide)
  · next hne => exact hne hc

theorem driveLength_eq_zero {s : List Char} (hshare : s.take 2 ≠ ['\\', '\\'])
    (hcolon : ∀ c rest, s = c :: ':' :: rest → False) : driveLength s = 0 := by
  unfold driveLength
  split
  · exact absurd rfl hshare
  · exact absurd rfl (hcolon _ _)
  · rfl

theorem driveLength_cons (c : Char) (rest : List Char) : driveLength (c :: ':' :: rest) = 2 := by
  unfold driveLength
  split
  · next heq => exact absurd heq (by simp)
  · rfl
  · next h => exact absurd rfl (h _ _)

/-- A drive stays, and what is behind it is resolved. -/
theorem tidy_of_drive {path rest : List Char} {c : Char}
    (h : backslashed path = c :: ':' :: rest) :
    tidy path = c :: ':' ::
      if rest.head? = some '\\' then
        '\\' :: (Flavour.windows.joined (resolve true (Flavour.windows.pieces rest))).toList
      else (Flavour.windows.joined (resolve false (Flavour.windows.pieces rest))).toList := by
  have hlength := driveLength_cons c rest
  simp only [tidy, h, hlength, List.take_succ_cons, List.take_zero, List.drop_succ_cons,
    List.drop_zero]
  split
  · rfl
  · rfl

/-- A root stays, and what is behind it is resolved. -/
theorem tidy_of_root {path rest : List Char} (hplain : (backslashed path).take 2 ≠ ['\\', '\\'])
    (hcolon : ∀ c rest, backslashed path = c :: ':' :: rest → False)
    (h : backslashed path = '\\' :: rest) :
    tidy path
      = '\\' :: (Flavour.windows.joined
          (resolve true (Flavour.windows.pieces (backslashed path)))).toList := by
  have hlength := driveLength_eq_zero hplain hcolon
  have hhead : (backslashed path).head? = some '\\' := by rw [h]; rfl
  simp only [tidy, hlength, List.take_zero, List.drop_zero, hhead, if_true]
  rfl

/-- A relative text is resolved; nothing at all is written as a dot. -/
theorem tidy_of_relative {path : List Char}
    (hcolon : ∀ c rest, backslashed path = c :: ':' :: rest → False)
    (h : (backslashed path).head? ≠ some '\\') :
    tidy path
      = if resolve false (Flavour.windows.pieces (backslashed path)) = [] then ['.']
        else (Flavour.windows.joined
          (resolve false (Flavour.windows.pieces (backslashed path)))).toList := by
  have hlength := driveLength_eq_zero (take_two_ne h) hcolon
  simp only [tidy, hlength, List.take_zero, List.drop_zero, if_neg h]
  simp

/-! ### Both stages -/

/-- What a walk along the pieces of a text passes on. -/
theorem mem_resolve_pieces {rooted : Bool} {s : List Char} {segment : String}
    (h : segment ∈ resolve rooted (Flavour.windows.pieces s)) :
    '\\' ∉ segment.toList ∧ segment ≠ "" ∧ segment ≠ "." := by
  obtain ⟨hmem, hsegment⟩ := mem_resolve h
  exact ⟨Flavour.separator_not_mem_of_mem_pieces hmem, hsegment⟩

theorem kept_joined_resolve (rooted : Bool) (s : List Char) :
    kept (Flavour.windows.joined (resolve rooted (Flavour.windows.pieces s))).toList
      = resolve rooted (Flavour.windows.pieces s) :=
  kept_joined fun _ h => mem_resolve_pieces h

theorem slash_not_mem_joined_resolve {rooted : Bool} {s : List Char} (h : '/' ∉ s) :
    '/' ∉ (Flavour.windows.joined (resolve rooted (Flavour.windows.pieces s))).toList := by
  intro hslash
  rcases Flavour.mem_joined hslash with hslash | ⟨segment, hsegment, hslash⟩
  · exact absurd hslash (by decide)
  · exact h (Flavour.mem_of_mem_pieces (mem_resolve hsegment).1 hslash)

theorem head?_joined_resolve (rooted : Bool) (s : List Char) :
    (Flavour.windows.joined (resolve rooted (Flavour.windows.pieces s))).toList.head?
      ≠ some '\\' :=
  Flavour.head?_joined fun _ h => ⟨(mem_resolve_pieces h).1, (mem_resolve_pieces h).2.1⟩

/-- A text without separators is one segment, or none. -/
theorem kept_of_not_mem {s : List Char} (h : '\\' ∉ s) :
    kept s = if s = [] ∨ s = ['.'] then [] else [String.ofList s] := by
  have hpieces : Flavour.windows.pieces s = [String.ofList s] :=
    congrArg (List.map String.ofList) (List.splitOn_eq_singleton h)
  have hblank : (String.ofList s != "" && String.ofList s != ".") = true ↔
      ¬ (s = [] ∨ s = ['.']) := by
    rw [Bool.and_eq_true, bne_iff_ne, bne_iff_ne, not_or, ne_eq, ne_eq, ← String.toList_inj,
      ← String.toList_inj, String.toList_ofList]
    rfl
  rw [kept, hpieces, List.filter_cons, List.filter_nil]
  split
  · next hs => rw [if_neg (hblank.1 hs)]
  · next hs => rw [if_pos (Decidable.not_not.1 fun hn => hs (hblank.2 hn))]

theorem blank_not_mem_kept {s : List Char} {segment : String} (h : segment ∈ kept s) :
    segment ≠ "" ∧ segment ≠ "." := by
  simpa using (List.mem_filter.1 h).2

/-- Behind a text without separators no step up follows. -/
theorem settled_kept_append {s : List Char} {others : List String} (h : '\\' ∉ s)
    (hothers : up ∉ others) : Settled (kept s ++ others) := by
  rw [kept_of_not_mem h]
  split
  · exact settled_of_not_mem hothers
  · exact settled_cons hothers

/-- The colon of a drive in front stands in the first segment, because separators are none. -/
theorem toList_of_joined_eq_drive {first : String} {others : List String} {c : Char}
    {rest : List Char} (hsome : first ≠ "") (hothers : others ≠ [])
    (h : (Flavour.windows.joined (first :: others)).toList = c :: ':' :: rest) :
    ∃ x, first.toList = c :: ':' :: x ∧
      rest = x ++ '\\' :: (Flavour.windows.joined others).toList := by
  rw [Flavour.joined_cons _ _ hothers] at h
  cases hlist : first.toList with
  | nil => exact absurd (String.toList_inj.1 hlist) hsome
  | cons a y =>
    rw [hlist] at h
    cases y with
    | nil =>
      simp only [List.cons_append, List.nil_append, List.cons.injEq] at h
      exact absurd h.2.1 (by decide)
    | cons b x =>
      simp only [List.cons_append, List.cons.injEq] at h
      exact ⟨x, by rw [h.1, h.2.1], h.2.2.symm⟩

/-- A drive letter that comes to stand in front belongs to the first segment. -/
theorem resolve_kept_withoutDrive {segments : List String}
    (h : ∀ s ∈ segments, '\\' ∉ s.toList ∧ s ≠ "" ∧ s ≠ ".")
    (hresolve : resolve false segments = segments) :
    let text := withoutDrive (Flavour.windows.joined segments).toList
    resolve (text.head? == some '\\') (kept text) = kept text := by
  intro text
  by_cases hdrive : ∃ c rest, (Flavour.windows.joined segments).toList = c :: ':' :: rest ∧
      c.isAlpha = true
  · obtain ⟨c, rest, hjoined, hc⟩ := hdrive
    have htext : text = rest := by
      rw [show text = withoutDrive (c :: ':' :: rest) from congrArg withoutDrive hjoined,
        withoutDrive_cons, if_pos hc]
    have hblank : ∀ s ∈ kept text, s ≠ "" ∧ s ≠ "." := fun _ hs => blank_not_mem_kept hs
    rw [htext] at hblank ⊢
    cases segments with
    | nil => exact absurd hjoined (by simp [Flavour.toList_joined])
    | cons first others =>
      obtain ⟨hfirst, hsome, -⟩ := h first List.mem_cons_self
      by_cases hothers : others = []
      · rw [hothers, Flavour.toList_joined, List.map_singleton, List.intercalate_singleton]
          at hjoined
        rw [hjoined] at hfirst
        have hrest : '\\' ∉ rest := fun hr =>
          hfirst (List.mem_cons_of_mem _ (List.mem_cons_of_mem _ hr))
        have hkept : Settled (kept rest ++ []) := settled_kept_append hrest List.not_mem_nil
        rw [List.append_nil] at hkept
        refine resolve_of_settled hkept hblank fun hroot => ?_
        exact absurd (List.mem_of_mem_head? (eq_of_beq hroot)) hrest
      · obtain ⟨x, hlist, rfl⟩ := toList_of_joined_eq_drive hsome hothers hjoined
        have hx : '\\' ∉ x := fun hx =>
          hfirst (hlist ▸ List.mem_cons_of_mem _ (List.mem_cons_of_mem _ hx))
        -- With a colon in it the first segment is a name, so all others are names as well.
        have hname : first ≠ up := by
          rintro rfl
          simp [up] at hlist
        have hup := not_mem_of_settled_cons (settled_of_resolve_eq hresolve) hname
        rw [kept_append_separator, kept_joined fun s hs => h s (List.mem_cons_of_mem _ hs)]
          at hblank ⊢
        refine resolve_of_settled (settled_kept_append hx hup) hblank fun hroot => ?_
        -- Behind the drive there is a root only if nothing else belongs to the first segment.
        cases x with
        | nil => rwa [kept_nil, List.nil_append]
        | cons d x =>
          have hd : d = '\\' := Option.some.inj (eq_of_beq hroot)
          exact absurd (hd ▸ List.mem_cons_self) hx
  · have htext : text = (Flavour.windows.joined segments).toList := by
      show withoutDrive _ = _
      unfold withoutDrive
      split
      · next c rest hjoined => exact if_neg fun hc => hdrive ⟨c, rest, hjoined, hc⟩
      · rfl
    have hhead : (Flavour.windows.joined segments).toList.head? ≠ some '\\' :=
      Flavour.head?_joined fun s hs => ⟨(h s hs).1, (h s hs).2.1⟩
    rw [htext, kept_joined h, beq_eq_false_iff_ne.2 hhead, hresolve]

/-- Nothing of a normal form can be resolved, unless a share is in front or a colon stands behind
a character that is no drive letter. -/
theorem resolve_segments_windows {path : String}
    (hshare : (backslashed path.toList).take 2 ≠ ['\\', '\\'])
    (hdrive : ∀ c rest, backslashed path.toList = c :: ':' :: rest → c.isAlpha = true) :
    resolve (windows path).isRooted (windows path).segments = (windows path).segments := by
  rw [windows]
  have hslash := slash_not_mem_backslashed path.toList
  by_cases hcolon : ∃ c rest, backslashed path.toList = c :: ':' :: rest
  · obtain ⟨c, rest, hs⟩ := hcolon
    have hc := hdrive c rest hs
    rw [hs, List.mem_cons, List.mem_cons, not_or, not_or] at hslash
    rw [tidy_of_drive hs]
    split
    · refine resolve_segments_parseWindows ?_ (by simp) ?_
      · simp [hslash.1, slash_not_mem_joined_resolve hslash.2.2]
      · rw [withoutDrive_cons, if_pos hc, kept_separator, kept_joined_resolve]
        exact resolve_resolve _ _
    · refine resolve_segments_parseWindows ?_ (by simp) ?_
      · simp [hslash.1, slash_not_mem_joined_resolve hslash.2.2]
      · rw [withoutDrive_cons, if_pos hc, kept_joined_resolve,
          beq_eq_false_iff_ne.2 (head?_joined_resolve _ _)]
        exact resolve_resolve _ _
  · have hcolon' : ∀ c rest, backslashed path.toList = c :: ':' :: rest → False :=
      fun c rest hs => hcolon ⟨c, rest, hs⟩
    by_cases hroot : (backslashed path.toList).head? = some '\\'
    · obtain ⟨rest, hs⟩ := List.head?_eq_some_iff.1 hroot
      rw [tidy_of_root hshare hcolon' hs]
      refine resolve_segments_parseWindows ?_ (take_two_cons_ne (head?_joined_resolve _ _)) ?_
      · simp [slash_not_mem_joined_resolve hslash]
      · rw [withoutDrive_root, kept_separator, kept_joined_resolve]
        exact resolve_resolve _ _
    · rw [tidy_of_relative hcolon' hroot]
      split
      · decide
      · refine resolve_segments_parseWindows (slash_not_mem_joined_resolve hslash)
          (take_two_ne (head?_joined_resolve _ _)) ?_
        exact resolve_kept_withoutDrive (fun _ h => mem_resolve_pieces h) (resolve_resolve _ _)

/-- A colon makes a name of whatever stands in front of the first separator. -/
theorem kept_colon (c : Char) {x : List Char} (hx : '\\' ∉ x) :
    ∃ first, kept (c :: ':' :: x) = [first] ∧ first ≠ up := by
  have hone : ∀ y, '\\' ∉ y → ':' ∈ y → ∃ first, kept y = [first] ∧ first ≠ up := by
    intro y hy hcolon
    refine ⟨String.ofList y, ?_, ?_⟩
    · rw [kept_of_not_mem hy, if_neg]
      rintro (rfl | rfl) <;> simp at hcolon
    · intro hyup
      rw [← String.toList_inj, String.toList_ofList] at hyup
      rw [hyup] at hcolon
      exact absurd hcolon (by decide)
  by_cases hback : c = '\\'
  · rw [hback, kept_separator]
    exact hone _ (by simpa using hx) List.mem_cons_self
  · exact hone _ (by simp [hx, Ne.symm hback]) (by simp)

/-- And the segments behind that separator follow this name. -/
theorem kept_colon_joined (c : Char) {s : String} {others : List String}
    (h : ∀ t ∈ s :: others, '\\' ∉ t.toList ∧ t ≠ "" ∧ t ≠ ".") :
    ∃ first, kept (c :: ':' :: (Flavour.windows.joined (s :: others)).toList) = first :: others ∧
      first ≠ up := by
  obtain ⟨first, hkept, hfirst⟩ := kept_colon c (h s List.mem_cons_self).1
  refine ⟨first, ?_, hfirst⟩
  by_cases hothers : others = []
  · rw [hothers, Flavour.toList_joined, List.map_singleton, List.intercalate_singleton, hkept]
  · have hsplit := kept_append_separator (c :: ':' :: s.toList)
      (Flavour.windows.joined others).toList
    rw [hkept, kept_joined fun t ht => h t (List.mem_cons_of_mem _ ht)] at hsplit
    rw [Flavour.joined_cons _ _ hothers]
    exact hsplit

/-- Behind a colon that follows no drive letter, steps up are left over only where two of them
come first: the one is a part of the first segment then, and the other one is not resolved. -/
theorem exists_segments_of_colon {path : String} {c : Char} {rest : List Char}
    (hs : backslashed path.toList = c :: ':' :: rest) (hc : c.isAlpha = false)
    (hup : up ∈ (windows path).segments) :
    ∃ first others, (windows path).segments = first :: up :: others ∧ first ≠ up ∧
      resolve false others = others := by
  have hslash := slash_not_mem_backslashed path.toList
  rw [hs, List.mem_cons, List.mem_cons, not_or, not_or] at hslash
  have hsegments : ∀ t : List Char, '/' ∉ t →
      (parseWindows (c :: ':' :: t)).segments = kept (c :: ':' :: t) := by
    intro t ht
    rw [segments_parseWindows (by simp [hslash.1, ht]) (by simp), withoutDrive_cons,
      if_neg (by simp [hc])]
  rw [windows, tidy_of_drive hs] at hup ⊢
  split at hup
  · -- Behind a root nothing steps up.
    have hsplit := kept_append_separator [c, ':']
      (Flavour.windows.joined (resolve true (Flavour.windows.pieces rest))).toList
    obtain ⟨first, hkept, hfirst⟩ := kept_colon c (x := []) List.not_mem_nil
    rw [hkept, kept_joined_resolve] at hsplit
    rw [hsegments _ (by simp [slash_not_mem_joined_resolve hslash.2.2])] at hup
    have hmem : up ∈ [first] ++ resolve true (Flavour.windows.pieces rest) := hsplit ▸ hup
    rw [List.mem_append, List.mem_singleton] at hmem
    exact absurd hmem (not_or.2 ⟨Ne.symm hfirst, up_not_mem_resolve_rooted _⟩)
  · next hroot =>
    rw [if_neg hroot]
    rw [hsegments _ (slash_not_mem_joined_resolve hslash.2.2)] at hup ⊢
    have hpieces : ∀ s ∈ resolve false (Flavour.windows.pieces rest),
        '\\' ∉ s.toList ∧ s ≠ "" ∧ s ≠ "." := fun _ h => mem_resolve_pieces h
    obtain ⟨k, names, heq, hnames, -⟩ := resolve_eq false (Flavour.windows.pieces rest)
    rw [heq] at hup hpieces ⊢
    cases hall : List.replicate k up ++ names with
    | nil =>
      obtain ⟨first, hkept, hfirst⟩ := kept_colon c (x := []) List.not_mem_nil
      have hmem : up ∈ kept [c, ':'] := by simpa [hall, Flavour.toList_joined] using hup
      rw [hkept, List.mem_singleton] at hmem
      exact absurd hmem.symm hfirst
    | cons s others =>
      rw [hall] at hup hpieces
      obtain ⟨first, hkept, hfirst⟩ := kept_colon_joined c hpieces
      rw [hkept, List.mem_cons] at hup
      have hothers : up ∈ others := hup.resolve_left (Ne.symm hfirst)
      rw [hkept]
      -- Only the segment after the colon's is hidden by it, so two steps up have to stand in front.
      rcases k with _ | _ | k
      · have hcons : names = s :: others := hall
        exact absurd (hcons ▸ List.mem_cons_of_mem s hothers) hnames
      · have hcons : names = others := (List.cons.inj hall).2
        exact absurd (hcons ▸ hothers) hnames
      · obtain ⟨-, rfl⟩ := List.cons.inj hall
        have hblank : ∀ t ∈ List.replicate k up ++ names, t ≠ "" ∧ t ≠ "." := fun t ht =>
          (hpieces t (List.mem_cons_of_mem _ (List.mem_cons_of_mem _ ht))).2
        exact ⟨first, _, rfl, hfirst, resolve_of_settled ⟨k, names, rfl, hnames⟩ hblank nofun⟩

/-! ### Either flavour -/

@[simp] theorem flavour_under (flavour : Flavour) (path : String) :
    (under flavour path).flavour = flavour := by
  cases flavour <;> rfl

/-- No segment is empty, and none is `.`. -/
theorem blank_not_mem_segments {flavour : Flavour} {path segment : String}
    (h : segment ∈ (under flavour path).segments) : segment ≠ "" ∧ segment ≠ "." := by
  cases flavour with
  | posix => exact (mem_resolve h).2
  | windows => exact blank_not_mem_kept h

/-- A Windows path starts with two separators, as shares do. -/
def LooksLikeShare (flavour : Flavour) (path : String) : Prop :=
  flavour = .windows ∧ (backslashed path.toList).take 2 = ['\\', '\\']

instance (flavour : Flavour) (path : String) : Decidable (LooksLikeShare flavour path) :=
  inferInstanceAs (Decidable (_ ∧ _))

/-- Behind the first character of a Windows path, which is no drive letter, stands a colon,
and steps up are left in its normal form. -/
def LeavesStepsUp (flavour : Flavour) (path : String) : Prop :=
  flavour = .windows ∧ path.toList[1]? = some ':' ∧ (∀ c ∈ path.toList[0]?, c.isAlpha = false) ∧
    up ∈ (under flavour path).segments

instance (flavour : Flavour) (path : String) : Decidable (LeavesStepsUp flavour path) :=
  -- Decided at the first character, and not by going through all characters there are.
  have : Decidable (∀ c ∈ path.toList[0]?, c.isAlpha = false) :=
    decidable_of_iff ((path.toList[0]?.all fun c => !c.isAlpha) = true)
      (by cases path.toList[0]? <;> simp)
  inferInstanceAs (Decidable (_ ∧ _ ∧ _ ∧ _))

/-- Colons and letters stand in a path where they do in the text with backslashes only. -/
theorem backslashed_cons_colon (a : Char) (s : List Char) :
    ∃ c, backslashed (a :: ':' :: s) = c :: ':' :: backslashed s ∧ c.isAlpha = a.isAlpha := by
  refine ⟨if a = '/' then '\\' else a, rfl, ?_⟩
  split
  · next ha =>
    rw [ha]
    rfl
  · rfl

theorem exists_of_backslashed_eq {s rest : List Char} {c : Char}
    (h : backslashed s = c :: ':' :: rest) :
    ∃ a t, s = a :: ':' :: t ∧ c.isAlpha = a.isAlpha := by
  obtain ⟨a, s, rfl, ha, hs⟩ := List.map_eq_cons_iff.1 h
  obtain ⟨b, s, rfl, hb, -⟩ := List.map_eq_cons_iff.1 hs
  have hcolon : b = ':' := by
    split at hb
    · exact absurd hb (by decide)
    · exact hb
  subst hcolon
  obtain ⟨c', hc', halpha⟩ := backslashed_cons_colon a s
  have hc : c = c' := (List.cons.inj (h.symm.trans hc')).1
  exact ⟨a, s, rfl, hc ▸ halpha⟩

/-- Nothing of a normal form can be resolved. -/
theorem resolve_segments {flavour : Flavour} {path : String}
    (hshare : ¬ LooksLikeShare flavour path) (hsteps : ¬ LeavesStepsUp flavour path) :
    resolve (under flavour path).isRooted (under flavour path).segments
      = (under flavour path).segments := by
  by_cases hup : up ∈ (under flavour path).segments
  · cases flavour with
    | posix => exact resolve_segments_posix path
    | windows =>
      refine resolve_segments_windows (fun htake => hshare ⟨rfl, htake⟩) fun c rest hs => ?_
      obtain ⟨a, t, hpath, hc⟩ := exists_of_backslashed_eq hs
      refine Bool.of_not_eq_false fun hodd => hsteps ⟨rfl, ?_, ?_, hup⟩
      · rw [hpath]
        rfl
      · rw [hpath]
        rintro _ ⟨⟩
        exact hc ▸ hodd
  · -- Without a step up there is nothing to resolve, whatever the anchor looks like.
    exact resolve_of_settled (settled_of_not_mem hup) (fun _ hs => blank_not_mem_segments hs)
      fun _ => hup

/-- Where steps up are left, the first one stands behind a name. -/
theorem exists_of_leavesStepsUp {flavour : Flavour} {path : String}
    (h : LeavesStepsUp flavour path) :
    ∃ first others, (under flavour path).segments = first :: up :: others ∧ first ≠ up ∧
      resolve false others = others := by
  obtain ⟨rfl, hcolon, halpha, hup⟩ := h
  obtain ⟨a, t, hpath⟩ : ∃ a t, path.toList = a :: ':' :: t := by
    cases hlist : path.toList with
    | nil => simp [hlist] at hcolon
    | cons a t =>
      cases t with
      | nil => simp [hlist] at hcolon
      | cons b t =>
        rw [hlist] at hcolon
        exact ⟨a, t, by rw [← Option.some.inj hcolon]⟩
  obtain ⟨c, hs, hc⟩ := backslashed_cons_colon a t
  rw [hpath] at halpha
  exact exists_segments_of_colon (hpath ▸ hs) (hc.trans (halpha a rfl)) hup

theorem separator_not_mem_segments {flavour : Flavour} {path segment : String}
    (h : segment ∈ (under flavour path).segments) : flavour.separator ∉ segment.toList := by
  cases flavour with
  | posix => exact Flavour.separator_not_mem_of_mem_pieces (mem_resolve h).1
  | windows => exact Flavour.separator_not_mem_of_mem_pieces (List.mem_filter.1 h).1

end Location

end IncludeTrace
