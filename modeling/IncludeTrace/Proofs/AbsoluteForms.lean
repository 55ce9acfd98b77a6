/-
The base directories and their absolute forms.

A relative path means the same whether it is resolved first and then seen from the working
directory, or the other way round (`foldl_enter_resolve`).  That carries everything here: the
absolute form of a path can be computed from the normal form of the path.

* `along_append_separator`, `along_joined` — walks along a text;
* `posix_text` — a normal form is read back from its text;
* `posix_behind` — what a relative path is, seen from the working directory;
* `mem_baseDirectories`, `mem_baseDirectories_of_absoluteForm?` — the base directories are
  the spelled ones and their absolute forms, and none of the latter is missing.
-/
import Mathlib.Data.List.TakeWhile
import IncludeTrace.Path.Bases
import IncludeTrace.Proofs.NormalForm

namespace IncludeTrace

namespace Segments

/-! ### Walks along a text -/

/-- The stack after a walk along the segments of a text. -/
def along (rooted : Bool) (stack : List String) (s : List Char) : List String :=
  (Flavour.posix.pieces s).foldl (enter rooted) stack

variable {rooted : Bool} {stack : List String}

theorem along_nil : along rooted stack [] = stack := by
  have hpieces : Flavour.posix.pieces [] = [""] := by decide
  rw [along, hpieces]
  exact enter_blank (.inl rfl) rooted stack

theorem along_append_separator (s t : List Char) :
    along rooted stack (s ++ '/' :: t) = along rooted (along rooted stack s) t := by
  rw [along, along, along, ← List.foldl_append, ← Flavour.posix.pieces_append_separator]
  rfl

theorem along_separator (t : List Char) :
    along rooted stack ('/' :: t) = along rooted stack t := by
  have h : along rooted stack ([] ++ '/' :: t) = along rooted (along rooted stack []) t :=
    along_append_separator [] t
  rwa [List.nil_append, along_nil] at h

theorem along_joined {segments : List String} (h : ∀ s ∈ segments, '/' ∉ s.toList) :
    along rooted stack (Flavour.posix.joined segments).toList
      = segments.foldl (enter rooted) stack := by
  by_cases hsome : segments = []
  · subst hsome
    exact along_nil
  · have hpieces : Flavour.posix.pieces (Flavour.posix.joined segments).toList = segments :=
      Flavour.pieces_joined hsome h
    rw [along, hpieces]

end Segments

open Segments

namespace Location

/-! ### The text of a normal form -/

theorem anchor_posix (path : String) : (posix path).anchor = posixAnchor path.toList := rfl

theorem takeWhile_slash_eq_nil_iff {s : List Char} :
    s.takeWhile (· == '/') = [] ↔ s.head? ≠ some '/' := by
  cases s with
  | nil => simp
  | cons c s => by_cases hc : c = '/' <;> simp [hc]

theorem posixAnchor_eq_empty_iff {s : List Char} :
    posixAnchor s = "" ↔ s.head? ≠ some '/' := by
  rw [← takeWhile_slash_eq_nil_iff, ← List.length_eq_zero_iff, posixAnchor]
  split
  · next h => simp only [h]
  · next h => simp [h]
  · next h _ => simpa using h

theorem posixAnchor_cases (s : List Char) :
    posixAnchor s = "" ∨ posixAnchor s = "/" ∨ posixAnchor s = "//" := by
  rw [posixAnchor]
  split
  · exact .inl rfl
  · exact .inr (.inr rfl)
  · exact .inr (.inl rfl)

theorem mem_segments_posix {path segment : String} (h : segment ∈ (posix path).segments) :
    '/' ∉ segment.toList ∧ segment ≠ "" ∧ segment ≠ "." :=
  ⟨Flavour.separator_not_mem_of_mem_pieces (mem_resolve h).1, (mem_resolve h).2⟩

/-- An anchor is read back in front of a text without one. -/
theorem posixAnchor_append (s : List Char) {t : List Char} (h : t.head? ≠ some '/') :
    posixAnchor ((posixAnchor s).toList ++ t) = posixAnchor s := by
  have hnone : t.takeWhile (· == '/') = [] := takeWhile_slash_eq_nil_iff.2 h
  rcases posixAnchor_cases s with hs | hs | hs
  · rw [hs]
    exact posixAnchor_eq_empty_iff.2 h
  · rw [hs, posixAnchor]
    simp [hnone]
  · rw [hs, posixAnchor]
    simp [hnone]

theorem along_anchor (s t : List Char) {rooted : Bool} {stack : List String} :
    along rooted stack ((posixAnchor s).toList ++ t) = along rooted stack t := by
  rcases posixAnchor_cases s with hs | hs | hs
  · rw [hs]
    rfl
  · rw [hs]
    exact along_separator t
  · rw [hs]
    exact (along_separator ('/' :: t)).trans (along_separator t)

/-- A normal form is read back from its text. -/
theorem posix_text (path : String) : posix (posix path).text = posix path := by
  have hsegments : ∀ s ∈ (posix path).segments, '/' ∉ s.toList ∧ s ≠ "" ∧ s ≠ "." :=
    fun s hs => mem_segments_posix hs
  by_cases hdot : (posix path).anchor = "" ∧ (posix path).segments = []
  · have hpath : posix path = ⟨.posix, "", []⟩ := by
      rw [← hdot.1, ← hdot.2]
      rfl
    rw [hpath]
    decide
  · have htext : (posix path).text.toList
        = (posix path).anchor.toList ++ (Flavour.posix.joined (posix path).segments).toList := by
      rw [text, if_neg hdot, String.toList_append]
      rfl
    have hanchor : posixAnchor (posix path).text.toList = (posix path).anchor := by
      rw [htext]
      exact posixAnchor_append _ (Flavour.head?_joined fun s hs =>
        ⟨(hsegments s hs).1, (hsegments s hs).2.1⟩)
    -- The segments have been walked along already, so walking along them again changes nothing.
    have hwalk : (along ((posix path).anchor != "") [] (posix path).text.toList).reverse
        = (posix path).segments := by
      have hsame : along ((posix path).anchor != "") [] (posix path).text.toList
          = (posix path).segments.foldl (enter ((posix path).anchor != "")) [] := by
        rw [htext, ← along_joined fun s hs => (hsegments s hs).1]
        exact along_anchor _ _
      rw [hsame]
      exact resolve_resolve _ _
    calc posix (posix path).text
        = ⟨.posix, posixAnchor (posix path).text.toList,
            (along (posixAnchor (posix path).text.toList != "") []
              (posix path).text.toList).reverse⟩ := rfl
      _ = ⟨.posix, (posix path).anchor, (posix path).segments⟩ := by rw [hanchor, hwalk]

theorem text_posix_ne_empty (path : String) : (posix path).text ≠ "" := by
  intro h
  have hread := posix_text path
  rw [h] at hread
  have hdot : (posix "").text = "." := by decide
  rw [← hread, hdot] at h
  exact absurd h (by decide)

/-- A normal form is spelled with the characters of the path. -/
theorem mem_of_mem_text {path : String} {c : Char} (h : c ∈ (posix path).text.toList)
    (hslash : c ≠ '/') (hdot : c ≠ '.') : c ∈ path.toList := by
  rw [text] at h
  split at h
  · exact absurd (List.mem_singleton.1 h) hdot
  · rw [String.toList_append, List.mem_append] at h
    rcases h with h | h
    · rcases posixAnchor_cases path.toList with hs | hs | hs <;>
        simp [posix, hs, hslash] at h
    · rcases Flavour.mem_joined h with rfl | ⟨segment, hsegment, hc⟩
      · exact absurd rfl hslash
      · exact Flavour.mem_of_mem_pieces (mem_resolve hsegment).1 hc

/-- Behind a root no drive letter stands in front. -/
theorem flavour_text {path : String} (hroot : (posix path).anchor ≠ "")
    (hplain : '\\' ∉ path.toList) : Flavour.of (posix path).text = .posix := by
  have hback : '\\' ∉ (posix path).text.toList := fun h =>
    hplain (mem_of_mem_text h (by decide) (by decide))
  obtain ⟨rest, hrest⟩ : ∃ rest, (posix path).text.toList = '/' :: rest := by
    rw [text, if_neg fun h => hroot h.1, String.toList_append, anchor_posix]
    rcases posixAnchor_cases path.toList with hs | hs | hs
    · exact absurd hs hroot
    · exact ⟨_, by rw [hs]; rfl⟩
    · exact ⟨_, by rw [hs]; rfl⟩
  have hdrive : Flavour.startsWithDrive (posix path).text.toList = false := by
    rw [hrest]
    unfold Flavour.startsWithDrive
    split
    · next heq =>
      rw [← (List.cons.inj heq).1]
      decide
    · rfl
  rw [Flavour.of, hdrive, List.contains_eq_mem, decide_eq_false hback]
  rfl

/-! ### Behind the working directory -/

variable {folder path : String}

theorem toList_behind (folder path : String) :
    (behind folder path).toList
      = if folder = "" ∨ folder.toList.getLast? = some '/' then folder.toList ++ path.toList
        else folder.toList ++ '/' :: path.toList := by
  rw [behind]
  split
  · exact String.toList_append
  · simp

theorem along_behind (folder path : String) :
    along true [] (behind folder path).toList
      = along true (along true [] folder.toList) path.toList := by
  rw [toList_behind]
  split
  · next h =>
    rcases h with rfl | h
    · rfl
    · obtain ⟨front, hfront⟩ := List.getLast?_eq_some_iff.1 h
      have hfolder : along true [] folder.toList = along true [] front := by
        rw [hfront, along_append_separator, along_nil]
      rw [hfolder, hfront, List.append_assoc, List.singleton_append, along_append_separator]
  · exact along_append_separator _ _

/-- A relative path adds nothing to the slashes in front. -/
theorem posixAnchor_behind (folder : String) (h : posixAnchor path.toList = "") :
    posixAnchor (behind folder path).toList = posixAnchor folder.toList := by
  rw [posixAnchor_eq_empty_iff, ← takeWhile_slash_eq_nil_iff] at h
  -- The anchor is told by the slashes in front, and the path adds none to those of the folder.
  have hslashes : (behind folder path).toList.takeWhile (· == '/')
      = folder.toList.takeWhile (· == '/') := by
    rw [toList_behind]
    split
    · rw [List.takeWhile_append, h, List.append_nil]
      split
      · next hall => exact ((List.takeWhile_sublist _).eq_of_length hall).symm
      · rfl
    · next hlast =>
      rw [List.takeWhile_append, if_neg]
      intro hall
      -- A folder of nothing but slashes ends with one.
      have heach := List.takeWhile_eq_self_iff.1 ((List.takeWhile_sublist _).eq_of_length hall)
      rcases List.eq_nil_or_concat folder.toList with hnil | ⟨front, c, hfront⟩
      · exact hlast (.inl (String.toList_inj.1 hnil))
      · have hc : c = '/' := eq_of_beq (heach c (by simp [hfront]))
        exact hlast (.inr (by rw [hfront, hc]; simp))
  rw [posixAnchor, hslashes, posixAnchor]

/-- What a relative path is, seen from the working directory: a walk from there along its
own normal form. -/
theorem posix_behind (hroot : posixAnchor folder.toList ≠ "")
    (hrelative : posixAnchor path.toList = "") :
    posix (behind folder path)
      = ⟨.posix, posixAnchor folder.toList,
          ((posix path).segments.foldl (enter true) (along true [] folder.toList)).reverse⟩ := by
  have hanchor := posixAnchor_behind folder hrelative
  have hrooted : (posixAnchor folder.toList != "") = true := by simpa using hroot
  have hpath : (posix path).segments = resolve false (Flavour.posix.pieces path.toList) := by
    rw [posix, hrelative]
    rfl
  calc posix (behind folder path)
      = ⟨.posix, posixAnchor (behind folder path).toList,
          (along (posixAnchor (behind folder path).toList != "") []
            (behind folder path).toList).reverse⟩ := rfl
    _ = ⟨.posix, posixAnchor folder.toList,
          (along true (along true [] folder.toList) path.toList).reverse⟩ := by
        rw [hanchor, hrooted, along_behind]
    _ = _ := by rw [hpath, foldl_enter_resolve, along]

end Location

open Location

/-! ### Absolute forms -/

variable {folder directory : String}

theorem backslash_not_mem {path : String} (h : Flavour.of path = .posix) :
    '\\' ∉ path.toList := by
  intro hback
  rw [Flavour.of, if_pos] at h
  · exact absurd h nofun
  · rw [Bool.or_eq_true, List.contains_iff_mem]
    exact .inl hback

theorem normalize_of_posix {path : String} (h : Flavour.of path = .posix) :
    Location.normalize path = posix path := by
  rw [Location.normalize, h]
  rfl

theorem absoluteForm?_eq_some_iff {absolute : String} :
    absoluteForm? folder directory = some absolute ↔
      Flavour.of directory = .posix ∧ posixAnchor directory.toList = "" ∧
        absolute = (posix (behind folder directory)).text := by
  rw [absoluteForm?]
  cases hflavour : Flavour.of directory with
  | windows => simp
  | posix =>
    have hanchor : (Location.normalize directory).anchor = posixAnchor directory.toList := by
      rw [normalize_of_posix hflavour]
      rfl
    rw [hanchor]
    by_cases hrelative : posixAnchor directory.toList = ""
    · simp [hrelative, eq_comm]
    · simp [hrelative]

theorem absoluteForm?_of_relative (folder : String) (hflavour : Flavour.of directory = .posix)
    (hrelative : posixAnchor directory.toList = "") :
    absoluteForm? folder directory = some (posix (behind folder directory)).text :=
  absoluteForm?_eq_some_iff.2 ⟨hflavour, hrelative, rfl⟩

/-- An absolute form has no absolute form of its own. -/
theorem absoluteForm?_absoluteForm {absolute : String} (hroot : posixAnchor folder.toList ≠ "")
    (h : absoluteForm? folder directory = some absolute) :
    absoluteForm? folder absolute = none := by
  obtain ⟨-, hrelative, rfl⟩ := absoluteForm?_eq_some_iff.1 h
  rw [Option.eq_none_iff_forall_ne_some]
  intro other hother
  obtain ⟨-, hanchor, -⟩ := absoluteForm?_eq_some_iff.1 hother
  rw [← anchor_posix, posix_text, anchor_posix, posixAnchor_behind folder hrelative] at hanchor
  exact hroot hanchor

/-- Absolute forms are POSIX paths. -/
theorem flavour_absoluteForm {absolute : String} (hroot : posixAnchor folder.toList ≠ "")
    (hplain : '\\' ∉ folder.toList) (h : absoluteForm? folder directory = some absolute) :
    Flavour.of absolute = .posix := by
  obtain ⟨hflavour, hrelative, rfl⟩ := absoluteForm?_eq_some_iff.1 h
  refine flavour_text ?_ fun hback => ?_
  · rw [anchor_posix, posixAnchor_behind folder hrelative]
    exact hroot
  · have hdirectory : '\\' ∉ directory.toList := backslash_not_mem hflavour
    rw [toList_behind] at hback
    split at hback
    · exact (List.mem_append.1 hback).elim hplain hdirectory
    · rw [List.mem_append, List.mem_cons] at hback
      rcases hback with hback | hback | hback
      · exact hplain hback
      · exact absurd hback (by decide)
      · exact hdirectory hback

/-! ### The base directories -/

/-- The directories that are given, in the order of their importance. -/
def spelledDirectories (searchPath source : Option String) (includeDirs : List String) :
    List String :=
  ((source.filter (· != "")).map sourceDirectory).toList ++ includeDirs
    ++ (searchPath.map searchEntries).getD []

variable {searchPath source : Option String} {includeDirs : List String}

/-- The base directories are the spelled ones and their absolute forms. -/
theorem mem_baseDirectories {base : String} :
    base ∈ baseDirectories folder searchPath source includeDirs ↔
      ∃ directory ∈ spelledDirectories searchPath source includeDirs,
        base = directory ∨ absoluteForm? folder directory = some base := by
  have hforms : baseDirectories folder searchPath source includeDirs
      = ((spelledDirectories searchPath source includeDirs).flatMap
          (bothForms folder)).eraseDups := rfl
  rw [hforms, List.mem_eraseDups, List.mem_flatMap]
  simp only [bothForms, List.mem_cons, Option.mem_toList]

/-- Where no spelled directory is a Windows path, no base directory is. -/
theorem flavour_of_mem_baseDirectories {base : String} (hroot : posixAnchor folder.toList ≠ "")
    (hplain : '\\' ∉ folder.toList)
    (hdirs : ∀ d ∈ spelledDirectories searchPath source includeDirs, Flavour.of d = .posix)
    (hbase : base ∈ baseDirectories folder searchPath source includeDirs) :
    Flavour.of base = .posix := by
  obtain ⟨directory, hdirectory, rfl | hform⟩ := mem_baseDirectories.1 hbase
  · exact hdirs _ hdirectory
  · exact flavour_absoluteForm hroot hplain hform

/-- No absolute form is missing among the base directories. -/
theorem mem_baseDirectories_of_absoluteForm? {base absolute : String}
    (hroot : posixAnchor folder.toList ≠ "")
    (hbase : base ∈ baseDirectories folder searchPath source includeDirs)
    (h : absoluteForm? folder base = some absolute) :
    absolute ∈ baseDirectories folder searchPath source includeDirs := by
  obtain ⟨directory, hdirectory, rfl | hform⟩ := mem_baseDirectories.1 hbase
  · exact mem_baseDirectories.2 ⟨base, hdirectory, .inr h⟩
  · exact absurd h (by rw [absoluteForm?_absoluteForm hroot hform]; exact nofun)

end IncludeTrace
