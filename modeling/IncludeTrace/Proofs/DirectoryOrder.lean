/-
The order of the base directories.

The base directories come from the directories that are given, each relative one with its absolute
form behind it, and of several occurrences only the first is kept.  An absolute form may have been
listed before by another entry, and it has no absolute form of its own.  So one more directory adds
itself, then its absolute form, each only if it is new, and where the directory is known its
absolute form is known as well.  That is why listing the base directories once more changes nothing.

* `IsRelative`, `seenFrom`, `Spread` — the given directories with the absolute forms in between;
* `baseDirectories_concat` — what one more directory adds;
* `InOrder`, `baseDirectories_inOrder` — the list of the base directories.
-/
import IncludeTrace.Proofs.AbsoluteForms
import IncludeTrace.Proofs.FirstOccurrences

namespace IncludeTrace

open Location

/-! ### Directories and their absolute forms -/

/-- A directory that starts where one stands, and is not spelled for Windows. -/
def IsRelative (directory : String) : Prop :=
  Flavour.of directory = .posix ∧ directory.toList.head? ≠ some '/'

instance (directory : String) : Decidable (IsRelative directory) :=
  inferInstanceAs (Decidable (_ ∧ _))

/-- What a directory is, seen from the working directory. -/
def seenFrom (folder directory : String) : String :=
  (posix (behind folder directory)).text

/-- Directories, and behind each relative one its absolute form. -/
inductive Spread (folder : String) : List String → List String → Prop where
  | nil : Spread folder [] []
  | alone {directory : String} {given whole : List String} (h : ¬ IsRelative directory)
      (rest : Spread folder given whole) :
      Spread folder (directory :: given) (directory :: whole)
  | followed {directory : String} {given whole : List String} (h : IsRelative directory)
      (rest : Spread folder given whole) :
      Spread folder (directory :: given) (directory :: seenFrom folder directory :: whole)

variable {folder directory : String}

theorem absoluteForm?_of_isRelative (folder : String) (h : IsRelative directory) :
    absoluteForm? folder directory = some (seenFrom folder directory) :=
  absoluteForm?_of_relative folder h.1 (posixAnchor_eq_empty_iff.2 h.2)

theorem absoluteForm?_of_not_isRelative (folder : String) (h : ¬ IsRelative directory) :
    absoluteForm? folder directory = none := by
  rw [Option.eq_none_iff_forall_ne_some]
  intro absolute habsolute
  obtain ⟨hflavour, hrelative, -⟩ := absoluteForm?_eq_some_iff.1 habsolute
  exact h ⟨hflavour, posixAnchor_eq_empty_iff.1 hrelative⟩

theorem bothForms_of_isRelative (folder : String) (h : IsRelative directory) :
    bothForms folder directory = [directory, seenFrom folder directory] := by
  rw [bothForms, absoluteForm?_of_isRelative folder h]
  rfl

theorem bothForms_of_not_isRelative (folder : String) (h : ¬ IsRelative directory) :
    bothForms folder directory = [directory] := by
  rw [bothForms, absoluteForm?_of_not_isRelative folder h]
  rfl

/-- An absolute form is not relative. -/
theorem not_isRelative_seenFrom (hroot : posixAnchor folder.toList ≠ "")
    (h : IsRelative directory) : ¬ IsRelative (seenFrom folder directory) := by
  intro hform
  have hnone := absoluteForm?_absoluteForm hroot (absoluteForm?_of_isRelative folder h)
  rw [absoluteForm?_of_isRelative folder hform] at hnone
  exact Option.some_ne_none _ hnone

theorem spread_flatMap (folder : String) (given : List String) :
    Spread folder given (given.flatMap (bothForms folder)) := by
  induction given with
  | nil => exact .nil
  | cons directory given ih =>
    rw [List.flatMap_cons]
    by_cases h : IsRelative directory
    · rw [bothForms_of_isRelative folder h]
      exact .followed h ih
    · rw [bothForms_of_not_isRelative folder h]
      exact .alone h ih

/-! ### The list of the base directories -/

variable {searchPath source : Option String} {includeDirs : List String}

theorem baseDirectories_eq_eraseDups (folder : String) (searchPath source : Option String)
    (includeDirs : List String) :
    baseDirectories folder searchPath source includeDirs
      = ((spelledDirectories searchPath source includeDirs).flatMap (bothForms folder)).eraseDups :=
  rfl

theorem spelledDirectories_none (given : List String) :
    spelledDirectories none none given = given :=
  List.append_nil given

/-- It makes no difference where a directory was given. -/
theorem baseDirectories_eq (folder : String) (searchPath source : Option String)
    (includeDirs : List String) :
    baseDirectories folder searchPath source includeDirs
      = baseDirectories folder none none (spelledDirectories searchPath source includeDirs) := by
  rw [baseDirectories_eq_eraseDups, baseDirectories_eq_eraseDups, spelledDirectories_none]

/-- One more directory adds itself and its absolute form, unless they are known. -/
theorem baseDirectories_concat (folder : String) (given : List String) (directory : String) :
    baseDirectories folder none none (given ++ [directory])
      = (bothForms folder directory).foldl keepNew (baseDirectories folder none none given) := by
  rw [baseDirectories_eq_eraseDups, baseDirectories_eq_eraseDups, spelledDirectories_none,
    spelledDirectories_none, List.flatMap_append, eraseDups_append_eq_foldl,
    List.flatMap_singleton]

theorem seenFrom_mem_baseDirectories (hroot : posixAnchor folder.toList ≠ "")
    (hmem : directory ∈ baseDirectories folder searchPath source includeDirs)
    (h : IsRelative directory) :
    seenFrom folder directory ∈ baseDirectories folder searchPath source includeDirs :=
  mem_baseDirectories_of_absoluteForm? hroot hmem (absoluteForm?_of_isRelative folder h)

/-- The base directories of the base directories are the same. -/
theorem baseDirectories_baseDirectories (hroot : posixAnchor folder.toList ≠ "")
    (given : List String) :
    baseDirectories folder none none (baseDirectories folder none none given)
      = baseDirectories folder none none given := by
  induction given using List.reverseRecOn with
  | nil => rfl
  | append_singleton given directory ih =>
    have hclosed : directory ∈ baseDirectories folder none none given → IsRelative directory →
        seenFrom folder directory ∈ baseDirectories folder none none given :=
      seenFrom_mem_baseDirectories hroot
    rw [baseDirectories_concat]
    generalize baseDirectories folder none none given = kept at ih hclosed ⊢
    -- Adding the directory to the list and listing it again comes to the same.
    have hagain : baseDirectories folder none none (kept ++ [directory])
        = (bothForms folder directory).foldl keepNew kept := by
      rw [baseDirectories_concat, ih]
    by_cases hrelative : IsRelative directory
    · rw [bothForms_of_isRelative folder hrelative] at hagain ⊢
      rw [List.foldl_cons, List.foldl_cons, List.foldl_nil] at hagain ⊢
      by_cases hdirectory : directory ∈ kept
      · rw [keepNew_of_mem hdirectory, keepNew_of_mem (hclosed hdirectory hrelative)]
        exact ih
      · rw [keepNew_of_not_mem hdirectory] at hagain ⊢
        by_cases hform : seenFrom folder directory ∈ kept ++ [directory]
        · rw [keepNew_of_mem hform] at hagain ⊢
          exact hagain
        · -- The absolute form is listed for the directory, and then once more for itself.
          rw [keepNew_of_not_mem hform] at hagain ⊢
          rw [baseDirectories_concat, hagain,
            bothForms_of_not_isRelative folder (not_isRelative_seenFrom hroot hrelative)]
          exact keepNew_of_mem (List.mem_append_right _ List.mem_cons_self)
    · rw [bothForms_of_not_isRelative folder hrelative] at hagain ⊢
      rw [List.foldl_cons, List.foldl_nil] at hagain ⊢
      by_cases hdirectory : directory ∈ kept
      · rw [keepNew_of_mem hdirectory]
        exact ih
      · rw [keepNew_of_not_mem hdirectory] at hagain ⊢
        exact hagain

/-- What the list of the base directories has to do with the directories that are given. -/
structure InOrder (folder : String) (given bases : List String) : Prop where
  nodup : bases.Nodup
  /-- They come as they occur first where each relative directory has its absolute form right
  behind it. -/
  order : ∃ whole, Spread folder given whole ∧ KeepsFirst whole bases
  closed : ∀ directory ∈ bases, IsRelative directory → seenFrom folder directory ∈ bases
  /-- Listing them again changes nothing. -/
  again : baseDirectories folder none none bases = bases

/-- **The list of the base directories is in order and complete.**  Nothing stands in it twice;
its members come in the order in which they occur first among the source's own directory, the
include directories and the search path, each relative one followed by its absolute form; no
absolute form is missing; and the list is its own list of base directories. -/
theorem baseDirectories_inOrder (hfolder : folder.toList.head? = some '/')
    (searchPath source : Option String) (includeDirs : List String) :
    InOrder folder (spelledDirectories searchPath source includeDirs)
      (baseDirectories folder searchPath source includeDirs) := by
  have hroot : posixAnchor folder.toList ≠ "" := fun h => posixAnchor_eq_empty_iff.1 h hfolder
  have hfirst : KeepsFirst
      ((spelledDirectories searchPath source includeDirs).flatMap (bothForms folder))
      (baseDirectories folder searchPath source includeDirs) :=
    keepsFirst_eraseDups _
  refine ⟨hfirst.nodup, ⟨_, spread_flatMap folder _, hfirst⟩, ?_, ?_⟩
  · intro directory hmem hrelative
    exact seenFrom_mem_baseDirectories hroot hmem hrelative
  · rw [baseDirectories_eq folder searchPath source includeDirs]
    exact baseDirectories_baseDirectories hroot _

/-- An absolute form that is given before its directory, other spellings of one directory, and a
relative directory that is spelled for Windows. -/
theorem baseDirectories_inOrder_mixed :
    let given := ["/work/inc", "inc", "./inc", "lib\\x", "inc"]
    let bases := baseDirectories "/work" (some "src: /work/lib :lib:") (some "src/a.c") given
    "/work".toList.head? = some '/' ∧
      bases = ["src", "/work/src", "/work/inc", "inc", "./inc", "lib\\x", "/work/lib", "lib"] ∧
      InOrder "/work" (spelledDirectories (some "src: /work/lib :lib:") (some "src/a.c") given)
        bases := by
  intro given bases
  have hfolder : "/work".toList.head? = some '/' := by decide
  exact ⟨hfolder, by decide +kernel, baseDirectories_inOrder hfolder _ _ _⟩

end IncludeTrace
