/-
Graphs saved while browsing.

A save dialog is opened at one moment and answered at another, and runs may start and end in
between.  What counts is the tree at the moment at which a path is handed over: its graph is
written to that one place, or nothing is, and either is told in one message.  One kind of
answer is not told of, because the dialog itself breaks off at it:

* `savedAs_eq` — the message names the format that was written;
* `Puts`, `disk_step`, `disk_after` — files change only where a graph is put into them;
* `Untellable`, `judged_eq_unknown_iff` — the paths at which the dialog breaks off;
* `Saves`, `saves_step` — what an action does to the files, and what is told of it;
* `saves` — the same for each action of a session, and where its files come from;
* `saves_fails` — a name that is too long for a file.
-/
import IncludeTrace.Proofs.BrowsingPhases
import IncludeTrace.Proofs.GraphFiles

namespace IncludeTrace.Browser

open IncludeTrace.Graph (Document Format)

/-- Whether an event is a message to the user. -/
def Event.isNotice : Event → Bool
  | .notify _ _ _ => true
  | _ => false

namespace Session

variable {s : Session} {a : Action} {path : Location} {place : Place} {t : IncludeTree}

/-! ### Writing a graph -/

/-- The message finds the format for itself, and finds the one that was written. -/
theorem savedAs_eq (path : Location) : savedAs path = (Format.ofSuffix path).word := by
  rw [savedAs, Format.ofSuffix]
  split
  · next h =>
    obtain ⟨f, -, hf⟩ := List.mem_map.1 h
    rw [← hf, Format.ofWord?_word, Option.getD_some]
  · next h =>
    have hnone : Format.ofWord? (Format.suffixWord path) = none := by
      refine List.find?_eq_none.2 fun f hf hword => h ?_
      exact List.mem_map.2 ⟨f, hf, eq_of_beq hword⟩
    rw [hnone, Option.getD_none]

/-- What is told when the graph of a tree was written. -/
def savedNotice (t : IncludeTree) (path : Location) : Event :=
  let count := (Document.ofForest t.includes).nodes.length
  let format := (Format.ofSuffix path).word
  .notify s!"Saved {count} files ({format}) to {path.text}" .information 3

theorem exists_writeTo (htree : s.tree = some t) (h : s.disk.WritesAt path place) :
    ∃ text after,
      (Document.ofForest t.includes).render (Format.ofSuffix path) none = .ok text ∧
      s.disk.Rewritten after place (Text.Utf8.encode text.toList) ∧
      s.writeTo (some path) = ({ s with disk := after }, [savedNotice t path]) := by
  obtain ⟨text, after, hrender, hexport, hrewritten⟩ :=
    Graph.exportGraph_of_writesAt t none none h
  rw [Graph.chosenFormat_none] at hrender
  refine ⟨text, after, hrender, hrewritten, ?_⟩
  rw [writeTo.eq_def]
  dsimp only
  rw [htree, hexport]
  dsimp only
  rw [savedAs_eq]
  rfl

/-- A path is refused in one message, because there is no tree or the path leads nowhere. -/
theorem exists_writeTo_eq_told (hclean : path.Clean)
    (h : s.tree = none ∨ ∀ place, ¬ s.disk.WritesAt path place) :
    ∃ message, s.writeTo (some path) = s.told message .error 3 := by
  rw [writeTo.eq_def]
  dsimp only
  cases htree : s.tree with
  | none => exact ⟨_, rfl⟩
  | some t =>
    have hplaces : ∀ place, ¬ s.disk.WritesAt path place :=
      h.resolve_left (by simp [htree])
    obtain ⟨fault, hexport, hnull⟩ := Graph.exportGraph_of_not_writesAt t none none hplaces
    rw [hexport]
    -- Only a null character would go untold, and a clean path has none.
    cases fault with
    | nullCharacter => exact absurd (hnull rfl) hclean.text
    | _ => exact ⟨_, rfl⟩

theorem writeTo_closed (s : Session) (path : Option Location) :
    s.closed.writeTo path = ((s.writeTo path).1.closed, (s.writeTo path).2) := by
  cases path with
  | none => rfl
  | some path =>
    rw [writeTo.eq_def, writeTo.eq_def]
    dsimp only [closed]
    split <;> rfl

/-- Whether a dialog is closed with the path matters neither to the files nor to what is told. -/
theorem seen_of_writeTo (h : s.errand a = .writeTo path) :
    (s.step a).1.disk = (s.writeTo (some path)).1.disk ∧
      (s.step a).2.filter Event.isNotice = (s.writeTo (some path)).2.filter Event.isNotice ∧
      ∀ i, .interrupted i ∈ (s.step a).2 ↔ .interrupted i ∈ (s.writeTo (some path)).2 := by
  obtain ⟨-, -, -, hstep⟩ | ⟨-, -, -, -, hstep⟩ := step_of_writeTo h
  · rw [hstep]
    exact ⟨rfl, rfl, fun _ => Iff.rfl⟩
  · -- Closing the dialog is an event, but no notice, and it interrupts nothing.
    rw [hstep, writeTo_closed]
    exact ⟨rfl, rfl, fun i => by simp [dismissed]⟩

/-! ### Files -/

/-- An action writes the graph of the tree of that moment to a place. -/
def Puts (s : Session) (a : Action) (place : Place) (text : String) : Prop :=
  ∃ path t, s.errand a = .writeTo path ∧ s.tree = some t ∧ s.disk.WritesAt path place ∧
    (Document.ofForest t.includes).render (Format.ofSuffix path) none = .ok text

/-- Starting and ending a run leave the files alone. -/
theorem disk_step_of_run (h : a = .refresh ∨ a.endsRun = true) : (s.step a).1.disk = s.disk := by
  rcases h with rfl | h
  · rw [step, refresh]
    split <;> rfl
  · obtain ⟨t, rfl⟩ | rfl | ⟨error, rfl⟩ := Action.cases_of_endsRun h
    · rfl
    · rfl
    · rfl

/-- Files change only where a graph is put into them. -/
theorem disk_step (s : Session) (a : Action) :
    (s.step a).1.disk = s.disk ∨
      ∃ place text, s.Puts a place text ∧
        s.disk.Rewritten (s.step a).1.disk place (Text.Utf8.encode text.toList) := by
  by_cases hrun : a = .refresh ∨ a.endsRun = true
  · exact Or.inl (disk_step_of_run hrun)
  · rw [not_or, Bool.not_eq_true] at hrun
    have hdisk : (s.step a).1.disk = (s.errand a).disk s := (s.quiet_step hrun.1 hrun.2).disk
    rw [hdisk]
    cases herrand : s.errand a with
    | writeTo path =>
      -- It takes a tree as well as a place to change a file.
      rw [Errand.disk]
      cases htree : s.tree with
      | none => exact Or.inl rfl
      | some t =>
        by_cases hplaces : ∃ place, s.disk.WritesAt path place
        · obtain ⟨place, hplace⟩ := hplaces
          obtain ⟨text, after, hrender, hexport, hrewritten⟩ :=
            Graph.exportGraph_of_writesAt t none none hplace
          rw [Graph.chosenFormat_none] at hrender
          rw [hexport]
          exact Or.inr ⟨place, text, ⟨path, t, herrand, htree, hplace, hrender⟩, hrewritten⟩
        · obtain ⟨fault, hexport, -⟩ :=
            Graph.exportGraph_of_not_writesAt t none none (not_exists.1 hplaces)
          rw [hexport]
          exact Or.inl rfl
    | _ => exact Or.inl rfl

theorem homes_step (s : Session) (a : Action) : (s.step a).1.disk.homes = s.disk.homes := by
  obtain hsame | ⟨place, text, -, hrewritten⟩ := s.disk_step a
  · rw [hsame]
  · exact hrewritten.homes

theorem homes_after (s : Session) (actions : List Action) :
    (s.after actions).disk.homes = s.disk.homes := by
  induction actions generalizing s with
  | nil => rfl
  | cons a actions ih => exact (ih (s.step a).1).trans (s.homes_step a)

/-- What stands at a place stood there before, or one of the actions put it there. -/
theorem disk_after (s : Session) (actions : List Action) (place : Place) :
    (s.after actions).disk.at? place = s.disk.at? place ∨
      ∃ past a rest text, actions = past ++ a :: rest ∧ (s.after past).Puts a place text ∧
        (s.after actions).disk.at? place = some (.file (Text.Utf8.encode text.toList)) := by
  induction actions generalizing s with
  | nil => exact Or.inl rfl
  | cons a actions ih =>
    obtain hsame | ⟨past, b, rest, text, rfl, hputs, hfile⟩ := ih (s.step a).1
    · -- Nothing is put there later, so the first action decides.
      have hafter : (s.after (a :: actions)).disk.at? place = (s.step a).1.disk.at? place := hsame
      rw [hafter]
      obtain hdisk | ⟨other, text, hputs, hrewritten⟩ := s.disk_step a
      · exact Or.inl (by rw [hdisk])
      · by_cases hplace : place = other
        · subst hplace
          exact Or.inr ⟨[], a, actions, text, rfl, hputs, hrewritten.file⟩
        · exact Or.inl (hrewritten.others place hplace)
    · exact Or.inr ⟨a :: past, b, rest, text, rfl, hputs, hfile⟩

/-! ### Paths that are typed -/

/-- What somebody types for a path, without the blanks around it. -/
def typedPath (text : String) : Location :=
  Location.spelled (String.ofList (Text.trim text.toList))

/-- The text that an action gives for a path. -/
def pathText? (s : Session) : Action → Option String
  | .writeTo text => text
  | .submit text true => if s.dialogs.head? = some .save then some text else none
  | _ => none

/-- Nobody can tell what a path leads to: it starts in the own directory of somebody unknown,
or it is too long. -/
def Untellable (disk : Disk) (path : Location) : Prop :=
  expanded disk path = .error .homeless ∨
    ∃ p, expanded disk path = .ok p ∧ disk.find p = .error .tooLong

variable {disk : Disk} {text : String}

theorem typedPath_of_unblank (h : ∀ c ∈ text.toList, Text.isBlank c = false) :
    typedPath text = Location.spelled text := by
  have hstart : text.toList.dropWhile Text.isBlank = text.toList := by
    cases hlist : text.toList with
    | nil => rfl
    | cons c s =>
      rw [hlist] at h
      exact List.dropWhile_cons_of_neg (by rw [h c List.mem_cons_self]; decide)
  have htrim : Text.trim text.toList = text.toList := by
    rw [Text.trim, hstart]
    exact Text.trimEndBy_eq_self fun c hc => h c (List.mem_of_getLast? hc)
  rw [typedPath, htrim, String.ofList_toList]

theorem clean_typedPath (h : '\x00' ∉ text.toList) : (typedPath text).Clean := by
  refine Location.clean_spelled fun hnull => h ?_
  rw [String.toList_ofList] at hnull
  exact Text.mem_of_mem_trim hnull

/-- The name of a user is a part of the path. -/
theorem mem_of_tildeUser? {user : String} (h : tildeUser? path = some user) :
    ∃ segment ∈ path.segments, segment.toList = '~' :: user.toList := by
  rw [tildeUser?] at h
  split at h
  · next tail hanchor hhead =>
    obtain rfl := Option.some.inj h
    -- The tilde stands in front of the first segment, so there is one.
    cases hsegments : path.segments with
    | nil =>
      rw [hsegments] at hhead
      exact absurd hhead (by simp)
    | cons first others =>
      rw [hsegments] at hhead
      exact ⟨first, List.mem_cons_self, by rw [String.toList_ofList]; exact hhead⟩
  · cases h

theorem expanded_clean (hhomes : ∀ home ∈ disk.homes, '\x00' ∉ home.2.toList)
    (h : path.Clean) :
    expanded disk path = .error .homeless ∨ ∃ p, expanded disk path = .ok p ∧ p.Clean := by
  rw [expanded]
  cases huser : tildeUser? path with
  | none => exact Or.inr ⟨path, rfl, h⟩
  | some user =>
    obtain ⟨segment, hmem, hsegment⟩ := mem_of_tildeUser? huser
    have hnull : ¬ user.toList.contains '\x00' = true := by
      have hclean := h.segments segment hmem
      rw [hsegment, List.mem_cons, not_or] at hclean
      simpa using hclean.2
    dsimp only
    rw [if_neg hnull]
    cases hhome : disk.homes.lookup user with
    | none => exact Or.inl rfl
    | some home =>
      -- The own directory of the user takes the place of the first segment.
      refine Or.inr ⟨_, rfl, ?_⟩
      obtain ⟨before, after, hentry, -⟩ := List.lookup_eq_some_iff.1 hhome
      have hmem : (user, home) ∈ disk.homes := by
        rw [hentry]
        exact List.mem_append_right _ List.mem_cons_self
      have hclean : (Location.spelled home).Clean := Location.clean_spelled (hhomes _ hmem)
      refine ⟨hclean.anchor, fun segment hsegment => ?_⟩
      rcases List.mem_append.1 hsegment with hmem | hmem
      · exact hclean.segments segment hmem
      · exact h.segments segment (List.mem_of_mem_drop hmem)

/-- The dialog breaks off exactly where nobody can tell what the path leads to. -/
theorem judged_eq_unknown_iff (hhomes : ∀ home ∈ disk.homes, '\x00' ∉ home.2.toList)
    (h : '\x00' ∉ text.toList) :
    (∃ i, judged disk text = .unknown i) ↔ Untellable disk (typedPath text) := by
  by_cases hblank : String.ofList (Text.trim text.toList) = ""
  · -- Nothing that is typed stands for the directory in which paths start.
    have hpath : typedPath text = ⟨.posix, "", []⟩ := by
      rw [typedPath, hblank]
      decide
    have hjudged : judged disk text = .blank := by
      rw [judged, if_pos hblank]
    rw [hjudged, hpath]
    refine ⟨nofun, ?_⟩
    rintro (hhomeless | ⟨p, hp, hlong⟩)
    · cases hhomeless
    · cases hp
      cases hlong
  · rw [judged, if_neg hblank, ← typedPath]
    rcases expanded_clean hhomes (clean_typedPath h) with hexpanded | ⟨p, hexpanded, hclean⟩
    · rw [hexpanded]
      exact ⟨fun _ => Or.inl hexpanded, fun _ => ⟨.homeless, rfl⟩⟩
    · rw [hexpanded]
      dsimp only
      by_cases hlong : disk.find p = .error .tooLong
      · rw [Disk.look_eq_error hlong]
        exact ⟨fun _ => Or.inr ⟨p, hexpanded, hlong⟩, fun _ => ⟨_, rfl⟩⟩
      · -- The dialog looks at the path and at the directory above it, which is not longer.
        have hparent : disk.find p.parent ≠ .error .tooLong := fun hlongParent =>
          hlong (Disk.find_eq_tooLong_of_parent hclean hlongParent)
        obtain ⟨x, hx⟩ := Disk.exists_look hlong
        obtain ⟨y, hy⟩ := Disk.exists_look hparent
        rw [hx, hy]
        constructor
        · rintro ⟨i, hi⟩
          split at hi
          · next hfault => cases hfault
          · cases hi
          · next hfault _ _ => cases hfault
          · cases hi
          · cases hi
        · rintro (hhomeless | ⟨q, hq, hlongq⟩)
          · rw [hexpanded] at hhomeless
            cases hhomeless
          · rw [hexpanded] at hq
            cases hq
            exact absurd hlongq hlong

theorem expanded_of_accepted (h : judged disk text = .accepted path) :
    expanded disk (typedPath text) = .ok path := by
  rw [judged] at h
  split at h
  · cases h
  · rw [← typedPath] at h
    split at h
    · cases h
    · next p hexpanded =>
      split at h
      · cases h
      · cases h
      · cases h
      · cases h
      · cases h
        exact hexpanded

/-- A path that is handed over is clean where the text that it comes from is. -/
theorem clean_of_writeTo (hhomes : ∀ home ∈ s.disk.homes, '\x00' ∉ home.2.toList)
    (htext : ∀ text, s.pathText? a = some text → '\x00' ∉ text.toList)
    (h : s.errand a = .writeTo path) : path.Clean := by
  obtain ⟨text, rfl, rfl, -⟩ | ⟨text, rfl, hdialog, hjudged, -⟩ := step_of_writeTo h
  · exact Location.clean_spelled (htext text rfl)
  · have hnull : '\x00' ∉ text.toList := htext text (by rw [pathText?, if_pos hdialog])
    have hexpanded := expanded_of_accepted hjudged
    obtain hhomeless | ⟨q, hq, hclean⟩ := expanded_clean hhomes (clean_typedPath hnull)
    · cases hhomeless.symm.trans hexpanded
    · -- The dialog hands over what it expanded, and nothing else.
      cases hq.symm.trans hexpanded
      exact hclean

/-! ### What an action does to the files -/

/-- What an action does to the files, and what is told of it. -/
structure Saves (s : Session) (a : Action) : Prop where
  /-- Files change only where a path is handed over while there is a tree. -/
  untouched : (s.step a).1.disk = s.disk ∨ ∃ place text, s.Puts a place text
  saved : ∀ path t place,
    s.errand a = .writeTo path → s.tree = some t → s.disk.WritesAt path place →
      ∃ text, (Document.ofForest t.includes).render (Format.ofSuffix path) none = .ok text ∧
        s.disk.Rewritten (s.step a).1.disk place (Text.Utf8.encode text.toList) ∧
        (s.step a).2.filter Event.isNotice = [savedNotice t path]
  refused : ∀ path, s.errand a = .writeTo path →
    (s.tree = none ∨ ∀ place, ¬ s.disk.WritesAt path place) →
      (s.step a).1.disk = s.disk ∧
        ∃ message, (s.step a).2.filter Event.isNotice = [.notify message .error 3]
  /-- An action breaks off exactly where the save dialog cannot tell what is meant.  That is all on
  a disk where everybody may look into every directory; where permissions are kept, looking for a
  directory can fail for the lack of one as well, and then breaks off in the same way. -/
  interrupted : (∃ i, .interrupted i ∈ (s.step a).2) ↔
    ∃ text, a = .submit text true ∧ s.dialogs.head? = some .save ∧
      Untellable s.disk (typedPath text)

/-- Nothing breaks off when runs start and end. -/
theorem calm_step_of_run (h : a = .refresh ∨ a.endsRun = true) (i : Interruption) :
    .interrupted i ∉ (s.step a).2 := by
  rcases h with rfl | h
  · rw [step, refresh]
    split
    · exact interrupted_not_mem (by simp [told, Event.isMild]) i
    · simp
  · obtain ⟨t, rfl⟩ | rfl | ⟨error, rfl⟩ := Action.cases_of_endsRun h
    · exact interrupted_not_mem (isMild_of_mem_truncationWarning t) i
    · exact List.not_mem_nil
    · exact List.not_mem_nil

/-- Writing a graph never breaks off, whether it succeeds or not. -/
theorem calm_step_of_writeTo (herrand : s.errand a = .writeTo path) (hclean : path.Clean)
    (i : Interruption) : .interrupted i ∉ (s.step a).2 := by
  obtain ⟨-, -, hinterrupted⟩ := seen_of_writeTo herrand
  rw [hinterrupted]
  by_cases hwritable : ∃ t place, s.tree = some t ∧ s.disk.WritesAt path place
  · obtain ⟨t, place, htree, hplace⟩ := hwritable
    obtain ⟨text, after, -, -, hsaved⟩ := exists_writeTo htree hplace
    rw [hsaved]
    simp [savedNotice]
  · have hrefused : s.tree = none ∨ ∀ place, ¬ s.disk.WritesAt path place := by
      cases htree : s.tree with
      | none => exact Or.inl rfl
      | some t => exact Or.inr fun place hplace => hwritable ⟨t, place, htree, hplace⟩
    obtain ⟨message, htold⟩ := exists_writeTo_eq_told hclean hrefused
    rw [htold]
    simp [told]

theorem interrupted_step_iff (hhomes : ∀ home ∈ s.disk.homes, '\x00' ∉ home.2.toList)
    (htext : ∀ text, s.pathText? a = some text → '\x00' ∉ text.toList) :
    (∃ i, .interrupted i ∈ (s.step a).2) ↔
      ∃ text, a = .submit text true ∧ s.dialogs.head? = some .save ∧
        Untellable s.disk (typedPath text) := by
  constructor
  · rintro ⟨i, hi⟩
    by_cases hrun : a = .refresh ∨ a.endsRun = true
    · exact absurd hi (calm_step_of_run hrun i)
    · rw [not_or, Bool.not_eq_true] at hrun
      have hquiet := s.quiet_step hrun.1 hrun.2
      cases herrand : s.errand a with
      | nothing => exact absurd hi (hquiet.calm (by rw [herrand]; rfl) i)
      | lookFor query => exact absurd hi (hquiet.calm (by rw [herrand]; rfl) i)
      -- Of all errands only the dialog's own breaks off; the others are calm, and so is writing.
      | writeTo path =>
        have hclean := clean_of_writeTo hhomes htext herrand
        exact absurd hi (calm_step_of_writeTo herrand hclean i)
      | breakOff j =>
        obtain ⟨text, rfl, hdialog, hjudged, -⟩ := step_of_breakOff herrand
        have hnull : '\x00' ∉ text.toList := htext text (by rw [pathText?, if_pos hdialog])
        exact ⟨text, rfl, hdialog, (judged_eq_unknown_iff hhomes hnull).1 ⟨j, hjudged⟩⟩
  · rintro ⟨text, rfl, hdialog, huntellable⟩
    have hnull : '\x00' ∉ text.toList := htext text (by rw [pathText?, if_pos hdialog])
    obtain ⟨i, hjudged⟩ := (judged_eq_unknown_iff hhomes hnull).2 huntellable
    have herrand : s.errand (.submit text true) = .breakOff i := by
      rw [errand_submit_of_save hdialog, hjudged]
      rfl
    obtain ⟨-, -, -, -, hstep⟩ := step_of_breakOff herrand
    exact ⟨i, by rw [hstep]; exact List.mem_cons_self⟩

theorem saves_step (hhomes : ∀ home ∈ s.disk.homes, '\x00' ∉ home.2.toList)
    (htext : ∀ text, s.pathText? a = some text → '\x00' ∉ text.toList) : s.Saves a where
  untouched := (s.disk_step a).imp id fun ⟨place, text, hputs, _⟩ => ⟨place, text, hputs⟩
  saved path t place herrand htree hplace := by
    obtain ⟨hdisk, hnotices, -⟩ := seen_of_writeTo herrand
    obtain ⟨text, after, hrender, hrewritten, hwrite⟩ := exists_writeTo htree hplace
    rw [hdisk, hnotices, hwrite]
    exact ⟨text, hrender, hrewritten, rfl⟩
  refused path herrand h := by
    obtain ⟨hdisk, hnotices, -⟩ := seen_of_writeTo herrand
    obtain ⟨message, hwrite⟩ := exists_writeTo_eq_told (clean_of_writeTo hhomes htext herrand) h
    rw [hdisk, hnotices, hwrite]
    exact ⟨rfl, message, rfl⟩
  interrupted := interrupted_step_iff hhomes htext

/-- **A graph is saved in full, or nothing is changed**: each action of a session changes
files only by putting the graph of the tree of that moment into one of them, tells of it in
one message, and breaks off only at a path of which the save dialog cannot tell what it leads
to; and every file of the session was there before or was put there by one of the actions. -/
theorem saves (title : Option String) (disk : Disk)
    (hhomes : ∀ home ∈ disk.homes, '\x00' ∉ home.2.toList) :
    (∀ past a,
        (∀ text, ((opened title disk).after past).pathText? a = some text →
          '\x00' ∉ text.toList) →
        ((opened title disk).after past).Saves a) ∧
      ∀ actions place, ((opened title disk).after actions).disk.at? place = disk.at? place ∨
        ∃ past a rest text, actions = past ++ a :: rest ∧
          ((opened title disk).after past).Puts a place text ∧
          ((opened title disk).after actions).disk.at? place
            = some (.file (Text.Utf8.encode text.toList)) := by
  refine ⟨fun past a htext => ?_, disk_after (opened title disk)⟩
  -- Nobody moves while the session lasts, so the assumption on homes holds at every step.
  have hsame : ((opened title disk).after past).disk.homes = disk.homes := homes_after _ past
  exact saves_step (by rw [hsame]; exact hhomes) htext

/-- A dialog that was opened before a run and is answered after it saves the new tree. -/
theorem saves_across_run :
    let disk := Disk.blank ["work"] [("", "/work")]
    let old : IncludeTree := ⟨.cons ⟨"a.h", "a.h"⟩ .nil .nil, 1, some "a.c"⟩
    let new : IncludeTree :=
      ⟨.cons ⟨"b.h", "b.h"⟩ (.cons ⟨"c.h", "c.h"⟩ .nil .nil) .nil, 2, some "a.c"⟩
    let past : List Action :=
      [.refresh, .complete (.succeeded (some old)), .save, .refresh,
        .complete (.succeeded (some new))]
    let s := (opened (some "a.c") disk).after past
    let a : Action := .submit " ~/g.DOT" true
    (∀ home ∈ disk.homes, '\x00' ∉ home.2.toList) ∧
      (∀ text, s.pathText? a = some text → '\x00' ∉ text.toList) ∧
      s.Saves a ∧
      ∃ text, (Document.ofForest new.includes).render .dot none = .ok text ∧
        (s.step a).1.disk.at? ["work", "g.DOT"] = some (.file (Text.Utf8.encode text.toList)) := by
  intro disk old new past s a
  have hhomes : ∀ home ∈ disk.homes, '\x00' ∉ home.2.toList := by decide
  have htext : ∀ text, s.pathText? a = some text → '\x00' ∉ text.toList := by
    intro text htext
    have hsome : s.pathText? a = some " ~/g.DOT" := by decide +kernel
    obtain rfl := Option.some.inj (hsome.symm.trans htext)
    decide
  have hsaves := (saves (some "a.c") disk hhomes).1 past a htext
  have hplace : s.disk.WritesAt ⟨.posix, "/", ["work", "g.DOT"]⟩ ["work", "g.DOT"] :=
    ⟨by decide +kernel, by decide +kernel⟩
  obtain ⟨text, hrender, hrewritten, -⟩ :=
    hsaves.saved _ new _ (by decide +kernel) (by decide +kernel) hplace
  have hdot : Format.ofSuffix ⟨.posix, "/", ["work", "g.DOT"]⟩ = .dot := by decide +kernel
  rw [hdot] at hrender
  exact ⟨hhomes, htext, hsaves, text, hrender, hrewritten.file⟩

/-- The save dialog breaks off at a name that is too long for a file; without the dialog the
same path is refused in one message. -/
theorem saves_fails :
    let tree : IncludeTree := ⟨.cons ⟨"b.h", "b.h"⟩ .nil .nil, 1, some "a.c"⟩
    let s := (opened (some "a.c") (Disk.blank ["work"] [])).after
      [.refresh, .complete (.succeeded (some tree)), .save]
    let text := String.ofList (List.replicate 256 'g' ++ ".dot".toList)
    '\x00' ∉ text.toList ∧
      (∃ i, .interrupted i ∈ (s.step (.submit text true)).2) ∧
      ∃ message, (s.step (.writeTo (some text))).2.filter Event.isNotice
        = [.notify message .error 3] := by
  intro tree s text
  have hlist : text.toList = List.replicate 256 'g' ++ ".dot".toList := String.toList_ofList
  have hnull : '\x00' ∉ text.toList := by
    rw [hlist]
    decide +kernel
  have hne : ∀ other : String, other.toList.length < 260 → text ≠ other := by
    rintro other hother rfl
    rw [hlist] at hother
    exact absurd hother (by decide +kernel)
  have hspelled : Location.spelled text = ⟨.posix, "", [text]⟩ := by
    refine Location.spelled_of_name (hne "" (by decide)) (hne "." (by decide)) ?_
    rw [hlist]
    decide +kernel
  have htyped : typedPath text = Location.spelled text := by
    have hall : (List.replicate 256 'g' ++ ".dot".toList).all (!Text.isBlank ·) = true := by
      decide +kernel
    refine typedPath_of_unblank fun c hc => ?_
    rw [hlist] at hc
    simpa using List.all_eq_true.1 hall c hc
  have hlong : s.disk.find (Location.spelled text) = .error .tooLong := by
    refine Disk.find_eq_tooLong_of_name (Location.clean_spelled hnull) (by rw [hspelled]) ?_ ?_
    · rw [Disk.byteCount, hlist]
      decide +kernel
    · rw [hspelled]
      decide +kernel
  -- The name does not start with a tilde, so it is looked up as it was typed.
  have hexpanded : expanded s.disk (typedPath text) = .ok (Location.spelled text) := by
    have huser : tildeUser? (Location.spelled text) = none := by
      refine Option.eq_none_iff_forall_ne_some.2 fun user huser => ?_
      obtain ⟨segment, hmem, hsegment⟩ := mem_of_tildeUser? huser
      rw [hspelled, List.mem_singleton] at hmem
      rw [hmem, hlist] at hsegment
      have htilde : '~' ∉ List.replicate 256 'g' ++ ".dot".toList := by decide +kernel
      exact htilde (hsegment ▸ List.mem_cons_self)
    rw [htyped, expanded, huser]
  have hdialog : s.dialogs.head? = some .save := by decide +kernel
  refine ⟨hnull, ?_, ?_⟩
  · have huntellable : Untellable s.disk (typedPath text) := Or.inr ⟨_, hexpanded, hlong⟩
    have hhomes : s.disk.homes = [] := by decide +kernel
    refine (interrupted_step_iff (by simp [hhomes]) fun other hother => ?_).2
      ⟨text, rfl, hdialog, huntellable⟩
    rw [pathText?, if_pos hdialog] at hother
    rwa [← Option.some.inj hother]
  · have hplaces : ∀ place, ¬ s.disk.WritesAt (Location.spelled text) place := by
      rintro place ⟨hfind, -⟩
      cases hlong.symm.trans hfind
    have hclean := Location.clean_spelled hnull
    obtain ⟨message, hwrite⟩ := exists_writeTo_eq_told (s := s) hclean (Or.inr hplaces)
    have hstep : s.step (.writeTo (some text)) = s.told message .error 3 := hwrite
    exact ⟨message, by rw [hstep]; rfl⟩

end Session

end IncludeTrace.Browser
