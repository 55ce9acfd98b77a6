/-
What actions do beside starting and ending runs.

Such an action has at most one errand: it looks for a query, hands over a path to be written
to, or breaks off.  Beside that it can give the panel another text, open and close rows, go
from match to match, and open and close dialogs; all else stays as it was:

* `Errand`, `Session.errand` — the errand of an action;
* `Quiet`, `quiet_step` — what an action leaves as it was, its errand apart;
* `step_of_writeTo`, `step_of_breakOff` — which actions hand over a path or break off.
-/
import IncludeTrace.Browser.Session
import IncludeTrace.Proofs.BrowserRows

namespace IncludeTrace.Browser

/-- Whether a run is over with an action: it succeeded, failed or was cancelled. -/
def Action.endsRun : Action → Bool
  | .complete (.succeeded _) => true
  | .complete (.ended _) => true
  | _ => false

theorem Action.cases_of_endsRun {a : Action} (h : a.endsRun = true) :
    (∃ t, a = .complete (.succeeded (some t))) ∨ a = .complete (.succeeded none) ∨
      ∃ error, a = .complete (.ended error) := by
  cases a with
  | complete c =>
    cases c with
    | succeeded tree =>
      cases tree with
      | some t => exact Or.inl ⟨t, rfl⟩
      | none => exact Or.inr (Or.inl rfl)
    | ended error => exact Or.inr (Or.inr ⟨error, rfl⟩)
    | underWay => exact absurd h (by simp [endsRun])
  | _ => exact absurd h (by simp [endsRun])

/-- Whether an event neither starts a run nor tells that something broke off. -/
def Event.isMild : Event → Bool
  | .run => false
  | .interrupted _ => false
  | _ => true

/-! ### Errands -/

/-- What an action sends a session to do. -/
inductive Errand where
  | nothing
  | lookFor (query : String)
  | writeTo (path : Location)
  | breakOff (i : Interruption)
  deriving DecidableEq, Repr

namespace Errand

/-- An empty query is not looked for. -/
def ofQuery (query : Option String) : Errand :=
  match query.filter (· != "") with
  | some query => lookFor query
  | none => nothing

def ofPath : Option Location → Errand
  | some path => writeTo path
  | none => nothing

def ofJudgement : Session.Judgement → Errand
  | .blank => nothing
  | .unknown i => breakOff i
  | .refused _ => nothing
  | .accepted path => writeTo path

/-- The matches after an errand. -/
def found (s : Session) : Errand → List Row
  | lookFor query => Rows.matching query s.rows
  | _ => s.found

/-- The files after an errand. -/
def disk (s : Session) : Errand → Disk
  | writeTo path =>
    match (Graph.exportGraph s.disk s.tree (some path) none none).1 with
    | .ok (_, disk) => disk
    | .error _ => s.disk
  | _ => s.disk

/-- Whether an errand ends well whatever the files are. -/
def isSafe : Errand → Bool
  | nothing => true
  | lookFor _ => true
  | _ => false

end Errand

namespace Session

/-- The errand of an action. -/
def errand (s : Session) : Action → Errand
  | .query text => .ofQuery text
  | .writeTo path => .ofPath (path.map Location.spelled)
  | .submit text true =>
    match s.dialogs with
    | .search :: _ => .ofQuery (typedQuery? text)
    | .save :: _ => .ofJudgement (judged s.disk text)
    | [] => .nothing
  | _ => .nothing

/-- Where errands come from: the search dialog or a query without it, a path without the
save dialog, and the save dialog. -/
theorem errand_cases (s : Session) (a : Action) :
    s.errand a = .nothing ∨
      (∃ query, s.errand a = .ofQuery query ∧
        (s.step a = s.lookFor query ∨ s.step a = dismissed query (s.closed.lookFor query))) ∨
      (∃ text, a = .writeTo text ∧ s.errand a = .ofPath (text.map Location.spelled) ∧
        s.step a = s.writeTo (text.map Location.spelled)) ∨
      ∃ text, a = .submit text true ∧ s.dialogs.head? = some .save ∧
        s.errand a = .ofJudgement (judged s.disk text) ∧ s.step a = s.submitPath text := by
  cases a with
  | query text => exact Or.inr (Or.inl ⟨text, rfl, Or.inl rfl⟩)
  | writeTo text => exact Or.inr (Or.inr (Or.inl ⟨text, rfl, rfl, rfl⟩))
  | submit text own =>
    cases own with
    | false => exact Or.inl rfl
    | true =>
      cases hdialogs : s.dialogs with
      | nil => exact Or.inl (by simp [errand, hdialogs])
      | cons dialog dialogs =>
        cases dialog with
        | search =>
          refine Or.inr (Or.inl ⟨typedQuery? text, ?_, Or.inr ?_⟩)
          · simp [errand, hdialogs]
          · simp [step, submit, hdialogs, submitQuery]
        | save =>
          refine Or.inr (Or.inr (Or.inr ⟨text, rfl, rfl, ?_, ?_⟩))
          · simp [errand, hdialogs]
          · simp [step, submit, hdialogs]
  | _ => exact Or.inl rfl

theorem ofQuery_cases (query : Option String) :
    Errand.ofQuery query = .nothing ∨ ∃ q, Errand.ofQuery query = .lookFor q := by
  rw [Errand.ofQuery]
  split
  · exact Or.inr ⟨_, rfl⟩
  · exact Or.inl rfl

theorem ofQuery_ne_writeTo (query : Option String) (path : Location) :
    Errand.ofQuery query ≠ .writeTo path := by
  obtain h | ⟨q, h⟩ := ofQuery_cases query
  · rw [h]
    exact nofun
  · rw [h]
    exact nofun

theorem ofQuery_ne_breakOff (query : Option String) (i : Interruption) :
    Errand.ofQuery query ≠ .breakOff i := by
  obtain h | ⟨q, h⟩ := ofQuery_cases query
  · rw [h]
    exact nofun
  · rw [h]
    exact nofun

theorem eq_accepted_of_writeTo {j : Judgement} {path : Location}
    (h : Errand.ofJudgement j = .writeTo path) : j = .accepted path := by
  cases j with
  | accepted other =>
    cases h
    rfl
  | _ => cases h

theorem eq_unknown_of_breakOff {j : Judgement} {i : Interruption}
    (h : Errand.ofJudgement j = .breakOff i) : j = .unknown i := by
  cases j with
  | unknown other =>
    cases h
    rfl
  | _ => cases h

/-- Only the save dialog breaks off. -/
theorem step_of_breakOff {s : Session} {a : Action} {i : Interruption}
    (h : s.errand a = .breakOff i) :
    ∃ text, a = .submit text true ∧ s.dialogs.head? = some .save ∧
      judged s.disk text = .unknown i ∧ s.step a = s.breaksOff i := by
  obtain hnone | ⟨query, hquery, -⟩ | ⟨text, -, hpath, -⟩ | ⟨text, ha, hdialog, hsave, hstep⟩ :=
    s.errand_cases a
  · cases hnone.symm.trans h
  · exact absurd (hquery.symm.trans h) (ofQuery_ne_breakOff query i)
  · cases text <;> cases hpath.symm.trans h
  · have hjudged := eq_unknown_of_breakOff (hsave.symm.trans h)
    exact ⟨text, ha, hdialog, hjudged, by rw [hstep, submitPath, hjudged]⟩

/-- A path comes from the save dialog, which is closed with it, or without a dialog. -/
theorem step_of_writeTo {s : Session} {a : Action} {path : Location}
    (h : s.errand a = .writeTo path) :
    (∃ text, a = .writeTo (some text) ∧ path = Location.spelled text ∧
        s.step a = s.writeTo (some path)) ∨
      ∃ text, a = .submit text true ∧ s.dialogs.head? = some .save ∧
        judged s.disk text = .accepted path ∧
        s.step a = dismissed (some path.text) (s.closed.writeTo (some path)) := by
  obtain hnone | ⟨query, hquery, -⟩ | ⟨text, ha, hpath, hstep⟩ |
    ⟨text, ha, hdialog, hsave, hstep⟩ := s.errand_cases a
  · cases hnone.symm.trans h
  · exact absurd (hquery.symm.trans h) (ofQuery_ne_writeTo query path)
  · cases text with
    | none => cases hpath.symm.trans h
    | some text =>
      cases hpath.symm.trans h
      exact Or.inl ⟨text, ha, rfl, hstep⟩
  · have hjudged := eq_accepted_of_writeTo (hsave.symm.trans h)
    exact Or.inr ⟨text, ha, hdialog, hjudged, by rw [hstep, submitPath, hjudged]⟩

/-- What the save dialog makes of a text decides what is done with it. -/
theorem errand_submit_of_save {s : Session} (h : s.dialogs.head? = some .save) (text : String) :
    s.errand (.submit text true) = .ofJudgement (judged s.disk text) := by
  cases hdialogs : s.dialogs with
  | nil =>
    rw [hdialogs] at h
    cases h
  | cons dialog dialogs =>
    rw [hdialogs] at h
    cases h
    rw [errand, hdialogs]

/-! ### Actions that neither start nor end a run -/

/-- A text that the rows and the tree can put into the panel. -/
def Offers (s : Session) (text : Option String) : Prop :=
  (∃ t, s.tree = some t ∧ text = some (summary s.title t)) ∨
    ∃ r ∈ s.rows.values, ∃ t, r.item.file = some t ∧ text = some (Browser.details t)

/-- A step starts no run, and all that it changes beside its errand is the panel, which gets
another text about what is on the screen, and how rows, matches and dialogs are shown. -/
structure Quiet (s : Session) (e : Errand) (r : Step) : Prop where
  title : r.1.title = s.title
  loading : r.1.loading = s.loading
  progress : r.1.progressShown = s.progressShown
  tree : r.1.tree = s.tree
  fileLabel : r.1.fileLabel = s.fileLabel
  rows : r.1.rows.map Row.known = s.rows.map Row.known
  nextId : r.1.nextId = s.nextId
  details : r.1.details = s.details ∨ s.Offers r.1.details
  found : r.1.found = e.found s
  disk : r.1.disk = e.disk s
  noRun : Event.run ∉ r.2
  /-- No errand but a path breaks anything off unless it is meant to. -/
  calm : e.isSafe = true → ∀ i, Event.interrupted i ∉ r.2

variable {s : Session} {e : Errand} {r : Step}

theorem run_not_mem {events : List Event} (h : ∀ x ∈ events, x.isMild = true) :
    Event.run ∉ events :=
  fun hrun => absurd (h _ hrun) (by simp [Event.isMild])

theorem interrupted_not_mem {events : List Event} (h : ∀ x ∈ events, x.isMild = true)
    (i : Interruption) : Event.interrupted i ∉ events :=
  fun hi => absurd (h _ hi) (by simp [Event.isMild])

theorem isMild_of_mem_truncationWarning (t : IncludeTree) :
    ∀ x ∈ truncationWarning t, x.isMild = true := by
  rw [truncationWarning]
  split <;> simp [Event.isMild]

theorem quiet_same {events : List Event} (h : ∀ x ∈ events, x.isMild = true) :
    s.Quiet .nothing (s, events) :=
  ⟨rfl, rfl, rfl, rfl, rfl, rfl, rfl, Or.inl rfl, rfl, rfl, run_not_mem h,
    fun _ => interrupted_not_mem h⟩

theorem quiet_told (s : Session) (message : String) (urgency : Urgency) (seconds : Nat) :
    s.Quiet .nothing (s.told message urgency seconds) :=
  quiet_same (by simp [Event.isMild])

theorem quiet_breaksOff (s : Session) (i : Interruption) :
    s.Quiet (.breakOff i) (s.breaksOff i) :=
  ⟨rfl, rfl, rfl, rfl, rfl, rfl, rfl, Or.inl rfl, rfl, rfl, by simp [breaksOff], nofun⟩

/-- Which match is the current one, and which dialogs are open, matters to no errand. -/
theorem Quiet.of_update {current : Nat} {dialogs : List Dialog}
    (h : Quiet { s with current := current, dialogs := dialogs } e r) : s.Quiet e r :=
  ⟨h.title, h.loading, h.progress, h.tree, h.fileLabel, h.rows, h.nextId, h.details,
    h.found.trans (by cases e <;> rfl), h.disk.trans (by cases e <;> rfl), h.noRun, h.calm⟩

theorem Quiet.after_event {x : Event} (hx : x.isMild = true) (h : s.Quiet e r) :
    s.Quiet e (r.1, x :: r.2) := by
  have hrun : Event.run ≠ x := by
    rintro rfl
    cases hx
  have hcalm (i : Interruption) : Event.interrupted i ≠ x := by
    rintro rfl
    cases hx
  exact { h with
    noRun := List.not_mem_cons_of_ne_of_not_mem hrun h.noRun
    calm := fun hsafe i => List.not_mem_cons_of_ne_of_not_mem (hcalm i) (h.calm hsafe i) }

theorem Quiet.dismissed (value : Option String) (h : s.closed.Quiet e r) :
    s.Quiet e (dismissed value r) := by
  have hs : s.Quiet e r := Quiet.of_update h
  exact hs.after_event rfl

theorem quiet_goTo (s : Session) (number : Nat) : s.Quiet .nothing (s.goTo number) := by
  rw [goTo]
  split
  · exact quiet_same (by simp)
  · exact ⟨rfl, rfl, rfl, rfl, rfl, Rows.map_known_reveal _ _, rfl, Or.inl rfl, rfl, rfl,
      run_not_mem (by simp [Event.isMild]), fun _ => interrupted_not_mem (by simp [Event.isMild])⟩

theorem quiet_lookFor (s : Session) (query : Option String) :
    s.Quiet (.ofQuery query) (s.lookFor query) := by
  rw [lookFor, Errand.ofQuery]
  cases query.filter (· != "") with
  | none => exact quiet_same (by simp)
  | some query =>
    -- The matches are replaced before the first of them is gone to.
    have hfound : ∀ r, Quiet { s with found := Rows.matching query s.rows, current := 0 }
        .nothing r → s.Quiet (.lookFor query) r := fun r h =>
      ⟨h.title, h.loading, h.progress, h.tree, h.fileLabel, h.rows, h.nextId, h.details, h.found,
        h.disk, h.noRun, h.calm⟩
    apply hfound
    dsimp only
    split
    · exact quiet_told _ _ _ _
    · exact (quiet_goTo _ 0).after_event rfl

theorem quiet_goFurther (s : Session) (distance : Nat) :
    s.Quiet .nothing (s.goFurther distance) := by
  rw [goFurther]
  split
  · exact quiet_told _ _ _ _
  · exact quiet_goTo _ _

theorem quiet_writeTo (s : Session) (path : Option Location) :
    s.Quiet (.ofPath path) (s.writeTo path) := by
  cases path with
  | none => exact quiet_same (by simp)
  | some path =>
    rw [Errand.ofPath, writeTo.eq_def]
    dsimp only
    -- The files change in the one case in which the document was written.
    have hfailed : ∀ fault events,
        (Graph.exportGraph s.disk s.tree (some path) none none).1 = .error fault →
        Event.run ∉ events → s.Quiet (.writeTo path) (s, events) := fun fault events h hrun =>
      ⟨rfl, rfl, rfl, rfl, rfl, rfl, rfl, Or.inl rfl, rfl, by rw [Errand.disk, h], hrun, nofun⟩
    split
    · next h =>
      exact ⟨rfl, rfl, rfl, rfl, rfl, rfl, rfl, Or.inl rfl, rfl, by rw [Errand.disk, h],
        by simp, nofun⟩
    · next h => exact hfailed _ _ h (by simp)
    · next h => exact hfailed _ _ h (by simp)
    · next fault _ _ h => exact hfailed fault _ h (by simp)

theorem quiet_submitPath (s : Session) (text : String) :
    s.Quiet (.ofJudgement (judged s.disk text)) (s.submitPath text) := by
  rw [submitPath]
  cases hjudged : judged s.disk text with
  | blank => exact (quiet_same (by simp)).dismissed none
  | unknown i => exact quiet_breaksOff s i
  | refused warning => exact quiet_told _ _ _ _
  | accepted path => exact (quiet_writeTo s.closed (some path)).dismissed _

theorem quiet_submit (s : Session) (text : String) (own : Bool) :
    s.Quiet (s.errand (.submit text own)) (s.submit text own) := by
  rw [submit.eq_def, errand.eq_def]
  cases own with
  | false => cases s.dialogs <;> exact quiet_same (by simp [Event.isMild])
  | true =>
    cases s.dialogs with
    | nil => exact quiet_same (by simp [Event.isMild])
    | cons dialog dialogs =>
      cases dialog with
      | search => exact (quiet_lookFor s.closed (typedQuery? text)).dismissed _
      | save => exact quiet_submitPath s text

theorem offers_of_detailsOf? {path : List Nat} {row : Row} {text : String}
    (hrow : Rows.find? path s.rows = some row) (htext : detailsOf? row = some text) :
    s.Offers (some text) := by
  rw [detailsOf?] at htext
  split at htext
  · next t hfile =>
    split at htext
    · exact absurd htext (by simp)
    · exact Or.inr ⟨row, Rows.mem_values_of_find? hrow, t, hfile, htext.symm⟩
  · exact absurd htext (by simp)

theorem quiet_details {text : Option String} (h : s.Offers text) :
    s.Quiet .nothing ({ s with details := text }, []) :=
  ⟨rfl, rfl, rfl, rfl, rfl, rfl, rfl, Or.inr h, rfl, rfl, by simp, by simp⟩

theorem quiet_highlight (s : Session) (path : List Nat) :
    s.Quiet .nothing (s.highlight path, []) := by
  rw [highlight]
  split
  · next text h =>
    obtain ⟨row, hrow, htext⟩ := Option.bind_eq_some_iff.1 h
    exact quiet_details (offers_of_detailsOf? hrow htext)
  · exact quiet_same (by simp)

theorem quiet_showSummary (s : Session) : s.Quiet .nothing (s.showSummary, []) := by
  rw [showSummary]
  split
  · next t htree => exact quiet_details (Or.inl ⟨t, htree, rfl⟩)
  · exact quiet_same (by simp)

theorem quiet_select (s : Session) (path : List Nat) :
    s.Quiet .nothing (s.select path, []) := by
  rw [select.eq_def]
  split
  · exact quiet_showSummary s
  · split
    · exact quiet_same (by simp)
    · next row hrow =>
      split
      · next text htext => exact quiet_details (offers_of_detailsOf? hrow htext)
      · split
        · exact quiet_showSummary s
        · exact quiet_same (by simp)

theorem quiet_refresh (h : s.loading = true) : s.Quiet .nothing s.refresh := by
  rw [refresh, if_pos h]
  exact quiet_told _ _ _ _

/-- Rows can be opened and closed, dialogs too, and the panel hidden and shown again. -/
theorem quiet_update {rows : Forest Row} (rootOpen detailsShown : Bool) (dialogs : List Dialog)
    (events : List Event) (hrows : rows.map Row.known = s.rows.map Row.known)
    (hevents : ∀ x ∈ events, x.isMild = true) :
    s.Quiet .nothing ({ s with
      rows := rows, rootOpen := rootOpen, detailsShown := detailsShown, dialogs := dialogs },
      events) :=
  ⟨rfl, rfl, rfl, rfl, rfl, hrows, rfl, Or.inl rfl, rfl, rfl, run_not_mem hevents,
    fun _ => interrupted_not_mem hevents⟩

/-- Only a refresh and the end of a run change what the screen is about, and only an errand
changes the files and the matches. -/
theorem quiet_step (s : Session) {a : Action} (hrefresh : a ≠ .refresh)
    (hends : a.endsRun = false) : s.Quiet (s.errand a) (s.step a) := by
  cases a with
  | refresh => exact absurd rfl hrefresh
  | complete c =>
    cases c with
    | succeeded tree => exact absurd hends (by simp [Action.endsRun])
    | ended error => exact absurd hends (by simp [Action.endsRun])
    | underWay => exact quiet_same (by simp)
  | openAll => exact quiet_update true _ _ [] (Rows.map_known_openAll true s.rows) (by simp)
  | closeAll => exact quiet_update true _ _ [] (Rows.map_known_openAll false s.rows) (by simp)
  | highlight path => exact quiet_highlight s path
  | select path => exact quiet_select s path
  | search =>
    exact quiet_update _ _ (.search :: s.dialogs) [.push .search] rfl (by simp [Event.isMild])
  | nextMatch => exact quiet_goFurther s _
  | previousMatch => exact quiet_goFurther s _
  | toggleDetails => exact quiet_update _ (!s.detailsShown) _ [] rfl (by simp)
  | save =>
    simp only [step, askForFile]
    split
    · exact quiet_told _ _ _ _
    · exact quiet_update _ _ (.save :: s.dialogs) [.push .save] rfl (by simp [Event.isMild])
  | quit => exact quiet_same (by simp [Event.isMild])
  | submit text own => exact quiet_submit s text own
  | cancel =>
    simp only [step, cancel]
    split
    · exact quiet_same (by simp [Event.isMild])
    · exact (quiet_same (by simp)).dismissed none
  | query text => exact quiet_lookFor s text
  | writeTo path => exact quiet_writeTo s _

end Session

end IncludeTrace.Browser
