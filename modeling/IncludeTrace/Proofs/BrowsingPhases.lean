/-
What the screen shows while somebody browses.

Only two kinds of actions change what the screen is about: a refresh that starts a run, and
the end of a run.  If runs end only while they are under way, the screen is therefore about
the latest run alone, whatever else is done in between:

* `Phase`, `Phase.next` — what the screen is about, and how actions change that;
* `runsAfter`, `Paced` — the runs that are under way, and that no other run ends;
* `Shows`, `shows_step`, `shows_after` — the screen follows the phases;
* `one_run_at_a_time` — runs that were started and runs that have ended;
* `after_consistent` — the tree, the rows, the progress, the label and the panel agree after
  every action.
-/
import IncludeTrace.Proofs.Errands

namespace IncludeTrace.Browser

namespace Session

/-- The session in which nothing has happened yet. -/
def opened (title : Option String) (disk : Disk) : Session :=
  { title := title, disk := disk }

/-- The line above the tree; until it is written to, it names the title alone. -/
def label (s : Session) : String :=
  s.fileLabel.getD (Browser.fileLabel s.title none)

end Session

/-! ### Phases -/

/-- What the screen is about: nothing yet, a run that is under way, or how the latest one
ended. -/
inductive Phase where
  | fresh
  | collecting
  | failed (error : Option String)
  | showing (t : IncludeTree)
  deriving DecidableEq, Repr

namespace Phase

/-- What the screen is about after an action. -/
def next : Phase → Action → Phase
  | _, .refresh => .collecting
  | _, .complete (.succeeded (some t)) => .showing t
  | _, .complete (.succeeded none) => .failed none
  | _, .complete (.ended error) => .failed (some (error.getD "cancelled"))
  | p, _ => p

/-- What the screen is about after a list of actions. -/
def after (p : Phase) (actions : List Action) : Phase :=
  actions.foldl next p

def isRunning : Phase → Bool
  | collecting => true
  | _ => false

theorem isRunning_of_pos {p : Phase} (h : 0 < p.isRunning.toNat) : p.isRunning = true :=
  Bool.toNat_eq_one.1 (Nat.le_antisymm (Bool.toNat_le _) h)

theorem eq_collecting {p : Phase} (h : p.isRunning = true) : p = .collecting := by
  cases p with
  | collecting => rfl
  | _ => cases h

def tree? : Phase → Option IncludeTree
  | showing t => some t
  | _ => none

/-- What the rows show. -/
def items : Phase → Forest Item
  | fresh => .nil
  | collecting => .nil
  | failed _ => .cons .noIncludes .nil .nil
  | showing t => (populate .usual 0 t.includes 0).1

/-- What the panel can hold. -/
def Tells (title : Option String) : Phase → Option String → Prop
  | fresh, text => text = none
  | collecting, text => text = some Browser.collecting
  | failed error, text => text = some (failure error)
  | showing t, text =>
    text = some (summary title t) ∨ ∃ u ∈ t.includes.subtrees, text = some (Browser.details u)

theorem next_of_quiet {p : Phase} {a : Action} (hrefresh : a ≠ .refresh)
    (hends : a.endsRun = false) : p.next a = p := by
  cases a with
  | refresh => exact absurd rfl hrefresh
  | complete c =>
    cases c with
    | succeeded tree => exact absurd hends (by simp [Action.endsRun])
    | ended error => exact absurd hends (by simp [Action.endsRun])
    | underWay => rfl
  | _ => rfl

/-- The screen is about nothing only as long as no run has ended. -/
theorem any_endsRun_of_fresh {actions : List Action} {p : Phase}
    (h : p.after actions = .fresh) : p = .fresh ∧ actions.any Action.endsRun = false := by
  induction actions generalizing p with
  | nil => exact ⟨h, rfl⟩
  | cons a actions ih =>
    obtain ⟨hnext, hactions⟩ := ih h
    rw [List.any_cons, hactions, Bool.or_false]
    by_cases hrefresh : a = .refresh
    · subst hrefresh
      cases hnext
    · cases hends : a.endsRun with
      | false => exact ⟨(next_of_quiet hrefresh hends).symm.trans hnext, rfl⟩
      | true =>
        -- No way of ending a run leads back to the first phase.
        obtain ⟨t, rfl⟩ | rfl | ⟨error, rfl⟩ := Action.cases_of_endsRun hends <;> cases hnext

/-- Before a run has ended the screen is about nothing, or about the first run. -/
theorem after_of_any_eq_false {actions : List Action} {p : Phase}
    (h : actions.any Action.endsRun = false) :
    p.after actions = p ∨ p.after actions = .collecting := by
  induction actions generalizing p with
  | nil => exact Or.inl rfl
  | cons a actions ih =>
    rw [List.any_cons, Bool.or_eq_false_iff] at h
    by_cases hrefresh : a = .refresh
    · subst hrefresh
      exact Or.inr ((ih h.2).elim id id)
    · rw [after, List.foldl_cons, next_of_quiet hrefresh h.1]
      exact ih h.2

end Phase

/-! ### Runs that are under way -/

/-- How many runs are under way after an action, if `n` were so before it. -/
def runsLeft (n : Nat) (a : Action) (events : List Event) : Nat :=
  n + events.count .run - a.endsRun.toNat

/-- How many runs are under way after a list of actions, if `n` were so before it. -/
def runsAfter : Nat → Session → List Action → Nat
  | n, _, [] => n
  | n, s, a :: actions => runsAfter (runsLeft n a (s.step a).2) (s.step a).1 actions

/-- No run ends that is not under way, if `n` runs are so at the beginning. -/
def Paced : Nat → Session → List Action → Prop
  | _, _, [] => True
  | n, s, a :: actions =>
    (a.endsRun = true → 0 < n) ∧ Paced (runsLeft n a (s.step a).2) (s.step a).1 actions

theorem runsLeft_of_not_mem (n : Nat) (a : Action) {events : List Event}
    (h : Event.run ∉ events) : runsLeft n a events = n - a.endsRun.toNat := by
  rw [runsLeft, List.count_eq_zero_of_not_mem h, Nat.add_zero]

instance Paced.decidable : (n : Nat) → (s : Session) → (actions : List Action) →
    Decidable (Paced n s actions)
  | _, _, [] => inferInstanceAs (Decidable True)
  | n, s, a :: actions =>
    have := Paced.decidable (runsLeft n a (s.step a).2) (s.step a).1 actions
    inferInstanceAs (Decidable (_ ∧ _))

/-! ### The screen -/

/-- The screen is about a phase, and about nothing else. -/
structure Shows (title : Option String) (p : Phase) (s : Session) : Prop where
  titled : s.title = title
  loading : s.loading = p.isRunning
  progress : s.progressShown = p.isRunning
  tree : s.tree = p.tree?
  label : s.label = fileLabel title (p.tree?.map (·.count))
  items : s.rows.map Row.item = p.items
  details : p.Tells title s.details

variable {title : Option String} {p : Phase} {s : Session}

theorem shows_opened (title : Option String) (disk : Disk) :
    Shows title .fresh (Session.opened title disk) :=
  ⟨rfl, rfl, rfl, rfl, rfl, rfl, rfl⟩

/-- What can be put into the panel belongs to the phase. -/
theorem Shows.tells (h : Shows title p s) {text : Option String} (htext : s.Offers text) :
    p.Tells title text := by
  obtain ⟨t, htree, rfl⟩ | ⟨r, hr, t, hfile, rfl⟩ := htext
  · rw [h.tree] at htree
    cases p with
    | showing t' =>
      cases htree
      exact Or.inl (by rw [h.titled])
    | fresh => cases htree
    | collecting => cases htree
    | failed error => cases htree
  · -- The row shows one of the items of the phase.
    have hitem : r.item ∈ p.items.values := by
      rw [← h.items, Forest.values_map]
      exact List.mem_map_of_mem hr
    cases p with
    | showing t' => exact Or.inr ⟨t, mem_subtrees_of_mem_populate hitem hfile, rfl⟩
    | fresh => exact absurd hitem List.not_mem_nil
    | collecting => exact absurd hitem List.not_mem_nil
    | failed error =>
      rw [List.mem_singleton.1 hitem] at hfile
      cases hfile

theorem Shows.quiet (h : Shows title p s) {e : Errand} {r : Step} (hr : s.Quiet e r) :
    Shows title p r.1 where
  titled := hr.title.trans h.titled
  loading := hr.loading.trans h.loading
  progress := hr.progress.trans h.progress
  tree := hr.tree.trans h.tree
  label := by
    rw [← h.label, Session.label, Session.label, hr.fileLabel, hr.title]
  items := (Rows.map_item_of_known hr.rows).trans h.items
  details := by
    rcases hr.details with hd | hd
    · rw [hd]
      exact h.details
    · exact h.tells hd

theorem Shows.refresh (h : Shows title p s) (hp : p.isRunning = false) :
    Shows title .collecting s.refresh.1 := by
  rw [Session.refresh, if_neg (by rw [h.loading, hp]; exact Bool.false_ne_true)]
  exact ⟨h.titled, rfl, rfl, rfl, by rw [← h.titled]; rfl, rfl, rfl⟩

/-- A run that ends without a tree leaves nothing of an earlier one. -/
theorem Shows.showFailure (h : Shows title .collecting s) (error : Option String) :
    Shows title (.failed error) (s.showFailure error) :=
  ⟨h.titled, rfl, rfl, rfl, h.label, Rows.map_item_planted _ _, rfl⟩

theorem Shows.showTree (h : Shows title .collecting s) (t : IncludeTree) :
    Shows title (.showing t) (s.showTree t).1 where
  titled := h.titled
  loading := rfl
  progress := rfl
  tree := rfl
  label := by rw [← h.titled]; rfl
  items := Rows.map_item_planted _ _
  details := Or.inl (by rw [← h.titled]; rfl)

/-- The screen follows the phases, and a run is under way in one of them. -/
theorem shows_step (h : Shows title p s) {a : Action}
    (ha : a.endsRun = true → p.isRunning = true) :
    Shows title (p.next a) (s.step a).1 ∧
      runsLeft p.isRunning.toNat a (s.step a).2 = (p.next a).isRunning.toNat := by
  by_cases hrefresh : a = .refresh
  · subst hrefresh
    cases hp : p.isRunning with
    | true =>
      -- The run that is under way stays the only one.
      obtain rfl := Phase.eq_collecting hp
      have hquiet := Session.quiet_refresh (h.loading.trans hp)
      exact ⟨h.quiet hquiet, runsLeft_of_not_mem _ _ hquiet.noRun⟩
    | false =>
      refine ⟨h.refresh hp, ?_⟩
      have hloading : s.loading = false := h.loading.trans hp
      simp [Session.step, Session.refresh, hloading, runsLeft, Phase.next, Phase.isRunning,
        Action.endsRun]
  · cases hends : a.endsRun with
    | false =>
      have hquiet := s.quiet_step hrefresh hends
      rw [Phase.next_of_quiet hrefresh hends]
      refine ⟨h.quiet hquiet, ?_⟩
      rw [runsLeft_of_not_mem _ _ hquiet.noRun, hends]
      rfl
    | true =>
      obtain rfl := Phase.eq_collecting (ha hends)
      obtain ⟨t, rfl⟩ | rfl | ⟨error, rfl⟩ := Action.cases_of_endsRun hends
      · have hrun := Session.run_not_mem (Session.isMild_of_mem_truncationWarning t)
        exact ⟨h.showTree t, runsLeft_of_not_mem _ _ hrun⟩
      · exact ⟨h.showFailure none, runsLeft_of_not_mem _ _ List.not_mem_nil⟩
      · exact ⟨h.showFailure _, runsLeft_of_not_mem _ _ List.not_mem_nil⟩

/-- The screen is about the latest run after every action, and the phase tells the runs that are
under way. -/
theorem shows_after {past rest : List Action} (h : Shows title p s)
    (hpaced : Paced p.isRunning.toNat s (past ++ rest)) :
    Shows title (p.after past) (s.after past) ∧
      runsAfter p.isRunning.toNat s past = (p.after past).isRunning.toNat := by
  induction past generalizing p s with
  | nil => exact ⟨h, rfl⟩
  | cons a past ih =>
    obtain ⟨ha, hrest⟩ := hpaced
    have hrunning : a.endsRun = true → p.isRunning = true := fun hends =>
      Phase.isRunning_of_pos (ha hends)
    obtain ⟨hshows, hruns⟩ := shows_step h hrunning
    rw [runsAfter, hruns]
    rw [hruns] at hrest
    exact ih hshows hrest

/-! ### One run at a time -/

namespace Session

/-- All that can be seen of a list of actions. -/
def eventsOf (s : Session) : List Action → List Event
  | [] => []
  | a :: actions => (s.step a).2 ++ (s.step a).1.eventsOf actions

end Session

/-- Runs that were under way or are started have ended, or are under way afterwards. -/
theorem count_run {past rest : List Action} (h : Shows title p s)
    (hpaced : Paced p.isRunning.toNat s (past ++ rest)) :
    p.isRunning.toNat + (s.eventsOf past).count .run
      = past.countP Action.endsRun + (p.after past).isRunning.toNat := by
  induction past generalizing p s with
  | nil =>
    rw [Session.eventsOf, List.count_nil, List.countP_nil, Nat.add_zero, Nat.zero_add]
    rfl
  | cons a past ih =>
    obtain ⟨ha, hrest⟩ := hpaced
    have hrunning : a.endsRun = true → p.isRunning = true := fun hends =>
      Phase.isRunning_of_pos (ha hends)
    obtain ⟨hshows, hruns⟩ := shows_step h hrunning
    rw [hruns] at hrest
    have hcount := ih hshows hrest
    -- A run that ends with the action was under way before it.
    have hends : a.endsRun.toNat ≤ p.isRunning.toNat := by
      cases hend : a.endsRun with
      | false => exact Nat.zero_le _
      | true => exact ha hend
    have hone : (if a.endsRun = true then 1 else 0) = a.endsRun.toNat := by
      cases a.endsRun <;> rfl
    rw [runsLeft] at hruns
    rw [Session.eventsOf, List.count_append, List.countP_cons, hone]
    have hafter : p.after (a :: past) = (p.next a).after past := rfl
    rw [hafter]
    omega

/-- **There is one run at a time.**  If runs end only while they are under way, then at each
moment as many have been started as have ended, and one more exactly while one is under way;
only then does a refresh change nothing, and what is reported about a run before its end
never does. -/
theorem Session.one_run_at_a_time {title : Option String} {disk : Disk} {actions : List Action}
    (h : Paced 0 (Session.opened title disk) actions) :
    ∀ past, past <+: actions →
      let s := (Session.opened title disk).after past
      let started := ((Session.opened title disk).eventsOf past).count .run
      let ended := past.countP Action.endsRun
      started = ended + s.loading.toNat ∧
        (ended < started →
          s.step .refresh = (s, [.notify "A refresh is already running" .information 2])) ∧
        (started = ended → (s.step .refresh).2 = [.run]) ∧
        s.step (.complete .underWay) = (s, []) := by
  rintro past ⟨rest, rfl⟩ s started ended
  have hcount : 0 + started = ended + (Phase.fresh.after past).isRunning.toNat :=
    count_run (shows_opened title disk) h
  have hshows : Shows title (Phase.fresh.after past) s :=
    (shows_after (shows_opened title disk) h).1
  have hstarted : started = ended + s.loading.toNat := by
    rw [hshows.loading, ← hcount, Nat.zero_add]
  cases hloading : s.loading with
  | true =>
    rw [hloading, Bool.toNat_true] at hstarted
    refine ⟨hstarted, fun _ => ?_, fun hsame => ?_, rfl⟩
    · rw [Session.step, Session.refresh, if_pos hloading]
      rfl
    · omega
  | false =>
    rw [hloading, Bool.toNat_false, Nat.add_zero] at hstarted
    refine ⟨hstarted, fun hmore => ?_, fun _ => ?_, rfl⟩
    · omega
    · rw [Session.step, Session.refresh, if_neg (by rw [hloading]; exact Bool.false_ne_true)]

/-- A refresh while a run is under way, a run that is cancelled, and the next run. -/
theorem Session.one_run_at_a_time_cancelled :
    let start := Session.opened none (Disk.blank [] [])
    let actions : List Action :=
      [.refresh, .complete .underWay, .refresh, .search, .complete (.ended none), .refresh]
    let s := start.after (actions.take 2)
    Paced 0 start actions ∧ actions.take 2 <+: actions ∧
      (start.eventsOf (actions.take 2)).count .run
        = (actions.take 2).countP Action.endsRun + s.loading.toNat ∧
      s.step .refresh = (s, [.notify "A refresh is already running" .information 2]) := by
  intro start actions s
  have hpaced : Paced 0 start actions := by decide +kernel
  have hprefix : actions.take 2 <+: actions := List.take_prefix 2 actions
  obtain ⟨hcount, hrefresh, -⟩ := Session.one_run_at_a_time hpaced _ hprefix
  exact ⟨hpaced, hprefix, hcount, hrefresh (by decide +kernel)⟩

/-! ### Consistent sessions -/

namespace Session

/-- What is kept about runs and what is on the screen agree; `runs` says how many of them are
under way, and `finished` whether one has ended so far. -/
structure Consistent (s : Session) (runs : Nat) (finished : Bool) : Prop where
  loading : s.loading.toNat = runs
  progress : s.progressShown = s.loading
  /-- The line above the tree counts the includes of the tree, if there is one. -/
  label : s.label = Browser.fileLabel s.title (s.tree.map (·.count))
  running : 0 < runs →
    s.tree = none ∧ s.rows = .nil ∧ s.details = some Browser.collecting
  showing : ∀ t, s.tree = some t →
    s.rows.map Row.item = (populate .usual 0 t.includes 0).1 ∧
      (s.details = some (summary s.title t) ∨
        ∃ u ∈ t.includes.subtrees, s.details = some (Browser.details u))
  /-- Neither a run nor a tree. -/
  idle : runs = 0 → s.tree = none →
    if finished then
      s.rows.map Row.item = .cons .noIncludes .nil .nil ∧ ∃ error, s.details = some (failure error)
    else s.rows = .nil ∧ s.details = none

end Session

theorem Shows.consistent {actions : List Action}
    (h : Shows title (Phase.fresh.after actions) s) :
    s.Consistent (Phase.fresh.after actions).isRunning.toNat (actions.any Action.endsRun) := by
  generalize hp : Phase.fresh.after actions = p at h
  refine ⟨by rw [h.loading], h.progress.trans h.loading.symm, ?_, fun hruns => ?_, ?_,
    fun hruns htree => ?_⟩
  · rw [h.label, h.titled, h.tree]
  · obtain rfl := Phase.eq_collecting (Phase.isRunning_of_pos hruns)
    exact ⟨h.tree, Forest.eq_nil_of_map_eq_nil h.items, h.details⟩
  · intro t htree
    rw [h.tree] at htree
    cases p with
    | showing t' =>
      cases htree
      rw [h.titled]
      exact ⟨h.items, h.details⟩
    | _ => cases htree
  · rw [h.tree] at htree
    cases p with
    | fresh =>
      rw [(Phase.any_endsRun_of_fresh hp).2]
      exact ⟨Forest.eq_nil_of_map_eq_nil h.items, h.details⟩
    | failed error =>
      have hfinished : actions.any Action.endsRun = true := by
        refine Bool.of_not_eq_false fun hnone => ?_
        rcases Phase.after_of_any_eq_false hnone with hfresh | hcollecting
        · cases hp.symm.trans hfresh
        · cases hp.symm.trans hcollecting
      rw [hfinished]
      exact ⟨h.items, error, h.details⟩
    | collecting => cases hruns
    | showing t => cases htree

/-- **The screen always tells about the latest run.**  If runs end only while they are under
way, the tree, the rows, the progress, the label and the panel agree after every action. -/
theorem Session.after_consistent {title : Option String} {disk : Disk} {past rest : List Action}
    (h : Paced 0 (Session.opened title disk) (past ++ rest)) :
    ((Session.opened title disk).after past).Consistent
      (runsAfter 0 (Session.opened title disk) past) (past.any Action.endsRun) := by
  obtain ⟨hshows, hruns⟩ := shows_after (shows_opened title disk) h
  -- No run is under way in the phase in which a session starts.
  have hstart : runsAfter 0 (Session.opened title disk) past
      = (Phase.fresh.after past).isRunning.toNat := hruns
  rw [hstart]
  exact hshows.consistent

/-- A run that fails while the matches of an earlier tree are gone through. -/
theorem Session.after_consistent_failed :
    let start := Session.opened (some "a.c") (Disk.blank [] [])
    let tree : IncludeTree := ⟨.cons ⟨"b.h", "b.h"⟩ .nil .nil, 1, some "a.c"⟩
    let past : List Action :=
      [.refresh, .complete .underWay, .complete (.succeeded (some tree)), .search,
        .submit "b" true, .highlight [0], .refresh, .nextMatch, .complete (.ended (some "no cc"))]
    Paced 0 start (past ++ [.refresh]) ∧ (start.after (past.take 6)).tree = some tree ∧
      (start.after past).Consistent 0 true := by
  intro start tree past
  have hpaced : Paced 0 start (past ++ [.refresh]) := by decide +kernel
  have hruns : runsAfter 0 start past = 0 := by decide +kernel
  have hconsistent := after_consistent hpaced
  rw [hruns] at hconsistent
  exact ⟨hpaced, by decide +kernel, hconsistent⟩

end IncludeTrace.Browser
