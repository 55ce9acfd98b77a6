/-
Matches of rows that are there no longer.

Matches are rows of the moment at which something was looked for.  Nothing forgets them when
a run starts or ends, although the rows are taken away or replaced then.  So they are on the
screen up to that moment and never again, until something else is looked for:

* `Session.replacesRows`, `Session.outdated` — whether rows were replaced since the search;
* `Session.replaces_or_quiet` — what becomes of the rows with an action;
* `Matched`, `matched_step`, `matched_after` — rows, matches, and the numbers that tell them
  apart;
* `has_found` — matches are on the screen exactly while no row was replaced, and so is what
  the next or previous match leads to;
* `has_found_fails` — a match that is gone to after its row was taken away.
-/
import IncludeTrace.Proofs.BrowsingPhases

namespace IncludeTrace.Browser

namespace Session

/-- Whether an action takes the rows away or puts others in their place. -/
def replacesRows (s : Session) (a : Action) : Bool :=
  (a == .refresh && !s.loading) || a.endsRun

/-- Whether rows were replaced since something was looked for, when `old` says so before the
action. -/
def outdates (s : Session) (old : Bool) (a : Action) : Bool :=
  match s.errand a with
  | .lookFor _ => false
  | _ => old || s.replacesRows a

/-- Whether rows were replaced since something was looked for, after a list of actions. -/
def outdated (s : Session) (old : Bool) : List Action → Bool
  | [] => old
  | a :: actions => (s.step a).1.outdated (s.outdates old a) actions

/-- The numbers and items of the rows on the screen. -/
def shown (s : Session) : List (Nat × Item) :=
  (s.rows.map Row.known).values

theorem has_eq_true_iff {s : Session} {id : Nat} :
    Rows.has id s.rows = true ↔ ∃ k ∈ s.shown, k.1 = id := by
  rw [Rows.has_iff, shown, Forest.values_map]
  constructor
  · rintro ⟨r, hr, rfl⟩
    exact ⟨r.known, List.mem_map_of_mem hr, rfl⟩
  · rintro ⟨k, hk, rfl⟩
    obtain ⟨r, hr, rfl⟩ := List.mem_map.1 hk
    exact ⟨r, hr, rfl⟩

/-- What replaces rows looks for nothing. -/
theorem outdates_of_replacesRows {s : Session} {a : Action} (h : s.replacesRows a = true)
    (old : Bool) : s.outdates old a = true := by
  have herrand : s.errand a = .nothing := by
    cases a with
    | refresh => rfl
    | complete c => rfl
    | _ => cases h
  rw [outdates, herrand, h, Bool.or_true]

/-- What replaces rows plants others with fresh numbers and keeps the matches; all other actions
keep the rows. -/
theorem replaces_or_quiet (s : Session) (a : Action) :
    (s.replacesRows a = true ∧ ∃ items, (s.step a).1.rows = Rows.planted s.nextId items ∧
      (s.step a).1.nextId = s.nextId + items.size ∧ (s.step a).1.found = s.found) ∨
    (s.replacesRows a = false ∧ s.Quiet (s.errand a) (s.step a)) := by
  by_cases hrefresh : a = .refresh
  · subst hrefresh
    cases hloading : s.loading with
    | true =>
      have hkeeps : s.replacesRows .refresh = false := by
        simp [replacesRows, hloading, Action.endsRun]
      exact .inr ⟨hkeeps, quiet_refresh hloading⟩
    | false =>
      have hreplaces : s.replacesRows .refresh = true := by simp [replacesRows, hloading]
      refine .inl ⟨hreplaces, .nil, ?_⟩
      rw [step, refresh, if_neg (by rw [hloading]; exact Bool.false_ne_true)]
      exact ⟨rfl, rfl, rfl⟩
  · cases hends : a.endsRun with
    | true =>
      have hreplaces : s.replacesRows a = true := by rw [replacesRows, hends, Bool.or_true]
      -- However a run ends, rows are planted anew.
      obtain ⟨t, rfl⟩ | rfl | ⟨error, rfl⟩ := Action.cases_of_endsRun hends
      · exact .inl ⟨hreplaces, _, rfl, rfl, rfl⟩
      · exact .inl ⟨hreplaces, _, rfl, rfl, rfl⟩
      · exact .inl ⟨hreplaces, _, rfl, rfl, rfl⟩
    | false =>
      have hkeeps : s.replacesRows a = false := by simp [replacesRows, hrefresh, hends]
      exact .inr ⟨hkeeps, s.quiet_step hrefresh hends⟩

end Session

/-- Rows and matches have numbers that were given out, and the matches are on the screen
unless rows were replaced, which then are others. -/
structure Matched (s : Session) (old : Bool) : Prop where
  shown_lt : ∀ k ∈ s.shown, k.1 < s.nextId
  found_lt : ∀ r ∈ s.found, r.id < s.nextId
  kept : old = false → ∀ r ∈ s.found, r.known ∈ s.shown
  gone : old = true → ∀ r ∈ s.found, ∀ k ∈ s.shown, k.1 ≠ r.id

variable {s : Session} {old : Bool}

theorem matched_opened (title : Option String) (disk : Disk) :
    Matched (Session.opened title disk) false :=
  ⟨nofun, nofun, nofun, nofun⟩

theorem Matched.has_eq (h : Matched s old) {r : Row} (hr : r ∈ s.found) :
    Rows.has r.id s.rows = !old := by
  cases old with
  | false => exact Session.has_eq_true_iff.2 ⟨r.known, h.kept rfl r hr, rfl⟩
  | true =>
    refine Bool.eq_false_iff.2 fun hhas => ?_
    obtain ⟨k, hk, hid⟩ := Session.has_eq_true_iff.1 hhas
    exact h.gone rfl r hr k hk hid

/-- An action that looks for nothing and replaces no row keeps the matches where they are. -/
theorem Matched.quiet (h : Matched s old) {e : Errand} {r : Step} (hr : s.Quiet e r)
    (he : e.found s = s.found) : Matched r.1 old := by
  have hshown : r.1.shown = s.shown := congrArg Forest.values hr.rows
  have hfound : r.1.found = s.found := hr.found.trans he
  refine ⟨?_, ?_, ?_, ?_⟩
  · rw [hshown, hr.nextId]
    exact h.shown_lt
  · rw [hfound, hr.nextId]
    exact h.found_lt
  · rw [hshown, hfound]
    exact h.kept
  · rw [hshown, hfound]
    exact h.gone

/-- What is found are rows on the screen. -/
theorem Matched.lookFor (h : Matched s old) {query : String} {r : Step}
    (hr : s.Quiet (.lookFor query) r) : Matched r.1 false := by
  have hshown : r.1.shown = s.shown := congrArg Forest.values hr.rows
  have hfound : ∀ row ∈ r.1.found, row.known ∈ s.shown := by
    intro row hrow
    rw [hr.found, Errand.found, Rows.matching, Forest.preorder, Forest.map_snd_preorderFrom] at hrow
    rw [Session.shown, Forest.values_map]
    exact List.mem_map_of_mem (List.mem_filter.1 hrow).1
  refine ⟨?_, ?_, ?_, fun hold => absurd hold Bool.false_ne_true⟩
  · rw [hshown, hr.nextId]
    exact h.shown_lt
  · intro row hrow
    rw [hr.nextId]
    exact h.shown_lt _ (hfound row hrow)
  · intro _ row hrow
    rw [hshown]
    exact hfound row hrow

/-- Fresh rows are none of the matches. -/
theorem Matched.replaced (h : Matched s old) {t : Session} (items : Forest Item)
    (hfound : t.found = s.found) (hrows : t.rows = Rows.planted s.nextId items)
    (hnext : t.nextId = s.nextId + items.size) : Matched t true := by
  have hfresh : ∀ k ∈ t.shown, s.nextId ≤ k.1 ∧ k.1 < t.nextId := by
    intro k hk
    rw [Session.shown, hrows, Forest.values_map] at hk
    obtain ⟨r, hr, rfl⟩ := List.mem_map.1 hk
    rw [hnext]
    exact Rows.le_and_lt_of_mem_planted hr
  refine ⟨fun k hk => (hfresh k hk).2, fun r hr => ?_, nofun, fun _ r hr k hk hid => ?_⟩
  · rw [hfound] at hr
    rw [hnext]
    exact Nat.lt_of_lt_of_le (h.found_lt r hr) (Nat.le_add_right _ _)
  · rw [hfound] at hr
    have hold : r.id < s.nextId := h.found_lt r hr
    exact Nat.lt_irrefl _ (Nat.lt_of_lt_of_le hold (hid ▸ (hfresh k hk).1))

/-- Every action keeps count of the matches and the rows. -/
theorem matched_step (h : Matched s old) (a : Action) :
    Matched (s.step a).1 (s.outdates old a) := by
  obtain ⟨hreplaces, items, hrows, hnext, hfound⟩ | ⟨hkeeps, hquiet⟩ := s.replaces_or_quiet a
  · rw [Session.outdates_of_replacesRows hreplaces]
    exact h.replaced items hfound hrows hnext
  · rw [Session.outdates, hkeeps, Bool.or_false]
    cases herrand : s.errand a with
    | lookFor query => exact h.lookFor (herrand ▸ hquiet)
    | _ =>
      rw [herrand] at hquiet
      exact h.quiet hquiet rfl

theorem matched_after (h : Matched s old) (actions : List Action) :
    Matched (s.after actions) (s.outdated old actions) := by
  induction actions generalizing s old with
  | nil => exact h
  | cons a actions ih => exact ih (matched_step h a)

/-- Going further from match to match selects one of them. -/
theorem exists_selected_goFurther (s : Session) (distance : Nat) (hfound : s.found ≠ []) :
    ∃ r ∈ s.found, (s.goFurther distance).1.selected = some r := by
  have hlength : 0 < s.found.length := List.length_pos_iff.2 hfound
  have hnumber := Nat.mod_lt (s.current + distance) hlength
  refine ⟨s.found[(s.current + distance) % s.found.length], List.getElem_mem hnumber, ?_⟩
  rw [Session.goFurther, if_neg hfound, Session.goTo, List.getElem?_eq_getElem hnumber]

/-- **Matches are on the screen exactly as long as no run has started or ended since they
were found**, and so is the row that the next or the previous match leads to. -/
theorem Session.has_found (title : Option String) (disk : Disk) (actions : List Action) :
    let s := (Session.opened title disk).after actions
    let old := (Session.opened title disk).outdated false actions
    (∀ r ∈ s.found, Rows.has r.id s.rows = !old) ∧
      ∀ a, a = .nextMatch ∨ a = .previousMatch → s.found ≠ [] →
        ∃ r ∈ s.found, (s.step a).1.selected = some r ∧ Rows.has r.id (s.step a).1.rows = !old := by
  intro s old
  have hmatched : Matched s old := matched_after (matched_opened title disk) actions
  refine ⟨fun r hr => hmatched.has_eq hr, fun a ha hfound => ?_⟩
  -- Both steps go further, one by all matches but one.
  have hstep : ∃ distance, s.step a = s.goFurther distance := by
    rcases ha with rfl | rfl
    · exact ⟨1, rfl⟩
    · exact ⟨s.found.length - 1, rfl⟩
  obtain ⟨distance, hdistance⟩ := hstep
  obtain ⟨r, hr, hselected⟩ := exists_selected_goFurther s distance hfound
  have hquiet := quiet_goFurther s distance
  have hafter : Matched (s.goFurther distance).1 old := hmatched.quiet hquiet rfl
  have hr' : r ∈ (s.goFurther distance).1.found := by
    rw [hquiet.found]
    exact hr
  rw [hdistance]
  exact ⟨r, hr, hselected, hafter.has_eq hr'⟩

/-- Closing the rows above a match does not take it away. -/
theorem Session.has_found_closed :
    let tree : IncludeTree :=
      ⟨.cons ⟨"b.h", "b.h"⟩ (.cons ⟨"c.h", "c.h"⟩ .nil .nil) .nil, 2, some "a.c"⟩
    let start := Session.opened (some "a.c") (Disk.blank [] [])
    let actions : List Action :=
      [.refresh, .complete (.succeeded (some tree)), .query (some ".H"), .nextMatch, .closeAll]
    let s := start.after actions
    s.found ≠ [] ∧ (∀ r ∈ s.found, Rows.has r.id s.rows = true) ∧
      ∃ r ∈ s.found, (s.step .previousMatch).1.selected = some r ∧
        Rows.has r.id (s.step .previousMatch).1.rows = true := by
  intro tree start actions s
  have hfound : s.found ≠ [] := by decide +kernel
  have hold : start.outdated false actions = false := by decide +kernel
  have hfinds := Session.has_found (some "a.c") (Disk.blank [] []) actions
  subst s start
  dsimp only at hfinds
  rw [hold] at hfinds
  obtain ⟨hhas, hgo⟩ := hfinds
  exact ⟨hfound, hhas, hgo .previousMatch (Or.inr rfl) hfound⟩

/-- A match whose row is taken away by a refresh is gone to all the same. -/
theorem Session.has_found_fails :
    let tree : IncludeTree := ⟨.cons ⟨"b.h", "b.h"⟩ .nil .nil, 1, some "a.c"⟩
    let s := (Session.opened (some "a.c") (Disk.blank [] [])).after
      [.refresh, .complete (.succeeded (some tree)), .query (some "b"), .refresh]
    ∃ r ∈ s.found, Rows.has r.id s.rows = false ∧ (s.step .nextMatch).1.selected = some r := by
  intro tree s
  exact ⟨⟨0, .ofTree ⟨⟨"b.h", "b.h"⟩, .nil⟩, false⟩, by decide +kernel, by decide +kernel,
    by decide +kernel⟩

end IncludeTrace.Browser
