/-
Going round the matches.

Every action looks for something, goes one match forwards or backwards, or leaves the matches and
the number of the current one alone.  So that number moves round the matches, as long as nothing
else is looked for, and it stands for one of them at any time.  Whatever is gone to is selected,
with everything above it open:

* `Rows.OpenAbove`, `openAbove_reveal` — rows that can be seen down to one of them;
* `Faces`, `faces_goTo` — what a session is like after a match was gone to;
* `lookedFor_step`, `current_goFurther`, `still_step` — the three kinds of actions;
* `InRange`, `inRange_after` — the number of the current match is one of the matches';
* `Session.searches`, `current_after` — how far it moves round while nothing is looked for;
* `GoesRound`, `Session.goesRound` — all of it, for every session.
-/
import IncludeTrace.Proofs.StaleMatches
import Mathlib.Data.Int.ModEq
import Mathlib.Data.List.Nodup
import Mathlib.Data.List.Perm.Subperm

namespace IncludeTrace.Browser

/-! ### Rows above a row -/

namespace Rows

/-- Everything above a row with an identity is open. -/
def OpenAbove (id : Nat) (rows : Forest Row) : Prop :=
  ∀ address t, rows.at? address = some t → t.root.id = id →
    ∀ above, above ≠ [] → Forest.GoesOn above address →
      ∃ u, rows.at? above = some u ∧ u.root.isOpen = true

theorem has_of_at? {rows : Forest Row} {address : List Nat} {t : Tree Row}
    (h : rows.at? address = some t) : has t.root.id rows = true := by
  rw [has_iff]
  refine ⟨t.root, ?_, rfl⟩
  rw [Forest.values_eq_map_root]
  exact List.mem_map_of_mem (Forest.mem_subtrees_of_at? h)

/-- A row is still there when other rows were opened or closed. -/
theorem has_of_known {rows others : Forest Row} {r : Row}
    (h : rows.map Row.known = others.map Row.known) (hr : r ∈ rows.values) :
    has r.id others = true := by
  have hknown : r.known ∈ others.values.map Row.known := by
    rw [← Forest.values_map, ← h, Forest.values_map]
    exact List.mem_map_of_mem hr
  obtain ⟨other, hother, hsame⟩ := List.mem_map.1 hknown
  exact has_iff.2 ⟨other, hother, congrArg Prod.fst hsame⟩

theorem has_reveal (id other : Nat) (rows : Forest Row) :
    has id (reveal other rows) = has id rows := by
  induction rows with
  | nil => rfl
  | cons r below beside ihb ihs => rw [reveal, has, has, ihb, ihs]

theorem openAbove_reveal (id : Nat) (rows : Forest Row) : OpenAbove id (reveal id rows) := by
  induction rows with
  | nil =>
    intro address t hat
    exact absurd (hat.symm.trans (Forest.at?_nil address)) (Option.some_ne_none t)
  | cons r below beside ihb ihs =>
    intro address t hat hid above hsome habove
    rw [reveal] at hat ⊢
    rcases Forest.at?_cons_cases hat with ⟨rfl, -⟩ | ⟨p, hp, rfl, hbelow⟩ | ⟨p, rfl, hbeside⟩
    · exact absurd habove (Forest.not_goesOn_first hsome)
    · obtain ⟨q, rfl, hq⟩ := habove.of_below hsome
      by_cases hnil : q = []
      · -- The first row is open because the row with the identity is below it.
        subst hnil
        have hhas := has_of_at? hbelow
        rw [hid, has_reveal] at hhas
        refine ⟨_, Forest.at?_first, ?_⟩
        show (r.isOpen || has id below) = true
        rw [hhas, Bool.or_true]
      · rw [Forest.at?_below hnil]
        exact ihb p t hbelow hid q hnil hq
    · obtain ⟨q, hnil, rfl, hq⟩ := habove.of_further hsome
      rw [Forest.at?_further]
      exact ihs p t hbeside hid q hnil hq

end Rows

/-! ### Matches that are gone to -/

/-- The current match of a session is a row that is selected, with everything above it open. -/
structure Faces (s : Session) (r : Row) : Prop where
  current : s.found[s.current]? = some r
  selected : s.selected = some r
  rootOpen : s.rootOpen = true
  above : Rows.OpenAbove r.id s.rows

variable {s : Session} {a : Action} {r : Row}

theorem faces_goTo {number : Nat} (h : s.found[number]? = some r) :
    Faces (s.goTo number).1 r ∧ (s.goTo number).1.current = number ∧
      (s.goTo number).1.found = s.found := by
  rw [Session.goTo, h]
  exact ⟨⟨h, rfl, rfl, Rows.openAbove_reveal r.id s.rows⟩, rfl, rfl⟩

theorem current_goFurther (hfound : s.found ≠ []) (distance : Nat) :
    (∃ r, Faces (s.goFurther distance).1 r) ∧ (s.goFurther distance).1.found = s.found ∧
      (s.goFurther distance).1.current = (s.current + distance) % s.found.length := by
  have hnumber := Nat.mod_lt (s.current + distance) (List.length_pos_iff.2 hfound)
  obtain ⟨hfaces, hcurrent, hsame⟩ := faces_goTo (List.getElem?_eq_getElem hnumber)
  rw [Session.goFurther, if_neg hfound]
  exact ⟨⟨_, hfaces⟩, hsame, hcurrent⟩

/-! ### The three kinds of actions -/

/-- After a search the first match is the current one, if there is any. -/
structure LookedFor (s : Session) (query : String) (after : Session) : Prop where
  found : after.found = Rows.matching query s.rows
  current : after.current = 0
  faces : after.found ≠ [] → ∃ r, Faces after r ∧ Rows.has r.id after.rows = true

theorem lookedFor_lookFor {text : Option String} {query : String}
    (h : Errand.ofQuery text = .lookFor query) : LookedFor s query (s.lookFor text).1 := by
  have hrows := (Session.quiet_lookFor s text).rows
  rw [Errand.ofQuery] at h
  rw [Session.lookFor] at hrows ⊢
  split at h
  · next typed hfilter =>
    cases h
    rw [hfilter] at hrows ⊢
    dsimp only at hrows ⊢
    -- Without a match there is no row to go to, so the highlight stays where it is.
    by_cases hnone : Rows.matching query s.rows = []
    · rw [if_pos hnone]
      exact ⟨rfl, rfl, fun hsome => absurd hnone hsome⟩
    · rw [if_neg hnone] at hrows ⊢
      obtain ⟨first, rest, hfirst⟩ := List.exists_cons_of_ne_nil hnone
      have hzero : (Rows.matching query s.rows)[0]? = some first := by
        rw [hfirst]
        rfl
      have hrow : first ∈ s.rows.values := by
        rw [← Forest.map_snd_preorderFrom 0]
        exact (List.mem_filter.1 (List.mem_of_getElem? hzero)).1
      obtain ⟨hfaces, hcurrent, hsame⟩ := faces_goTo
        (s := { s with found := Rows.matching query s.rows, current := 0 }) hzero
      exact ⟨hsame, hcurrent, fun _ => ⟨first, hfaces, Rows.has_of_known hrows.symm hrow⟩⟩
  · cases h

theorem lookedFor_step {query : String} (h : s.errand a = .lookFor query) :
    LookedFor s query (s.step a).1 := by
  obtain hnone | ⟨text, hquery, hstep⟩ | ⟨text, -, hpath, -⟩ | ⟨text, -, -, hsave, -⟩ :=
    s.errand_cases a
  · cases hnone.symm.trans h
  · have hlook := hquery.symm.trans h
    rcases hstep with hstep | hstep
    · rw [hstep]
      exact lookedFor_lookFor hlook
    · -- The dialog is closed first, which changes nothing of what is looked through.
      have hclosed : LookedFor s.closed query (s.closed.lookFor text).1 := lookedFor_lookFor hlook
      rw [hstep]
      exact ⟨hclosed.found, hclosed.current, hclosed.faces⟩
  · cases text <;> cases hpath.symm.trans h
  · have hjudged := hsave.symm.trans h
    cases hj : Session.judged s.disk text <;> rw [hj] at hjudged <;> cases hjudged

/-- How far an action goes through the matches: forwards, backwards, or not at all. -/
def Action.turn : Action → Int
  | .nextMatch => 1
  | .previousMatch => -1
  | _ => 0

/-- The matches and the number of the current one are as they were. -/
def Still (s after : Session) : Prop :=
  after.found = s.found ∧ after.current = s.current

/-- Closing a dialog leaves the matches alone. -/
theorem Still.dismissed {r : Step} (h : Still s.closed r.1) (value : Option String) :
    Still s (Session.dismissed value r).1 :=
  h

theorem still_lookFor {text : Option String}
    (h : ∀ query, Errand.ofQuery text ≠ .lookFor query) : Still s (s.lookFor text).1 := by
  rw [Errand.ofQuery] at h
  rw [Session.lookFor]
  split at h
  · next query _ => exact absurd rfl (h query)
  · next hnone =>
    rw [hnone]
    exact ⟨rfl, rfl⟩

theorem still_writeTo (s : Session) (path : Option Location) : Still s (s.writeTo path).1 := by
  rw [Session.writeTo.eq_def]
  split
  · exact ⟨rfl, rfl⟩
  · split <;> exact ⟨rfl, rfl⟩

theorem still_submitPath (s : Session) (text : String) : Still s (s.submitPath text).1 := by
  rw [Session.submitPath]
  split
  · exact ⟨rfl, rfl⟩
  · exact ⟨rfl, rfl⟩
  · exact ⟨rfl, rfl⟩
  · exact (still_writeTo s.closed _).dismissed _

theorem still_submit {text : String} {own : Bool}
    (h : ∀ query, s.errand (.submit text own) ≠ .lookFor query) :
    Still s (s.submit text own).1 := by
  rw [Session.submit.eq_def]
  rw [Session.errand.eq_def] at h
  cases own with
  | false => cases s.dialogs <;> exact ⟨rfl, rfl⟩
  | true =>
    cases hdialogs : s.dialogs with
    | nil => exact ⟨rfl, rfl⟩
    | cons dialog dialogs =>
      rw [hdialogs] at h
      cases dialog with
      | search =>
        have hquery : ∀ query, Errand.ofQuery (Session.typedQuery? text) ≠ .lookFor query := h
        exact (still_lookFor hquery).dismissed (Session.typedQuery? text)
      | save => exact still_submitPath s text

theorem still_select (s : Session) (path : List Nat) : Still s (s.select path) := by
  have hsummary : Still s s.showSummary := by
    rw [Session.showSummary]
    split <;> exact ⟨rfl, rfl⟩
  rw [Session.select.eq_def]
  split
  · exact hsummary
  · split
    · exact ⟨rfl, rfl⟩
    · split
      · exact ⟨rfl, rfl⟩
      · split
        · exact hsummary
        · exact ⟨rfl, rfl⟩

/-- Whatever neither looks for something nor goes to another match leaves the matches alone. -/
theorem still_step (hsearch : ∀ query, s.errand a ≠ .lookFor query) (hturn : a.turn = 0) :
    Still s (s.step a).1 := by
  cases a with
  | refresh =>
    rw [Session.step, Session.refresh]
    split <;> exact ⟨rfl, rfl⟩
  | complete c =>
    cases c with
    | succeeded tree => cases tree <;> exact ⟨rfl, rfl⟩
    | ended error => exact ⟨rfl, rfl⟩
    | underWay => exact ⟨rfl, rfl⟩
  | highlight path =>
    simp only [Session.step, Session.highlight]
    split <;> exact ⟨rfl, rfl⟩
  | select path => exact still_select s path
  | nextMatch => exact absurd hturn (by decide)
  | previousMatch => exact absurd hturn (by decide)
  | save =>
    simp only [Session.step, Session.askForFile]
    split <;> exact ⟨rfl, rfl⟩
  | cancel =>
    simp only [Session.step, Session.cancel]
    split <;> exact ⟨rfl, rfl⟩
  | submit text own => exact still_submit hsearch
  | query text => exact still_lookFor hsearch
  | writeTo path => exact still_writeTo s _
  | openAll => exact ⟨rfl, rfl⟩
  | closeAll => exact ⟨rfl, rfl⟩
  | search => exact ⟨rfl, rfl⟩
  | toggleDetails => exact ⟨rfl, rfl⟩
  | quit => exact ⟨rfl, rfl⟩

/-- A step to the next or to the previous match, round all of them. -/
theorem turned_step (hfound : s.found ≠ []) (hturn : a.turn ≠ 0) :
    (∃ r, Faces (s.step a).1 r) ∧ (s.step a).1.found = s.found ∧
      ((s.step a).1.current : Int) = (s.current + a.turn) % s.found.length := by
  have hlength := List.length_pos_iff.2 hfound
  cases a with
  | nextMatch =>
    obtain ⟨hfaces, hsame, hcurrent⟩ := current_goFurther hfound 1
    refine ⟨hfaces, hsame, ?_⟩
    show ((s.goFurther 1).1.current : Int) = _
    rw [hcurrent, Int.natCast_emod, Int.natCast_add]
    rfl
  | previousMatch =>
    -- Going back is going forwards by all matches but one.
    obtain ⟨hfaces, hsame, hcurrent⟩ := current_goFurther hfound (s.found.length - 1)
    refine ⟨hfaces, hsame, ?_⟩
    show ((s.goFurther (s.found.length - 1)).1.current : Int) = _
    have hback : ((s.current + (s.found.length - 1) : Nat) : Int)
        = s.current + -1 + s.found.length := by omega
    rw [hcurrent, Int.natCast_emod, hback, Int.add_emod_right]
    rfl
  | _ => exact absurd rfl hturn

/-- Without a match there is nothing to go to. -/
theorem step_of_not_found (hfound : s.found = []) (hturn : a.turn ≠ 0) : (s.step a).1 = s := by
  cases a with
  | nextMatch =>
    rw [Session.step, Session.goFurther, if_pos hfound]
    rfl
  | previousMatch =>
    rw [Session.step, Session.goFurther, if_pos hfound]
    rfl
  | _ => exact absurd rfl hturn

/-! ### Sessions -/

/-- The number of the current match is that of a match, and 0 where there is none. -/
def InRange (s : Session) : Prop :=
  if s.found = [] then s.current = 0 else s.current < s.found.length

theorem InRange.of_faces (h : Faces s r) : InRange s := by
  obtain ⟨hlt, -⟩ := List.getElem?_eq_some_iff.1 h.current
  rw [InRange, if_neg (List.ne_nil_of_length_pos (Nat.zero_lt_of_lt hlt))]
  exact hlt

theorem inRange_opened (title : Option String) (disk : Disk) :
    InRange (Session.opened title disk) := by
  have hnone : (Session.opened title disk).found = [] := rfl
  rw [InRange, if_pos hnone]
  rfl

theorem inRange_step (h : InRange s) (a : Action) : InRange (s.step a).1 := by
  by_cases hsearch : ∀ query, s.errand a ≠ .lookFor query
  · -- An action looks for a query, turns among the matches, or leaves both of them alone.
    by_cases hturn : a.turn = 0
    · obtain ⟨hfound, hcurrent⟩ := still_step hsearch hturn
      rw [InRange, hfound, hcurrent]
      exact h
    · by_cases hfound : s.found = []
      · rw [step_of_not_found hfound hturn]
        exact h
      · obtain ⟨⟨r, hfaces⟩, -⟩ := turned_step hfound hturn
        exact .of_faces hfaces
  · obtain ⟨query, hquery⟩ := Classical.not_forall_not.1 hsearch
    have hlooked := lookedFor_step hquery
    by_cases hnone : (s.step a).1.found = []
    · rw [InRange, if_pos hnone]
      exact hlooked.current
    · obtain ⟨r, hfaces, -⟩ := hlooked.faces hnone
      exact .of_faces hfaces

theorem inRange_after (h : InRange s) (actions : List Action) : InRange (s.after actions) := by
  induction actions generalizing s with
  | nil => exact h
  | cons a actions ih => exact ih (inRange_step h a)

/-- Whether an errand looks for something. -/
def Errand.isSearch : Errand → Bool
  | .lookFor _ => true
  | _ => false

theorem Errand.isSearch_iff {e : Errand} : e.isSearch = true ↔ ∃ query, e = .lookFor query := by
  cases e <;> simp [isSearch]

namespace Session

/-- Whether something is looked for in a list of actions. -/
def searches (s : Session) : List Action → Bool
  | [] => false
  | a :: actions => (s.errand a).isSearch || (s.step a).1.searches actions

end Session

/-- How far a list of actions goes round the matches. -/
def turns (actions : List Action) : Int :=
  actions.count .nextMatch - actions.count .previousMatch

theorem turns_cons (a : Action) (actions : List Action) :
    turns (a :: actions) = a.turn + turns actions := by
  rw [turns, turns, List.count_cons, List.count_cons]
  cases a with
  | nextMatch =>
    show ((_ + 1 : Nat) : Int) - ((_ + 0 : Nat) : Int) = 1 + _
    omega
  | previousMatch =>
    show ((_ + 0 : Nat) : Int) - ((_ + 1 : Nat) : Int) = -1 + _
    omega
  | _ =>
    show ((_ + 0 : Nat) : Int) - ((_ + 0 : Nat) : Int) = 0 + _
    omega

/-- As long as nothing is looked for, the matches stay, and their number moves round. -/
theorem current_after {actions : List Action} (h : InRange s) (hfound : s.found ≠ [])
    (hsearch : s.searches actions = false) :
    (s.after actions).found = s.found ∧
      ((s.after actions).current : Int) = (s.current + turns actions) % s.found.length := by
  induction actions generalizing s with
  | nil =>
    rw [InRange, if_neg hfound] at h
    refine ⟨rfl, ?_⟩
    show (s.current : Int) = (s.current + 0) % s.found.length
    rw [Int.add_zero, Int.emod_eq_of_lt (by omega) (by omega)]
  | cons a actions ih =>
    rw [Session.searches, Bool.or_eq_false_iff] at hsearch
    have hnone : ∀ query, s.errand a ≠ .lookFor query := by
      intro query hquery
      rw [hquery] at hsearch
      exact Bool.noConfusion hsearch.1
    have hstep : (s.step a).1.found = s.found ∧
        ((s.step a).1.current : Int) = (s.current + a.turn) % s.found.length := by
      by_cases hturn : a.turn = 0
      · obtain ⟨hsame, hcurrent⟩ := still_step hnone hturn
        rw [InRange, if_neg hfound] at h
        refine ⟨hsame, ?_⟩
        rw [hcurrent, hturn, Int.add_zero, Int.emod_eq_of_lt (by omega) (by omega)]
      · exact (turned_step hfound hturn).2
    obtain ⟨hsame, hcurrent⟩ := hstep
    obtain ⟨hlater, hnumber⟩ := ih (inRange_step h a) (hsame ▸ hfound) hsearch.2
    refine ⟨hlater.trans hsame, ?_⟩
    show (((s.step a).1.after actions).current : Int) = _
    rw [hnumber, hsame, hcurrent, Int.emod_add_emod, turns_cons, Int.add_assoc]

theorem searches_replicate (s : Session) (n : Nat) :
    s.searches (List.replicate n .nextMatch) = false := by
  induction n generalizing s with
  | zero => rfl
  | succ n ih =>
    rw [List.replicate_succ, Session.searches, ih, Bool.or_false]
    rfl

/-- From any match, one step forwards for each match leads to every one of them once. -/
theorem perm_round {n : Nat} (hn : 0 < n) (i : Nat) :
    ((List.range n).map fun k => (i + (k + 1)) % n).Perm (List.range n) := by
  have hnodup : ((List.range n).map fun k => (i + (k + 1)) % n).Nodup := by
    refine List.Nodup.map_on ?_ List.nodup_range
    intro k hk m hm hsame
    have hmod : k ≡ m [MOD n] := Nat.ModEq.add_right_cancel' 1 (Nat.ModEq.add_left_cancel' i hsame)
    exact hmod.eq_of_lt_of_lt (List.mem_range.1 hk) (List.mem_range.1 hm)
  have hrange : ((List.range n).map fun k => (i + (k + 1)) % n) ⊆ List.range n := by
    intro j hj
    obtain ⟨k, -, rfl⟩ := List.mem_map.1 hj
    exact List.mem_range.2 (Nat.mod_lt _ hn)
  -- All different, all below `n`, and `n` of them.
  refine (List.subperm_of_subset hnodup hrange).perm_of_length_le ?_
  rw [List.length_map]

/-- The matches of a session are gone round. -/
structure GoesRound (s : Session) : Prop where
  inRange : InRange s
  /-- Until something else is looked for, the number of the current match moves by the steps
  forwards and backwards alone, whatever else is done in between. -/
  further : s.found ≠ [] → ∀ actions, s.searches actions = false →
    (s.after actions).found = s.found ∧
      ((s.after actions).current : Int)
        = (s.current + actions.count .nextMatch - actions.count .previousMatch) % s.found.length
  /-- Forwards and backwards undo each other. -/
  undone : s.found ≠ [] → (s.after [.nextMatch, .previousMatch]).current = s.current ∧
    (s.after [.previousMatch, .nextMatch]).current = s.current
  /-- As many steps as there are matches lead to each of them once. -/
  visited : s.found ≠ [] → ((List.range s.found.length).map fun k =>
    (s.after (List.replicate (k + 1) .nextMatch)).current).Perm (List.range s.found.length)
  /-- A match that is gone to is selected, with everything above it open. -/
  faces : ∀ a, (s.errand a).isSearch = true ∨ a = .nextMatch ∨ a = .previousMatch →
    (s.step a).1.found ≠ [] → ∃ r, Faces (s.step a).1 r ∧
      ((s.errand a).isSearch = true → Rows.has r.id (s.step a).1.rows = true)

theorem goesRound_of_inRange (h : InRange s) : GoesRound s where
  inRange := h
  further := by
    intro hfound actions hsearch
    obtain ⟨hsame, hcurrent⟩ := current_after h hfound hsearch
    exact ⟨hsame, by rw [hcurrent, turns, Int.add_sub_assoc]⟩
  -- A turn there and back is a turn by zero, and numbers in range are unchanged by the remainder.
  undone := by
    intro hfound
    have hlt : s.current < s.found.length := by
      rwa [InRange, if_neg hfound] at h
    have hback : ∀ actions, s.searches actions = false → turns actions = 0 →
        (s.after actions).current = s.current := by
      intro actions hsearch hturns
      have hcurrent := (current_after h hfound hsearch).2
      rw [hturns, Int.add_zero, Int.emod_eq_of_lt (by omega) (by omega)] at hcurrent
      exact Int.ofNat.inj hcurrent
    exact ⟨hback _ rfl rfl, hback _ rfl rfl⟩
  visited := by
    intro hfound
    have hlength := List.length_pos_iff.2 hfound
    have hnumber : ∀ k, (s.after (List.replicate (k + 1) .nextMatch)).current
        = (s.current + (k + 1)) % s.found.length := by
      intro k
      have hcurrent := (current_after h hfound (searches_replicate s (k + 1))).2
      have hturns : turns (List.replicate (k + 1) .nextMatch) = ((k + 1 : Nat) : Int) := by
        rw [turns, List.count_replicate_self, List.count_replicate]
        exact Int.sub_zero _
      rw [hturns] at hcurrent
      exact Int.ofNat.inj hcurrent
    simp only [hnumber]
    exact perm_round hlength s.current
  faces := by
    intro a ha hfound
    by_cases hsearch : (s.errand a).isSearch = true
    · obtain ⟨query, hquery⟩ := Errand.isSearch_iff.1 hsearch
      obtain ⟨r, hfaces, hhas⟩ := (lookedFor_step hquery).faces hfound
      exact ⟨r, hfaces, fun _ => hhas⟩
    · have hturn : a.turn ≠ 0 := by
        rcases ha with ha | rfl | rfl
        · exact absurd ha hsearch
        · decide
        · decide
      have hsome : s.found ≠ [] := by
        intro hempty
        rw [step_of_not_found hempty hturn] at hfound
        exact hfound hempty
      obtain ⟨⟨r, hfaces⟩, -⟩ := turned_step hsome hturn
      exact ⟨r, hfaces, fun hyes => absurd hyes hsearch⟩

/-- **The matches are gone round**, whatever was done before: the number of the current match is
always that of a match, it moves by the steps between matches alone, and what is gone to is
selected and can be seen. -/
theorem Session.goesRound (title : Option String) (disk : Disk) (actions : List Action) :
    GoesRound ((Session.opened title disk).after actions) :=
  goesRound_of_inRange (inRange_after (inRange_opened title disk) actions)

/-- From the first match of three backwards to the last one, with everything closed in between. -/
theorem Session.goesRound_wrapped :
    let tree : IncludeTree :=
      ⟨.cons ⟨"b.h", "b.h"⟩ (.cons ⟨"c.h", "c.h"⟩ .nil .nil) (.cons ⟨"d.h", "d.h"⟩ .nil .nil), 3,
        some "a.c"⟩
    let s := (Session.opened (some "a.c") (Disk.blank [] [])).after
      [.refresh, .complete (.succeeded (some tree)), .query (some ".H")]
    let actions : List Action := [.nextMatch, .closeAll, .previousMatch, .save, .previousMatch]
    s.found ≠ [] ∧ s.searches actions = false ∧
      ((s.after actions).current : Int) = (s.current + 1 - 2) % s.found.length ∧
      (s.after actions).current = 2 ∧ (s.after actions).found ≠ [] ∧
      ∃ r, Faces ((s.after [.nextMatch, .closeAll]).step .previousMatch).1 r := by
  intro tree s actions
  have hfound : s.found ≠ [] := by decide +kernel
  have hsearch : s.searches actions = false := by decide +kernel
  have hcurrent := ((Session.goesRound (some "a.c") (Disk.blank [] [])
    [.refresh, .complete (.succeeded (some tree)), .query (some ".H")]).further
      hfound actions hsearch).2
  have hforwards : actions.count .nextMatch = 1 := by decide +kernel
  have hbackwards : actions.count .previousMatch = 2 := by decide +kernel
  rw [hforwards, hbackwards] at hcurrent
  have hsession := Session.goesRound (some "a.c") (Disk.blank [] [])
    ([.refresh, .complete (.succeeded (some tree)), .query (some ".H")]
      ++ [.nextMatch, .closeAll])
  rw [Session.after, List.foldl_append] at hsession
  obtain ⟨r, hfaces, -⟩ := hsession.faces .previousMatch (.inr (.inr rfl)) (by decide +kernel)
  exact ⟨hfound, hsearch, hcurrent, by decide +kernel, by decide +kernel, r, hfaces⟩

end IncludeTrace.Browser
