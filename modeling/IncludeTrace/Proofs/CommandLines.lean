/-
Command lines that grow at the end.

A command line is read from left to right, and what an argument is depends on nothing but the
argument itself.  So one more switch behind an accepted command line sets what it sets, and
all else stays as it was read before.  This fails only behind two dashes, where nothing is a
switch any more:

* `Arguments.judgeAll_eq_ok_iff` — what all arguments are is what each of them is;
* `Arguments.take_append`, `Arguments.takeCommand_append` — reading goes on where it stopped;
* `readCommandLine_append` — an accepted command line with one more switch and its value.
-/
import IncludeTrace.CommandLine.Report
import Mathlib.Data.List.Forall2

namespace IncludeTrace

namespace Arguments

variable {known : List (List Char × Switch)} {args more : List String}
  {l m : List (String × Judged)}

/-! ### Judging -/

theorem judgeStart_ne_dashes (known : List (List Char × Switch)) (arg : List Char) :
    judgeStart known arg ≠ .ok .dashes := by
  rw [judgeStart]
  split
  · split <;> exact nofun
  · exact nofun
  · exact nofun

theorem judge_ne_dashes (known : List (List Char × Switch)) (arg : List Char) :
    judge known arg ≠ .ok .dashes := by
  rw [judge.eq_def]
  split
  · dsimp only
    split
    · exact nofun
    · exact nofun
    · exact judgeStart_ne_dashes _ _
  · exact nofun

/-- What does not begin with a dash is no switch. -/
theorem judge_of_head? {arg : List Char} (h : arg.head? ≠ some '-') :
    judge known arg = .ok .operand := by
  rw [judge.eq_def]
  split
  · next hlist => exact absurd rfl h
  · rfl

/-- What all arguments are is what each of them is. -/
theorem judgeAll_eq_ok_iff (h : "--" ∉ args) :
    judgeAll known args = .ok l ↔
      List.Forall₂ (fun arg p => p.1 = arg ∧ judge known arg.toList = .ok p.2) args l := by
  induction args generalizing l with
  | nil =>
    rw [judgeAll, List.forall₂_nil_left_iff, Except.ok.injEq]
    exact eq_comm
  | cons arg args ih =>
    rw [List.mem_cons, not_or] at h
    rw [judgeAll, List.forall₂_cons_left_iff]
    · cases hjudge : judge known arg.toList with
      | error f => exact iff_of_false nofun fun ⟨p, rest, hp, _⟩ => nomatch hp.2
      | ok first =>
        cases hothers : judgeAll known args with
        | error f =>
          refine iff_of_false nofun fun ⟨p, rest, hp, hrest, _⟩ => ?_
          exact nomatch hothers.symm.trans ((ih h.2).2 hrest)
        | ok others =>
          constructor
          · intro heq
            obtain rfl := Except.ok.inj heq
            exact ⟨_, others, ⟨rfl, rfl⟩, (ih h.2).1 hothers, rfl⟩
          · rintro ⟨⟨_, _⟩, rest, ⟨rfl, hfirst⟩, hrest, rfl⟩
            obtain rfl := Except.ok.inj hfirst
            obtain rfl := Except.ok.inj (hothers.symm.trans ((ih h.2).2 hrest))
            rfl
    · -- The equation for a list with a word in front holds of words other than `--` alone.
      exact fun heq => h.1 heq.symm

theorem judgeAll_append (h : "--" ∉ args) (hmore : "--" ∉ more)
    (hl : judgeAll known args = .ok l) (hm : judgeAll known more = .ok m) :
    judgeAll known (args ++ more) = .ok (l ++ m) := by
  refine (judgeAll_eq_ok_iff fun hmem => ?_).2
    (List.rel_append ((judgeAll_eq_ok_iff h).1 hl) ((judgeAll_eq_ok_iff hmore).1 hm))
  exact (List.mem_append.1 hmem).elim h hmore

/-- Nothing in a list is two dashes, and nothing is taken for them. -/
def NoDashes (l : List (String × Judged)) : Prop :=
  ∀ p ∈ l, p.1 ≠ "--" ∧ p.2 ≠ .dashes

theorem NoDashes.tail {p : String × Judged} (h : NoDashes (p :: l)) : NoDashes l := fun q hq =>
  h q (List.mem_cons_of_mem _ hq)

theorem NoDashes.append (hl : NoDashes l) (hm : NoDashes m) : NoDashes (l ++ m) := fun p hp =>
  (List.mem_append.1 hp).elim (hl p) (hm p)

theorem noDashes_of_judgeAll (h : "--" ∉ args) (hl : judgeAll known args = .ok l) :
    NoDashes l := by
  have hall := (judgeAll_eq_ok_iff h).1 hl
  clear hl
  induction hall with
  | nil => exact nofun
  | @cons arg p args l hp hall ih =>
    rw [List.mem_cons, not_or] at h
    rintro q hq
    rcases List.mem_cons.1 hq with rfl | hq
    · refine ⟨fun heq => h.1 (heq.symm.trans hp.1), fun hdashes => ?_⟩
      exact judge_ne_dashes known _ (hp.2.trans (by rw [hdashes]))
    · exact ih h.2 q hq

/-! ### Taking -/

theorem take_operand {scope : Option Command} {arg : String} {p : Progress} (h : NoDashes l)
    (htaken : ¬ p.traceTaken = true) :
    take scope ((arg, .operand) :: l) p
      = take scope l
          { p with settings := { p.settings with trace := some arg }, traceTaken := true } := by
  rw [take, if_neg htaken]
  split
  · next first others => exact absurd rfl (h (first, .dashes) List.mem_cons_self).2
  · rfl

/-- Reading goes on where it stopped. -/
theorem take_append {scope : Option Command} {p q : Progress} (hl : NoDashes l)
    (hm : NoDashes m) (h : take scope l p = .ok q) :
    take scope (l ++ m) p = take scope m q := by
  fun_induction take scope l p with
  | case1 p =>
    obtain rfl := Except.ok.inj h
    rfl
  | case2 arg rest p ih =>
    rw [List.cons_append, take]
    exact ih hl.tail h
  | case3 arg rest p htaken ih =>
    rw [List.cons_append, take, if_pos htaken]
    exact ih hl.tail h
  -- From `--` on every word is an operand, so the lists are not judged word by word there.
  | case4 arg p htaken p' other => exact absurd rfl (hl.tail (other, .dashes) List.mem_cons_self).2
  | case5 arg p htaken p' rest hrest ih =>
    rw [List.cons_append, take_operand (hl.tail.append hm) htaken]
    exact ih hl.tail h
  | case6 arg | case7 arg | case8 arg => exact absurd rfl (hl (arg, .dashes) List.mem_cons_self).2
  | case9 | case10 | case12 | case14 => cases h
  | case11 arg s short value p given hgiven rest hwaiting x hset ih =>
    rw [List.cons_append, take, hgiven]
    dsimp only
    rw [hwaiting]
    dsimp only
    rw [hset]
    exact ih hl.tail h
  -- The next word is the value of the switch, so two words go at once.
  | case13 arg s short value p given hgiven last word rest hwaiting x hset ih =>
    rw [List.cons_append, take, hgiven]
    dsimp only
    rw [hwaiting, List.cons_append]
    dsimp only
    rw [hset]
    exact ih hl.tail.tail h

/-- The arguments of a command decide what becomes of it, and they stand at the end. -/
theorem takeCommand_append {command : Command} {x y : Settings} {extras left : List String}
    (hl : NoDashes l) (h : takeCommand extras l = .ok (some command, x, left))
    (hmore : ∀ args p, "--" ∉ args → readSettings (some command) args = .ok p → p.settings = x →
      readSettings (some command) (args ++ m.map (·.1)) = .ok { p with settings := y }) :
    takeCommand extras (l ++ m) = .ok (some command, y, left) := by
  fun_induction takeCommand extras l with
  | case1 | case3 | case7 => cases h
  | case2 extras arg rest ih =>
    rw [List.cons_append, takeCommand]
    exact ih hl.tail h
  -- Behind the word of the command its own switches are read, of which `hmore` tells.
  | case4 extras word rest other hword =>
    have hdashes : "--" ∉ rest.map (·.1) := fun hmem => by
      obtain ⟨p, hp, heq⟩ := List.mem_map.1 hmem
      exact (hl.tail p hp).1 heq
    cases hread : readSettings (some other) (rest.map (·.1)) with
    | error stop =>
      rw [hread] at h
      cases h
    | ok p =>
      rw [hread] at h
      cases h
      rw [List.cons_append, takeCommand, hword, List.map_append]
      dsimp only
      rw [hmore _ p hdashes hread rfl]
      rfl
  | case5 extras arg | case6 extras arg =>
    exact absurd rfl (hl (arg, .dashes) List.mem_cons_self).2
  | case8 extras arg s short value rest given hgiven ih =>
    rw [List.cons_append, takeCommand, hgiven]
    dsimp only
    cases hset : setAll none given {} with
    | error stop =>
      rw [hset] at h
      cases h
    | ok x =>
      rw [hset] at h
      exact ih hl.tail h

/-! ### One more switch -/

section

variable {command : Command} {s : Switch} {spelling value : String} {x y : Settings}

/-- A switch that wants a value is known to its commands under each of its spellings, and to
the program itself under none. -/
theorem judge_spelling (hknown : s ∈ Switch.known (some command)) (htakes : s.takesValue = true)
    (hspelling : spelling ∈ s.spellings) :
    judge (table (some command)) spelling.toList
        = .ok (.switch s (isShort spelling.toList) none) ∧
      judge (table none) spelling.toList = .ok .unknown := by
  have hok {r : Except UsageFault Judged} {j : Judged} (h : r.toOption = some j) : r = .ok j := by
    cases r with
    | error f => cases h
    | ok other => exact congrArg _ (Option.some.inj h)
  -- Through `toOption`, because equality of refusals is not decided.
  have hall : ∀ s ∈ Switch.known (some command), s.takesValue = true → ∀ spelling ∈ s.spellings,
      (judge (table (some command)) spelling.toList).toOption
          = some (.switch s (isShort spelling.toList) none) ∧
        (judge (table none) spelling.toList).toOption = some .unknown := by
    cases command <;> decide +kernel
  obtain ⟨hswitch, hunknown⟩ := hall s hknown htakes spelling hspelling
  exact ⟨hok hswitch, hok hunknown⟩

theorem ne_dashes_of_head? (h : value.toList.head? ≠ some '-') : value ≠ "--" := by
  rintro rfl
  exact h rfl

theorem dashes_not_mem_pair (hspelling : spelling ∈ s.spellings)
    (hvalue : value.toList.head? ≠ some '-') : "--" ∉ [spelling, value] := by
  have hne : spelling ≠ "--" := by
    rintro rfl
    revert hspelling
    cases s <;> decide
  simp [hne.symm, (ne_dashes_of_head? hvalue).symm]

theorem judgeAll_pair {j : Judged} (hspelling : spelling ∈ s.spellings)
    (hvalue : value.toList.head? ≠ some '-') (hjudge : judge known spelling.toList = .ok j) :
    judgeAll known [spelling, value] = .ok [(spelling, j), (value, .operand)] :=
  (judgeAll_eq_ok_iff (dashes_not_mem_pair hspelling hvalue)).2
    (.cons ⟨rfl, hjudge⟩ (.cons ⟨rfl, judge_of_head? hvalue⟩ .nil))

theorem setAll_of_takesValue (scope : Option Command) (htakes : s.takesValue = true)
    (hvalue : value ≠ "--") (hset : Arguments.set x s (some value) = .ok y) :
    setAll scope [(s, some value)] x = .ok y := by
  have hgiven : given value = some value := if_neg hvalue
  cases s with
  | help | version => cases htakes
  | _ => simp only [setAll, Option.bind_some, hgiven, hset]

theorem readSettings_append {p : Progress} (hdashes : "--" ∉ args)
    (hread : readSettings (some command) args = .ok p)
    (hknown : s ∈ Switch.known (some command)) (htakes : s.takesValue = true)
    (hspelling : spelling ∈ s.spellings) (hvalue : value.toList.head? ≠ some '-')
    (hset : Arguments.set p.settings s (some value) = .ok y) :
    readSettings (some command) (args ++ [spelling, value])
      = .ok { p with settings := y } := by
  have hmore := dashes_not_mem_pair hspelling hvalue
  obtain ⟨hswitch, -⟩ := judge_spelling hknown htakes hspelling
  have hjudged := judgeAll_pair hspelling hvalue hswitch
  rw [readSettings] at hread
  cases hl : judgeAll (table (some command)) args with
  | error f =>
    rw [hl] at hread
    cases hread
  | ok l =>
    rw [hl] at hread
    rw [readSettings, judgeAll_append hdashes hmore hl hjudged]
    dsimp only
    rw [take_append (noDashes_of_judgeAll hdashes hl) (noDashes_of_judgeAll hmore hjudged) hread]
    have hsetAll :=
      setAll_of_takesValue (some command) htakes (ne_dashes_of_head? hvalue) hset
    simp [take, switches, waiting, supplied, htakes, hsetAll]

end

end Arguments

open Arguments in
/-- **One more switch behind an accepted command line sets what it sets.**  All else stays as
it was read before. -/
theorem readCommandLine_append {args : List String} {command : Command} {s : Switch}
    {spelling value : String} {x y : Settings} (hdashes : "--" ∉ args)
    (hread : readCommandLine args = .ok (command, x)) (hcommand : command ≠ .browse)
    (hknown : s ∈ Switch.known (some command)) (htakes : s.takesValue = true)
    (hspelling : spelling ∈ s.spellings) (hvalue : value.toList.head? ≠ some '-')
    (hset : Arguments.set x s (some value) = .ok y) :
    readCommandLine (args ++ [spelling, value]) = .ok (command, y) := by
  have hmore := dashes_not_mem_pair hspelling hvalue
  obtain ⟨-, hunknown⟩ := judge_spelling hknown htakes hspelling
  have hjudged := judgeAll_pair hspelling hvalue hunknown
  rw [readCommandLine] at hread
  cases hl : judgeAll (table none) args with
  | error f =>
    rw [hl] at hread
    cases hread
  | ok l =>
    rw [hl] at hread
    rw [readCommandLine, judgeAll_append hdashes hmore hl hjudged]
    dsimp only at hread ⊢
    cases htake : takeCommand [] l with
    | error stop =>
      rw [htake] at hread
      cases hread
    | ok taken =>
      obtain ⟨chosen, settings, extras⟩ := taken
      rw [htake] at hread
      change (if extras = [] then Except.ok (chosen.getD .browse, settings)
        else Except.error (Stop.fault none (.unrecognized extras))) = _ at hread
      split at hread
      · next hextras =>
        obtain ⟨hchosen, rfl⟩ := Prod.mk.inj (Except.ok.inj hread)
        obtain rfl : chosen = some command := by
          cases chosen with
          -- Without the word of a command the browser is started.
          | none => exact absurd hchosen.symm hcommand
          | some other => exact congrArg some hchosen
        have happend := takeCommand_append (y := y) (noDashes_of_judgeAll hdashes hl) htake
          (m := [(spelling, .unknown), (value, .operand)])
          fun more p hno hmoreRead hp =>
            readSettings_append hno hmoreRead hknown htakes hspelling hvalue (hp ▸ hset)
        rw [happend]
        change (if extras = [] then _ else _) = _
        rw [if_pos hextras]
        rfl
      · cases hread

end IncludeTrace
