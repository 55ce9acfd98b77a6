/-
A search misses nothing.

A query is looked for in one text for each row, its label and the path of its include put
together, all in lower case.  A query without a blank cannot lie across the blank between the
two, and lower case makes no blanks; so it is found exactly where one of the two shows it.  Rows
are passed in preorder, whether they are open or not, and no two of them have the same number:

* `Text.contains_iff`, `Text.infix_append_cons_iff` — what it is to occur in a text, and in one
  of two texts put together;
* `Row.Shows`, `Row.Bridges`, `contains_haystack_iff` — rows that show a query, or in which it
  lies across the blank;
* `ids_planted`, `nodup_ids_after` — the numbers of rows, in every session;
* `Finds`, `finds_matching`, `Session.finds` — what a search finds.
-/
import IncludeTrace.Proofs.LetterCase
import IncludeTrace.Proofs.MatchRounds

namespace IncludeTrace

/-! ### Texts inside others -/

namespace Text

theorem contains_iff {needle s : List Char} : contains needle s = true ↔ needle <:+: s := by
  induction s with
  | nil =>
    rw [contains, cutAt?, Option.isSome_map, Option.isSome_iff_exists]
    constructor
    · rintro ⟨rest, hrest⟩
      exact ⟨[], rest, (dropStart?_eq_some.1 hrest).symm⟩
    · intro h
      exact ⟨[], dropStart?_eq_some.2 (by rw [List.eq_nil_of_infix_nil h]; rfl)⟩
  | cons c s ih =>
    -- An occurrence starts with the first character, or it is one in the rest.
    rw [contains] at ih
    rw [contains, cutAt?, List.infix_cons_iff, ← ih]
    split
    · next rest hrest =>
      have hstart : needle <+: c :: s := ⟨rest, (dropStart?_eq_some.1 hrest).symm⟩
      exact ⟨fun _ => .inl hstart, fun _ => rfl⟩
    · next hnone =>
      rw [Option.isSome_map]
      refine ⟨.inr, ?_⟩
      rintro (⟨rest, hrest⟩ | h)
      · exact absurd ((dropStart?_eq_some.2 hrest.symm).symm.trans hnone) (Option.some_ne_none rest)
      · exact h

theorem prefix_append_cons_iff {q a b : List Char} {c : Char} :
    q <+: a ++ c :: b ↔ q <+: a ∨ ∃ v, q = a ++ c :: v ∧ v <+: b := by
  induction a generalizing q with
  | nil => rw [List.nil_append, List.prefix_cons_iff, List.prefix_nil]; rfl
  | cons d a ih =>
    rw [List.cons_append, List.prefix_cons_iff, List.prefix_cons_iff]
    constructor
    · rintro (rfl | ⟨t, rfl, ht⟩)
      · exact .inl (.inl rfl)
      · rcases ih.1 ht with h | ⟨v, rfl, hv⟩
        · exact .inl (.inr ⟨t, rfl, h⟩)
        · exact .inr ⟨v, rfl, hv⟩
    · rintro ((rfl | ⟨t, rfl, ht⟩) | ⟨v, rfl, hv⟩)
      · exact .inl rfl
      · exact .inr ⟨t, rfl, ih.2 (.inl ht)⟩
      · exact .inr ⟨a ++ c :: v, rfl, ih.2 (.inr ⟨v, rfl, hv⟩)⟩

/-- Two texts are put together with a character between them: what occurs then occurs in one of
them, or lies across the character. -/
theorem infix_append_cons_iff {q a b : List Char} {c : Char} :
    q <:+: a ++ c :: b ↔
      (q <:+: a ∨ q <:+: b) ∨ ∃ u v, q = u ++ c :: v ∧ u <:+ a ∧ v <+: b := by
  constructor
  · intro h
    induction a with
    | nil =>
      rcases List.infix_cons_iff.1 h with hstart | hb
      · rcases List.prefix_cons_iff.1 hstart with rfl | ⟨v, rfl, hv⟩
        · exact .inl (.inl (List.infix_refl []))
        · exact .inr ⟨[], v, rfl, List.suffix_refl [], hv⟩
      · exact .inl (.inr hb)
    | cons d a ih =>
      rw [List.cons_append, List.infix_cons_iff, ← List.cons_append, prefix_append_cons_iff] at h
      rcases h with (ha | ⟨v, hq, hv⟩) | hrest
      · exact .inl (.inl ha.isInfix)
      · exact .inr ⟨d :: a, v, hq, List.suffix_refl _, hv⟩
      · rcases ih hrest with (ha | hb) | ⟨u, v, hq, hu, hv⟩
        · exact .inl (.inl (List.infix_cons ha))
        · exact .inl (.inr hb)
        · exact .inr ⟨u, v, hq, hu.trans (List.suffix_cons d a), hv⟩
  · rintro ((ha | hb) | ⟨u, v, rfl, ⟨s, rfl⟩, t, rfl⟩)
    · exact ha.trans (List.prefix_append a (c :: b)).isInfix
    · exact hb.trans ((List.suffix_cons c b).trans (List.suffix_append a (c :: b))).isInfix
    · exact ⟨s, t, by simp⟩

end Text

namespace Browser

/-! ### Rows that show a query -/

/-- A row shows a query in its label, or in the path of its include, if letter case does not
count. -/
def Row.Shows (query : String) (r : Row) : Prop :=
  Text.lower query.toList <:+: Text.lower r.item.label.toList ∨
    ∃ t, r.item.file = some t ∧ Text.lower query.toList <:+: Text.lower t.root.path.toList

/-- A query lies across the two texts of a row and the blank between them: it starts in the label
and goes on in the path of the include. -/
def Row.Bridges (query : String) (r : Row) : Prop :=
  ∃ t u v, r.item.file = some t ∧ Text.lower query.toList = u ++ ' ' :: v ∧
    u <:+ Text.lower r.item.label.toList ∧ v <+: Text.lower t.root.path.toList

namespace Rows

variable {query : String} {r : Row}

/-- A query without a blank lies across nothing, as lower case makes no blanks. -/
theorem not_bridges (hquery : ' ' ∉ query.toList) : ¬ r.Bridges query := by
  rintro ⟨t, u, v, -, hacross, -, -⟩
  have hblank : ' ' ∈ Text.lower query.toList := by simp [hacross]
  exact hquery (Text.mem_of_mem_lower hblank (by decide) (by decide))

/-- What a query is found in. -/
theorem contains_haystack_iff_bridges :
    Text.contains (Text.lower query.toList) (haystack r.item) = true ↔
      r.Shows query ∨ r.Bridges query := by
  rw [Text.contains_iff, haystack, Row.Shows, Row.Bridges]
  cases r.item.file with
  | none => simp
  | some t => simp [Text.infix_append_cons_iff]

theorem contains_haystack_of_shows (h : r.Shows query) :
    Text.contains (Text.lower query.toList) (haystack r.item) = true :=
  contains_haystack_iff_bridges.2 (.inl h)

/-- Without a blank in the query, the two texts of a row can be searched one by one. -/
theorem contains_haystack_iff (hquery : ' ' ∉ query.toList) :
    Text.contains (Text.lower query.toList) (haystack r.item) = true ↔ r.Shows query := by
  rw [contains_haystack_iff_bridges, or_iff_left (not_bridges hquery)]

-- A query with a blank can lie across both texts.
example : Text.contains (Text.lower "H Li".toList)
    (haystack (.ofTree ⟨⟨"lib/a.h", "a.h"⟩, .nil⟩)) = true := by
  decide +kernel

/-- What is found for a query among rows. -/
structure Finds (query : String) (rows : Forest Row) (found : List Row) : Prop where
  /-- From top to bottom. -/
  ordered : found.Sublist rows.values
  /-- No row twice. -/
  distinct : (found.map Row.id).Nodup
  /-- Every row that shows the query, whether it is open or closed, and what is above it too. -/
  complete : ∀ r ∈ rows.values, r.Shows query → r ∈ found
  /-- No other row, if the query has no blank. -/
  sound : ' ' ∉ query.toList → ∀ r ∈ found, r.Shows query

/-- Rows with numbers of their own are searched from top to bottom. -/
theorem finds_matching {rows : Forest Row} (h : (rows.values.map Row.id).Nodup) :
    Finds query rows (matching query rows) := by
  rw [matching, Forest.preorder, Forest.map_snd_preorderFrom]
  have hordered := List.filter_sublist (l := rows.values) (p := fun r =>
    Text.contains (Text.lower query.toList) (haystack r.item))
  refine ⟨hordered, h.sublist (hordered.map Row.id), ?_, ?_⟩
  · intro r hr hshows
    exact List.mem_filter.2 ⟨hr, contains_haystack_of_shows hshows⟩
  · intro hquery r hr
    exact (contains_haystack_iff hquery).1 (List.mem_filter.1 hr).2

/-- Fresh rows are numbered from top to bottom. -/
theorem ids_planted (first : Nat) (items : Forest Item) :
    (planted first items).values.map Row.id = List.range' first items.size := by
  induction items generalizing first with
  | nil => rfl
  | cons item below beside ihb ihs =>
    rw [planted, Forest.values, List.map_cons, List.map_append, ihb, ihs, List.range'_append_1,
      Forest.size, Nat.add_assoc, Nat.add_comm 1, List.range'_succ]

end Rows

/-! ### Sessions -/

namespace Session

theorem map_fst_shown (s : Session) : s.shown.map Prod.fst = s.rows.values.map Row.id := by
  rw [shown, Forest.values_map, List.map_map]
  rfl

theorem nodup_ids_step {s : Session} (h : (s.rows.values.map Row.id).Nodup) (a : Action) :
    ((s.step a).1.rows.values.map Row.id).Nodup := by
  obtain ⟨-, items, hrows, -⟩ | ⟨-, hquiet⟩ := s.replaces_or_quiet a
  · rw [hrows, Rows.ids_planted]
    exact List.nodup_range'
  · have hshown : (s.step a).1.shown = s.shown := congrArg Forest.values hquiet.rows
    rw [← map_fst_shown, hshown, map_fst_shown]
    exact h

/-- No two rows on the screen have the same number. -/
theorem nodup_ids_after {s : Session} (h : (s.rows.values.map Row.id).Nodup)
    (actions : List Action) : ((s.after actions).rows.values.map Row.id).Nodup := by
  induction actions generalizing s with
  | nil => exact h
  | cons a actions ih => exact ih (nodup_ids_step h a)

/-- **A search misses nothing.**  However rows were opened and closed before, the matches are
the rows that show the query, from top to bottom and none of them twice; only a query with a
blank can match other rows as well.  The rows stay what they are, and every action that looks
for the query finds the same. -/
theorem finds (title : Option String) (disk : Disk) (actions : List Action) {query : String}
    (hquery : query ≠ "") :
    let s := (opened title disk).after actions
    Rows.Finds query s.rows (s.lookFor (some query)).1.found ∧
      (s.lookFor (some query)).1.shown = s.shown ∧
      ∀ a, s.errand a = .lookFor query →
        (s.step a).1.found = (s.lookFor (some query)).1.found := by
  intro s
  have hids : (s.rows.values.map Row.id).Nodup :=
    nodup_ids_after (s := opened title disk) List.nodup_nil actions
  have herrand : Errand.ofQuery (some query) = .lookFor query := by
    rw [Errand.ofQuery, Option.filter_some, if_pos (bne_iff_ne.2 hquery)]
  have hfound := (lookedFor_lookFor (s := s) herrand).found
  refine ⟨?_, congrArg Forest.values (quiet_lookFor s (some query)).rows, fun a ha => ?_⟩
  · rw [hfound]
    exact Rows.finds_matching hids
  · rw [hfound, (lookedFor_step ha).found]

/-- A path that is spelled otherwise, below a closed row. -/
theorem finds_below_closed :
    let tree : IncludeTree :=
      ⟨.cons ⟨"lib/a.h", "a.h"⟩ (.cons ⟨"lib/DEEP/x.h", "x.h"⟩ .nil .nil)
        (.cons ⟨"deep.h", "deep.h"⟩ .nil .nil), 3, some "a.c"⟩
    let s := (opened (some "a.c") (Disk.blank [] [])).after
      [.refresh, .complete (.succeeded (some tree)), .closeAll]
    "Deep/" ≠ "" ∧ (∀ r ∈ s.rows.values, r.isOpen = false) ∧
      Rows.Finds "Deep/" s.rows (s.lookFor (some "Deep/")).1.found ∧
      (s.lookFor (some "Deep/")).1.found.map (fun r => (r.id, r.item.label)) = [(1, "x.h")] := by
  intro tree s
  have hquery : "Deep/" ≠ "" := by decide
  obtain ⟨hfinds, -⟩ := finds (some "a.c") (Disk.blank [] [])
    [.refresh, .complete (.succeeded (some tree)), .closeAll] hquery
  subst s
  exact ⟨hquery, by decide +kernel, hfinds, by decide +kernel⟩

end Session

end Browser

end IncludeTrace
