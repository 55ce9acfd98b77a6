/-
What the row of an include shows of its name.

The first line of a name is shown as it stands where every bracket behind a backslash opens a
tag, where the name ends in one backslash at most, or its end is on another line, where no
character is one that a terminal acts on, and where nothing in it is the code of an emoji.  Every
other name is shown as a different text.  Which codes there are is up to the renderer; it is enough
that each of them that is replaced takes colons away, so that what is lost to one cannot come back
by another:

* `topLine`, `BracketsOpen`, `Legible` — first lines, and the names whose first line is shown as
  it stands where there are no emoji;
* `topLine_unslashed_eq_iff`, `topLine_seen_ne` — what is missing from brackets and from ends;
* `Emoji.Lawful`, `Kept` — what a renderer keeps to, and the texts in whose first line it finds no
  emoji;
* `topLine_flatMap_of_kept`, `count_topLine_flatMap_lt` — what becomes of the first line otherwise;
* `label_of_mem_populate` — what the rows of a tree show, and when that is the name.
-/
import IncludeTrace.Proofs.BrowserRows
import IncludeTrace.Proofs.EscapedNames

namespace IncludeTrace

namespace Markup

variable {s : List Char} {c : Char}

/-- The first line of a text. -/
def topLine (s : List Char) : List Char :=
  s.takeWhile (· != '\n')

/-- In the first line of a text, every bracket behind a backslash opens a tag. -/
def BracketsOpen (s : List Char) : Prop :=
  ∀ before after, s = before ++ '\\' :: '[' :: after → '\n' ∉ before → OpensTag after

/-- The names whose first line can be read off their rows. -/
structure Legible (name : List Char) : Prop where
  brackets : BracketsOpen name
  /-- A name of one line ends in at most one backslash. -/
  ending : '\n' ∉ name → ¬ ['\\', '\\'] <:+ name
  /-- In the first line, every character is one that is shown. -/
  silent : ∀ c ∈ topLine name, isActing c = false

theorem topLine_cons (h : c ≠ '\n') (s : List Char) : topLine (c :: s) = c :: topLine s := by
  rw [topLine, List.takeWhile_cons, if_pos (bne_iff_ne.2 h)]
  rfl

theorem topLine_newline_cons (s : List Char) : topLine ('\n' :: s) = [] :=
  rfl

theorem topLine_of_not_mem (h : '\n' ∉ s) : topLine s = s :=
  List.takeWhile_eq_self_iff.2 fun _ hc => bne_iff_ne.2 fun hline => h (hline ▸ hc)

theorem topLine_sublist (s : List Char) : (topLine s).Sublist s :=
  List.takeWhile_sublist _

theorem topLine_append_of_mem (h : '\n' ∈ s) (t : List Char) : topLine (s ++ t) = topLine s := by
  induction s with
  | nil => cases h
  | cons c s ih =>
    by_cases hc : c = '\n'
    · rw [hc, List.cons_append, topLine_newline_cons, topLine_newline_cons]
    · have hs : '\n' ∈ s := (List.mem_cons.1 h).resolve_left (Ne.symm hc)
      rw [List.cons_append, topLine_cons hc, topLine_cons hc, ih hs]

theorem topLine_append_of_not_mem (h : '\n' ∉ s) (t : List Char) :
    topLine (s ++ t) = s ++ topLine t :=
  List.takeWhile_append_of_pos fun _ hc => bne_iff_ne.2 fun hline => h (hline ▸ hc)

theorem newline_not_mem_topLine (s : List Char) : '\n' ∉ topLine s := by
  intro h
  have hline := List.mem_takeWhile_imp (p := (· != '\n')) h
  exact absurd hline (by decide)

theorem exists_eq_topLine_append (h : '\n' ∈ s) : ∃ t, s = topLine s ++ '\n' :: t := by
  induction s with
  | nil => cases h
  | cons c s ih =>
    by_cases hc : c = '\n'
    · exact ⟨s, by rw [hc, topLine_newline_cons, List.nil_append]⟩
    · obtain ⟨t, ht⟩ := ih ((List.mem_cons.1 h).resolve_left (Ne.symm hc))
      exact ⟨t, by rw [topLine_cons hc, List.cons_append, ← ht]⟩

theorem topLine_filter (s : List Char) :
    topLine (s.filter fun c => !isActing c) = (topLine s).filter fun c => !isActing c := by
  rw [topLine, List.takeWhile_filter, topLine]
  congr 2
  funext c
  by_cases hc : c = '\n'
  · rw [hc]
    rfl
  · simp [hc]

/-! ### Brackets in the first line -/

theorem topLine_unslashed_sublist (s : List Char) :
    (topLine (unslashed s)).Sublist (topLine s) := by
  induction s with
  | nil => exact List.Sublist.refl []
  | cons c s ih =>
    by_cases hbare : c = '\\' ∧ startsBare s = true
    · obtain ⟨rfl, hs⟩ := hbare
      rw [unslashed_cons_of_bare hs, topLine_cons (by decide)]
      exact ih.cons _
    · rw [unslashed, if_neg hbare]
      by_cases hc : c = '\n'
      · rw [hc]
        exact List.Sublist.refl []
      · rw [topLine_cons hc, topLine_cons hc]
        exact ih.cons_cons c

theorem bracketsOpen_newline_cons (s : List Char) : BracketsOpen ('\n' :: s) := by
  intro before after hs hbefore
  cases before with
  | nil => cases hs
  | cons c before =>
    cases hs
    exact absurd List.mem_cons_self hbefore

theorem bracketsOpen_cons_iff (hc : c ≠ '\n') :
    BracketsOpen (c :: s) ↔ ¬ (c = '\\' ∧ startsBare s = true) ∧ BracketsOpen s := by
  constructor
  · intro hopen
    refine ⟨?_, fun before after hs hbefore => ?_⟩
    · rintro ⟨rfl, hbare⟩
      obtain ⟨rest, rfl, hopens⟩ := startsBare_iff.1 hbare
      exact hopens (hopen [] rest rfl List.not_mem_nil)
    · refine hopen (c :: before) after (by rw [hs, List.cons_append]) fun hmem => ?_
      exact (List.mem_cons.1 hmem).elim (fun heq => hc heq.symm) hbefore
  · rintro ⟨hbare, hopen⟩ before after hs hbefore
    cases before with
    | nil =>
      cases hs
      by_contra hopens
      exact hbare ⟨rfl, startsBare_iff.2 ⟨after, rfl, hopens⟩⟩
    | cons d before =>
      cases hs
      exact hopen before after rfl fun hmem => hbefore (List.mem_cons_of_mem _ hmem)

/-- No backslash is left out of the first line exactly if the brackets behind them open tags. -/
theorem topLine_unslashed_eq_iff (s : List Char) :
    topLine (unslashed s) = topLine s ↔ BracketsOpen s := by
  induction s with
  | nil => exact iff_of_true rfl fun before after hs => by simp at hs
  | cons c s ih =>
    by_cases hc : c = '\n'
    · rw [hc]
      exact iff_of_true rfl (bracketsOpen_newline_cons s)
    rw [bracketsOpen_cons_iff hc, topLine_cons hc]
    by_cases hbare : c = '\\' ∧ startsBare s = true
    · -- The backslash is missing in front, so less is left than stands in the text.
      refine iff_of_false (fun heq => ?_) fun h => h.1 hbare
      have hle := (topLine_unslashed_sublist s).length_le
      rw [hbare.1, unslashed_cons_of_bare hbare.2] at heq
      rw [heq, List.length_cons] at hle
      omega
    · rw [unslashed, if_neg hbare, topLine_cons hc, List.cons.injEq, and_iff_right rfl, ih,
        and_iff_right hbare]

/-! ### The end of the first line -/

theorem filter_eq_iff_of_sublist {u w : List Char} {p : Char → Bool} (h : u.Sublist w) :
    u.filter p = w ↔ u = w ∧ ∀ c ∈ w, p c = true := by
  constructor
  · intro heq
    -- Either text is a part of the other one.
    have hwu : w.Sublist u := heq ▸ List.filter_sublist
    have huw := h.antisymm hwu
    rw [huw, List.filter_eq_self] at heq
    exact ⟨huw, heq⟩
  · rintro ⟨rfl, hall⟩
    exact List.filter_eq_self.2 hall

/-- Where a name of one line ends in at most one backslash, its first line is shown of what
`unslashed` leaves. -/
theorem topLine_seen {name : List Char} (h : '\n' ∈ name ∨ slashesAtEnd name ≤ 1) :
    topLine (seen name) = topLine (unslashed name) := by
  obtain ⟨body, -, hbody, hname⟩ := exists_eq_append_slashes name
  have hunslashed : unslashed name
      = unslashed body ++ List.replicate (slashesAtEnd name) '\\' := by
    conv_lhs => rw [hname]
    exact unslashed_append_slashes body _
  rw [seen, hbody, hunslashed]
  by_cases hline : '\n' ∈ body
  · -- The end of the name is on a later line.
    have hmem : '\n' ∈ unslashed body := (mem_unslashed_iff (by decide)).2 hline
    rw [topLine_append_of_mem hmem, topLine_append_of_mem hmem]
  · have hfew : slashesAtEnd name ≤ 1 := by
      refine h.resolve_left fun hmem => ?_
      rw [hname] at hmem
      rcases List.mem_append.1 hmem with hmem | hmem
      · exact hline hmem
      · cases List.eq_of_mem_replicate hmem
    rw [ending_of_le_one hfew]

/-- Of two and more backslashes at the end of a name, some are missing, or the closing tag
stands behind them. -/
theorem topLine_seen_ne {name : List Char} (hline : '\n' ∉ name) (h : 2 ≤ slashesAtEnd name) :
    (topLine (seen name)).filter (fun c => !isActing c) ≠ topLine name := by
  obtain ⟨body, -, hbody, hname⟩ := exists_eq_append_slashes name
  have hclosing : closing (slashesAtEnd name) = slashesAtEnd name := if_neg (by omega)
  rw [topLine_of_not_mem hline, seen, hbody, ending, hclosing]
  intro heq
  by_cases hodd : slashesAtEnd name % 2 = 1
  · -- The name ends in a backslash, and what is shown in the bracket of the closing tag.
    have hlines : '\n' ∉ unslashed body ++ (List.replicate (slashesAtEnd name / 2) '\\'
        ++ "[/]".toList) := by
      intro hmem
      rcases List.mem_append.1 hmem with hmem | hmem
      · exact hline (hname ▸ List.mem_append_left _ ((unslashed_sublist body).subset hmem))
      · rcases List.mem_append.1 hmem with hmem | hmem
        · cases List.eq_of_mem_replicate hmem
        · exact absurd hmem (by decide)
    rw [if_pos hodd, topLine_of_not_mem hlines, List.filter_append, List.filter_append] at heq
    obtain ⟨front, hfront⟩ := (suffix_iff_slashesAtEnd name).2 h
    have hclose : "[/]".toList.filter (fun c => !isActing c) = "[/]".toList := by decide
    have hlast := congrArg List.getLast? heq
    rw [hclose, ← hfront, List.getLast?_append_of_ne_nil _ (by simp),
      List.getLast?_append_of_ne_nil _ (by decide),
      List.getLast?_append_of_ne_nil _ (by decide)] at hlast
    exact absurd hlast (by decide)
  · -- Less is shown than stands in the name.
    rw [if_neg hodd, List.append_nil] at heq
    have hshown := (List.filter_sublist (p := fun c => !isActing c).trans (topLine_sublist
      (unslashed body ++ List.replicate (slashesAtEnd name / 2) '\\'))).length_le
    have hunslashed := (unslashed_sublist body).length_le
    have hlength := congrArg List.length hname
    rw [heq, List.length_append, List.length_replicate] at hshown
    rw [List.length_append, List.length_replicate] at hlength
    omega

/-- Of three backslashes one is shown, and the closing tag behind it. -/
example : topLine (seen "a\\\\\\".toList) = "a\\[/]".toList := by decide +kernel

theorem topLine_seen_eq_iff (name : List Char) :
    (topLine (seen name)).filter (fun c => !isActing c) = topLine name ↔ Legible name := by
  by_cases h : '\n' ∈ name ∨ slashesAtEnd name ≤ 1
  · rw [topLine_seen h, filter_eq_iff_of_sublist (topLine_unslashed_sublist name),
      topLine_unslashed_eq_iff]
    constructor
    · rintro ⟨hbrackets, hsilent⟩
      refine ⟨hbrackets, fun hline => ?_, fun c hc => by simpa using hsilent c hc⟩
      rw [suffix_iff_slashesAtEnd]
      have hfew := h.resolve_left hline
      omega
    · intro hlegible
      exact ⟨hlegible.brackets, fun c hc => by simp [hlegible.silent c hc]⟩
  · rw [not_or, Nat.not_le] at h
    refine iff_of_false (topLine_seen_ne h.1 h.2) fun hlegible => ?_
    exact hlegible.ending h.1 ((suffix_iff_slashesAtEnd name).2 h.2)

/-- No colon is added to the first line of a name. -/
theorem count_topLine_seen_le (name : List Char) :
    (topLine (seen name)).count ':' ≤ (topLine name).count ':' := by
  by_cases h : '\n' ∈ name ∨ slashesAtEnd name ≤ 1
  · rw [topLine_seen h]
    exact (topLine_unslashed_sublist name).count_le ':'
  · rw [not_or] at h
    obtain ⟨body, -, hbody, hname⟩ := exists_eq_append_slashes name
    have hending : (ending (slashesAtEnd name)).count ':' = 0 := by
      rw [List.count_eq_zero, ending, List.mem_append, not_or]
      refine ⟨fun hmem => ?_, by split <;> decide⟩
      cases List.eq_of_mem_replicate hmem
    have hunslashed := (unslashed_sublist body).count_le ':'
    have hcount := congrArg (List.count ':') hname
    rw [List.count_append] at hcount
    refine ((topLine_sublist _).count_le ':').trans ?_
    rw [topLine_of_not_mem h.1, seen, hbody, List.count_append, hending]
    omega

/-! ### Emoji -/

/-- What a renderer keeps to that puts emoji in the place of their codes.  A code stands between
two colons and has no blank in it, and an emoji is neither a colon nor a line break. -/
structure Emoji.Lawful (emoji : Emoji) : Prop where
  /-- A text without a code is left alone, and with every code colons go. -/
  colons : ∀ s, emoji s = s ∨ (emoji s).count ':' < s.count ':'
  /-- No code goes on in another line. -/
  lines : ∀ s t, emoji (s ++ '\n' :: t) = emoji s ++ '\n' :: emoji t
  /-- No line is broken. -/
  unbroken : ∀ s, '\n' ∉ s → '\n' ∉ emoji s

theorem Emoji.lawful_absent : Emoji.absent.Lawful :=
  ⟨fun _ => .inl rfl, fun _ _ => rfl, fun _ h => h⟩

/-- In the first line of texts that stand one behind the other, no code of an emoji is found. -/
def Kept (emoji : Emoji) : List (List Char) → Prop
  | [] => True
  | text :: more => emoji (topLine text) = topLine text ∧ ('\n' ∉ text → Kept emoji more)

theorem kept_absent (texts : List (List Char)) : Kept .absent texts := by
  induction texts with
  | nil => trivial
  | cons text more ih => exact ⟨rfl, fun _ => ih⟩

section Emoji

variable {emoji : Emoji} (hemoji : emoji.Lawful)

include hemoji

/-- The first line of a text in which emoji are shown is that of its own first line. -/
theorem topLine_emoji_append {text : List Char} (h : '\n' ∈ text) (rest : List Char) :
    topLine (emoji text ++ rest) = emoji (topLine text) := by
  obtain ⟨t, ht⟩ := exists_eq_topLine_append h
  have hfirst := hemoji.unbroken _ (newline_not_mem_topLine text)
  conv_lhs => rw [ht, hemoji.lines, List.append_assoc, topLine_append_of_not_mem hfirst]
  exact List.append_nil _

theorem topLine_flatMap_of_kept {texts : List (List Char)} (h : Kept emoji texts) :
    topLine (texts.flatMap emoji) = topLine texts.flatten := by
  induction texts with
  | nil => rfl
  | cons text more ih =>
    rw [List.flatMap_cons, List.flatten_cons]
    by_cases hline : '\n' ∈ text
    · rw [topLine_emoji_append hemoji hline, topLine_append_of_mem hline, h.1]
    · have htext := h.1
      rw [topLine_of_not_mem hline] at htext
      rw [htext, topLine_append_of_not_mem hline, topLine_append_of_not_mem hline, ih (h.2 hline)]

/-- Where an emoji is shown in the first line, colons are missing from it. -/
theorem count_topLine_flatMap_lt {texts : List (List Char)} (h : ¬ Kept emoji texts) :
    (topLine (texts.flatMap emoji)).count ':' < (topLine texts.flatten).count ':' := by
  induction texts with
  | nil => exact absurd trivial h
  | cons text more ih =>
    rw [List.flatMap_cons, List.flatten_cons]
    by_cases hline : '\n' ∈ text
    · rw [topLine_emoji_append hemoji hline, topLine_append_of_mem hline]
      refine (hemoji.colons _).resolve_left fun hfirst => h ⟨hfirst, fun hnot => ?_⟩
      exact absurd hline hnot
    · rw [topLine_append_of_not_mem (hemoji.unbroken _ hline), topLine_append_of_not_mem hline,
        List.count_append, List.count_append]
      by_cases hmore : Kept emoji more
      · -- The emoji is in the text itself.
        have hlt : (emoji text).count ':' < text.count ':' := by
          refine (hemoji.colons text).resolve_left fun hfirst => h ⟨?_, fun _ => hmore⟩
          rwa [topLine_of_not_mem hline]
        rw [topLine_flatMap_of_kept hemoji hmore]
        omega
      · have hle : (emoji text).count ':' ≤ text.count ':' := by
          rcases hemoji.colons text with heq | hlt
          · rw [heq]
          · exact hlt.le
        have hlt := ih hmore
        omega

/-- What is shown of a name, taken apart into texts in any way, is its first line exactly if the
name is legible and no emoji is found in its first line. -/
theorem topLine_flatMap_eq_iff {name : List Char} {texts : List (List Char)}
    (htexts : texts.flatten = seen name) :
    (topLine (texts.flatMap emoji)).filter (fun c => !isActing c) = topLine name ↔
      Legible name ∧ Kept emoji texts := by
  by_cases hkept : Kept emoji texts
  · rw [topLine_flatMap_of_kept hemoji hkept, htexts, topLine_seen_eq_iff, and_iff_left hkept]
  · refine iff_of_false (fun heq => ?_) fun h => hkept h.2
    have hlt := count_topLine_flatMap_lt hemoji hkept
    have hle := count_topLine_seen_le name
    have hcount := congrArg (List.count ':') heq
    rw [List.count_filter (by decide)] at hcount
    rw [htexts] at hlt
    omega

end Emoji

/-- A renderer that knows a single emoji, the circle. -/
def Emoji.circle : Emoji
  | [] => []
  | ':' :: 'o' :: ':' :: s => '⭕' :: circle s
  | c :: s => c :: circle s

theorem Emoji.lawful_circle : Emoji.circle.Lawful where
  colons s := by
    fun_induction Emoji.circle s with
    | case1 => exact .inl rfl
    | case2 s ih =>
      refine .inr ?_
      have hle : (Emoji.circle s).count ':' ≤ s.count ':' := by
        rcases ih with heq | hlt
        · rw [heq]
        · exact hlt.le
      simp
      omega
    | case3 c s _ ih =>
      rcases ih with heq | hlt
      · exact .inl (by rw [heq])
      · refine .inr ?_
        rw [List.count_cons, List.count_cons]
        omega
  lines s t := by
    fun_induction Emoji.circle s with
    | case1 => simp [Emoji.circle]
    | case2 s ih => simp [Emoji.circle, ih]
    | case3 c s hcode ih =>
      rw [List.cons_append, Emoji.circle, ih, List.cons_append]
      rintro rest rfl hrest
      -- The line break is not in the code, so the code would be there before it.
      cases s with
      | nil => cases hrest
      | cons d s =>
        cases s with
        | nil => cases hrest
        | cons d' s =>
          cases hrest
          exact hcode s rfl rfl
  unbroken s h := by
    fun_induction Emoji.circle s with
    | case1 => exact h
    | case2 s ih => simpa using ih (by simpa using h)
    | case3 c s _ ih =>
      rw [List.mem_cons, not_or] at h ⊢
      exact ⟨h.1, ih h.2⟩

end Markup

namespace Browser

open Markup

/-- The texts that the markup of a name shows are together what can be seen of it. -/
theorem flatten_texts_nameMarkup (name : String) :
    (texts (pieces (nameMarkup name).toList)).flatten = seen name.toList := by
  obtain ⟨body, hend, hbody, hname⟩ := exists_eq_append_slashes name.toList
  rw [pieces_nameMarkup hend hname, ← Markup.shown, seen, hbody, List.cons_append, shown_tag_cons,
    shown_append_tag, shown_map_respelled, shown_tag_cons, ending]
  have hclose :
      Markup.bare (if closing (slashesAtEnd name.toList) % 2 = 1 then "[/]".toList else [])
        = if closing (slashesAtEnd name.toList) % 2 = 1 then "[/]".toList else [] := by
    split
    · exact bare_of_isTag isTag_close
    · rfl
  rw [hclose]
  simp [Markup.bare, Markup.shown, texts, stretches]

theorem firstLine_eq (emoji : Emoji) (markup : String) :
    (Markup.firstLine emoji markup).toList
      = (topLine ((texts (pieces markup.toList)).flatMap emoji)).filter fun c => !isActing c := by
  rw [Markup.firstLine, String.toList_ofList, plain, ← topLine, topLine_filter]

/-- **What the row of an include shows.**  Its markup is taken apart into the two tags of the style
and parts that show as texts, which together are what can be seen of the name.  Whatever emoji the
renderer knows, the row shows the first line of these texts with the emoji in them, and that is the
first line of the name itself exactly if the name is legible and no emoji is found in that line. -/
theorem label_of_mem_populate {emoji : Emoji} (hemoji : emoji.Lawful) {l : Limits}
    {depth count : Int} {f : Forest Include} {item : Item} {t : Tree Include}
    (hitem : item ∈ (populate l depth f count).1.values) (hfile : item.file = some t) :
    let name := t.root.name.toList
    let shown := texts (pieces item.markup.toList)
    (∃ parts : List Piece,
      pieces item.markup.toList
        = .tag 0 "[white]".toList :: parts ++ [.tag (closing (slashesAtEnd name)) "[/]".toList] ∧
      ∀ p ∈ parts, p.Literal) ∧
    shown.flatten = seen name ∧
    (Markup.firstLine emoji item.markup).toList
      = (topLine (shown.flatMap emoji)).filter (fun c => !isActing c) ∧
    ((Markup.firstLine emoji item.markup).toList = topLine name
      ↔ Legible name ∧ Kept emoji shown) := by
  intro name shown
  obtain ⟨body, hend, -, hname⟩ := exists_eq_append_slashes t.root.name.toList
  have hmarkup : item.markup = nameMarkup t.root.name := by
    rw [eq_ofTree_of_mem_populate hitem hfile, Item.ofTree]
  have hshown : shown.flatten = seen name := by
    rw [← flatten_texts_nameMarkup, ← hmarkup]
  have hlabel := firstLine_eq emoji item.markup
  have hpieces := pieces_nameMarkup hend hname
  rw [← hmarkup] at hpieces
  exact ⟨⟨_, hpieces, fun p => literal_of_mem_map_respelled⟩, hshown, hlabel,
    by rw [hlabel, topLine_flatMap_eq_iff hemoji hshown]⟩

/-- Tags and brackets in a name are shown, and a single backslash at its end. -/
theorem label_of_mem_populate_tag :
    let i : Include := ⟨"C:\\t", "a[b\\[dim]c\\"⟩
    let item := Item.ofTree ⟨i, .nil⟩
    Emoji.circle.Lawful ∧ item ∈ (populate .usual 0 (.cons i .nil .nil) 0).1.values ∧
      item.file = some ⟨i, .nil⟩ ∧
      (Markup.firstLine .circle item.markup).toList = topLine i.name.toList ∧
      Legible i.name.toList ∧ Kept .circle (texts (pieces item.markup.toList)) := by
  intro i item
  have hlabel : (Markup.firstLine .circle item.markup).toList = topLine i.name.toList := by
    decide +kernel
  have hitem : item ∈ (populate .usual 0 (.cons i .nil .nil) 0).1.values := by decide +kernel
  exact ⟨Emoji.lawful_circle, hitem, rfl, hlabel,
    (label_of_mem_populate Emoji.lawful_circle hitem rfl).2.2.2.1 hlabel⟩

/-- A code in a name is not shown where the renderer knows it. -/
example :
    Markup.firstLine .circle (Item.ofTree ⟨⟨"/d:o:e.h", "d:o:e.h"⟩, .nil⟩).markup = "d⭕e.h" := by
  decide +kernel

/-- A backslash in front of a bracket that opens no tag is not shown, whatever the emoji. -/
theorem label_of_mem_populate_bare :
    ¬ ∃ emoji : Emoji, emoji.Lawful ∧
      ∀ (f : Forest Include) (item : Item) (t : Tree Include),
        item ∈ (populate .usual 0 f 0).1.values → item.file = some t →
          (Markup.firstLine emoji item.markup).toList = topLine t.root.name.toList := by
  rintro ⟨emoji, hemoji, hall⟩
  have hlabel := hall (.cons ⟨"C:\\p\\[X].h", "p\\[X].h"⟩ .nil .nil)
    (.ofTree ⟨⟨"C:\\p\\[X].h", "p\\[X].h"⟩, .nil⟩) _ (by decide +kernel) rfl
  rw [firstLine_eq, Item.ofTree,
    topLine_flatMap_eq_iff hemoji (flatten_texts_nameMarkup _)] at hlabel
  obtain ⟨⟨c, hc, htag⟩, -⟩ := hlabel.1.brackets ['p'] "X].h".toList rfl (by decide)
  cases hc
  exact absurd htag (by decide)

end Browser

end IncludeTrace
