/-
Markup taken apart, and written again with other backslashes.

Whether a bracket opens a tag is settled by what stands behind it up to the next bracket; how
many backslashes stand in front of a tag plays no part in it.  So the parts of a text can be
written with other backslashes in front of their tags, and with a text behind them, and they
are found again:

* `IsTag`, `tagAt?_bracket_eq_none_iff` — which texts are tags, and which brackets open one;
* `pieces_cons_of_none`, `pieces_tag_append`, `pieces_induction` — a text is a tag and a shorter
  text, or a character and a shorter text;
* `respell`, `pieces_respell_append` — the parts of a text that is written anew, with another
  text behind it.
-/
import Mathlib.Data.List.Basic
import Mathlib.Data.List.TakeWhile
import IncludeTrace.Browser.Markup

namespace IncludeTrace.Markup

variable {s tail text : List Char} {c : Char} {k : Nat}

/-! ### Tags -/

def isBracket (c : Char) : Bool :=
  c == '[' || c == ']'

theorem isBracket_eq_false_of_startsTag (h : startsTag c = true) : isBracket c = false := by
  refine Bool.eq_false_iff.2 fun hc => ?_
  rw [isBracket, Bool.or_eq_true, beq_iff_eq, beq_iff_eq] at hc
  rcases hc with rfl | rfl
  · exact absurd h (by decide)
  · exact absurd h (by decide)

/-- The texts that are tags. -/
inductive IsTag : List Char → Prop
  | intro {c : Char} {inside : List Char} :
      startsTag c = true → (∀ d ∈ inside, isBracket d = false) →
        IsTag ('[' :: c :: (inside ++ [']']))

/-- What stands behind a bracket that opens a tag. -/
def OpensTag (s : List Char) : Prop :=
  (∃ c, s.head? = some c ∧ startsTag c = true) ∧ s.find? isBracket = some ']'

theorem tagAt?_append (h : IsTag text) (s : List Char) : tagAt? (text ++ s) = some text := by
  obtain @⟨c, inside, hc, hinside⟩ := h
  have htake : (inside ++ ']' :: s).takeWhile (fun d => d != '[' && d != ']') = inside := by
    rw [List.takeWhile_append_of_pos fun d hd => ?_, List.takeWhile_cons, if_neg (by decide),
      List.append_nil]
    have hd' := hinside d hd
    simpa [isBracket] using hd'
  have htext : '[' :: c :: (inside ++ [']']) ++ s = '[' :: c :: (inside ++ ']' :: s) := by simp
  rw [htext, tagAt?, htake, List.drop_left]
  simp [hc]

theorem drop_length_takeWhile {α : Type} (p : α → Bool) (s : List α) :
    s.drop (s.takeWhile p).length = s.dropWhile p := by
  induction s with
  | nil => rfl
  | cons a s ih => by_cases h : p a = true <;> simp [h, ih]

theorem isTag_of_tagAt? (h : tagAt? s = some text) : IsTag text ∧ ∃ rest, s = text ++ rest := by
  rw [tagAt?.eq_def] at h
  split at h
  · next c rest =>
    dsimp only at h
    split at h
    · next hcond =>
      cases h
      rw [Bool.and_eq_true, beq_iff_eq, drop_length_takeWhile, List.head?_eq_some_iff] at hcond
      obtain ⟨hc, behind, hbehind⟩ := hcond
      refine ⟨.intro hc fun d hd => ?_, behind, ?_⟩
      · simpa [isBracket] using List.mem_takeWhile_imp hd
      · have hsplit := List.takeWhile_append_dropWhile
          (p := fun d => d != '[' && d != ']') (l := rest)
        rw [hbehind] at hsplit
        simp [hsplit]
    · cases h
  · cases h

theorem tagAt?_eq_none_of_head (h : s.head? ≠ some '[') : tagAt? s = none := by
  cases htag : tagAt? s with
  | none => rfl
  | some text =>
    obtain ⟨⟨hc, hinside⟩, rest, rfl⟩ := isTag_of_tagAt? htag
    exact absurd rfl h

theorem tagAt?_bracket_eq_none_iff : tagAt? ('[' :: s) = none ↔ ¬ OpensTag s := by
  constructor
  · rintro h ⟨⟨c, hc, hstarts⟩, hfind⟩
    obtain ⟨s, rfl⟩ := List.head?_eq_some_iff.1 hc
    rw [List.find?_cons, isBracket_eq_false_of_startsTag hstarts] at hfind
    obtain ⟨-, inside, rest, rfl, hinside⟩ := List.find?_eq_some_iff_append.1 hfind
    have htag := tagAt?_append (.intro hstarts fun d hd => by simpa using hinside d hd) rest
    cases h.symm.trans (by simpa using htag)
  · intro h
    cases htag : tagAt? ('[' :: s) with
    | none => rfl
    | some text =>
      obtain ⟨@⟨c, inside, hc, hinside⟩, rest, hs⟩ := isTag_of_tagAt? htag
      rw [List.cons_append, List.cons.injEq] at hs
      rw [hs.2] at h
      refine absurd ⟨⟨c, rfl, hc⟩, ?_⟩ h
      rw [List.cons_append, List.find?_cons, isBracket_eq_false_of_startsTag hc]
      dsimp only
      rw [List.append_assoc, List.find?_append, List.find?_eq_none.2 (by simpa using hinside)]
      rfl

/-! ### Backslashes in front of tags -/

theorem escapedTagAt?_slash (s : List Char) :
    escapedTagAt? ('\\' :: s) = (escapedTagAt? s).map fun found => (found.1 + 1, found.2) := by
  simp [escapedTagAt?, Option.map_map, Function.comp_def]

theorem escapedTagAt?_of_head_ne (h : s.head? ≠ some '\\') :
    escapedTagAt? s = (tagAt? s).map (0, ·) := by
  have htake : s.takeWhile (· == '\\') = [] := by
    cases s with
    | nil => rfl
    | cons c s => simp_all
  rw [escapedTagAt?, htake]
  rfl

theorem find?_slashes_append (k : Nat) (s : List Char) :
    (List.replicate k '\\' ++ s).find? isBracket = s.find? isBracket := by
  have hslashes : (List.replicate k '\\').find? isBracket = none :=
    List.find?_eq_none.2 fun d hd => by simp [List.eq_of_mem_replicate hd, isBracket]
  rw [List.find?_append, hslashes, Option.none_or]

theorem startsTag_slashes_append (h : ∀ c, s.head? = some c → startsTag c = false) (k : Nat) :
    ∀ c, (List.replicate k '\\' ++ s).head? = some c → startsTag c = false := by
  intro c hc
  cases k with
  | zero => exact h c hc
  | succ k =>
    cases hc
    rfl

theorem IsTag.head? (h : IsTag text) (s : List Char) : (text ++ s).head? = some '[' := by
  obtain ⟨-, -⟩ := h
  rfl

theorem escapedTagAt?_append (h : IsTag text) (k : Nat) (s : List Char) :
    escapedTagAt? (List.replicate k '\\' ++ (text ++ s)) = some (k, text) := by
  induction k with
  | zero =>
    have hhead : (text ++ s).head? ≠ some '\\' := by simp [h.head? s]
    rw [List.replicate_zero, List.nil_append, escapedTagAt?_of_head_ne hhead, tagAt?_append h]
    rfl
  | succ k ih =>
    rw [List.replicate_succ, List.cons_append, escapedTagAt?_slash, ih]
    rfl

theorem exists_of_escapedTagAt? (h : escapedTagAt? s = some (k, text)) :
    IsTag text ∧ ∃ rest, s = List.replicate k '\\' ++ (text ++ rest) := by
  induction s generalizing k with
  | nil => cases h
  | cons c s ih =>
    by_cases hc : c = '\\'
    · rw [hc, escapedTagAt?_slash, Option.map_eq_some_iff] at h
      obtain ⟨⟨slashes, found⟩, hfound, heq⟩ := h
      cases heq
      obtain ⟨htag, rest, hs⟩ := ih hfound
      exact ⟨htag, rest, by rw [hc, hs, List.replicate_succ, List.cons_append]⟩
    · rw [escapedTagAt?_of_head_ne (by simpa using hc), Option.map_eq_some_iff] at h
      obtain ⟨found, hfound, heq⟩ := h
      cases heq
      obtain ⟨htag, rest, hs⟩ := isTag_of_tagAt? hfound
      exact ⟨htag, rest, by simpa using hs⟩

/-! ### Parts -/

theorem piecesAfter_eq (skip : Nat) (s : List Char) :
    piecesAfter skip s = pieces (s.drop skip) := by
  induction skip generalizing s with
  | zero => rfl
  | succ skip ih =>
    cases s with
    | nil => rfl
    | cons c s => rw [piecesAfter, ih, List.drop_succ_cons]

theorem pieces_cons_of_none (h : escapedTagAt? (c :: s) = none) :
    pieces (c :: s) = .char c :: pieces s := by
  rw [pieces, piecesAfter, h]
  rfl

theorem pieces_tag_append (h : IsTag text) (k : Nat) (s : List Char) :
    pieces (List.replicate k '\\' ++ (text ++ s)) = .tag k text :: pieces s := by
  have hfound := escapedTagAt?_append h k s
  have hdrop : (List.replicate k '\\' ++ (text ++ s)).drop (k + text.length) = s := by
    rw [← List.append_assoc]
    exact List.drop_left' (by simp)
  have hpos : 0 < text.length := by
    obtain ⟨-, -⟩ := h
    exact Nat.succ_pos _
  cases hall : List.replicate k '\\' ++ (text ++ s) with
  | nil => simp_all
  | cons c rest =>
    -- The tag with its backslashes is skipped from its second character on.
    rw [hall] at hfound hdrop
    rw [pieces, piecesAfter, hfound]
    dsimp only
    have hcount : k + text.length = k + text.length - 1 + 1 := by omega
    rw [hcount, List.drop_succ_cons] at hdrop
    rw [piecesAfter_eq, hdrop]

/-- Every text is built from its parts. -/
@[elab_as_elim]
theorem pieces_induction {motive : List Char → Prop} (nil : motive [])
    (char : ∀ c s, escapedTagAt? (c :: s) = none → motive s → motive (c :: s))
    (tag : ∀ k text s, IsTag text → motive s →
      motive (List.replicate k '\\' ++ (text ++ s))) (s : List Char) : motive s := by
  induction hlength : s.length using Nat.strongRecOn generalizing s with
  | ind n ih =>
    cases s with
    | nil => exact nil
    | cons c s =>
      cases hfound : escapedTagAt? (c :: s) with
      | none => exact char c s hfound (ih s.length (by simp [← hlength]) s rfl)
      | some found =>
        obtain ⟨k, text⟩ := found
        obtain ⟨htag, rest, hs⟩ := exists_of_escapedTagAt? hfound
        rw [hs]
        refine tag k text rest htag (ih rest.length ?_ rest rfl)
        obtain ⟨-, -⟩ := htag
        rw [← hlength, hs]
        simp
        omega

/-! ### Parts written anew -/

/-- A part with another number of backslashes in front of its tag. -/
def Piece.respelled (slashes : Nat → Nat) : Piece → Piece
  | char c => char c
  | tag k text => tag (slashes k) text

/-- A part as it is written. -/
def Piece.spelled : Piece → List Char
  | char c => [c]
  | tag k text => List.replicate k '\\' ++ text

/-- A text with other numbers of backslashes in front of its tags. -/
def respell (slashes : Nat → Nat) (s : List Char) : List Char :=
  (pieces s).flatMap fun p => (p.respelled slashes).spelled

variable {slashes : Nat → Nat}

theorem respell_cons_of_none (h : escapedTagAt? (c :: s) = none) :
    respell slashes (c :: s) = c :: respell slashes s := by
  rw [respell, pieces_cons_of_none h]
  rfl

theorem respell_tag_append (h : IsTag text) (k : Nat) (s : List Char) :
    respell slashes (List.replicate k '\\' ++ (text ++ s))
      = List.replicate (slashes k) '\\' ++ (text ++ respell slashes s) := by
  rw [respell, pieces_tag_append h, List.flatMap_cons]
  exact List.append_assoc _ _ _

theorem respell_id (s : List Char) : respell id s = s := by
  induction s using pieces_induction with
  | nil => rfl
  | char c s hnone ih => rw [respell_cons_of_none hnone, ih]
  | tag k text s htag ih => rw [respell_tag_append htag, ih, id]

/-- Nothing that stands in front of such a text becomes a tag through it. -/
structure Apart (tail : List Char) : Prop where
  head : ∀ c, tail.head? = some c → startsTag c = false
  bracket : tail.find? isBracket ≠ some ']'

theorem Apart.slashes_append (h : Apart tail) (k : Nat) :
    Apart (List.replicate k '\\' ++ tail) where
  head := startsTag_slashes_append h.head k
  bracket := by
    rw [find?_slashes_append]
    exact h.bracket

variable (slashes)

theorem find?_respell_append (s tail : List Char) :
    (respell slashes s ++ tail).find? isBracket
      = (s.find? isBracket).or (tail.find? isBracket) := by
  induction s using pieces_induction with
  | nil => rfl
  | char c s hnone ih =>
    rw [respell_cons_of_none hnone, List.cons_append, List.find?_cons, List.find?_cons]
    cases isBracket c with
    | true => rfl
    | false => exact ih
  | tag k text s htag ih =>
    rw [respell_tag_append htag, List.append_assoc, find?_slashes_append, find?_slashes_append]
    -- The bracket in front of the tag is the first one.
    obtain ⟨-, -⟩ := htag
    rfl

theorem startsTag_respell_append (htail : Apart tail) :
    (∃ c, (respell slashes s ++ tail).head? = some c ∧ startsTag c = true)
      ↔ ∃ c, s.head? = some c ∧ startsTag c = true := by
  -- A backslash or a bracket is in front of a tag, however often the former is written.
  have htag : ∀ {n text rest}, IsTag text → ¬ ∃ c,
      (List.replicate n '\\' ++ (text ++ rest)).head? = some c ∧ startsTag c = true := by
    rintro n text rest htext ⟨c, hc, hstarts⟩
    have hhead : ∀ c, (text ++ rest).head? = some c → startsTag c = false := by
      intro c hc
      rw [htext.head?] at hc
      cases hc
      rfl
    cases (startsTag_slashes_append hhead n c hc).symm.trans hstarts
  induction s using pieces_induction with
  | nil =>
    refine iff_of_false ?_ (by simp)
    rintro ⟨c, hc, hstarts⟩
    cases (htail.head c hc).symm.trans hstarts
  | char c s hnone ih =>
    rw [respell_cons_of_none hnone]
    rfl
  | tag k text s htext ih =>
    rw [respell_tag_append htext, List.append_assoc, List.append_assoc]
    exact iff_of_false (htag htext) (htag htext)

theorem opensTag_respell_append (htail : Apart tail) :
    OpensTag (respell slashes s ++ tail) ↔ OpensTag s := by
  have hbracket : (respell slashes s ++ tail).find? isBracket = some ']'
      ↔ s.find? isBracket = some ']' := by
    rw [find?_respell_append]
    cases s.find? isBracket with
    | none => simpa using htail.bracket
    | some d => rfl
  exact and_congr (startsTag_respell_append slashes htail) hbracket

theorem escapedTagAt?_cons_of_ne (hc : c ≠ '\\') :
    escapedTagAt? (c :: s) = none ↔ c = '[' → ¬ OpensTag s := by
  rw [escapedTagAt?_of_head_ne (by simpa using hc), Option.map_eq_none_iff]
  by_cases hbracket : c = '['
  · rw [hbracket, tagAt?_bracket_eq_none_iff]
    simp
  · rw [tagAt?_eq_none_of_head (by simpa using hbracket)]
    simp [hbracket]

/-- A text that starts with no tag and does not end in a backslash still starts with none when
it is written anew with a text behind it. -/
theorem escapedTagAt?_respell_append (htail : Apart tail) (hs : s ≠ [])
    (hend : s.getLast? ≠ some '\\') (hnone : escapedTagAt? s = none) :
    escapedTagAt? (respell slashes s ++ tail) = none := by
  induction s using pieces_induction with
  | nil => exact absurd rfl hs
  | char c s _ ih =>
    rw [respell_cons_of_none hnone, List.cons_append]
    by_cases hc : c = '\\'
    · -- Behind the last of several backslashes another character decides.
      subst hc
      have hs' : s ≠ [] := by
        rintro rfl
        exact hend rfl
      rw [escapedTagAt?_slash, Option.map_eq_none_iff] at hnone ⊢
      refine ih hs' ?_ hnone
      rwa [List.getLast?_cons_of_ne_nil hs'] at hend
    · rw [escapedTagAt?_cons_of_ne hc, opensTag_respell_append slashes htail]
      exact (escapedTagAt?_cons_of_ne hc).1 hnone
  | tag k text s htag ih =>
    rw [escapedTagAt?_append htag] at hnone
    cases hnone

/-- The parts are found again. -/
theorem pieces_respell_append (htail : Apart tail) (hend : s.getLast? ≠ some '\\') :
    pieces (respell slashes s ++ tail)
      = (pieces s).map (Piece.respelled slashes) ++ pieces tail := by
  induction s using pieces_induction with
  | nil => rfl
  | char c s hnone ih =>
    -- The character starts no tag in the new text either.
    have hnone' := escapedTagAt?_respell_append slashes htail (List.cons_ne_nil c s) hend hnone
    rw [respell_cons_of_none hnone, List.cons_append] at hnone' ⊢
    rw [pieces_cons_of_none hnone', pieces_cons_of_none hnone, ih, List.map_cons,
      List.cons_append]
    · rfl
    · cases s with
      | nil => exact nofun
      | cons d s => rwa [List.getLast?_cons_of_ne_nil (List.cons_ne_nil d s)] at hend
  | tag k text s htag ih =>
    rw [respell_tag_append htag, List.append_assoc, List.append_assoc, pieces_tag_append htag,
      pieces_tag_append htag, ih, List.map_cons, List.cons_append]
    · rfl
    · intro hlast
      have hne : s ≠ [] := by
        rintro rfl
        cases hlast
      refine hend ?_
      rw [List.getLast?_append_of_ne_nil _ (List.append_ne_nil_of_right_ne_nil _ hne),
        List.getLast?_append_of_ne_nil _ hne, hlast]

theorem opensTag_append (htail : Apart tail) : OpensTag (s ++ tail) ↔ OpensTag s := by
  have h := opensTag_respell_append id (s := s) htail
  rwa [respell_id] at h

theorem respell_append (htail : Apart tail) (hend : s.getLast? ≠ some '\\') :
    respell slashes (s ++ tail) = respell slashes s ++ respell slashes tail := by
  have hid : Piece.respelled id = id := by
    funext p
    cases p with
    | char c => rfl
    | tag k text => rfl
  have hpieces := pieces_respell_append id htail hend
  rw [respell_id, hid, List.map_id] at hpieces
  rw [respell, hpieces, List.flatMap_append]
  rfl

end IncludeTrace.Markup
