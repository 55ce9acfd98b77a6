/-
Names written as markup that is meant to show them.

A name is written between two tags, with its own tags guarded by backslashes.  Nothing of a name
is taken for a tag then.  But a backslash in front of a bracket that opens no tag is not shown,
and of several backslashes at the end of a name half are shown, as the closing tag stands behind
them; if their number is odd, the closing tag is shown as well:

* `unslashed`, `ending`, `seen` — what can be seen of a name;
* `shown`, `shown_char_cons`, `shown_tag_cons` — what parts show, from one to the next;
* `unslashed_append`, `shown_map_respelled` — what is shown of guarded parts;
* `exists_eq_append_slashes`, `escapeChars_append` — a name without the backslashes at its end,
  and what is written for both;
* `pieces_nameMarkup` — how the markup of a name is taken apart.
-/
import IncludeTrace.Browser.Wording
import IncludeTrace.Proofs.MarkupParts
import IncludeTrace.Proofs.TextPieces

namespace IncludeTrace.Markup

variable {s tail body : List Char} {c : Char}

/-- Whether a text starts with a bracket that opens no tag. -/
def startsBare (s : List Char) : Bool :=
  s.head? == some '[' && (tagAt? s).isNone

/-- A text without the backslashes directly in front of brackets that open no tag. -/
def unslashed : List Char → List Char
  | [] => []
  | c :: s => if c = '\\' ∧ startsBare s = true then unslashed s else c :: unslashed s

/-- How many backslashes stand at the end of a text. -/
def slashesAtEnd (s : List Char) : Nat :=
  (s.reverse.takeWhile (· == '\\')).length

/-- How many backslashes of the markup stand in front of the tag behind a name that ends in
some: a single one is doubled. -/
def closing (slashes : Nat) : Nat :=
  if slashes = 1 then 2 else slashes

/-- What is shown of the backslashes at the end of a name. -/
def ending (slashes : Nat) : List Char :=
  List.replicate (closing slashes / 2) '\\'
    ++ if closing slashes % 2 = 1 then "[/]".toList else []

/-- What can be seen of a name. -/
def seen (name : List Char) : List Char :=
  unslashed (Text.trimEndBy (· == '\\') name) ++ ending (slashesAtEnd name)

/-- How many backslashes the markup has in front of a tag that is to show behind some. -/
def guarded (slashes : Nat) : Nat :=
  2 * slashes + 1

/-- Whether a part shows as a text. -/
def Piece.Literal : Piece → Prop
  | char _ => True
  | tag slashes _ => slashes % 2 = 1

/-! ### Backslashes in front of brackets -/

theorem startsBare_iff : startsBare s = true ↔ ∃ rest, s = '[' :: rest ∧ ¬ OpensTag rest := by
  rw [startsBare, Bool.and_eq_true, beq_iff_eq, Option.isNone_iff_eq_none, List.head?_eq_some_iff]
  constructor
  · rintro ⟨⟨rest, rfl⟩, hnone⟩
    exact ⟨rest, rfl, tagAt?_bracket_eq_none_iff.1 hnone⟩
  · rintro ⟨rest, rfl, hopens⟩
    exact ⟨⟨rest, rfl⟩, tagAt?_bracket_eq_none_iff.2 hopens⟩

theorem unslashed_cons_of_bare (h : startsBare s = true) : unslashed ('\\' :: s) = unslashed s := by
  rw [unslashed, if_pos ⟨rfl, h⟩]

theorem unslashed_cons (h : c = '\\' → startsBare s = false) :
    unslashed (c :: s) = c :: unslashed s := by
  rw [unslashed, if_neg]
  rintro ⟨hc, hbare⟩
  cases (h hc).symm.trans hbare

theorem unslashed_sublist (s : List Char) : (unslashed s).Sublist s := by
  induction s with
  | nil => exact List.Sublist.refl []
  | cons c s ih =>
    rw [unslashed]
    split
    · exact ih.cons c
    · exact ih.cons_cons c

theorem mem_unslashed_iff (h : c ≠ '\\') : c ∈ unslashed s ↔ c ∈ s := by
  induction s with
  | nil => rfl
  | cons d s ih =>
    rw [unslashed]
    split
    · next hd => rw [ih, hd.1, List.mem_cons, or_iff_right h]
    · rw [List.mem_cons, List.mem_cons, ih]

theorem unslashed_inside_append {inside : List Char} (h : '[' ∉ inside) (s : List Char) :
    unslashed (inside ++ ']' :: s) = inside ++ ']' :: unslashed s := by
  induction inside with
  | nil => exact unslashed_cons fun hslash => absurd hslash (by decide)
  | cons c inside ih =>
    rw [List.mem_cons, not_or] at h
    rw [List.cons_append, unslashed_cons, ih h.2, List.cons_append]
    intro _
    cases inside with
    | nil => rfl
    | cons d inside =>
      rw [List.mem_cons, not_or] at h
      simp [startsBare, Ne.symm h.2.1]

/-- A tag has no second bracket that opens. -/
theorem bracket_not_mem {inside : List Char} (hc : startsTag c = true)
    (hinside : ∀ d ∈ inside, isBracket d = false) : '[' ∉ c :: inside := by
  intro hbracket
  rcases List.mem_cons.1 hbracket with rfl | hbracket
  · exact absurd hc (by decide)
  · exact absurd (hinside _ hbracket) (by decide)

/-- In front of a tag, and in it, no backslash is left out. -/
theorem unslashed_tag_append {text : List Char} (h : IsTag text) (k : Nat) (s : List Char) :
    unslashed (List.replicate k '\\' ++ (text ++ s))
      = List.replicate k '\\' ++ (text ++ unslashed s) := by
  have htext : unslashed (text ++ s) = text ++ unslashed s := by
    obtain @⟨c, inside, hc, hplain⟩ := h
    have hinside := unslashed_inside_append (bracket_not_mem hc hplain) s
    simp only [List.cons_append, List.append_assoc, List.nil_append] at hinside ⊢
    rw [unslashed_cons fun hslash => absurd hslash (by decide), hinside]
  induction k with
  | zero => exact htext
  | succ k ih =>
    rw [List.replicate_succ, List.cons_append, unslashed_cons, ih, List.cons_append]
    -- Behind the backslash stands another one, or the tag.
    intro _
    cases k with
    | zero => simp [startsBare, tagAt?_append h]
    | succ k => rfl

theorem unslashed_append (htail : Apart tail) (hbracket : tail.head? ≠ some '[')
    (s : List Char) : unslashed (s ++ tail) = unslashed s ++ unslashed tail := by
  -- Whether a backslash is dropped depends on what follows it, which the tail does not change.
  have hbare : ∀ s, startsBare (s ++ tail) = startsBare s := by
    intro s
    rw [Bool.eq_iff_iff, startsBare_iff, startsBare_iff]
    cases s with
    | nil =>
      refine iff_of_false ?_ (by simp)
      rintro ⟨rest, hrest, -⟩
      exact hbracket (congrArg List.head? hrest)
    | cons c s =>
      simp [opensTag_append htail]
  induction s with
  | nil => rfl
  | cons c s ih =>
    rw [List.cons_append, unslashed, unslashed, hbare, ih]
    split
    · rfl
    · rw [List.cons_append]

/-! ### Parts of a name -/

theorem exists_of_pieces_eq_char {ps : List Piece} (h : pieces s = .char c :: ps) :
    ∃ rest, s = c :: rest ∧ escapedTagAt? s = none := by
  cases s with
  | nil => cases h
  | cons d s =>
    cases hfound : escapedTagAt? (d :: s) with
    | none =>
      rw [pieces_cons_of_none hfound] at h
      cases h
      exact ⟨s, rfl, rfl⟩
    | some found =>
      rw [pieces, piecesAfter, hfound] at h
      cases h

/-! ### Texts between tags -/

/-- What is shown where emoji codes are left as they are. -/
def shown (parts : List Piece) : List Char :=
  (texts parts).flatten

theorem bare_cons (h : c = '\\' → s.head? ≠ some '[') : bare (c :: s) = c :: bare s := by
  rw [bare]
  rintro rest rfl rfl
  exact h rfl rfl

theorem bare_of_not_mem (h : '[' ∉ s) : bare s = s := by
  induction s with
  | nil => rfl
  | cons c s ih =>
    rw [List.mem_cons, not_or] at h
    rw [bare_cons, ih h.2]
    exact fun _ hhead => h.2 (List.mem_of_mem_head? hhead)

theorem bare_replicate (k : Nat) : bare (List.replicate k '\\') = List.replicate k '\\' :=
  bare_of_not_mem fun h => by cases List.eq_of_mem_replicate h

theorem bare_of_isTag (h : IsTag s) : bare s = s := by
  obtain @⟨c, inside, hc, hplain⟩ := h
  have hrest : '[' ∉ c :: (inside ++ [']']) := by
    rw [← List.cons_append, List.mem_append, not_or]
    exact ⟨bracket_not_mem hc hplain, by decide⟩
  rw [bare_cons fun hslash => absurd hslash (by decide), bare_of_not_mem hrest]

/-- There is a first text, which starts with a bracket if the parts do. -/
theorem exists_stretches (ps : List Piece) :
    ∃ first more, stretches ps = first :: more ∧
      (first.head? = some '[' ↔ ∃ qs, ps = .char '[' :: qs) := by
  induction ps with
  | nil => exact ⟨[], [], rfl, by simp⟩
  | cons p ps ih =>
    cases p with
    | char c =>
      obtain ⟨first, more, hrest, -⟩ := ih
      exact ⟨c :: first, more, by rw [stretches, hrest, List.modifyHead_cons], by simp⟩
    | tag k text => exact ⟨_, _, rfl, by simp⟩

theorem shown_char_cons {ps : List Piece} (h : c = '\\' → ∀ qs, ps ≠ .char '[' :: qs) :
    shown (.char c :: ps) = c :: shown ps := by
  obtain ⟨first, more, hrest, hbracket⟩ := exists_stretches ps
  have hfirst : bare (c :: first) = c :: bare first := by
    refine bare_cons fun hc hhead => ?_
    obtain ⟨qs, hqs⟩ := hbracket.1 hhead
    exact h hc qs hqs
  rw [shown, shown, texts, texts, stretches, hrest, List.modifyHead_cons, List.map_cons, hfirst]
  rfl

/-- A backslash in front of a bracket is not shown. -/
theorem shown_slash_cons (ps : List Piece) :
    shown (.char '\\' :: .char '[' :: ps) = shown (.char '[' :: ps) := by
  obtain ⟨first, more, hrest, -⟩ := exists_stretches ps
  have hfirst : bare ('[' :: first) = '[' :: bare first :=
    bare_cons fun hslash => absurd hslash (by decide)
  rw [shown, shown, texts, texts, stretches, stretches, hrest, List.modifyHead_cons,
    List.modifyHead_cons, List.map_cons, List.map_cons, hfirst]
  rfl

theorem shown_tag_cons (k : Nat) (text : List Char) (ps : List Piece) :
    shown (.tag k text :: ps)
      = List.replicate (k / 2) '\\' ++ bare (if k % 2 = 1 then text else []) ++ shown ps := by
  rw [shown, texts, stretches, List.map_cons, List.map_cons, List.map_cons, bare_replicate,
    List.append_assoc]
  rfl

/-- A backslash is left out only in front of a bracket, and a tag is none. -/
theorem shown_append_tag (ps qs : List Piece) (k : Nat) (text : List Char) :
    shown (ps ++ .tag k text :: qs) = shown ps ++ shown (.tag k text :: qs) := by
  induction ps with
  | nil => rfl
  | cons p ps ih =>
    cases p with
    | char c =>
      by_cases hslash : c = '\\' ∧ ∃ rest, ps = .char '[' :: rest
      · obtain ⟨rfl, rest, rfl⟩ := hslash
        rw [List.cons_append, List.cons_append, shown_slash_cons, shown_slash_cons,
          ← List.cons_append, ih]
      · have hps : c = '\\' → ∀ rest, ps ≠ .char '[' :: rest :=
          fun hc rest hrest => hslash ⟨hc, rest, hrest⟩
        rw [List.cons_append, shown_char_cons, shown_char_cons hps, ih, List.cons_append]
        intro hc rest hrest
        cases ps with
        | nil => cases hrest
        | cons p ps =>
          cases hrest
          exact hps hc ps rfl
    | tag k' text' =>
      rw [List.cons_append, shown_tag_cons, shown_tag_cons, ih, ← List.append_assoc]

/-- The backslashes that escape the tags of a text are not shown. -/
theorem shown_map_respelled (s : List Char) :
    shown ((pieces s).map (Piece.respelled guarded)) = unslashed s := by
  induction s using pieces_induction with
  | nil => rfl
  | char c s hnone ih =>
    rw [pieces_cons_of_none hnone, List.map_cons]
    -- A backslash can be a character of its own only where the bracket behind it opens no tag.
    by_cases hbare : c = '\\' ∧ startsBare s = true
    · obtain ⟨rfl, hs⟩ := hbare
      rw [unslashed_cons_of_bare hs, ← ih]
      obtain ⟨rest, rfl, hopens⟩ := startsBare_iff.1 hs
      have hbracket : escapedTagAt? ('[' :: rest) = none :=
        (escapedTagAt?_cons_of_ne (by decide)).2 fun _ => hopens
      rw [pieces_cons_of_none hbracket, List.map_cons]
      exact shown_slash_cons _
    · rw [unslashed, if_neg hbare, ← ih]
      refine shown_char_cons fun hc qs hps => hbare ⟨hc, ?_⟩
      obtain ⟨p, ps, hpieces, hp, -⟩ := List.map_eq_cons_iff.1 hps
      cases p with
      | tag k text => cases hp
      | char d =>
        cases hp
        obtain ⟨rest, rfl, hbracket⟩ := exists_of_pieces_eq_char hpieces
        exact startsBare_iff.2 ⟨rest, rfl, (escapedTagAt?_cons_of_ne (by decide)).1 hbracket rfl⟩
  | tag k text s htag ih =>
    have hhalf : guarded k / 2 = k := show (2 * k + 1) / 2 = k by omega
    have hodd : guarded k % 2 = 1 := Nat.mul_add_mod 2 k 1
    rw [pieces_tag_append htag, unslashed_tag_append htag, List.map_cons, Piece.respelled,
      shown_tag_cons, ih, hhalf, if_pos hodd, bare_of_isTag htag, List.append_assoc]

theorem literal_of_mem_map_respelled {p : Piece}
    (h : p ∈ (pieces s).map (Piece.respelled guarded)) : p.Literal := by
  obtain ⟨q, -, rfl⟩ := List.mem_map.1 h
  cases q with
  | char c => trivial
  | tag k text => exact Nat.mul_add_mod 2 k 1

/-! ### The end of a name -/

theorem apart_replicate (k : Nat) : Apart (List.replicate k '\\') := by
  have hnil : Apart [] := ⟨nofun, nofun⟩
  have h := hnil.slashes_append k
  rwa [List.append_nil] at h

theorem unslashed_append_slashes (s : List Char) (k : Nat) :
    unslashed (s ++ List.replicate k '\\') = unslashed s ++ List.replicate k '\\' := by
  have hslashes : unslashed (List.replicate k '\\') = List.replicate k '\\' := by
    induction k with
    | zero => rfl
    | succ k ih =>
      rw [List.replicate_succ, unslashed_cons, ih]
      intro _
      cases k <;> rfl
  have hbracket : (List.replicate k '\\').head? ≠ some '[' := by
    intro hhead
    cases List.eq_of_mem_replicate (List.mem_of_head? hhead)
  rw [unslashed_append (apart_replicate k) hbracket, hslashes]

/-- One backslash at most is shown as it stands. -/
theorem ending_of_le_one {k : Nat} (h : k ≤ 1) : ending k = List.replicate k '\\' := by
  obtain rfl | rfl : k = 0 ∨ k = 1 := by omega
  · rfl
  · rfl

theorem isTag_close : IsTag "[/]".toList :=
  @IsTag.intro '/' [] rfl nofun

theorem apart_close : Apart "[/]".toList where
  head c hc := by
    cases hc
    rfl
  bracket := by decide

theorem slashesAtEnd_append (h : s.getLast? ≠ some '\\') (k : Nat) :
    slashesAtEnd (s ++ List.replicate k '\\') = k := by
  rw [slashesAtEnd, List.reverse_append, List.reverse_replicate,
    Text.takeWhile_replicate_append (by rwa [List.head?_reverse]), List.length_replicate]

/-- A name is a text that does not end in a backslash, and the backslashes behind it. -/
theorem exists_eq_append_slashes (name : List Char) :
    ∃ body, body.getLast? ≠ some '\\' ∧
      Text.trimEndBy (· == '\\') name = body ∧
      name = body ++ List.replicate (slashesAtEnd name) '\\' := by
  obtain ⟨t, hname, ht⟩ := Text.exists_eq_trimEndBy_append (· == '\\') name
  have hend : (Text.trimEndBy (· == '\\') name).getLast? ≠ some '\\' :=
    fun hlast => absurd (Text.getLast?_trimEndBy hlast) (by decide)
  have hslashes : t = List.replicate t.length '\\' :=
    List.eq_replicate_of_mem fun c hc => by simpa using ht c hc
  have hcount : slashesAtEnd name = t.length := by
    rw [hname, hslashes, slashesAtEnd_append hend, List.length_replicate]
  refine ⟨_, hend, rfl, ?_⟩
  rw [hcount, ← hslashes]
  exact hname

theorem suffix_iff_slashesAtEnd (name : List Char) :
    ['\\', '\\'] <:+ name ↔ 2 ≤ slashesAtEnd name := by
  constructor
  · rintro ⟨s, rfl⟩
    simp [slashesAtEnd]
  · intro h
    obtain ⟨body, -, -, hname⟩ := exists_eq_append_slashes name
    obtain ⟨k, hk⟩ := Nat.exists_eq_add_of_le' h
    rw [hk, ← List.replicate_append_replicate, ← List.append_assoc] at hname
    exact ⟨_, hname.symm⟩

theorem getLast?_respell (slashes : Nat → Nat) (s : List Char) :
    (respell slashes s).getLast? = s.getLast? := by
  induction s using pieces_induction with
  | nil => rfl
  | char c s hnone ih => rw [respell_cons_of_none hnone, List.getLast?_cons, List.getLast?_cons, ih]
  | tag k text s htag ih =>
    obtain ⟨last, hlast⟩ : ∃ last, text.getLast? = some last := by
      obtain @⟨c, inside, -, -⟩ := htag
      exact ⟨']', by rw [← List.cons_append, ← List.cons_append, List.getLast?_concat]⟩
    simp [respell_tag_append htag, List.getLast?_append, ih, hlast]

theorem respell_replicate (slashes : Nat → Nat) (k : Nat) :
    respell slashes (List.replicate k '\\') = List.replicate k '\\' := by
  have hnone : ∀ k, escapedTagAt? (List.replicate k '\\') = none := by
    intro k
    induction k with
    | zero => rfl
    | succ k ih => rw [List.replicate_succ, escapedTagAt?_slash, ih, Option.map_none]
  induction k with
  | zero => rfl
  | succ k ih =>
    rw [List.replicate_succ, respell_cons_of_none (hnone (k + 1)), ih]

/-- What `escape` writes for a name: its tags are guarded, and a single backslash at the end is
doubled. -/
theorem escapeChars_append (h : body.getLast? ≠ some '\\') (k : Nat) :
    escapeChars (body ++ List.replicate k '\\')
      = respell guarded body ++ List.replicate (closing k) '\\' := by
  -- Escaping is respelling with guarded backslashes, so what is known of respelling applies.
  have hescaped : Piece.escaped = fun p => (Piece.respelled guarded p).spelled := by
    funext p
    cases p with
    | char c => rfl
    | tag k text => rfl
  have hmarked : (pieces (body ++ List.replicate k '\\')).flatMap Piece.escaped
      = respell guarded body ++ List.replicate k '\\' := by
    rw [hescaped, ← respell, respell_append guarded (apart_replicate k) h, respell_replicate]
  have hend : (respell guarded body).getLast? ≠ some '\\' := by rwa [getLast?_respell]
  rw [escapeChars, hmarked, endsInOneBackslash, ← slashesAtEnd, slashesAtEnd_append hend, closing]
  by_cases hk : k = 1
  · rw [hk, if_pos rfl, if_pos (beq_self_eq_true 1), List.append_assoc]
    rfl
  · rw [if_neg hk, if_neg (by simpa using hk)]

/-- The markup of a name is taken apart into the tags of the style and, between them, the parts
of the name, in which every tag is guarded. -/
theorem pieces_nameMarkup (h : body.getLast? ≠ some '\\') {name : String} {k : Nat}
    (hname : name.toList = body ++ List.replicate k '\\') :
    pieces (Browser.nameMarkup name).toList
      = .tag 0 "[white]".toList :: (pieces body).map (Piece.respelled guarded)
        ++ [.tag (closing k) "[/]".toList] := by
  have hopen : IsTag "[white]".toList :=
    @IsTag.intro 'w' ['h', 'i', 't', 'e'] rfl (by simp [isBracket])
  have hmarkup : (Browser.nameMarkup name).toList
      = List.replicate 0 '\\' ++ ("[white]".toList ++ (respell guarded body
        ++ (List.replicate (closing k) '\\' ++ "[/]".toList))) := by
    rw [Browser.nameMarkup, Browser.styled, escape]
    simp [hname, escapeChars_append h]
  have hclose := pieces_tag_append isTag_close (closing k) []
  rw [List.append_nil] at hclose
  -- The closing tag takes the backslashes in front of it, which is why these are counted twice.
  rw [hmarkup, pieces_tag_append hopen,
    pieces_respell_append guarded (apart_close.slashes_append _) h, hclose]
  rfl

end IncludeTrace.Markup
