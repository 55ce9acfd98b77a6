/-
Reading XML: elements with attributes, one inside another.

The reader goes through the text once, character by character, and only keeps where it stands
and what it has of an unfinished tag.  What a piece of text adds to the tags that were read
does not depend on the tags in front of it, so the meaning of a text is put together from the
meanings of its pieces:

* `value?` — an attribute value: references stand for characters, and raw tabs and line ends
  for spaces;
* `Reader.step`, `tags?` — the tags of a text;
* `Nesting.step`, `read?` — the element that they stand for, with all elements in it;
* `Means` — a piece of text between tags adds certain tags, whatever stands in front of it;
* `leads_attribute` — an attribute is read with the value that its text stands for;
* `run_tagsOf` — the tags of elements that stand inside one another are read as these.
-/
import IncludeTrace.Forest
import Mathlib.Data.List.Basic
import Mathlib.Data.List.Forall2

namespace IncludeTrace.Xml

/-! ### Attribute values -/

def isSpace (c : Char) : Bool :=
  c == ' ' || c == '\t' || c == '\n' || c == '\r'

/-- The value of a digit, in lower or upper case. -/
def digit? (c : Char) : Option Nat :=
  if '0' ≤ c ∧ c ≤ '9' then some (c.toNat - '0'.toNat)
  else if 'a' ≤ c ∧ c ≤ 'f' then some (c.toNat - 'a'.toNat + 10)
  else if 'A' ≤ c ∧ c ≤ 'F' then some (c.toNat - 'A'.toNat + 10)
  else none

/-- The number that digits write in a base; no digits write none. -/
def number? (base : Nat) (digits : List Char) : Option Nat :=
  if digits = [] then none
  else
    digits.foldlM (fun n c => ((digit? c).filter (· < base)).map fun d => n * base + d) 0

/-- The character with a number. -/
def numbered? (n : Nat) : Option Char :=
  if n.isValidChar then some (Char.ofNat n) else none

/-- The character that a reference stands for: one of five by its name, and every one by its
number. -/
def referred? : List Char → Option Char
  | '#' :: 'x' :: digits => (number? 16 digits).bind numbered?
  | '#' :: digits => (number? 10 digits).bind numbered?
  | name =>
    [("amp", '&'), ("lt", '<'), ("gt", '>'), ("quot", '"'), ("apos", '\'')].lookup
      (String.ofList name)

mutual

/-- The value that the text between the quotes of an attribute stands for. -/
def value? : List Char → Option (List Char)
  | [] => some []
  | c :: s =>
    if c = '&' then reference? [] s
    else (value? s).map ((if isSpace c then ' ' else c) :: ·)

/-- The same behind an ampersand and some characters of its reference. -/
def reference? (name : List Char) : List Char → Option (List Char)
  | [] => none
  | c :: s =>
    if c = ';' then (referred? name).bind fun d => (value? s).map (d :: ·)
    else reference? (name ++ [c]) s

end

/-! ### Tags -/

/-- An element without what stands in it. -/
structure Element where
  name : String
  attributes : List (String × String)
  deriving DecidableEq, Repr

/-- The element with one more attribute. -/
def Element.with (e : Element) (name value : String) : Element :=
  { e with attributes := e.attributes ++ [(name, value)] }

/-- What stands between two angle brackets. -/
inductive Tag where
  | opening (e : Element)
  | closing (name : String)
  /-- An element in which nothing stands. -/
  | empty (e : Element)
  deriving DecidableEq, Repr

/-- Where in a text a reader stands, and what it has of an unfinished tag. -/
inductive Position where
  /-- Between tags. -/
  | content
  /-- Behind a `<`. -/
  | bracket
  /-- In an instruction, behind a question mark or not. -/
  | instruction (mark : Bool)
  /-- In the name of an element that ends. -/
  | ending (name : List Char)
  /-- In the name of an element that begins. -/
  | beginning (name : List Char)
  /-- Between the attributes of an element. -/
  | inside (e : Element)
  /-- In the name of an attribute. -/
  | attribute (e : Element) (name : List Char)
  /-- Behind the equals sign of an attribute. -/
  | equals (e : Element) (name : List Char)
  /-- In a value that ends at the next quote of its kind. -/
  | value (e : Element) (name : List Char) (quote : Char) (raw : List Char)
  /-- Behind the slash of an element in which nothing stands. -/
  | slash (e : Element)

/-- A reader on its way: the tags that it has read, and where it stands. -/
structure Reader where
  tags : List Tag
  position : Position

def isNameChar (c : Char) : Bool :=
  c.isAlphanum || c == '-' || c == '.' || c == '_' || c == ':'

namespace Reader

def finish (r : Reader) (t : Tag) : Reader :=
  ⟨r.tags ++ [t], .content⟩

def moved (r : Reader) (p : Position) : Reader :=
  { r with position := p }

/-- One more character between the attributes of an element. -/
def between (r : Reader) (e : Element) (c : Char) : Option Reader :=
  if isSpace c then some (r.moved (.inside e))
  else if c = '>' then some (r.finish (.opening e))
  else if c = '/' then some (r.moved (.slash e))
  else if isNameChar c then some (r.moved (.attribute e [c]))
  else none

/-- The reader behind one more character; there is none where the text is no XML.  Between
tags only blanks are let through. -/
def step (r : Reader) (c : Char) : Option Reader :=
  match r.position with
  | .content =>
    if c = '<' then some (r.moved .bracket) else if isSpace c then some r else none
  | .bracket =>
    if c = '?' then some (r.moved (.instruction false))
    else if c = '/' then some (r.moved (.ending []))
    else if isNameChar c then some (r.moved (.beginning [c]))
    else none
  | .instruction mark =>
    if mark && c == '>' then some (r.moved .content)
    else some (r.moved (.instruction (c == '?')))
  | .ending name =>
    if c = '>' then some (r.finish (.closing (String.ofList name)))
    else if isNameChar c then some (r.moved (.ending (name ++ [c])))
    else none
  | .beginning name =>
    if isNameChar c then some (r.moved (.beginning (name ++ [c])))
    else r.between ⟨String.ofList name, []⟩ c
  | .inside e => r.between e c
  | .attribute e name =>
    if c = '=' then some (r.moved (.equals e name))
    else if isNameChar c then some (r.moved (.attribute e (name ++ [c])))
    else none
  | .equals e name =>
    if c = '"' ∨ c = '\'' then some (r.moved (.value e name c [])) else none
  | .value e name quote raw =>
    if c = quote then
      (value? raw).map fun v =>
        r.moved (.inside (e.with (String.ofList name) (String.ofList v)))
    else if c = '<' then none
    else some (r.moved (.value e name quote (raw ++ [c])))
  | .slash e => if c = '>' then some (r.finish (.empty e)) else none

end Reader

def tags? (s : List Char) : Option (List Tag) :=
  match s.foldlM Reader.step ⟨[], .content⟩ with
  | some ⟨tags, .content⟩ => some tags
  | _ => none

/-! ### Elements inside elements -/

/-- What some tags stand for: the elements that stand side by side where the reading has come
to, the latest first, and the open elements around them, the innermost first. -/
structure Nesting where
  beside : List (Tree Element)
  around : List (Rung Element)

/-- The nesting behind one more tag; only the innermost open element can end. -/
def Nesting.step (n : Nesting) : Tag → Option Nesting
  | .opening e => some ⟨[], ⟨n.beside, e⟩ :: n.around⟩
  | .empty e => some ⟨⟨e, .nil⟩ :: n.beside, n.around⟩
  | .closing name =>
    match n.around with
    | [] => none
    | r :: outer =>
      if r.head.name = name then
        some ⟨⟨r.head, .ofTrees n.beside.reverse⟩ :: r.before, outer⟩
      else none

/-- The one element that tags stand for. -/
def element? (tags : List Tag) : Option (Tree Element) :=
  match tags.foldlM Nesting.step ⟨[], []⟩ with
  | some ⟨[t], []⟩ => some t
  | _ => none

/-- The element that a text states, with all elements in it. -/
def read? (text : String) : Option (Tree Element) :=
  (tags? text.toList).bind element?

/-- A raw tab is a space, quotes are of two kinds, and a character may be referred to by its
number. -/
example : read? "<?xml?>\n<a b='\t&#x41;\"'><c/></a>"
    = some ⟨⟨"a", [("b", " A\"")]⟩, .cons ⟨"c", []⟩ .nil .nil⟩ := by
  decide +kernel

/-! ### What pieces of text mean -/

def Leads (r : Reader) (s : List Char) (q : Reader) : Prop :=
  s.foldlM Reader.step r = some q

theorem Leads.append {r q p : Reader} {s t : List Char} (hs : Leads r s q) (ht : Leads q t p) :
    Leads r (s ++ t) p := by
  rw [Leads, List.foldlM_append, hs]
  exact ht

theorem Leads.cons {r q p : Reader} {c : Char} {s : List Char} (hc : r.step c = some q)
    (hs : Leads q s p) : Leads r (c :: s) p := by
  rw [Leads, List.foldlM_cons, hc]
  exact hs

/-- A piece of text that starts and ends between tags adds certain tags, whatever stands in
front of it. -/
def Means (s : List Char) (ts : List Tag) : Prop :=
  ∀ before, Leads ⟨before, .content⟩ s ⟨before ++ ts, .content⟩

theorem Means.append {s t : List Char} {ts us : List Tag} (hs : Means s ts) (ht : Means t us) :
    Means (s ++ t) (ts ++ us) := by
  intro before
  rw [← List.append_assoc]
  exact (hs before).append (ht (before ++ ts))

/-- Lines mean what they mean one after another. -/
theorem means_lines {pieces : List (List Char)} {tss : List (List Tag)}
    (h : List.Forall₂ Means pieces tss) : Means (['\n'].intercalate pieces) tss.flatten := by
  have hfeed : Means ['\n'] [] := by
    intro before
    rw [List.append_nil]
    rfl
  -- A line break stands behind every line but the last.
  induction h with
  | nil =>
    intro before
    rw [List.flatten_nil, List.append_nil]
    rfl
  | @cons s ts pieces tss hs hrest ih =>
    cases hrest with
    | nil =>
      rw [List.intercalate_singleton, List.flatten_singleton]
      exact hs
    | cons ht hrest =>
      rw [List.intercalate_cons_of_ne_nil (List.cons_ne_nil _ _), List.flatten_cons]
      have hnext := (hs.append hfeed).append ih
      rwa [List.append_nil] at hnext

theorem tags?_of_means {s : List Char} {ts : List Tag} (h : Means s ts) : tags? s = some ts := by
  have hrun := h []
  rw [Leads, List.nil_append] at hrun
  rw [tags?, hrun]

/-! ### Names and attributes -/

/-- Characters that leave a reader where it is are collected there. -/
theorem leads_collected {p : List Char → Position} (ok : Char → Prop)
    (hp : ∀ tags read c, ok c → Reader.step ⟨tags, p read⟩ c = some ⟨tags, p (read ++ [c])⟩)
    {s : List Char} (h : ∀ c ∈ s, ok c) (tags : List Tag) (read : List Char) :
    Leads ⟨tags, p read⟩ s ⟨tags, p (read ++ s)⟩ := by
  induction s generalizing read with
  | nil =>
    rw [List.append_nil]
    rfl
  | cons c s ih =>
    have hrest := ih (fun d hd => h d (List.mem_cons_of_mem _ hd)) (read ++ [c])
    rw [List.append_assoc] at hrest
    exact .cons (hp tags read c (h c List.mem_cons_self)) hrest

/-- A text that can be a name. -/
def IsName (s : List Char) : Prop :=
  s ≠ [] ∧ ∀ c ∈ s, isNameChar c = true

-- The instance is named because all characters could be gone through as well.
instance (s : List Char) : Decidable (IsName s) :=
  have := List.decidableBAll (fun c => isNameChar c = true) s
  inferInstanceAs (Decidable (_ ∧ _))

/-- No character of a name ends the name. -/
theorem ne_of_isNameChar {c d : Char} (hc : isNameChar c = true) (hd : isNameChar d = false) :
    c ≠ d := by
  rintro rfl
  exact absurd hc (by rw [hd]; exact Bool.false_ne_true)

theorem isSpace_of_isNameChar {c : Char} (hc : isNameChar c = true) : isSpace c = false := by
  refine Bool.eq_false_iff.2 fun hblank => ?_
  simp only [isSpace, Bool.or_eq_true, beq_iff_eq] at hblank
  rcases hblank with ((rfl | rfl) | rfl) | rfl <;> exact absurd hc (by decide)

/-- A name is read from its first character on, which may stand at another place than the
characters behind it. -/
theorem leads_name {start : Position} {p : List Char → Position}
    (hstart : ∀ tags c, isNameChar c = true → Reader.step ⟨tags, start⟩ c = some ⟨tags, p [c]⟩)
    (hp : ∀ tags read c, isNameChar c = true →
      Reader.step ⟨tags, p read⟩ c = some ⟨tags, p (read ++ [c])⟩)
    {name : List Char} (h : IsName name) (tags : List Tag) :
    Leads ⟨tags, start⟩ name ⟨tags, p name⟩ := by
  obtain ⟨hsome, hname⟩ := h
  obtain ⟨c, cs, rfl⟩ := List.exists_cons_of_ne_nil hsome
  refine .cons (hstart tags c (hname c List.mem_cons_self)) ?_
  exact leads_collected (isNameChar · = true) hp
    (fun d hd => hname d (List.mem_cons_of_mem _ hd)) tags [c]

theorem leads_beginning {name : List Char} (h : IsName name) (tags : List Tag) :
    Leads ⟨tags, .content⟩ ('<' :: name) ⟨tags, .beginning name⟩ := by
  have hname : Leads ⟨tags, .bracket⟩ name ⟨tags, .beginning name⟩ := by
    refine leads_name ?_ ?_ h tags
    · intro tags c hc
      have hmark : c ≠ '?' := ne_of_isNameChar hc (by decide)
      have hslash : c ≠ '/' := ne_of_isNameChar hc (by decide)
      simp only [Reader.step, if_neg hmark, if_neg hslash, if_pos hc, Reader.moved]
    · intro tags read c hc
      simp only [Reader.step, if_pos hc, Reader.moved]
  exact .cons (q := ⟨tags, .bracket⟩) rfl hname

theorem means_closing {name : List Char} (h : IsName name) :
    Means ('<' :: '/' :: name ++ ['>']) [.closing (String.ofList name)] := by
  intro before
  have hname : Leads ⟨before, .ending []⟩ name ⟨before, .ending name⟩ := by
    refine leads_collected (isNameChar · = true) ?_ h.2 before []
    intro tags read c hc
    have hbracket : c ≠ '>' := ne_of_isNameChar hc (by decide)
    simp only [Reader.step, if_neg hbracket, if_pos hc, Reader.moved]
  have hopen : Leads ⟨before, .content⟩ ['<', '/'] ⟨before, .ending []⟩ := rfl
  exact (hopen.append hname).append rfl

/-- Behind the name or behind an attribute of an element that begins. -/
def AtElement (r : Reader) (e : Element) : Prop :=
  ∀ c, isNameChar c = false → r.step c = r.between e c

theorem atElement_beginning (tags : List Tag) (name : List Char) :
    AtElement ⟨tags, .beginning name⟩ ⟨String.ofList name, []⟩ := by
  intro c hc
  simp only [Reader.step, hc, Bool.false_eq_true, if_false]

theorem atElement_inside (tags : List Tag) (e : Element) : AtElement ⟨tags, .inside e⟩ e :=
  fun _ _ => rfl

/-- A text without quotes and brackets stands for a value. -/
structure Writes (raw value : List Char) : Prop where
  bare : ∀ c ∈ raw, c ≠ '"' ∧ c ≠ '<'
  value : value? raw = some value

/-- An attribute behind a space is read with its value. -/
theorem leads_attribute {r : Reader} {e : Element} {name raw value : List Char}
    (hr : AtElement r e) (hname : IsName name) (h : Writes raw value) :
    Leads r (' ' :: name ++ ['=', '"'] ++ raw ++ ['"'])
      ⟨r.tags, .inside (e.with (String.ofList name) (String.ofList value))⟩ := by
  have hspace : Leads r [' '] ⟨r.tags, .inside e⟩ := .cons (hr ' ' (by decide)) rfl
  have hspelled : Leads ⟨r.tags, .inside e⟩ name ⟨r.tags, .attribute e name⟩ := by
    refine leads_name ?_ ?_ hname r.tags
    · intro tags c hc
      have hblank : isSpace c = false := isSpace_of_isNameChar hc
      have hbracket : c ≠ '>' := ne_of_isNameChar hc (by decide)
      have hslash : c ≠ '/' := ne_of_isNameChar hc (by decide)
      simp only [Reader.step, Reader.between, hblank, Bool.false_eq_true, if_false,
        if_neg hbracket, if_neg hslash, if_pos hc, Reader.moved]
    · intro tags read c hc
      have hequals : c ≠ '=' := ne_of_isNameChar hc (by decide)
      simp only [Reader.step, if_neg hequals, if_pos hc, Reader.moved]
  have hquote : Leads ⟨r.tags, .attribute e name⟩ ['=', '"'] ⟨r.tags, .value e name '"' []⟩ :=
    rfl
  have hraw : Leads ⟨r.tags, .value e name '"' []⟩ raw ⟨r.tags, .value e name '"' raw⟩ := by
    refine leads_collected (fun c => c ≠ '"' ∧ c ≠ '<') ?_ h.bare r.tags []
    intro tags read c hc
    simp only [Reader.step, if_neg hc.1, if_neg hc.2, Reader.moved]
  have hend : Leads ⟨r.tags, .value e name '"' raw⟩ ['"']
      ⟨r.tags, .inside (e.with (String.ofList name) (String.ofList value))⟩ := by
    refine .cons ?_ rfl
    simp only [Reader.step, if_pos, h.value, Option.map_some, Reader.moved]
  exact (((hspace.append hspelled).append hquote).append hraw).append hend

/-! ### Nested elements -/

/-- The tags of elements that stand side by side. -/
def tagsOf : Forest Element → List Tag
  | .nil => []
  | .cons e .nil beside => .empty e :: tagsOf beside
  | .cons e below beside => .opening e :: (tagsOf below ++ .closing e.name :: tagsOf beside)

/-- The tags of one element stand in front of those of the elements beside it. -/
theorem tagsOf_cons (e : Element) (below beside : Forest Element) :
    tagsOf (.cons e below beside) = tagsOf (.cons e below .nil) ++ tagsOf beside := by
  cases below with
  | nil => rfl
  | cons first under others => simp [tagsOf]

/-- Tags of elements are read as these elements, beside what stands there already. -/
theorem run_tagsOf (f : Forest Element) (n : Nesting) :
    (tagsOf f).foldlM Nesting.step n = some ⟨f.trees.reverse ++ n.beside, n.around⟩ := by
  -- An element with others in it starts with nothing beside them; what stood beside itself
  -- waits on the rung until it ends.
  fun_induction tagsOf f generalizing n with
  | case1 => rfl
  | case2 e beside ih =>
    have hempty : n.step (.empty e) = some ⟨⟨e, .nil⟩ :: n.beside, n.around⟩ := rfl
    rw [List.foldlM_cons, hempty, Option.bind_eq_bind, Option.bind_some, ih, Forest.trees,
      List.reverse_cons, List.append_assoc]
    rfl
  | case3 e below beside hbelow ihbelow ihbeside =>
    have hopening : n.step (.opening e) = some ⟨[], ⟨n.beside, e⟩ :: n.around⟩ := rfl
    have hclosing : Nesting.step ⟨below.trees.reverse ++ [], ⟨n.beside, e⟩ :: n.around⟩
        (.closing e.name) = some ⟨⟨e, below⟩ :: n.beside, n.around⟩ := by
      simp [Nesting.step]
    rw [List.foldlM_cons, hopening, Option.bind_eq_bind, Option.bind_some, List.foldlM_append,
      ihbelow, Option.bind_eq_bind, Option.bind_some, List.foldlM_cons, hclosing,
      Option.bind_eq_bind, Option.bind_some, ihbeside, Forest.trees, List.reverse_cons,
      List.append_assoc]
    rfl

theorem element?_tagsOf (t : Tree Element) :
    element? (tagsOf (.cons t.root t.below .nil)) = some t := by
  rw [element?, run_tagsOf]
  rfl

theorem read?_of_means {text : String} {t : Tree Element}
    (h : Means text.toList (tagsOf (.cons t.root t.below .nil))) : read? text = some t := by
  rw [read?, tags?_of_means h, Option.bind_some, element?_tagsOf]

end IncludeTrace.Xml
