/-
What JSON output tells.

Every JSON value is read back from its text, so what is printed tells as much as the value.
What is left is that the value tells everything: a document by its nodes and links, and a tree
by an induction on its includes, where an object holds the objects of what stands below.  The
output channel takes every such text, because only ASCII is written:

* `Graph.Document.json_inj`, `IncludeTree.json_inj` — the values of documents and of trees;
* `Json.isAscii_textAt` — the characters of the text of a value;
* `Settings.PrintsJson` — a command line by which a tree is printed as JSON;
* `Settings.PrintsJson.tree_eq` — what is printed for different trees is different, also
  where the source file was left blank and shows as an empty list;
* `printed_json_read_back` — documents and trees are read back, and told apart, by what is
  printed.
-/
import IncludeTrace.Proofs.CommandOutcomes
import IncludeTrace.Proofs.JsonReading

namespace IncludeTrace

/-! ### Documents -/

namespace Graph.Document

theorem nodeJson_injective : Function.Injective nodeJson := by
  rintro ⟨id, label⟩ ⟨id', label'⟩ h
  simpa [nodeJson] using h

theorem linkJson_injective : Function.Injective linkJson := by
  rintro ⟨source, target⟩ ⟨source', target'⟩ h
  simpa [linkJson] using h

theorem json_inj {d e : Document} : d.json = e.json ↔ d = e := by
  obtain ⟨nodes, links⟩ := d
  obtain ⟨nodes', links'⟩ := e
  have hnodes : nodes.map nodeJson = nodes'.map nodeJson ↔ nodes = nodes' :=
    (List.map_injective_iff.2 nodeJson_injective).eq_iff
  have hlinks : links.map linkJson = links'.map linkJson ↔ links = links' :=
    (List.map_injective_iff.2 linkJson_injective).eq_iff
  simp [json, hnodes, hlinks]

end Graph.Document

/-! ### Trees -/

/-- A source file or none is told by its JSON value. -/
theorem Json.ofText?_inj {a b : Option String} : Json.ofText? a = Json.ofText? b ↔ a = b := by
  cases a <;> cases b <;> simp [Json.ofText?]

theorem Json.ofText?_ne_arr (a : Option String) (items : List Json) :
    Json.ofText? a ≠ .arr items := by
  cases a <;> exact nofun

theorem includesJson_inj {f g : Forest Include} : includesJson f = includesJson g ↔ f = g := by
  induction f generalizing g with
  | nil => cases g <;> simp [includesJson]
  | cons i below beside ihBelow ihBeside =>
    cases g with
    | nil => simp [includesJson]
    | cons j below' beside' =>
      have hinclude : i = j ↔ i.path = j.path ∧ i.name = j.name := by
        cases i
        cases j
        simp
      simp only [includesJson, List.cons.injEq, Json.obj.injEq, Prod.mk.injEq, Json.str.injEq,
        Json.arr.injEq, true_and, and_true, ihBelow, ihBeside, Forest.cons.injEq, hinclude,
        and_assoc]

namespace IncludeTree

variable {t u : IncludeTree} {a b : Json}

theorem jsonFrom_inj :
    t.jsonFrom a = u.jsonFrom b ↔ a = b ∧ t.count = u.count ∧ t.includes = u.includes := by
  simp [jsonFrom, includesJson_inj]

theorem json_inj : t.json = u.json ↔ t = u := by
  obtain ⟨includes, count, source⟩ := t
  obtain ⟨includes', count', source'⟩ := u
  rw [json, json, jsonFrom_inj, Json.ofText?_inj]
  simp only [IncludeTree.mk.injEq]
  tauto

end IncludeTree

/-! ### Characters -/

namespace Json

open Text (IsAscii isAscii_nil isAscii_cons isAscii_append)

theorem toNat_lt_of_isWordChar {c : Char} (h : isWordChar c = true) : c.toNat < 128 := by
  delta isWordChar Char.isAlphanum Char.isAlpha Char.isUpper Char.isLower Char.isDigit at h
  simp only [Bool.or_eq_true, Bool.and_eq_true, decide_eq_true_eq, beq_iff_eq, ge_iff_le,
    UInt32.le_iff_toNat_le] at h
  obtain ((((⟨-, h⟩ | ⟨-, h⟩) | ⟨-, h⟩) | rfl) | rfl) | rfl := h
  · exact Nat.lt_of_le_of_lt h (by decide)
  · exact Nat.lt_of_le_of_lt h (by decide)
  · exact Nat.lt_of_le_of_lt h (by decide)
  · decide
  · decide
  · decide

theorem isAscii_hexDigits (width n : Nat) : IsAscii (Text.hexDigits width n) := by
  have hdigit : ∀ d : Fin 16, (Nat.digitChar d).toNat < 128 := by decide
  induction width generalizing n with
  | zero => exact isAscii_nil
  | succ width ih =>
    rw [Text.hexDigits, isAscii_append, isAscii_cons]
    exact ⟨ih _, hdigit ⟨n % 16, Nat.mod_lt _ (by decide)⟩, isAscii_nil⟩

theorem isAscii_unitEscape (n : Nat) : IsAscii (unitEscape n) := by
  rw [unitEscape, isAscii_cons, isAscii_cons]
  exact ⟨by decide, by decide, isAscii_hexDigits 4 n⟩

/-- Whatever a character is, it is written in ASCII. -/
theorem isAscii_escapeChar (c : Char) : IsAscii (escapeChar c) := by
  rw [escapeChar]
  split_ifs with _ _ _ _ _ _ _ hplain hsmall
  any_goals decide
  · rw [isAscii_cons]
    exact ⟨by omega, isAscii_nil⟩
  · exact isAscii_unitEscape _
  · exact isAscii_append.2 ⟨isAscii_unitEscape _, isAscii_unitEscape _⟩

theorem isAscii_quoted (s : List Char) : IsAscii (quoted s) := by
  have hescaped : IsAscii (s.flatMap escapeChar) := fun c hc => by
    obtain ⟨d, -, hd⟩ := List.mem_flatMap.1 hc
    exact isAscii_escapeChar d c hd
  rw [quoted]
  simpa using hescaped

theorem isAscii_newLine (indent : Nat) : IsAscii (newLine indent) := by
  have hblanks : IsAscii (List.replicate indent ' ') := fun c hc => by
    rw [List.eq_of_mem_replicate hc]
    decide
  rw [newLine]
  simpa using hblanks

mutual

/-- Every value is written in ASCII. -/
theorem isAscii_textAt (indent : Nat) : ∀ j, IsAscii (textAt indent j)
  | .null | .bool true | .bool false | .arr [] | .obj [] => by
    rw [textAt]
    decide
  -- A number is written in characters of words, as are the constants, and those are few.
  | .int n => by
    rw [textAt]
    exact fun c hc => toNat_lt_of_isWordChar ((isWord_toString n).chars c hc)
  | .str s => by
    rw [textAt]
    exact isAscii_quoted _
  | .arr (item :: items) => by
    have hitem := isAscii_textAt (indent + 2) item
    have hitems := isAscii_moreItems (indent + 2) items
    rw [textAt]
    simp [isAscii_newLine, hitem, hitems]
  | .obj ((key, value) :: members) => by
    have hvalue := isAscii_textAt (indent + 2) value
    have hmembers := isAscii_moreMembers (indent + 2) members
    rw [textAt]
    simp [isAscii_newLine, isAscii_quoted, hvalue, hmembers]

theorem isAscii_moreItems (indent : Nat) : ∀ items, IsAscii (moreItems indent items)
  | [] => isAscii_nil
  | item :: items => by
    have hitem := isAscii_textAt indent item
    have hitems := isAscii_moreItems indent items
    rw [moreItems]
    simp [isAscii_newLine, hitem, hitems]

theorem isAscii_moreMembers (indent : Nat) : ∀ members, IsAscii (moreMembers indent members)
  | [] => isAscii_nil
  | (key, value) :: members => by
    have hvalue := isAscii_textAt indent value
    have hmembers := isAscii_moreMembers indent members
    rw [moreMembers]
    simp [isAscii_newLine, isAscii_quoted, hvalue, hmembers]

end

end Json

/-! ### What is printed -/

namespace Settings

variable {x y : Settings} {t u : IncludeTree}

/-- A command line prints a tree as JSON. -/
structure PrintsJson (x : Settings) (s : Surroundings) (args : List String) (t : IncludeTree) :
    Prop where
  reads : readCommandLine args = .ok (.tree, x)
  json : x.json = true
  obtains : x.Obtains s t

/-- A source file that was left blank shows as an empty list, and every other one as it is. -/
theorem treeJson_cases (x : Settings) (t : IncludeTree) :
    (x.compileFile = none ∧ x.source = some none ∧ x.treeJson t = t.jsonFrom (.arr [])) ∨
      x.treeJson t = t.json := by
  rw [treeJson]
  split
  · next hfile hsource => exact .inl ⟨hfile, hsource, rfl⟩
  · exact .inr rfl

variable {s s' : Surroundings} {args args' : List String}

theorem PrintsJson.output (h : x.PrintsJson s args t) :
    (respond s args).output = (x.treeJson t).text ++ "\n" := by
  have htexts : x.treeTexts t = [(x.treeJson t).text] := by rw [treeTexts, h.json, if_pos rfl]
  have htaken : s.output.objection (x.treeJson t).text = none := by
    refine s.output.ascii _ ?_
    rw [Json.text, String.toList_ofList]
    exact Json.isAscii_textAt 0 _
  rw [respond, h.reads]
  change (x.showTree s).output = _
  rw [showTree_eq_printing h.obtains, htexts, printing_of_taken _ htaken]

theorem PrintsJson.read? (h : x.PrintsJson s args t) :
    Json.read? (respond s args).output = some (x.treeJson t) := by
  rw [h.output]
  exact Json.read?_text_append _ "\n" (List.all_eq_true.1 (by decide))

/-- What is printed tells the tree. -/
theorem PrintsJson.tree_eq (ht : x.PrintsJson s args t) (hu : y.PrintsJson s' args' u)
    (h : (respond s args).output = (respond s' args').output) : t = u := by
  have hjson : x.treeJson t = y.treeJson u := by
    have hread := ht.read?
    rw [h, hu.read?, Option.some.injEq] at hread
    exact hread.symm
  obtain ⟨hfile, hblank, hx⟩ | hx := x.treeJson_cases t
  · obtain ⟨hfile', hblank', hy⟩ | hy := y.treeJson_cases u
    · -- Neither tree has a source file, because none was named.
      have hsource : t.source = u.source := by
        rw [source_of_obtains hfile ht.obtains, source_of_obtains hfile' hu.obtains, hblank,
          hblank']
      rw [hx, hy] at hjson
      refine IncludeTree.json_inj.1 (IncludeTree.jsonFrom_inj.2 ⟨?_, ?_⟩)
      · rw [hsource]
      · exact (IncludeTree.jsonFrom_inj.1 hjson).2
    · -- One tree is written with the list of what was not named, the other with a text or nothing.
      rw [hx, hy, IncludeTree.json] at hjson
      exact absurd (IncludeTree.jsonFrom_inj.1 hjson).1.symm (Json.ofText?_ne_arr _ _)
  · obtain ⟨-, -, hy⟩ | hy := y.treeJson_cases u
    · rw [hx, hy, IncludeTree.json] at hjson
      exact absurd (IncludeTree.jsonFrom_inj.1 hjson).1 (Json.ofText?_ne_arr _ _)
    · rw [hx, hy] at hjson
      exact IncludeTree.json_inj.1 hjson

end Settings

/-- **What is printed as JSON is read back.**  A document and a tree are what is read from their
texts, so different documents have different texts, and so have different trees, whatever stands
in their paths and names and wherever they are printed. -/
theorem printed_json_read_back :
    (∀ (d : Graph.Document) (title : Option String),
      ∃ text, d.render .json title = .ok text ∧ Json.read? text = some d.json) ∧
    (∀ (d e : Graph.Document) (title other : Option String),
      d.render .json title = e.render .json other ↔ d = e) ∧
    (∀ (x : Settings) (s : Surroundings) (args : List String) (t : IncludeTree),
      x.PrintsJson s args t → Json.read? (respond s args).output = some (x.treeJson t)) ∧
    (∀ (x y : Settings) (s s' : Surroundings) (args args' : List String) (t u : IncludeTree),
      x.PrintsJson s args t → y.PrintsJson s' args' u →
        (respond s args).output = (respond s' args').output → t = u) ∧
    (∀ t : IncludeTree, Json.read? t.json.text = some t.json) ∧
    ∀ t u : IncludeTree, t.json.text = u.json.text ↔ t = u := by
  refine ⟨fun d title => ⟨_, rfl, Json.read?_text _⟩, fun d e title other => ?_,
    fun x s args t h => h.read?, fun x y s s' args args' t u ht hu => ht.tree_eq hu,
    fun t => Json.read?_text _, fun t u => Json.text_inj.trans IncludeTree.json_inj⟩
  change Except.ok d.json.text = Except.ok e.json.text ↔ _
  rw [Except.ok.injEq, Json.text_inj, Graph.Document.json_inj]

/-- A tree from the input channel is read back from what is printed. -/
theorem printed_json_read_back_input :
    let x : Settings := { trace := some "-", dialect := some .gcc, json := true }
    let s := { Surroundings.bare with input := ". a.h\n" }
    let args := ["tree", "-", "--json", "--dialect", "gcc"]
    let t : IncludeTree := ⟨.cons ⟨"a.h", "a.h"⟩ .nil .nil, 1, none⟩
    x.PrintsJson s args t ∧ Json.read? (respond s args).output = some (x.treeJson t) := by
  intro x s args t
  have hprints : x.PrintsJson s args t := ⟨rfl, rfl, Settings.load_eq_some_iff.1 rfl⟩
  obtain ⟨-, -, htree, -⟩ := printed_json_read_back
  exact ⟨hprints, htree x s args t hprints⟩

end IncludeTrace
