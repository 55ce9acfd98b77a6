/-
Graphs in files.

A path leads to one place or to none.  Where no directory stands at that place, a graph whose text
can be encoded is written to it in full, and nothing else changes; where it cannot be encoded, the
file is left empty; else nothing changes at all:

* `Location.Clean` — paths without a null character, which no disk can be asked about;
* `Disk.find_eq_tooLong_of_parent` — what is too long for the way to a file is too long for
  the file;
* `Disk.WritesAt`, `Disk.Rewritten` — where a path can be written to, and what that changes;
* `Document.exists_render_ofForest` — the graph of a forest is written in every format,
  because its links lead from nodes to nodes;
* `Encodable`, `encoderFor_of_encodable` — the texts that become bytes;
* `run_writing_of_encoded`, `run_writing_of_unencoded` — the steps of writing, one after another;
* `exportGraph_of_writesAt`, `exportGraph_of_not_writesAt` — what becomes of the graph of a tree.
-/
import IncludeTrace.Graph.Export
import IncludeTrace.Proofs.DocumentForest
import IncludeTrace.Proofs.NormalForm

namespace IncludeTrace

/-! ### Paths -/

namespace Flavour

/-- Segments behind others only make a written path longer. -/
theorem joined_prefix_append (flavour : Flavour) (segments others : List String) :
    (flavour.joined segments).toList <+: (flavour.joined (segments ++ others)).toList := by
  -- A separator stands only between segments, so the last of the front needs a case of its own.
  induction segments with
  | nil => exact List.nil_prefix
  | cons first segments ih =>
    by_cases hsegments : segments = []
    · subst hsegments
      by_cases hothers : others = []
      · subst hothers
        simp
      · have hfirst : (flavour.joined [first]).toList = first.toList := by
          rw [toList_joined, List.map_singleton, List.intercalate_singleton]
        rw [hfirst, List.singleton_append, joined_cons _ _ hothers]
        exact List.prefix_append _ _
    · have happend : segments ++ others ≠ [] := fun h => hsegments (List.append_eq_nil_iff.1 h).1
      rw [List.cons_append, joined_cons _ _ hsegments, joined_cons _ _ happend]
      exact (List.prefix_append_right_inj _).2 ((List.prefix_cons_inj _).2 ih)

end Flavour

namespace Location

/-- No null character stands in a path. -/
structure Clean (l : Location) : Prop where
  anchor : '\x00' ∉ l.anchor.toList
  segments : ∀ s ∈ l.segments, '\x00' ∉ s.toList

theorem Clean.text {l : Location} (h : l.Clean) : '\x00' ∉ l.text.toList := by
  intro hnull
  rw [Location.text] at hnull
  split at hnull
  · exact absurd hnull (by decide)
  · rw [String.toList_append, List.mem_append] at hnull
    rcases hnull with hanchor | hjoined
    · exact h.anchor hanchor
    · rcases Flavour.mem_joined hjoined with hseparator | ⟨s, hs, hmem⟩
      · cases hflavour : l.flavour with
        | posix => exact absurd (hflavour ▸ hseparator) (by decide)
        | windows => exact absurd (hflavour ▸ hseparator) (by decide)
      · exact h.segments s hs hmem

theorem clean_spelled {path : String} (h : '\x00' ∉ path.toList) : (spelled path).Clean := by
  refine ⟨?_, fun s hs hnull => ?_⟩
  · change '\x00' ∉ (posixAnchor path.toList).toList
    rw [posixAnchor]
    split
    · decide
    · decide
    · decide
  · have hpiece := (List.mem_filter.1 hs).1
    exact h (Flavour.mem_of_mem_pieces hpiece hnull)

/-- A name stands for itself. -/
theorem spelled_of_name {name : String} (hsome : name ≠ "") (hdot : name ≠ ".")
    (hslash : '/' ∉ name.toList) : spelled name = ⟨.posix, "", [name]⟩ := by
  have hanchor : posixAnchor name.toList = "" := by
    have hnone : name.toList.takeWhile (· == '/') = [] := by
      cases hlist : name.toList with
      | nil => rfl
      | cons c s =>
        rw [hlist, List.mem_cons, not_or] at hslash
        exact List.takeWhile_cons_of_neg (by simpa using Ne.symm hslash.1)
    rw [posixAnchor, hnone]
    rfl
  have hpieces : Flavour.posix.pieces name.toList = [name] := by
    rw [Flavour.pieces, Flavour.separator, List.splitOn_eq_singleton hslash, List.map_singleton,
      String.ofList_toList]
  rw [spelled, hanchor, hpieces]
  simp [hsome, hdot]

end Location

namespace Disk

variable {d e : Disk} {path : Location} {place : Place}

theorem follow_append (d : Disk) (place : Place) (segments others : List String) :
    d.follow place (segments ++ others)
      = (d.follow place segments).bind fun reached => d.follow reached others := by
  induction segments generalizing place with
  | nil => rfl
  | cons segment segments ih =>
    rw [List.cons_append, follow, follow]
    split
    · split
      · rfl
      · exact ih _
    · rfl
    · rfl

theorem follow_ne_nullCharacter (d : Disk) (place : Place) (segments : List String) :
    d.follow place segments ≠ .error .nullCharacter := by
  induction segments generalizing place with
  | nil => exact nofun
  | cons segment segments ih =>
    rw [follow]
    split
    · split
      · exact nofun
      · exact ih _
    · exact nofun
    · exact nofun

theorem find_ne_nullCharacter (d : Disk) (h : '\x00' ∉ path.text.toList) :
    d.find path ≠ .error .nullCharacter := by
  have hcontains : ¬ path.text.toList.contains '\x00' = true := by simpa using h
  rw [find, if_neg hcontains]
  split
  · exact nofun
  · exact follow_ne_nullCharacter _ _ _

theorem byteCount_le_of_prefix {s t : String} (h : s.toList <+: t.toList) :
    byteCount s ≤ byteCount t := by
  obtain ⟨rest, hrest⟩ := h
  rw [byteCount, byteCount, ← hrest, Text.Utf8.encode, Text.Utf8.encode, List.flatMap_append,
    List.length_append]
  exact Nat.le_add_right _ _

/-- The way to a file has no more bytes than the file's path, unless it is all dots. -/
theorem byteCount_parent_le (h : ¬ (path.anchor = "" ∧ path.segments.dropLast = [])) :
    byteCount path.parent.text ≤ byteCount path.text := by
  obtain ⟨last, hlast⟩ := List.dropLast_prefix path.segments
  have hsome : ¬ (path.anchor = "" ∧ path.segments = []) := fun hbare =>
    h ⟨hbare.1, by rw [hbare.2, List.dropLast_nil]⟩
  have hjoined := path.flavour.joined_prefix_append path.segments.dropLast last
  rw [hlast] at hjoined
  apply byteCount_le_of_prefix
  rw [Location.text, Location.text, Location.parent, if_neg h, if_neg hsome,
    String.toList_append, String.toList_append]
  exact (List.prefix_append_right_inj _).2 hjoined

/-- What is too long for the way to a file is too long for the file. -/
theorem find_eq_tooLong_of_parent (hclean : path.Clean)
    (h : d.find path.parent = .error .tooLong) : d.find path = .error .tooLong := by
  have hparent : path.parent.Clean :=
    ⟨hclean.anchor, fun s hs => hclean.segments s (List.dropLast_subset _ hs)⟩
  have hcontains : ¬ path.text.toList.contains '\x00' = true := by simpa using hclean.text
  have hcontains' : ¬ path.parent.text.toList.contains '\x00' = true := by
    simpa using hparent.text
  rw [find, if_neg hcontains'] at h
  rw [find, if_neg hcontains]
  by_cases hbare : path.anchor = "" ∧ path.segments.dropLast = []
  · -- The way to the file is the directory in which paths start.
    have hdot : path.parent.text = "." := by
      rw [Location.text, Location.parent, if_pos hbare]
    rw [hdot, if_neg (by decide), Location.parent, hbare.2] at h
    cases h
  · split
    · rfl
    · next hlong =>
      have hshort : ¬ longestPath < byteCount path.parent.text := fun hparentLong =>
        hlong (Nat.lt_of_lt_of_le hparentLong (byteCount_parent_le hbare))
      obtain ⟨last, hlast⟩ := List.dropLast_prefix path.segments
      rw [if_neg hshort, Location.parent] at h
      rw [← hlast, follow_append, h]
      rfl

/-- A first name that is too long leads nowhere. -/
theorem find_eq_tooLong_of_name {name : String} {rest : List String} (hclean : path.Clean)
    (hsegments : path.segments = name :: rest) (hlong : longestName < byteCount name)
    (hstart : d.at? (if path.anchor = "" then d.here else []) = some .directory) :
    d.find path = .error .tooLong := by
  have hcontains : ¬ path.text.toList.contains '\x00' = true := by simpa using hclean.text
  rw [find, if_neg hcontains]
  split
  · rfl
  · rw [hsegments, follow, hstart]
    dsimp only
    rw [if_pos hlong]

theorem look_eq_error (h : d.find path = .error .tooLong) : d.look path = .error .tooLong := by
  rw [look, h]

/-- Looking fails only where a path is too long. -/
theorem exists_look (h : d.find path ≠ .error .tooLong) : ∃ x, d.look path = .ok x := by
  rw [look]
  split
  · exact ⟨_, rfl⟩
  · next hlong => exact absurd hlong h
  · exact ⟨_, rfl⟩

/-! ### Writing -/

/-- A path leads to a place at which no directory stands. -/
def WritesAt (d : Disk) (path : Location) (place : Place) : Prop :=
  d.find path = .ok place ∧ d.at? place ≠ some .directory

/-- One file is new or has other bytes, and all else is as it was. -/
structure Rewritten (d e : Disk) (place : Place) (bytes : List UInt8) : Prop where
  here : e.here = d.here
  homes : e.homes = d.homes
  file : e.at? place = some (.file bytes)
  others : ∀ other, other ≠ place → e.at? other = d.at? other

theorem filePlace_eq_ok_iff : d.filePlace path = .ok place ↔ d.WritesAt path place := by
  rw [filePlace, WritesAt]
  cases d.find path with
  | error fault => exact iff_of_false nofun fun h => nomatch h.1
  | ok found =>
    dsimp only [bind, Except.bind]
    split
    · next hdirectory =>
      refine iff_of_false nofun fun ⟨hfound, hfile⟩ => hfile ?_
      rw [← Except.ok.inj hfound, hdirectory]
    · next hfile =>
      refine ⟨fun h => ⟨h, ?_⟩, fun h => h.1⟩
      rwa [← Except.ok.inj h]

/-- Where a path leads to no file, it is only a null character that no disk is asked about. -/
theorem exists_filePlace_eq_error (h : ∀ place, ¬ d.WritesAt path place) :
    ∃ fault, d.filePlace path = .error fault ∧
      (fault = .nullCharacter → '\x00' ∈ path.text.toList) := by
  cases hplace : d.filePlace path with
  | ok place => exact absurd (filePlace_eq_ok_iff.1 hplace) (h place)
  | error fault =>
    refine ⟨fault, rfl, fun hfault => ?_⟩
    -- `filePlace` adds no such fault of its own: it would come from looking for the path.
    by_contra hclean
    rw [hfault, filePlace] at hplace
    cases hfind : d.find path with
    | error other =>
      rw [hfind] at hplace
      exact d.find_ne_nullCharacter hclean (hfind.trans hplace)
    | ok place =>
      rw [hfind] at hplace
      dsimp only [bind, Except.bind] at hplace
      split at hplace <;> cases hplace

theorem WritesAt.unique {other : Place} (h : d.WritesAt path place) (h' : d.WritesAt path other) :
    place = other :=
  Except.ok.inj (h.1.symm.trans h'.1)

theorem rewritten_withBytes (h : d.WritesAt path place) (bytes : List UInt8) :
    d.Rewritten (d.withBytes place bytes) place bytes := by
  have hplace : place ≠ [] := fun hroot => h.2 (by rw [hroot, at?, if_pos rfl])
  refine ⟨rfl, rfl, ?_, fun other hother => ?_⟩
  · rw [at?, if_neg hplace]
    exact lookup_put_self _ _ _
  · rw [at?, at?]
    split
    · rfl
    · exact lookup_put_of_ne hother _ _

/-- What is put at a place covers what was put there before. -/
theorem put_put (place : Place) (s t : Stored) (l : List (Place × Stored)) :
    put place t (put place s l) = put place t l := by
  induction l with
  | nil => simp [put]
  | cons entry rest ih =>
    obtain ⟨p, old⟩ := entry
    by_cases h : p = place
    · simp [put, h]
    · simp [put, h, ih]

theorem withBytes_withBytes (d : Disk) (place : Place) (bytes others : List UInt8) :
    (d.withBytes place bytes).withBytes place others = d.withBytes place others := by
  rw [withBytes, withBytes, withBytes, put_put]

end Disk

/-! ### Graphs -/

namespace Graph

namespace Mermaid

variable {nodes : List Node}

theorem isSome_number? {id : String} (h : id ∈ nodes.map Node.id) (start : Nat) :
    (number? id start nodes).isSome = true := by
  induction nodes generalizing start with
  | nil => exact absurd h List.not_mem_nil
  | cons n nodes ih =>
    rw [number?, Option.isSome_or, Bool.or_eq_true]
    rw [List.map_cons, List.mem_cons] at h
    rcases h with rfl | h
    · exact Or.inr (by rw [if_pos rfl]; rfl)
    · exact Or.inl (ih h _)

theorem exists_endpoint {id : String} (h : id ∈ nodes.map Node.id) :
    ∃ number, endpoint nodes id = .ok number := by
  obtain ⟨number, hnumber⟩ := Option.isSome_iff_exists.1 (isSome_number? h 0)
  exact ⟨number, by rw [endpoint, hnumber]⟩

theorem exists_linkLines {links : List Link}
    (h : ∀ l ∈ links, l.source ∈ nodes.map Node.id ∧ l.target ∈ nodes.map Node.id) :
    ∃ lines, linkLines nodes links = .ok lines := by
  induction links with
  | nil => exact ⟨[], rfl⟩
  | cons l links ih =>
    obtain ⟨hsource, htarget⟩ := h l List.mem_cons_self
    obtain ⟨source, hs⟩ := exists_endpoint hsource
    obtain ⟨target, ht⟩ := exists_endpoint htarget
    obtain ⟨lines, hlines⟩ := ih fun m hm => h m (List.mem_cons_of_mem _ hm)
    have hline : linkLine nodes l
        = .ok ("    " ++ nodeName source ++ " --> " ++ nodeName target) := by
      rw [linkLine, hs, ht]
      rfl
    exact ⟨_ :: lines, by rw [linkLines, hline, hlines]; rfl⟩

end Mermaid

namespace Document

/-- A document whose links lead from nodes to nodes can be written in every format. -/
theorem exists_render {d : Document} (h : ∀ l ∈ d.links, l.source ∈ d.ids ∧ l.target ∈ d.ids)
    (format : Format) (title : Option String) : ∃ text, d.render format title = .ok text := by
  cases format with
  | dgml => exact ⟨_, rfl⟩
  | dot => exact ⟨_, rfl⟩
  | mermaid =>
    obtain ⟨lines, hlines⟩ := Mermaid.exists_linkLines h
    exact ⟨_, by rw [render, Mermaid.text, hlines]; rfl⟩
  | json => exact ⟨_, rfl⟩

theorem exists_render_ofForest (f : Forest Include) (format : Format) (title : Option String) :
    ∃ text, (ofForest f).render format title = .ok text := by
  refine exists_render (fun l hl => ?_) format title
  have hforward := (grown_ofForest f).forward l hl
  exact ⟨hforward.subset (by simp), hforward.subset (by simp)⟩

end Document

/-! ### Bytes -/

/-- A text can be written in a format: what cannot be encoded is written by its number, or
everything in the text can be encoded. -/
def Encodable (standIns : Text.StandIns) (format : Format) (text : String) : Prop :=
  format.escapes = true ∨ ∀ c ∈ text.toList, standIns c = none

theorem dropWhile_isOwn_eq_nil_iff {standIns : Text.StandIns} {s : List Char} :
    s.dropWhile (Text.isOwn standIns) = [] ↔ ∀ c ∈ s, standIns c = none := by
  rw [List.dropWhile_eq_nil_iff]
  simp only [Text.isOwn, Option.isNone_iff_eq_none]

theorem encoderFor_of_encodable {standIns : Text.StandIns} {format : Format} {text : String}
    (h : Encodable standIns format text) :
    encoderFor standIns format text = .ok (Text.Utf8.encode text.toList) := by
  rw [encoderFor]
  split
  · rfl
  · next hescapes =>
    have hown := dropWhile_isOwn_eq_nil_iff.2 (h.resolve_left hescapes)
    simp only [Text.encode, hown]

theorem encoderFor_of_not_encodable {standIns : Text.StandIns} {format : Format} {text : String}
    (h : ¬ Encodable standIns format text) :
    ∃ fault, encoderFor standIns format text = .error fault := by
  rw [Encodable, not_or, ← dropWhile_isOwn_eq_nil_iff] at h
  obtain ⟨c, rest, hrest⟩ := List.exists_cons_of_ne_nil h.2
  rw [encoderFor, if_neg h.1]
  simp only [Text.encode, hrest]
  exact ⟨_, rfl⟩

variable {disk : Disk} {path : Location} {place : Place}

theorem chosenFormat_none (path : Location) : chosenFormat none path = Format.ofSuffix path := by
  rw [chosenFormat, Option.getD_none]

theorem chosenFormat_some (format : Format) (path : Location) :
    chosenFormat (some format) path = format := rfl

/-! ### The steps of writing -/

section Steps

variable {ε : Type} {encode : Encoder ε} {d : Document} {format : Option Format}
  {title : Option String} {text : String}

theorem run_rendering (h : d.render (chosenFormat format path) title = .ok text) :
    (rendering d (chosenFormat format path) title : Writing ε String).run disk = .ok text disk := by
  rw [rendering, h]
  rfl

theorem run_opening (h : disk.WritesAt path place) :
    (opening path : Writing ε Place).run disk = .ok place (disk.withBytes place []) := by
  simp only [opening, EStateM.run_bind, EStateM.run_get, Disk.filePlace_eq_ok_iff.2 h]
  rfl

theorem run_opening_of_error {fault : DiskFault} (h : disk.filePlace path = .error fault) :
    (opening path : Writing ε Place).run disk = .error (.refused (.disk fault path)) disk := by
  simp only [opening, EStateM.run_bind, EStateM.run_get, h]
  rfl

theorem run_writing_of_refused {fault : DiskFault}
    (htext : d.render (chosenFormat format path) title = .ok text)
    (h : disk.filePlace path = .error fault) :
    (writing encode d path format title).run disk
      = .error (.refused (.disk fault path)) disk := by
  rw [writing, EStateM.run_bind, run_rendering htext]
  dsimp only
  rw [EStateM.run_bind, run_opening_of_error h]

/-- What is written covers that the file was emptied. -/
theorem run_writing_of_encoded {bytes : List UInt8}
    (htext : d.render (chosenFormat format path) title = .ok text)
    (h : disk.WritesAt path place) (hbytes : encode (chosenFormat format path) text = .ok bytes) :
    (writing encode d path format title).run disk = .ok () (disk.withBytes place bytes) := by
  rw [writing, EStateM.run_bind, run_rendering htext]
  dsimp only
  rw [EStateM.run_bind, run_opening h]
  dsimp only
  rw [EStateM.run_bind, encoding, hbytes]
  exact congrArg (EStateM.Result.ok ()) (Disk.withBytes_withBytes disk place [] bytes)

/-- The file stays as it was opened where the text does not become bytes. -/
theorem run_writing_of_unencoded {fault : ε}
    (htext : d.render (chosenFormat format path) title = .ok text)
    (h : disk.WritesAt path place)
    (hbytes : encode (chosenFormat format path) text = .error fault) :
    (writing encode d path format title).run disk
      = .error (.unencoded fault) (disk.withBytes place []) := by
  rw [writing, EStateM.run_bind, run_rendering htext]
  dsimp only
  rw [EStateM.run_bind, run_opening h]
  dsimp only
  rw [EStateM.run_bind, encoding, hbytes]
  rfl

/-! ### Exports -/

variable (t : IncludeTree)

theorem exporting_of_encoded {bytes : List UInt8}
    (htext : (Document.ofForest t.includes).render (chosenFormat format path) title = .ok text)
    (h : disk.WritesAt path place) (hbytes : encode (chosenFormat format path) text = .ok bytes) :
    exporting encode disk (some t) (some path) format title
      = ⟨.ok (Document.ofForest t.includes), disk.withBytes place bytes,
          (Document.ofForest t.includes).remark ++ writeRemark path format⟩ := by
  simp only [exporting, run_writing_of_encoded htext h hbytes]

theorem exporting_of_unencoded {fault : ε}
    (htext : (Document.ofForest t.includes).render (chosenFormat format path) title = .ok text)
    (h : disk.WritesAt path place)
    (hbytes : encode (chosenFormat format path) text = .error fault) :
    exporting encode disk (some t) (some path) format title
      = ⟨.error (.unencoded fault), disk.withBytes place [],
          (Document.ofForest t.includes).remark⟩ := by
  simp only [exporting, run_writing_of_unencoded htext h hbytes]

/-- A graph that cannot be written anywhere is still one that can be rendered. -/
theorem exporting_of_refused {fault : DiskFault} (h : disk.filePlace path = .error fault) :
    exporting encode disk (some t) (some path) format title
      = ⟨.error (.refused (.disk fault path)), disk, (Document.ofForest t.includes).remark⟩ := by
  obtain ⟨text, htext⟩ :=
    Document.exists_render_ofForest t.includes (chosenFormat format path) title
  simp only [exporting, run_writing_of_refused htext h]

end Steps

/-- The graph of a tree is written in full to the place that the path leads to. -/
theorem exportGraph_of_writesAt (t : IncludeTree) (format : Option Format)
    (title : Option String) (h : disk.WritesAt path place) :
    ∃ text after,
      (Document.ofForest t.includes).render (chosenFormat format path) title = .ok text ∧
      (exportGraph disk (some t) (some path) format title).1
        = .ok (Document.ofForest t.includes, after) ∧
      disk.Rewritten after place (Text.Utf8.encode text.toList) := by
  obtain ⟨text, htext⟩ :=
    Document.exists_render_ofForest t.includes (chosenFormat format path) title
  have hbytes : plainEncoder (chosenFormat format path) text
      = .ok (Text.Utf8.encode text.toList) := rfl
  refine ⟨text, _, htext, ?_, Disk.rewritten_withBytes h _⟩
  simp only [exportGraph, exporting_of_encoded t htext h hbytes]

/-- Where nothing can be written, the disk is at fault, and not the graph. -/
theorem exportGraph_of_not_writesAt (t : IncludeTree) (format : Option Format)
    (title : Option String) (h : ∀ place, ¬ disk.WritesAt path place) :
    ∃ fault, (exportGraph disk (some t) (some path) format title).1 = .error (.disk fault path) ∧
      (fault = .nullCharacter → '\x00' ∈ path.text.toList) := by
  obtain ⟨fault, hfault, hnull⟩ := Disk.exists_filePlace_eq_error h
  refine ⟨fault, ?_, hnull⟩
  simp only [exportGraph, exporting_of_refused t hfault]

end Graph

end IncludeTrace
