/-
Writing graphs to files.

A file that is opened for writing is emptied first.  So a graph is rendered before its file is
opened; but its text becomes bytes only afterwards, when the file is empty:

* `ExportFault`, `WriteFault` — why nothing was written, and why a file was left empty;
* `Encoder` — how the text of a graph becomes bytes;
* `writing` — a document in a chosen format, or in the one that the file name asks for,
  written step by step; a disk is left whether or not a step fails;
* `exporting` — the document of a tree, written where a path is given;
* `writeGraph`, `exportGraph` — the same where every text can be encoded.
-/
import IncludeTrace.Disk
import IncludeTrace.Graph.Format
import IncludeTrace.Text.Encoding

namespace IncludeTrace.Graph

/-- Why a graph was not written. -/
inductive ExportFault where
  | noTree
  | missingNode (id : String)
  | disk (fault : DiskFault) (path : Location)

/-- The fault in words; a missing node is shown by its id alone. -/
def ExportFault.message : ExportFault → String
  | noTree => "There is no include tree to save"
  | missingNode id => id
  | disk fault path => fault.message path

/-- Why writing breaks off: before any file is touched, or when a text cannot be encoded. -/
inductive WriteFault (ε : Type) where
  | refused (fault : ExportFault)
  | unencoded (fault : ε)

/-! ### Bytes -/

/-- How the text of a graph in a format becomes bytes. -/
abbrev Encoder (ε : Type) : Type :=
  Format → String → Except ε (List UInt8)

/-- The encoder for texts in which every character stands for itself. -/
def plainEncoder : Encoder Empty := fun _ text =>
  .ok (Text.Utf8.encode text.toList)

/-- Whether a format writes by its number what cannot be encoded, as XML and JSON do.  The number
is that of the character as it stands here, and not that of the byte for which it may stand. -/
def Format.escapes : Format → Bool
  | .dgml | .json => true
  | .dot | .mermaid => false

/-- The encoder for texts in which some characters stand in for bytes. -/
def encoderFor (standIns : Text.StandIns) : Encoder Text.EncodeFault := fun format text =>
  if format.escapes then .ok (Text.Utf8.encode text.toList)
  else Text.encode standIns text.toList

/-! ### Steps -/

variable {ε : Type}

/-- A computation on a disk that may break off; it leaves a disk in either case. -/
abbrev Writing (ε α : Type) : Type :=
  EStateM (WriteFault ε) Disk α

/-- The format in which a document is written. -/
def chosenFormat (format : Option Format) (path : Location) : Format :=
  format.getD (Format.ofSuffix path)

/-- The text of a document. -/
def rendering (d : Document) (format : Format) (title : Option String) : Writing ε String :=
  match d.render format title with
  | .ok text => return text
  | .error e => throw (.refused (.missingNode e.id))

/-- Opens a file for writing: from then on it is there, and empty. -/
def opening (path : Location) : Writing ε Place := do
  let disk ← get
  match disk.filePlace path with
  | .error fault => throw (.refused (.disk fault path))
  | .ok place =>
    set (disk.withBytes place [])
    return place

/-- The bytes of a text. -/
def encoding (encode : Encoder ε) (format : Format) (text : String) : Writing ε (List UInt8) :=
  match encode format text with
  | .ok bytes => return bytes
  | .error fault => throw (.unencoded fault)

/-- Puts bytes into a file that is open. -/
def filling (place : Place) (bytes : List UInt8) : Writing ε Unit :=
  modify fun disk => disk.withBytes place bytes

/-- Writes a document: the text is finished before the file is touched, but not its bytes. -/
def writing (encode : Encoder ε) (d : Document) (path : Location) (format : Option Format)
    (title : Option String) : Writing ε Unit := do
  let text ← rendering d (chosenFormat format path) title
  let place ← opening path
  let bytes ← encoding encode (chosenFormat format path) text
  filling place bytes

/-! ### Exports -/

/-- What comes of an export: the document or a fault, the disk that is left, and what was
noted. -/
structure Exported (ε : Type) where
  result : Except (WriteFault ε) Document
  disk : Disk
  journal : Journal

/-- What is noted about a written document. -/
def writeRemark (path : Location) (format : Option Format) : Journal :=
  [.log .info s!"Wrote {(chosenFormat format path).word} graph to {path.text}"]

/-- The document of a tree, which is written where a path is given. -/
def exporting (encode : Encoder ε) (disk : Disk) (tree : Option IncludeTree)
    (path : Option Location) (format : Option Format) (title : Option String) : Exported ε :=
  match tree with
  | none => ⟨.error (.refused .noTree), disk, []⟩
  | some tree =>
    let d := Document.ofForest tree.includes
    match path with
    | none => ⟨.ok d, disk, d.remark⟩
    | some path =>
      match (writing encode d path format title).run disk with
      | .ok _ after => ⟨.ok d, after, d.remark ++ writeRemark path format⟩
      | .error fault after => ⟨.error fault, after, d.remark⟩

/-- The disk with a document in a file, where every text can be encoded. -/
def writeGraph (disk : Disk) (d : Document) (path : Location) (format : Option Format)
    (title : Option String) : Except ExportFault Disk :=
  match (writing plainEncoder d path format title).run disk with
  | .ok _ after => .ok after
  | .error (.refused fault) _ => .error fault

/-- The document of a tree, the disk afterwards, and the journal, where every text can be
encoded. -/
def exportGraph (disk : Disk) (tree : Option IncludeTree) (path : Option Location)
    (format : Option Format) (title : Option String) :
    Except ExportFault (Document × Disk) × Journal :=
  let exported := exporting plainEncoder disk tree path format title
  match exported.result with
  | .ok d => (.ok (d, exported.disk), exported.journal)
  | .error (.refused fault) => (.error fault, exported.journal)

end IncludeTrace.Graph
