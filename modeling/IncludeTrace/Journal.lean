/-
Journals: what is noted, started and said while an operation runs, in order.

* `Journal.logged` — the log lines;
* `Journal.started` — the commands that were run;
* `Journal.spoken` — the text on the error channel, where the log lines of a
  chosen severity stand between the messages to the user.
-/
import IncludeTrace.Compiler.Invocation

namespace IncludeTrace

/-- How much a log line matters. -/
inductive Severity where
  | debug
  | info
  | warning
  | error
  deriving DecidableEq, Repr

namespace Severity

/-- The word that stands for a severity. -/
def word : Severity → String
  | debug => "DEBUG"
  | info => "INFO"
  | warning => "WARNING"
  | error => "ERROR"

/-- The place of a severity among the others. -/
def rank : Severity → Nat
  | debug => 0
  | info => 1
  | warning => 2
  | error => 3

end Severity

/-- One thing that happened. -/
inductive JournalEntry where
  | log (severity : Severity) (message : String)
  | start (invocation : Invocation)
  | say (text : String)

/-- What happened, in order. -/
abbrev Journal := List JournalEntry

/-- Which log lines are shown to the user, and whether their severity is named. -/
structure LogDisplay where
  least : Severity
  named : Bool
  deriving DecidableEq, Repr

namespace Journal

/-- The log lines. -/
def logged (j : Journal) : List (Severity × String) :=
  j.filterMap fun
    | .log severity message => some (severity, message)
    | _ => none

/-- The commands that were run. -/
def started (j : Journal) : List Invocation :=
  j.filterMap fun
    | .start invocation => some invocation
    | _ => none

@[simp] theorem logged_append (j k : Journal) : logged (j ++ k) = logged j ++ logged k := by
  simp [logged]

@[simp] theorem started_append (j k : Journal) : started (j ++ k) = started j ++ started k := by
  simp [started]

/-- The part of the error channel that one entry gives. -/
def spokenEntry (shown : LogDisplay) : JournalEntry → String
  | .log severity message =>
    if shown.least.rank ≤ severity.rank then
      if shown.named then s!"{severity.word}: {message}\n" else message ++ "\n"
    else ""
  | .start _ => ""
  | .say text => text ++ "\n"

/-- The text on the error channel. -/
def spoken (shown : LogDisplay) (j : Journal) : String :=
  String.join (j.map (spokenEntry shown))

end Journal

end IncludeTrace
