/-
Compiler runs: what a compiler printed, or why there is nothing to read.

* `Ending` — how a run can end;
* `Ending.refused` — how it ends when it cannot be started;
* `LaunchFault`, `Invocation.launched` — the exceptions by which a run ends that nobody could
  carry out, however the compiler itself would have ended;
* `capture` — everything printed, the error channel behind the output channel; the
  exit status does not matter, because a faulty file gives a trace up to the fault;
* `captureJournal` — what is noted about a run.
-/
import IncludeTrace.Journal
import IncludeTrace.Text.Blank
import IncludeTrace.Text.Quoted

namespace IncludeTrace

/-- Why a run cannot be carried out as it was asked for. -/
inductive LaunchFault where
  /-- A word of the command holds the character that ends a word in an operating system's
  eyes. -/
  | nullCharacter
  | blankWord
  /-- Nobody can wait for as long as that: the limit was left blank, or is no number, or has no
  end, or ends beyond the clocks. -/
  | blankTimeout
  | notANumber
  | endless
  | tooLong
  deriving DecidableEq, Repr

/-- The fault in words. -/
def LaunchFault.message : LaunchFault → String
  | nullCharacter => "embedded null byte"
  | blankWord => "expected str, bytes or os.PathLike object, not list"
  | blankTimeout => "unsupported operand type(s) for +: 'float' and 'list'"
  | notANumber => "cannot convert float NaN to integer"
  | endless => "cannot convert float infinity to integer"
  | tooLong => "timeout is too large"

namespace Compiler

/-- How a run ends. -/
inductive Ending where
  | completed (output errors : Option String) (status : Int)
  | notFound
  | timedOut
  | failed (number : Int) (reason : String)
  /-- By an exception that is no word of an operating system. -/
  | raised (fault : LaunchFault)

/-- The ending of a run that an operating system refuses with a number and a reason;
number 2 is the one for a file that is not there. -/
def Ending.refused (number : Int) (reason : String) : Ending :=
  if number = 2 then .notFound else .failed number reason

/-- Whether a run was under way when it ended. -/
def Ending.wasStarted : Ending → Bool
  | completed _ _ _ | timedOut => true
  | notFound | failed _ _ | raised _ => false

/-- Why a run gives nothing to read. -/
inductive CaptureFault where
  | notFound (compiler : String)
  | timedOut (limit : Timeout)
  | failed (number : Int) (reason : String)
  | silent
  /-- There is no compiler to be missed, because the command has no words. -/
  | wordless
  | raised (fault : LaunchFault)

/-- The fault in words. -/
def CaptureFault.message : CaptureFault → String
  | notFound compiler => "Compiler not found: " ++ compiler
  | timedOut limit => s!"Compiler timed out after {limit.text}s"
  | failed number reason => s!"Could not run compiler: [Errno {number}] {reason}"
  | silent => "Compiler produced no output"
  | wordless => "list index out of range"
  | raised fault => fault.message

/-- Everything that a run printed. -/
def capture (run : Invocation) : Ending → Except CaptureFault String
  | .completed output errors _ =>
    let all := output.getD "" ++ errors.getD ""
    if all.toList.all Text.isBlank then .error .silent else .ok all
  | .notFound =>
    match run.words with
    | [] => .error .wordless
    | compiler :: _ => .error (.notFound (compiler.getD "[]"))
  | .timedOut => .error (.timedOut run.timeout)
  | .failed number reason => .error (.failed number reason)
  | .raised fault => .error (.raised fault)

/-- What is noted about a run. -/
def captureJournal (run : Invocation) (ending : Ending) : Journal :=
  [.log .info ("Running " ++ Text.shellWords (run.words.map (·.getD ""))), .start run]
    ++ match ending with
      | .completed _ _ status =>
        if status = 0 then [] else [.log .warning s!"Compiler exited with status {status}"]
      | _ => []

end Compiler

/-! ### Launching -/

/-- The longest wait in whole seconds: the clocks count milliseconds in 31 bits. -/
def Timeout.longest : Nat := 2147483

/-- Why nobody can wait for as long as that. -/
def Timeout.fault? : Timeout → Option LaunchFault
  | unlimited => none
  | whole seconds => if longest < seconds then some .tooLong else none
  | fraction seconds =>
    if seconds.isNaN then some .notANumber
    else if 2147483.647 < seconds then some (if seconds.isInf then .endless else .tooLong)
    else none
  | blank => some .blankTimeout

namespace Invocation

/-- Why a word cannot be handed to an operating system. -/
def wordFault? : Option String → Option LaunchFault
  | none => some .blankWord
  | some word => if word.toList.contains '\x00' then some .nullCharacter else none

/-- How a run ends in which the compiler by itself would end in a given way.  Its words are
looked at before it is started, and its limit as soon as it is under way. -/
def launched (run : Invocation) (ending : Compiler.Ending) : Compiler.Ending :=
  match run.words.findSome? wordFault?, run.timeout.fault? with
  | some fault, _ => .raised fault
  | none, some fault => if ending.wasStarted then .raised fault else ending
  | none, none => ending

end Invocation

end IncludeTrace
