/-
Reading a command line.

Every argument is first judged on its own: it is a switch when it is a spelling of
one, with or without a value behind `=`, when it begins like exactly one spelling,
or when its first two characters are a short spelling.  What begins with a dash and
is none of these is an unknown switch, unless it looks like a negative number or
holds a space.  Behind `--` nothing is a switch.

Then the arguments are taken one after another:

* `switches` — the switches of one argument, short ones may be grouped;
* `readSettings` — the arguments of a command;
* `readCommandLine` — the command and its settings, or why reading stopped.
-/
import IncludeTrace.CommandLine.Settings
import IncludeTrace.Text.Quoted

namespace IncludeTrace

/-- What can be wrong with a command line. -/
inductive UsageFault where
  | ambiguous (argument : String) (candidates : List String)
  | valueMissing (s : Switch)
  | valueIgnored (s : Switch) (value : String)
  | badChoice (s : Switch) (value : String) (choices : List String)
  | badNumber (s : Switch) (value : String)
  | badCommand (word : String)
  | unrecognized (arguments : List String)

namespace UsageFault

/-- A refused choice, and the choices there are. -/
def choiceText (value : String) (choices : List String) : String :=
  "invalid choice: " ++ Text.quoted value ++ " (choose from "
    ++ ", ".intercalate (choices.map Text.quoted) ++ ")"

/-- The fault in words. -/
def message : UsageFault → String
  | ambiguous argument candidates =>
    "ambiguous option: " ++ argument ++ " could match " ++ ", ".intercalate candidates
  | valueMissing s => "argument " ++ s.label ++ ": expected one argument"
  | valueIgnored s value =>
    "argument " ++ s.label ++ ": ignored explicit argument " ++ Text.quoted value
  | badChoice s value choices => "argument " ++ s.label ++ ": " ++ choiceText value choices
  | badNumber s value => "argument " ++ s.label ++ ": invalid float value: " ++ Text.quoted value
  | badCommand word => "argument command: " ++ choiceText word (Command.all.map (·.word))
  | unrecognized arguments => "unrecognized arguments: " ++ " ".intercalate arguments

end UsageFault

/-- Why no command is run: help or the version was asked for, or there is a fault in
the arguments of a command or of the program itself. -/
inductive Stop where
  | help (scope : Option Command)
  | version
  | fault (scope : Option Command) (f : UsageFault)

/-- What an argument is, judged on its own. -/
inductive Judged where
  /-- A value or a word. -/
  | operand
  /-- The two dashes behind which nothing is a switch. -/
  | dashes
  /-- A switch; `short` tells a short spelling from a long one. -/
  | switch (s : Switch) (short : Bool) (value : Option (List Char))
  /-- Spelled like a switch, but none that is known. -/
  | unknown
  deriving DecidableEq, Repr

namespace Arguments

/-- The spellings that are known in a scope, in order. -/
def table (scope : Option Command) : List (List Char × Switch) :=
  (Switch.known scope).flatMap fun s => s.spellings.map fun spelling => (spelling.toList, s)

/-- What stands before the first equals sign, and what behind it. -/
def parted (s : List Char) : List Char × Option (List Char) :=
  (s.takeWhile (· != '='), ((s.dropWhile (· != '=')).tail?))

/-- Whether a text is a negative number without an exponent. -/
def isNegativeNumber : List Char → Bool
  | '-' :: s =>
    -- one line break at the end does not count
    let s := if s.getLast? = some '\n' then s.dropLast else s
    let rest := s.dropWhile Decimal.isDigit
    match rest with
    | [] => s != []
    | '.' :: fraction => fraction != [] && fraction.all Decimal.isDigit
    | _ => false
  | _ => false

/-- The known spellings that an argument may stand for, with the value it brings. -/
def candidates (known : List (List Char × Switch)) (arg : List Char) :
    List (List Char × Switch × Option (List Char)) :=
  match arg with
  | '-' :: '-' :: _ =>
    let (start, value) := parted arg
    known.filterMap fun (spelling, s) =>
      if start.isPrefixOf spelling then some (spelling, s, value) else none
  | _ =>
    known.filterMap fun (spelling, s) =>
      if spelling = arg.take 2 then some (spelling, s, some (arg.drop 2))
      else if arg.isPrefixOf spelling then some (spelling, s, none)
      else none

/-- A spelling with one dash. -/
def isShort (spelling : List Char) : Bool :=
  spelling[1]? != some '-'

/-- What an argument is, taken as a beginning of known spellings. -/
def judgeStart (known : List (List Char × Switch)) (arg : List Char) :
    Except UsageFault Judged :=
  match candidates known arg with
  | [] => .ok (if isNegativeNumber arg || arg.contains ' ' then .operand else .unknown)
  | [(spelling, s, value)] => .ok (.switch s (isShort spelling) value)
  | many =>
    .error (.ambiguous (String.ofList arg) (many.map fun (spelling, _) => String.ofList spelling))

/-- What an argument is. -/
def judge (known : List (List Char × Switch)) (arg : List Char) : Except UsageFault Judged :=
  match arg with
  | '-' :: _ :: _ =>
    let (start, value) := parted arg
    match known.lookup arg, value.bind fun v => (known.lookup start).map (·, v) with
    | some s, _ => .ok (.switch s (isShort arg) none)
    | none, some (s, v) => .ok (.switch s (isShort start) (some v))
    | none, none => judgeStart known arg
  | _ => .ok .operand

/-- All arguments with what they are. -/
def judgeAll (known : List (List Char × Switch)) :
    List String → Except UsageFault (List (String × Judged))
  | [] => .ok []
  | "--" :: rest => .ok (("--", .dashes) :: rest.map (·, .operand))
  | arg :: rest => do
    let first ← judge known arg.toList
    let others ← judgeAll known rest
    return (arg, first) :: others

/-- The switches of a group of short spellings behind one dash: `s`, and those that
the text behind it spells, up to one that takes the rest of the text as its value. -/
def group (known : List (List Char × Switch)) (s : Switch) :
    List Char → Except UsageFault (List (Switch × Option String))
  | [] => .ok [(s, none)]
  | c :: rest =>
    if s.takesValue then .ok [(s, some (String.ofList (c :: rest)))]
    else
      match known.lookup ['-', c] with
      | none => .error (.valueIgnored s (String.ofList (c :: rest)))
      | some next => do
        let others ← group known next rest
        return (s, none) :: others

/-- The switches of one argument. -/
def switches (known : List (List Char × Switch)) (s : Switch) (short : Bool)
    (value : Option (List Char)) : Except UsageFault (List (Switch × Option String)) :=
  match value with
  | none => .ok [(s, none)]
  | some text =>
    if s.takesValue then .ok [(s, some (String.ofList text))]
    else if short && text != [] then group known s text
    else .error (.valueIgnored s (String.ofList text))

/-- The switch at the end of a list that still wants a value. -/
def waiting (l : List (Switch × Option String)) : Option Switch :=
  match l.getLast? with
  | some (s, none) => if s.takesValue then some s else none
  | _ => none

/-- The list with the value that its last switch waits for. -/
def supplied (value : String) (l : List (Switch × Option String)) :
    List (Switch × Option String) :=
  match l.getLast? with
  | some (s, _) => l.dropLast ++ [(s, some value)]
  | none => []

/-- The choice that a word makes; a blank is no choice. -/
def choose {α : Type} (s : Switch) (all : List α) (word : α → String) :
    Option String → Except UsageFault (Option α)
  | none => .ok none
  | some value =>
    match all.find? (word · == value) with
    | some a => .ok (some a)
    | none => .error (.badChoice s value (all.map word))

/-- The limit that a text sets. -/
def chooseTimeout (s : Switch) : Option String → Except UsageFault Timeout
  | none => .ok .blank
  | some value =>
    match Decimal.readFloat? value with
    | some seconds => .ok (.fraction seconds)
    | none => .error (.badNumber s value)

/-- The settings after one switch. -/
def set (x : Settings) (s : Switch) (value : Option String) : Except UsageFault Settings :=
  match s with
  | .help | .version => .ok x
  | .compile => .ok { x with compile := value }
  | .source => .ok { x with source := some value }
  | .includeDir => .ok { x with includeDirs := x.includeDirs ++ [value] }
  | .compiler => .ok { x with compiler := value }
  | .compilerArg => .ok { x with compilerArgs := x.compilerArgs ++ [value] }
  | .timeout => (chooseTimeout s value).map fun t => { x with timeout := t }
  | .dialect =>
    (choose s Compiler.Family.all (·.word) value).map fun d => { x with dialect := d }
  | .marker => .ok { x with marker := value }
  | .mode => (choose s DisplayMode.all (·.word) value).map fun m => { x with mode := m }
  | .verbose => .ok { x with verbose := true }
  | .raw => .ok { x with raw := true }
  | .json => .ok { x with json := true }
  | .format => (choose s Graph.Format.all (·.word) value).map fun f => { x with format := f }
  | .output => .ok { x with output := value }
  | .noTitle => .ok { x with noTitle := true }

/-- The settings after the switches of one argument. -/
def setAll (scope : Option Command) :
    List (Switch × Option String) → Settings → Except Stop Settings
  | [], x => .ok x
  | (.help, _) :: _, _ => .error (.help scope)
  | (.version, _) :: _, _ => .error .version
  | (s, value) :: rest, x =>
    match set x s (value.bind given) with
    | .error f => .error (.fault scope f)
    | .ok x => setAll scope rest x

/-- How far the arguments of a command have been taken. -/
structure Progress where
  settings : Settings
  traceTaken : Bool
  extras : List String

/-- Takes the arguments of a command, the first operand as the name of the trace. -/
def take (scope : Option Command) :
    List (String × Judged) → Progress → Except Stop Progress
  | [], p => .ok p
  | (arg, .unknown) :: rest, p => take scope rest { p with extras := p.extras ++ [arg] }
  | (arg, .operand) :: rest, p =>
    if p.traceTaken then take scope rest { p with extras := p.extras ++ [arg] }
    else
      let p := { p with settings := { p.settings with trace := some arg }, traceTaken := true }
      match rest with
      | (_, .dashes) :: rest => take scope rest p
      | rest => take scope rest p
  | (arg, .dashes) :: rest, p =>
    if p.traceTaken then take scope rest { p with extras := p.extras ++ [arg] }
    else
      match rest with
      | (word, .operand) :: rest =>
        take scope rest
          { p with settings := { p.settings with trace := some word }, traceTaken := true }
      | rest => take scope rest { p with traceTaken := true }
  | (_, .switch s short value) :: rest, p =>
    match switches (table scope) s short value with
    | .error f => .error (.fault scope f)
    | .ok l =>
      match waiting l, rest with
      | none, rest =>
        match setAll scope l p.settings with
        | .error stop => .error stop
        | .ok x => take scope rest { p with settings := x }
      | some _, (word, .operand) :: rest =>
        match setAll scope (supplied word l) p.settings with
        | .error stop => .error stop
        | .ok x => take scope rest { p with settings := x }
      | some last, _ => .error (.fault scope (.valueMissing last))

/-- The settings that the arguments of a command make, and the arguments left over. -/
def readSettings (scope : Option Command) (args : List String) : Except Stop Progress :=
  match judgeAll (table scope) args with
  | .error f => .error (.fault scope f)
  | .ok judged => take scope judged ⟨{}, false, []⟩

/-- Takes the arguments of the program up to the word that chooses the command. -/
def takeCommand (extras : List String) :
    List (String × Judged) → Except Stop (Option Command × Settings × List String)
  | [] => .ok (none, {}, extras)
  | (arg, .unknown) :: rest => takeCommand (extras ++ [arg]) rest
  | (word, .operand) :: rest =>
    match Command.ofWord? word with
    | none => .error (.fault none (.badCommand word))
    | some command => do
      let p ← readSettings (some command) (rest.map (·.1))
      return (some command, p.settings, extras ++ p.extras)
  | [(arg, .dashes)] => .ok (none, {}, extras ++ [arg])
  | (arg, .dashes) :: _ => .error (.fault none (.badCommand arg))
  | (_, .switch s short value) :: rest =>
    match switches (table none) s short value with
    | .error f => .error (.fault none f)
    | .ok l => do
      let _ ← setAll none l {}
      takeCommand extras rest

end Arguments

/-- The command of a command line and its settings; without a word the program browses. -/
def readCommandLine (args : List String) : Except Stop (Command × Settings) := do
  match Arguments.judgeAll (Arguments.table none) args with
  | .error f => .error (.fault none f)
  | .ok judged =>
    let (command, settings, extras) ← Arguments.takeCommand [] judged
    if extras = [] then return (command.getD .browse, settings)
    else .error (.fault none (.unrecognized extras))

end IncludeTrace
