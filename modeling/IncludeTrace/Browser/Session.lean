/-
Browsing: what each action of the user, and each completion of a run, does.

* `Session` — everything that lasts from one action to the next;
* `Action`, `Event` — what can happen, and what can be seen of it;
* `Session.step` — the session and the events after an action.

At most one run is under way, and while it is there is neither a tree nor a row.
Graphs are written from the tree of the moment at which the dialog is answered.
-/
import IncludeTrace.Browser.Rows
import IncludeTrace.Graph.Export

namespace IncludeTrace.Browser

/-- The screens that can lie over the tree. -/
inductive Dialog where
  | search
  | save
  deriving DecidableEq, Repr

/-- How urgent a message to the user is. -/
inductive Urgency where
  | information
  | warning
  | error
  deriving DecidableEq, Repr

/-- Why an action breaks off. -/
inductive Interruption where
  | disk (fault : DiskFault) (path : Location)
  /-- A path starts in the own directory of somebody unknown. -/
  | homeless
  deriving DecidableEq, Repr

/-- The reason in words. -/
def Interruption.message : Interruption → String
  | disk fault path => fault.message path
  | homeless => "Could not determine home directory."

/-- What can be seen of an action. -/
inductive Event where
  /-- A message that stays for some seconds. -/
  | notify (message : String) (urgency : Urgency) (seconds : Nat)
  | push (dialog : Dialog)
  /-- The dialog on top is closed with a value, or without one. -/
  | dismiss (value : Option String)
  /-- A run is started. -/
  | run
  | exit
  /-- A dialog was answered although none is open. -/
  | noDialog
  /-- The action breaks off. -/
  | interrupted (i : Interruption)
  deriving DecidableEq, Repr

/-- What is reported about a run. -/
inductive Completion where
  | succeeded (tree : Option IncludeTree)
  /-- Ended by an error, or cancelled, with the text of the error if there is one. -/
  | ended (error : Option String)
  | underWay
  deriving DecidableEq, Repr

/-- What can happen. -/
inductive Action where
  | refresh
  | complete (c : Completion)
  | openAll
  | closeAll
  /-- A row is highlighted; the empty path is the root. -/
  | highlight (path : List Nat)
  | select (path : List Nat)
  | search
  | nextMatch
  | previousMatch
  | toggleDetails
  | save
  | quit
  /-- The dialog on top is answered with a text; `own` says that the text comes from
  the dialog's own field. -/
  | submit (text : String) (own : Bool)
  | cancel
  /-- A query, or a path to write to, arrives without a dialog. -/
  | query (text : Option String)
  | writeTo (path : Option String)
  deriving DecidableEq, Repr

/-- Everything that lasts. -/
structure Session where
  title : Option String
  disk : Disk
  tree : Option IncludeTree := none
  loading : Bool := false
  progressShown : Bool := false
  rows : Forest Row := .nil
  rootOpen : Bool := false
  nextId : Nat := 0
  fileLabel : Option String := none
  details : Option String := none
  detailsShown : Bool := true
  found : List Row := []
  current : Nat := 0
  selected : Option Row := none
  focused : Bool := false
  /-- The open dialogs, the one on top first. -/
  dialogs : List Dialog := []

/-- A session, and the events of an action. -/
abbrev Step := Session × List Event

namespace Session

/-- A message to the user. -/
def told (s : Session) (message : String) (urgency : Urgency) (seconds : Nat) : Step :=
  (s, [.notify message urgency seconds])

/-- An action that breaks off. -/
def breaksOff (s : Session) (i : Interruption) : Step :=
  (s, [.interrupted i])

/-- The session with fresh rows for some items. -/
def withItems (s : Session) (items : Forest Item) : Session :=
  { s with rows := Rows.planted s.nextId items, nextId := s.nextId + items.size }

/-- Starts a run, unless one is under way. -/
def refresh (s : Session) : Step :=
  if s.loading then s.told "A refresh is already running" .information 2
  else
    ({ s with
        loading := true
        tree := none
        rows := .nil
        fileLabel := some (Browser.fileLabel s.title none)
        progressShown := true
        details := some collecting },
      [.run])

/-- The session after a run without a tree. -/
def showFailure (s : Session) (error : Option String) : Session :=
  ({ s with loading := false, progressShown := false, tree := none,
            details := some (failure error) }).withItems (.cons .noIncludes .nil .nil)

/-- The warning that not all includes have rows. -/
def truncationWarning (t : IncludeTree) : List Event :=
  if Limits.usual.includes < (countNodes t.includes : Int) - 1 then
    [.notify s!"Showing the first {Limits.usual.includes} of {t.count} includes" .warning 3]
  else []

/-- The session after a run with a tree. -/
def showTree (s : Session) (t : IncludeTree) : Step :=
  (({ s with
      loading := false
      progressShown := false
      tree := some t
      fileLabel := some (Browser.fileLabel s.title (some t.count))
      rootOpen := true
      details := some (summary s.title t)
      focused := true }).withItems (populate .usual 0 t.includes 0).1,
    truncationWarning t)

/-- Takes note of what is reported about a run. -/
def complete (s : Session) : Completion → Step
  | .succeeded (some t) => s.showTree t
  | .succeeded none => (s.showFailure none, [])
  | .ended error => (s.showFailure (some (error.getD "cancelled")), [])
  | .underWay => (s, [])

/-- The details of an include, unless its path is empty. -/
def detailsOf? (r : Row) : Option String :=
  match r.item.file with
  | some t => if t.root.path = "" then none else some (Browser.details t)
  | none => none

/-- Shows the details of the row that is highlighted. -/
def highlight (s : Session) (path : List Nat) : Session :=
  match (Rows.find? path s.rows).bind detailsOf? with
  | some text => { s with details := some text }
  | none => s

/-- Shows the summary, if there is a tree. -/
def showSummary (s : Session) : Session :=
  match s.tree with
  | some t => { s with details := some (summary s.title t) }
  | none => s

/-- Shows the details of the row that is selected, and the summary for the root and
for an include without a path. -/
def select (s : Session) : List Nat → Session
  | [] => s.showSummary
  | path =>
    match Rows.find? path s.rows with
    | none => s
    | some r =>
      match detailsOf? r with
      | some text => { s with details := some text }
      | none => if r.item.file.isSome then s.showSummary else s

/-- Goes to the match with a number: it is selected, and everything above it opened. -/
def goTo (s : Session) (number : Nat) : Step :=
  match s.found[number]? with
  | none => (s, [])
  | some r =>
    ({ s with current := number, rows := Rows.reveal r.id s.rows, rootOpen := true,
              selected := some r },
      [.notify s!"Match {number + 1}/{s.found.length}: {r.item.label}" .information 2])

/-- Looks for a query; the matches of an earlier one are forgotten. -/
def lookFor (s : Session) (query : Option String) : Step :=
  match query.filter (· != "") with
  | none => (s, [])
  | some query =>
    let s := { s with found := Rows.matching query s.rows, current := 0 }
    if s.found = [] then s.told s!"No matches for '{query}'" .warning 2
    else
      let (after, events) := s.goTo 0
      (after,
        .notify s!"Found {s.found.length} match(es) for '{query}'" .information 2 :: events)

/-- Goes from the current match to the one that is `distance` further on. -/
def goFurther (s : Session) (distance : Nat) : Step :=
  if s.found = [] then s.told "No active search. Press / to search." .information 2
  else s.goTo ((s.current + distance) % s.found.length)

/-- Asks for a file to write the graph to. -/
def askForFile (s : Session) : Step :=
  if s.tree.isNone then s.told "There is no include tree to save!" .error 3
  else ({ s with dialogs := .save :: s.dialogs }, [.push .save])

/-- The word for the format of a saved file: its suffix where that is such a word. -/
def savedAs (path : Location) : String :=
  let word := Graph.Format.suffixWord path
  if word ∈ Graph.Format.all.map Graph.Format.word then word else Graph.Format.dgml.word

/-- Writes the graph of the tree to a file. -/
def writeTo (s : Session) (path : Option Location) : Step :=
  match path with
  | none => (s, [])
  | some path =>
    match (Graph.exportGraph s.disk s.tree (some path) none none).1 with
    | .ok (d, disk) =>
      ({ s with disk := disk },
        [.notify
          s!"Saved {d.nodes.length} files ({savedAs path}) to {path.text}"
          .information 3])
    | .error (.disk .nullCharacter path) => s.breaksOff (.disk .nullCharacter path)
    | .error .noTree => s.told (Graph.ExportFault.message .noTree) .error 3
    | .error fault => s.told s!"Could not write {path.text}: {fault.message}" .error 3

/-- The user whose own directory a path starts in: one that is named behind a tilde, or
the user at work. -/
def tildeUser? (path : Location) : Option String :=
  match path.anchor, (path.segments.headD "").toList with
  | "", '~' :: user => some (String.ofList user)
  | _, _ => none

/-- A path with a user's own directory in the place of a tilde. -/
def expanded (disk : Disk) (path : Location) : Except Interruption Location :=
  match tildeUser? path with
  | none => .ok path
  | some user =>
    if user.toList.contains '\x00' then .error (.disk .nullCharacter path)
    else
      match disk.homes.lookup user with
      | none => .error .homeless
      | some home =>
        let home := Location.spelled home
        .ok { home with segments := home.segments ++ path.segments.drop 1 }

/-- Closes the dialog on top. -/
def closed (s : Session) : Session :=
  { s with dialogs := s.dialogs.drop 1 }

/-- Events after a dialog was closed with a value. -/
def dismissed (value : Option String) (step : Step) : Step :=
  (step.1, .dismiss value :: step.2)

/-- What the search dialog takes a text for: blanks around a query do not count. -/
def typedQuery? (text : String) : Option String :=
  let query := String.ofList (Text.trim text.toList)
  if query = "" then none else some query

/-- Answers the search dialog. -/
def submitQuery (s : Session) (text : String) : Step :=
  dismissed (typedQuery? text) (s.closed.lookFor (typedQuery? text))

/-- What the save dialog makes of a text. -/
inductive Judgement where
  /-- No path was typed. -/
  | blank
  /-- What the path leads to cannot be told. -/
  | unknown (i : Interruption)
  | refused (warning : String)
  | accepted (path : Location)
  deriving DecidableEq, Repr

/-- What the save dialog makes of a text; it refuses a directory, and a file in a directory
that is not there. -/
def judged (disk : Disk) (text : String) : Judgement :=
  let typed := String.ofList (Text.trim text.toList)
  if typed = "" then .blank
  else
    match expanded disk (Location.spelled typed) with
    | .error i => .unknown i
    | .ok path =>
      match disk.look path, disk.look path.parent with
      | .error fault, _ => .unknown (.disk fault path)
      | .ok (some .directory), _ => .refused ("Is a directory: " ++ path.text)
      | _, .error fault => .unknown (.disk fault path.parent)
      | _, .ok none => .refused ("Directory does not exist: " ++ path.parent.text)
      | _, .ok (some _) => .accepted path

/-- Answers the save dialog, which stays open with a path that it refuses. -/
def submitPath (s : Session) (text : String) : Step :=
  match judged s.disk text with
  | .blank => dismissed none (s.closed, [])
  | .unknown i => s.breaksOff i
  | .refused warning => s.told warning .warning 3
  | .accepted path => dismissed (some path.text) (s.closed.writeTo (some path))

/-- Answers the dialog on top. -/
def submit (s : Session) (text : String) (own : Bool) : Step :=
  match s.dialogs with
  | [] => (s, [.noDialog])
  | dialog :: _ =>
    if !own then (s, [])
    else
      match dialog with
      | .search => s.submitQuery text
      | .save => s.submitPath text

/-- Closes the dialog on top without a value. -/
def cancel (s : Session) : Step :=
  if s.dialogs = [] then (s, [.noDialog]) else dismissed none (s.closed, [])

/-- The session and the events after an action. -/
def step (s : Session) : Action → Step
  | .refresh => s.refresh
  | .complete c => s.complete c
  | .openAll => ({ s with rows := Rows.openAll true s.rows, rootOpen := true }, [])
  | .closeAll => ({ s with rows := Rows.openAll false s.rows, rootOpen := true }, [])
  | .highlight path => (s.highlight path, [])
  | .select path => (s.select path, [])
  | .search => ({ s with dialogs := .search :: s.dialogs }, [.push .search])
  | .nextMatch => s.goFurther 1
  | .previousMatch => s.goFurther (s.found.length - 1)
  | .toggleDetails => ({ s with detailsShown := !s.detailsShown }, [])
  | .save => s.askForFile
  | .quit => (s, [.exit])
  | .submit text own => s.submit text own
  | .cancel => s.cancel
  | .query text => s.lookFor text
  | .writeTo path => s.writeTo (path.map Location.spelled)

/-- The session after a list of actions. -/
def after (s : Session) (actions : List Action) : Session :=
  actions.foldl (fun s a => (s.step a).1) s

end Session

end IncludeTrace.Browser
